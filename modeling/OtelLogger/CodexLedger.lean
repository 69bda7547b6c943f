import OtelLogger.ClaudeLedger

/-!
Codex usage as ledgers: what each conversation still has pending, what is settled for it, and
what belongs to no conversation. Every operation on the state is one on these books, and the
bucket map always holds their sum.
-/

namespace OtelLogger

open Std (ExtTreeMap TransOrd LawfulEqOrd)
open Accounting

/-- Only Codex's buckets and what is pending differ. -/
structure BucketsOnly (g next : AggregatorInner) : Prop extends CodexOnly g next where
  lastSessions : next.codexLastSessions = g.codexLastSessions
  sessions : next.codexSessions = g.codexSessions
  tokenSources : next.codexTokenSources = g.codexTokenSources

theorem BucketsOnly.refl (g : AggregatorInner) : BucketsOnly g g :=
  ⟨CodexOnly.refl g, rfl, rfl, rfl⟩

theorem BucketsOnly.trans {first second third : AggregatorInner}
    (left : BucketsOnly first second) (right : BucketsOnly second third) :
    BucketsOnly first third where
  toCodexOnly := left.toCodexOnly.trans right.toCodexOnly
  lastSessions := right.lastSessions.trans left.lastSessions
  sessions := right.sessions.trans left.sessions
  tokenSources := right.tokenSources.trans left.tokenSources

/-- What was counted for Codex, by the conversation it belongs to. -/
@[ext]
structure CodexBooks where
  pending : String →₀ Bucket →₀ ModelStats
  settled : String →₀ Bucket →₀ ModelStats
  unassigned : Bucket →₀ ModelStats

namespace CodexBooks

noncomputable def empty : CodexBooks := ⟨0, 0, 0⟩

noncomputable def ledger (books : CodexBooks) : Bucket →₀ ModelStats :=
  Finsupp.degree books.pending + Finsupp.degree books.settled + books.unassigned

/-- Usage of a bucket stays pending while a better provider or effort may come. -/
def StaysPending (providerConfirmed : Bool) (bucket : Bucket) : Prop :=
  providerConfirmed = false ∨ bucket.effort = unknown

instance (providerConfirmed : Bool) : DecidablePred (StaysPending providerConfirmed) :=
  fun _ => inferInstanceAs (Decidable (_ ∨ _))

noncomputable def addPending (books : CodexBooks) (id : String) (bucket : Bucket)
    (stats : ModelStats) : CodexBooks :=
  { books with pending := books.pending + Finsupp.single id (Finsupp.single bucket stats) }

noncomputable def addSettled (books : CodexBooks) (id : String) (bucket : Bucket)
    (stats : ModelStats) : CodexBooks :=
  { books with settled := books.settled + Finsupp.single id (Finsupp.single bucket stats) }

noncomputable def addUnassigned (books : CodexBooks) (bucket : Bucket) (stats : ModelStats) :
    CodexBooks :=
  { books with unassigned := books.unassigned + Finsupp.single bucket stats }

/-- Session metadata moves what a conversation has pending, and settles what is known. -/
noncomputable def resolve (books : CodexBooks) (id provider effort : String)
    (providerConfirmed : Bool) : CodexBooks :=
  let moved := Finsupp.mapDomain (pendingDestination provider effort) (books.pending id)
  { books with
    pending :=
      books.pending.erase id + Finsupp.single id (moved.filter (StaysPending providerConfirmed))
    settled :=
      books.settled +
        Finsupp.single id (moved.filter fun bucket => ¬StaysPending providerConfirmed bucket) }

section Resolve

variable (books : CodexBooks) (id provider effort : String) (providerConfirmed : Bool)

theorem resolve_pending_self :
    (books.resolve id provider effort providerConfirmed).pending id =
      (Finsupp.mapDomain (pendingDestination provider effort) (books.pending id)).filter
        (StaysPending providerConfirmed) := by
  simp [resolve]

theorem resolve_settled_self :
    (books.resolve id provider effort providerConfirmed).settled id = books.settled id +
      (Finsupp.mapDomain (pendingDestination provider effort) (books.pending id)).filter
        fun bucket => ¬StaysPending providerConfirmed bucket := by
  simp [resolve]

variable {id} {other : String}

theorem resolve_other (different : other ≠ id) :
    (books.resolve id provider effort providerConfirmed).pending other = books.pending other ∧
      (books.resolve id provider effort providerConfirmed).settled other = books.settled other := by
  constructor
  · simp [resolve, Finsupp.erase_ne different, Ne.symm different]
  · simp [resolve, Ne.symm different]

end Resolve

/-- Metadata without a conversation moves only what belongs to none. -/
noncomputable def assignEffort (books : CodexBooks) (provider model effort : String) :
    CodexBooks :=
  if model = "" ∨ effort = "" ∨ effort = unknown then books
  else
    { books with
      unassigned := Finsupp.mapDomain
        (redirect (Bucket.fromParts provider model unknown)
          (Bucket.fromParts provider model effort)) books.unassigned }

section Ledger

variable (books : CodexBooks) (id : String) (bucket : Bucket) (stats : ModelStats)

theorem addPending_ledger :
    (books.addPending id bucket stats).ledger = books.ledger + Finsupp.single bucket stats := by
  simp only [ledger, addPending, map_add, Finsupp.degree_single]
  abel

theorem addSettled_ledger :
    (books.addSettled id bucket stats).ledger = books.ledger + Finsupp.single bucket stats := by
  simp only [ledger, addSettled, map_add, Finsupp.degree_single]
  abel

theorem addUnassigned_ledger :
    (books.addUnassigned bucket stats).ledger = books.ledger + Finsupp.single bucket stats := by
  simp only [ledger, addUnassigned]
  abel

end Ledger

theorem pending_split (books : CodexBooks) (id : String) :
    books.ledger = books.pending id + (Finsupp.degree (books.pending.erase id) +
      Finsupp.degree books.settled + books.unassigned) := by
  rw [ledger, degree_split books.pending id, add_assoc, add_assoc, add_assoc]

theorem resolve_ledger (books : CodexBooks) (id provider effort : String)
    (providerConfirmed : Bool) :
    (books.resolve id provider effort providerConfirmed).ledger =
      Finsupp.mapDomain (pendingDestination provider effort) (books.pending id) +
        (Finsupp.degree (books.pending.erase id) + Finsupp.degree books.settled +
          books.unassigned) := by
  simp only [resolve, ledger, map_add, Finsupp.degree_single]
  conv_rhs => rw [← Finsupp.filter_add_filter_not
    (Finsupp.mapDomain (pendingDestination provider effort) (books.pending id))
    (StaysPending providerConfirmed)]
  abel

end CodexBooks

noncomputable def AggregatorInner.pendingLedgers (g : AggregatorInner) :
    String →₀ Bucket →₀ ModelStats :=
  ledgersOf g.codexPendingSse

/-- The Codex part of the state keeps these books. -/
structure CodexTracks (g : AggregatorInner) (books : CodexBooks) : Prop where
  represents : Represents (g.agent agentCodex) books.ledger
  pending : g.pendingLedgers = books.pending
  occupied : ∀ (id : String) (entries : ExtTreeMap Bucket ModelStats),
    g.codexPendingSse[id]? = some entries → Occupied entries ∧ entries ≠ ∅
  resolved : ∀ id bucket, bucket.effort = unknown → books.settled id bucket = 0

theorem CodexTracks.new : CodexTracks Aggregator.new CodexBooks.empty where
  represents := by
    have ledger : CodexBooks.empty.ledger = 0 := by
      simp [CodexBooks.ledger, CodexBooks.empty]
    rw [ledger]
    exact Represents.initial
  pending := ledgersOf_empty
  occupied id entries found := by
    simp [Aggregator.new] at found
  resolved _ _ _ := rfl

theorem CodexTracks.congr {g next : AggregatorInner} {books : CodexBooks}
    (tracks : CodexTracks g books) (agent : next.agent agentCodex = g.agent agentCodex)
    (pendingSse : next.codexPendingSse = g.codexPendingSse) : CodexTracks next books where
  represents := agent ▸ tracks.represents
  pending := by
    rw [AggregatorInner.pendingLedgers, pendingSse]
    exact tracks.pending
  occupied := pendingSse ▸ tracks.occupied
  resolved := tracks.resolved

/-! ### Recording -/

section Record

variable {g : AggregatorInner} {books : CodexBooks} {bucket : Bucket} {stats : ModelStats}

theorem recordInto_codexOnly (g : AggregatorInner) (bucket : Bucket) (stats : ModelStats) :
    CodexOnly g (recordInto g agentCodex bucket stats) := by
  refine ⟨?_, rfl, rfl, rfl, rfl⟩
  intro name other
  rw [recordInto_agent, if_neg other]

theorem CodexTracks.recordInto_represents (tracks : CodexTracks g books) (occupied : stats ≠ 0)
    (fits : (Finsupp.degree books.ledger + stats).Fits) :
    Represents ((recordInto g agentCodex bucket stats).agent agentCodex)
      (books.ledger + Finsupp.single bucket stats) := by
  rw [recordInto_agent, if_pos rfl]
  exact tracks.represents.recordInto occupied fits

theorem CodexTracks.addUnassigned (tracks : CodexTracks g books) (occupied : stats ≠ 0)
    (fits : (Finsupp.degree books.ledger + stats).Fits) :
    CodexTracks (recordInto g agentCodex bucket stats) (books.addUnassigned bucket stats) where
  represents := by
    have recorded : Represents _ (books.ledger + Finsupp.single bucket stats) :=
      tracks.recordInto_represents occupied fits
    rwa [← CodexBooks.addUnassigned_ledger] at recorded
  pending := tracks.pending
  occupied := tracks.occupied
  resolved := tracks.resolved

theorem CodexTracks.addSettled {id : String} (tracks : CodexTracks g books)
    (known : bucket.effort ≠ unknown) (occupied : stats ≠ 0)
    (fits : (Finsupp.degree books.ledger + stats).Fits) :
    CodexTracks (recordInto g agentCodex bucket stats) (books.addSettled id bucket stats) where
  represents := by
    have recorded : Represents _ (books.ledger + Finsupp.single bucket stats) :=
      tracks.recordInto_represents occupied fits
    rwa [← CodexBooks.addSettled_ledger] at recorded
  pending := tracks.pending
  occupied := tracks.occupied
  resolved other account unknownEffort := by
    have different : bucket ≠ account := by
      rintro rfl
      exact known unknownEffort
    rw [CodexBooks.addSettled, Finsupp.add_apply, Finsupp.add_apply,
      tracks.resolved other account unknownEffort, zero_add]
    by_cases same : id = other
    · subst other
      simp [Finsupp.single_eq_of_ne' different]
    · simp [Finsupp.single_eq_of_ne' same]

theorem CodexTracks.addPending {id : String} (tracks : CodexTracks g books)
    (occupied : stats ≠ 0) (fits : (Finsupp.degree books.ledger + stats).Fits) :
    CodexTracks (OtelLogger.addPending (recordInto g agentCodex bucket stats) (some id) bucket
      stats) (books.addPending id bucket stats) := by
  have covered : ledgerOf (g.codexPendingSse[id]?.getD ∅) bucket ≤
      Finsupp.degree books.ledger := by
    rw [← ledgersOf_apply]
    have pending := tracks.pending
    rw [AggregatorInner.pendingLedgers] at pending
    rw [pending, books.pending_split id, map_add]
    exact (apply_le_degree _ bucket).trans le_self_add
  have amount := fits.of_le (add_le_add_left covered stats)
  refine ⟨?_, ?_, ?_, tracks.resolved⟩
  · have recorded : Represents _ (books.ledger + Finsupp.single bucket stats) :=
      tracks.recordInto_represents occupied fits
    rwa [← CodexBooks.addPending_ledger] at recorded
  · have pending := tracks.pending
    rw [AggregatorInner.pendingLedgers] at pending
    simp only [OtelLogger.addPending, AggregatorInner.pendingLedgers, CodexBooks.addPending]
    change ledgersOf (g.codexPendingSse.insert id
      (addAmount (g.codexPendingSse[id]?.getD ∅) bucket stats)) = _
    rw [ledgersOf_insert, ledgerOf_addAmount amount, Finsupp.single_add, ← add_assoc,
      ← ledgersOf_apply, Finsupp.erase_add_single, pending]
  · intro other entries found
    simp only [OtelLogger.addPending, lookup_insert] at found
    split at found
    · rename_i same
      subst other
      obtain rfl := Option.some.inj found
      have before : Occupied (g.codexPendingSse[id]?.getD ∅) := by
        cases present : g.codexPendingSse[id]? with
        | none => exact fun account amount found => by simp at found
        | some previous => exact (tracks.occupied id previous present).1
      refine ⟨addAmount_occupied before occupied amount, fun empty => ?_⟩
      have own := congrArg (fun map : ExtTreeMap Bucket ModelStats => map[bucket]?) empty
      simp [addAmount] at own
    · exact tracks.occupied other entries found

end Record

/-! ### Moving -/

theorem Represents.eq_zero_of_default {ledger : Bucket →₀ ModelStats}
    (represents : Represents default ledger) : ledger = 0 := by
  ext1 bucket
  have entry := represents.holds.entry bucket
  have missing : (default : AgentStats).buckets[bucket.key]? = none := by
    have buckets : (default : AgentStats).buckets = ∅ := rfl
    simp [buckets]
  rw [missing] at entry
  change ledger bucket = 0
  by_contra present
  rw [if_neg present] at entry
  simp at entry

theorem moveCodexBucketStats_eq (g : AggregatorInner) (source target : Bucket)
    (stats : ModelStats) : moveCodexBucketStats g source target stats =
      { g with agents := (moveCodexBucketStats g source target stats).agents } := by
  unfold moveCodexBucketStats
  split <;> rfl

theorem moveCodexBucketStats_only (g : AggregatorInner) (source target : Bucket)
    (stats : ModelStats) : BucketsOnly g (moveCodexBucketStats g source target stats) := by
  unfold moveCodexBucketStats
  split
  · exact BucketsOnly.refl g
  · refine ⟨⟨?_, rfl, rfl, rfl, rfl⟩, rfl, rfl, rfl⟩
    intro name other
    simp [AggregatorInner.agent, ExtTreeMap.getElem?_insert, Ne.symm other]

theorem moveCodexBucketStats_represents {g : AggregatorInner} {source target : Bucket}
    {stats : ModelStats} {ledger : Bucket →₀ ModelStats} (occupied : stats ≠ 0)
    (represents : Represents (g.agent agentCodex) (Finsupp.single source stats + ledger)) :
    Represents ((moveCodexBucketStats g source target stats).agent agentCodex)
      (ledger + Finsupp.single target stats) := by
  cases found : g.agents[agentCodex]? with
  | none =>
      have absent : g.agent agentCodex = default := by
        simp [AggregatorInner.agent, found]
      rw [absent] at represents
      have amount := DFunLike.congr_fun represents.eq_zero_of_default source
      rw [Finsupp.add_apply, Finsupp.single_eq_same] at amount
      exact absurd (ModelStats.zero_of_add amount).1 occupied
  | some agentStats =>
      have before : g.agent agentCodex = agentStats := by
        simp [AggregatorInner.agent, found]
      have after : (moveCodexBucketStats g source target stats).agent agentCodex =
          agentStats.moveBucketStats source target stats := by
        simp [moveCodexBucketStats, AggregatorInner.agent, found]
      rw [after]
      exact (before ▸ represents).moveBucketStats occupied

/-- The moves that merging pending entries makes, one entry after another. -/
def movePending (provider effort : String) (g : AggregatorInner)
    (entries : List (Bucket × ModelStats)) : AggregatorInner :=
  entries.foldl (fun g entry =>
    let target := pendingDestination provider effort entry.1
    if entry.1 ≠ target then moveCodexBucketStats g entry.1 target entry.2 else g) g

def keepPending (provider effort : String) (providerConfirmed : Bool)
    (kept : ExtTreeMap Bucket ModelStats) (entries : List (Bucket × ModelStats)) :
    ExtTreeMap Bucket ModelStats :=
  entries.foldl (fun kept entry =>
    let target := pendingDestination provider effort entry.1
    if !providerConfirmed || target.effort = unknown then addAmount kept target entry.2
    else kept) kept

theorem foldl_mergePendingEntry (provider effort : String) (providerConfirmed : Bool)
    (entries : List (Bucket × ModelStats)) (merge : PendingMerge) :
    (entries.foldl (mergePendingEntry provider effort providerConfirmed) merge).g =
        movePending provider effort merge.g entries ∧
      (entries.foldl (mergePendingEntry provider effort providerConfirmed) merge).kept =
        keepPending provider effort providerConfirmed merge.kept entries := by
  induction entries generalizing merge with
  | nil => exact ⟨rfl, rfl⟩
  | cons entry entries ih =>
      obtain ⟨moved, kept⟩ :=
        ih (mergePendingEntry provider effort providerConfirmed merge entry)
      rw [List.foldl_cons, moved, kept]
      simp only [mergePendingEntry, movePending, keepPending, List.foldl_cons]
      split <;> exact ⟨rfl, rfl⟩

noncomputable def entriesLedger (entries : List (Bucket × ModelStats)) : Bucket →₀ ModelStats :=
  (entries.map fun entry => Finsupp.single entry.1 entry.2).sum

theorem entriesLedger_cons (entry : Bucket × ModelStats) (entries : List (Bucket × ModelStats)) :
    entriesLedger (entry :: entries) = Finsupp.single entry.1 entry.2 + entriesLedger entries := by
  simp [entriesLedger]

section MovePending

variable (provider effort : String)

theorem movePending_cons (g : AggregatorInner) (entry : Bucket × ModelStats)
    (entries : List (Bucket × ModelStats)) :
    movePending provider effort g (entry :: entries) =
      movePending provider effort
        (if entry.1 ≠ pendingDestination provider effort entry.1 then
          moveCodexBucketStats g entry.1 (pendingDestination provider effort entry.1) entry.2
        else g) entries := rfl

theorem movePending_eq (g : AggregatorInner) (entries : List (Bucket × ModelStats)) :
    movePending provider effort g entries =
      { g with agents := (movePending provider effort g entries).agents } := by
  induction entries generalizing g with
  | nil => rfl
  | cons entry entries ih =>
      rw [movePending_cons]
      split
      · rw [ih, moveCodexBucketStats_eq]
      · exact ih g

theorem movePending_only (g : AggregatorInner) (entries : List (Bucket × ModelStats)) :
    BucketsOnly g (movePending provider effort g entries) := by
  induction entries generalizing g with
  | nil => exact BucketsOnly.refl g
  | cons entry entries ih =>
      rw [movePending_cons]
      split
      · exact (moveCodexBucketStats_only _ _ _ _).trans (ih _)
      · exact ih g

theorem movePending_represents (entries : List (Bucket × ModelStats)) (g : AggregatorInner)
    (ledger : Bucket →₀ ModelStats) (occupied : ∀ entry ∈ entries, entry.2 ≠ 0)
    (represents : Represents (g.agent agentCodex) (entriesLedger entries + ledger)) :
    Represents ((movePending provider effort g entries).agent agentCodex)
      (Finsupp.mapDomain (pendingDestination provider effort) (entriesLedger entries) +
        ledger) := by
  induction entries generalizing g ledger with
  | nil => simpa [movePending, entriesLedger] using represents
  | cons entry entries ih =>
      have later : ∀ other ∈ entries, other.2 ≠ 0 := fun other member =>
        occupied other (List.mem_cons_of_mem _ member)
      rw [entriesLedger_cons, add_assoc] at represents
      rw [movePending_cons, entriesLedger_cons, Finsupp.mapDomain_add, Finsupp.mapDomain_single,
        add_comm (Finsupp.single _ _), add_assoc, add_comm (Finsupp.single _ _)]
      apply ih _ _ later
      rw [← add_assoc]
      split
      · exact moveCodexBucketStats_represents (occupied entry List.mem_cons_self) represents
      · rename_i stays
        rw [not_not] at stays
        rwa [← stays, add_comm]

end MovePending

/-- What is kept is the part of the destinations that stays pending. -/
theorem keepPending_spec (provider effort : String) (providerConfirmed : Bool)
    (entries : List (Bucket × ModelStats)) (kept : ExtTreeMap Bucket ModelStats)
    (occupied : ∀ entry ∈ entries, entry.2 ≠ 0) (keptOccupied : Occupied kept)
    (fits : (Finsupp.degree (ledgerOf kept + entriesLedger entries)).Fits) :
    Occupied (keepPending provider effort providerConfirmed kept entries) ∧
      ledgerOf (keepPending provider effort providerConfirmed kept entries) = ledgerOf kept +
        (Finsupp.mapDomain (pendingDestination provider effort) (entriesLedger entries)).filter
          (CodexBooks.StaysPending providerConfirmed) := by
  induction entries generalizing kept with
  | nil => exact ⟨keptOccupied, by simp [keepPending, entriesLedger, Finsupp.filter_zero]⟩
  | cons entry entries ih =>
      have later : ∀ other ∈ entries, other.2 ≠ 0 := fun other member =>
        occupied other (List.mem_cons_of_mem _ member)
      rw [entriesLedger_cons, ← add_assoc] at fits
      rw [entriesLedger_cons, Finsupp.mapDomain_add, Finsupp.mapDomain_single,
        Finsupp.filter_add, ← add_assoc]
      have staysIff : (!providerConfirmed ||
          decide ((pendingDestination provider effort entry.1).effort = unknown)) = true ↔
          CodexBooks.StaysPending providerConfirmed
            (pendingDestination provider effort entry.1) := by
        simp [CodexBooks.StaysPending]
      simp only [keepPending, List.foldl_cons]
      by_cases stays : CodexBooks.StaysPending providerConfirmed
          (pendingDestination provider effort entry.1)
      · rw [if_pos (staysIff.mpr stays), Finsupp.filter_single_of_pos _ stays]
        have amount : (ledgerOf kept (pendingDestination provider effort entry.1) +
            entry.2).Fits := by
          rw [map_add] at fits
          have total := fits.of_add
          rw [map_add, Finsupp.degree_single] at total
          exact total.of_le (add_le_add_left (apply_le_degree _ _) _)
        rw [← ledgerOf_addAmount amount]
        refine ih _ later
          (addAmount_occupied keptOccupied (occupied entry List.mem_cons_self) amount) ?_
        rw [ledgerOf_addAmount amount]
        simpa using fits
      · rw [if_neg fun kept => stays (staysIff.mp kept), Finsupp.filter_single_of_neg _ stays,
          add_zero]
        refine ih kept later keptOccupied (fits.of_le ?_)
        simp only [map_add, Finsupp.degree_single]
        exact add_le_add_left le_self_add _

section Merge

variable {g : AggregatorInner} {books : CodexBooks}

theorem mergeConversationPending_only (g : AggregatorInner) (provider id effort : String)
    (providerConfirmed : Bool) :
    BucketsOnly g (mergeConversationPending g provider id effort providerConfirmed).1 := by
  unfold mergeConversationPending
  split
  · exact BucketsOnly.refl g
  · rename_i entries _
    dsimp only
    obtain ⟨moved, _⟩ := foldl_mergePendingEntry provider effort providerConfirmed entries.toList
      { g := { g with codexPendingSse := g.codexPendingSse.erase id }, kept := ∅,
        movedAny := false }
    have erased : BucketsOnly g { g with codexPendingSse := g.codexPendingSse.erase id } :=
      ⟨⟨fun _ _ => rfl, rfl, rfl, rfl, rfl⟩, rfl, rfl, rfl⟩
    split
    · rw [moved]
      exact erased.trans (movePending_only provider effort _ _)
    · rw [moved]
      refine (erased.trans (movePending_only provider effort _ entries.toList)).trans ?_
      exact ⟨⟨fun _ _ => rfl, rfl, rfl, rfl, rfl⟩, rfl, rfl, rfl⟩

theorem CodexTracks.pending_apply (tracks : CodexTracks g books) (id : String) :
    books.pending id = ledgerOf (g.codexPendingSse[id]?.getD ∅) := by
  rw [← tracks.pending, AggregatorInner.pendingLedgers, ledgersOf_apply]

theorem mergeConversationPending_of_some {id : String}
    {entries : ExtTreeMap Bucket ModelStats} (found : g.codexPendingSse[id]? = some entries)
    (provider effort : String) (providerConfirmed : Bool) :
    (mergeConversationPending g provider id effort providerConfirmed).1 =
      { movePending provider effort g entries.toList with
        codexPendingSse :=
          if (keepPending provider effort providerConfirmed ∅ entries.toList).isEmpty then
            g.codexPendingSse.erase id
          else (g.codexPendingSse.erase id).insert id
            (keepPending provider effort providerConfirmed ∅ entries.toList) } := by
  have split_agents (list : List (Bucket × ModelStats)) (first second : AggregatorInner)
      (same : first.agents = second.agents) : (movePending provider effort first list).agents =
        (movePending provider effort second list).agents := by
    induction list generalizing first second with
    | nil => exact same
    | cons entry list ih =>
        rw [movePending_cons, movePending_cons]
        apply ih
        split
        · unfold moveCodexBucketStats
          rw [same]
          split
          · exact same
          · rfl
        · exact same
  have agents := split_agents entries.toList
    { g with codexPendingSse := g.codexPendingSse.erase id } g rfl
  obtain ⟨moved, kept⟩ := foldl_mergePendingEntry provider effort providerConfirmed entries.toList
    { g := { g with codexPendingSse := g.codexPendingSse.erase id }, kept := ∅,
      movedAny := false }
  unfold mergeConversationPending
  simp only [found, kept, moved]
  rw [movePending_eq, movePending_eq provider effort g, agents]
  split <;> rfl

theorem CodexTracks.mergeConversationPending (tracks : CodexTracks g books)
    (provider id effort : String) (providerConfirmed : Bool) :
    CodexTracks (mergeConversationPending g provider id effort providerConfirmed).1
      (books.resolve id provider effort providerConfirmed) := by
  have settledKnown (account : String) (bucket : Bucket) (unknownEffort : bucket.effort = unknown) :
      (books.resolve id provider effort providerConfirmed).settled account bucket = 0 := by
    have unsettled : ¬¬CodexBooks.StaysPending providerConfirmed bucket :=
      not_not.mpr (Or.inr unknownEffort)
    rw [CodexBooks.resolve, Finsupp.add_apply, Finsupp.add_apply,
      tracks.resolved account bucket unknownEffort, zero_add]
    by_cases same : id = account
    · subst account
      rw [Finsupp.single_eq_same, Finsupp.filter_apply, if_neg unsettled]
    · simp [Finsupp.single_eq_of_ne' same]
  cases found : g.codexPendingSse[id]? with
  | none =>
      have empty : books.pending id = 0 := by
        simp [tracks.pending_apply, found]
      have unchanged : books.resolve id provider effort providerConfirmed = books := by
        simp [CodexBooks.resolve, empty, Finsupp.filter_zero]
      have idle : (OtelLogger.mergeConversationPending g provider id effort
          providerConfirmed).1 = g := by
        simp [OtelLogger.mergeConversationPending, found]
      rw [unchanged, idle]
      exact tracks
  | some entries =>
      have amounts : books.pending id = entriesLedger entries.toList := by
        rw [tracks.pending_apply, found]
        rfl
      obtain ⟨entriesOccupied, _⟩ := tracks.occupied id entries found
      have occupied : ∀ entry ∈ entries.toList, entry.2 ≠ 0 := fun entry member =>
        entriesOccupied entry.1 entry.2 (ExtTreeMap.mem_toList_iff_getElem?_eq_some.mp member)
      have before := tracks.represents
      rw [books.pending_split id, amounts] at before
      have none : Occupied (∅ : ExtTreeMap Bucket ModelStats) := fun _ _ missing => by
        simp at missing
      obtain ⟨keptOccupied, keptLedger⟩ := keepPending_spec provider effort providerConfirmed
        entries.toList ∅ occupied none (by
          have total := before.fits
          rw [map_add] at total
          simpa using total.of_add)
      rw [ledgerOf_empty, zero_add, ← amounts] at keptLedger
      rw [mergeConversationPending_of_some found]
      refine ⟨?_, ?_, ?_, settledKnown⟩
      · rw [CodexBooks.resolve_ledger, amounts]
        exact movePending_represents provider effort entries.toList g _ occupied before
      · simp only [AggregatorInner.pendingLedgers, CodexBooks.resolve]
        rw [← keptLedger, ← tracks.pending, AggregatorInner.pendingLedgers]
        split
        · rename_i nothing
          rw [ExtTreeMap.isEmpty_iff.mp nothing, ledgerOf_empty, Finsupp.single_zero, add_zero,
            ledgersOf_erase]
        · rw [ledgersOf_insert, ledgersOf_erase, Finsupp.erase_idem]
      · intro other others present
        simp only at present
        split at present
        · rw [ExtTreeMap.getElem?_erase] at present
          split at present
          · simp at present
          · exact tracks.occupied other others present
        · rename_i something
          rw [ExtTreeMap.getElem?_insert, ExtTreeMap.getElem?_erase] at present
          split at present
          · obtain rfl := Option.some.inj present
            exact ⟨keptOccupied, fun nothing => something (ExtTreeMap.isEmpty_iff.mpr nothing)⟩
          · exact tracks.occupied other others present

end Merge

/-! ### Usage without a conversation -/

theorem foldl_add_eq {α : Type*} (amount : α → Option ModelStats) (items : List α)
    (total : ModelStats)
    (fits : (total + (items.map fun item => (amount item).getD 0).sum).Fits) :
    items.foldl (fun total item =>
      match amount item with
      | none => total
      | some stats => total.add stats) total =
      total + (items.map fun item => (amount item).getD 0).sum := by
  induction items generalizing total with
  | nil => simp
  | cons item items ih =>
      rw [List.map_cons, List.sum_cons, ← add_assoc] at fits
      rw [List.foldl_cons, List.map_cons, List.sum_cons, ← add_assoc]
      cases found : amount item with
      | none =>
          simp only [found, Option.getD_none, add_zero] at fits ⊢
          exact ih total fits
      | some stats =>
          simp only [found, Option.getD_some] at fits ⊢
          rw [ModelStats.add_eq fits.of_add]
          exact ih _ fits

theorem degree_pendingLedgers_apply (g : AggregatorInner) (bucket : Bucket) :
    Finsupp.degree g.pendingLedgers bucket =
      (g.codexPendingSse.toList.map fun conversation =>
        (conversation.2[bucket]?).getD (0 : ModelStats)).sum := by
  have total : Finsupp.degree g.pendingLedgers =
      mapTotal g.codexPendingSse fun _ entries => ledgerOf entries := by
    rw [AggregatorInner.pendingLedgers, ledgersOf, map_mapTotal]
    simp only [Finsupp.degree_single]
  have applied := map_mapTotal (Finsupp.applyAddHom (M := ModelStats) bucket) g.codexPendingSse
    fun _ entries => ledgerOf entries
  rw [total]
  refine applied.trans ?_
  simp only [Finsupp.applyAddHom_apply, ledgerOf_apply]
  rfl

theorem sumPendingForBucket_eq (g : AggregatorInner) (bucket : Bucket)
    (fits : (Finsupp.degree g.pendingLedgers bucket).Fits) :
    sumPendingForBucket g bucket = Finsupp.degree g.pendingLedgers bucket := by
  rw [degree_pendingLedgers_apply] at fits ⊢
  have folded := foldl_add_eq (fun entry : String × ExtTreeMap Bucket ModelStats =>
    entry.2[bucket]?) g.codexPendingSse.toList 0 (by rwa [zero_add])
  rw [zero_add] at folded
  exact folded

section Legacy

variable {g : AggregatorInner} {books : CodexBooks}

theorem mergeLegacyUnknown_only (g : AggregatorInner) (provider model effort : String) :
    BucketsOnly g (mergeLegacyUnknown g provider model effort).1 := by
  unfold mergeLegacyUnknown
  split
  · exact BucketsOnly.refl g
  · dsimp only
    split
    · exact BucketsOnly.refl g
    · split
      · exact BucketsOnly.refl g
      · split
        · exact moveCodexBucketStats_only g _ _ _
        · exact BucketsOnly.refl g

theorem CodexTracks.settled_unknown (tracks : CodexTracks g books) {bucket : Bucket}
    (unknownEffort : bucket.effort = unknown) : Finsupp.degree books.settled bucket = 0 := by
  by_contra present
  obtain ⟨id, amount⟩ := exists_of_degree_apply present
  exact amount (tracks.resolved id bucket unknownEffort)

theorem CodexTracks.movable_eq (tracks : CodexTracks g books) {source : Bucket}
    (unknownEffort : source.effort = unknown) :
    (books.ledger source).saturatingSubStats (sumPendingForBucket g source) =
      books.unassigned source := by
  have amount : books.ledger source =
      Finsupp.degree g.pendingLedgers source + books.unassigned source := by
    rw [CodexBooks.ledger, Finsupp.add_apply, Finsupp.add_apply, tracks.pending,
      tracks.settled_unknown unknownEffort, add_zero]
  have fits := tracks.represents.fits_apply source
  rw [amount] at fits
  rw [sumPendingForBucket_eq g source fits.of_add, amount, ModelStats.saturatingSubStats,
    ModelStats.add_subtract]

theorem CodexTracks.mergeLegacyUnknown (tracks : CodexTracks g books)
    (provider model effort : String) :
    CodexTracks (mergeLegacyUnknown g provider model effort).1
      (books.assignEffort provider model effort) := by
  unfold OtelLogger.mergeLegacyUnknown CodexBooks.assignEffort
  split
  · exact tracks
  · rename_i known
    rw [not_or, not_or] at known
    generalize sourceEq : Bucket.fromParts provider model unknown = source
    generalize targetEq : Bucket.fromParts provider model effort = target
    have sourceEffort : source.effort = unknown := by
      rw [← sourceEq, Bucket.fromParts_effort, nonEmpty_unknown]
    have targetEffort : target.effort ≠ unknown := by
      rw [← targetEq, Bucket.fromParts_effort, nonEmpty_of_ne known.2.1]
      exact known.2.2
    have different : source ≠ target := by
      rintro rfl
      exact targetEffort sourceEffort
    have unmoved (empty : books.unassigned source = 0) :
        Finsupp.mapDomain (redirect source target) books.unassigned = books.unassigned := by
      apply mapDomain_eq_self
      intro account present
      refine if_neg ?_
      rintro rfl
      exact present empty
    have stored : (g.agents[agentCodex]?.bind fun agentStats => agentStats.buckets[source.key]?) =
        if books.ledger source = 0 then none else some (holding source (books.ledger source)) := by
      rw [← tracks.represents.holds.entry]
      cases found : g.agents[agentCodex]? with
      | none =>
          have buckets : (default : AgentStats).buckets = ∅ := rfl
          simp [AggregatorInner.agent, found, buckets]
      | some agentStats => simp [AggregatorInner.agent, found]
    simp only [if_neg different, stored]
    by_cases empty : books.ledger source = 0
    · simp only [empty, if_true]
      rw [unmoved]
      · exact tracks
      · rw [CodexBooks.ledger, Finsupp.add_apply] at empty
        exact (ModelStats.zero_of_add empty).2
    · simp only [empty, if_false, holding_stats, tracks.movable_eq sourceEffort]
      by_cases movable : books.unassigned source = 0
      · rw [ModelStats.hasAnyValue_eq_false.mpr movable, unmoved movable]
        exact tracks
      · rw [ModelStats.hasAnyValue_iff.mpr movable, if_pos rfl]
        have before := tracks.represents
        have split : books.ledger = Finsupp.single source (books.unassigned source) +
            (Finsupp.degree books.pending + Finsupp.degree books.settled +
              books.unassigned.erase source) := by
          rw [CodexBooks.ledger]
          conv_lhs => rw [← Finsupp.erase_add_single source books.unassigned]
          abel
        rw [split] at before
        have pendingSse : (moveCodexBucketStats g source target
            (books.unassigned source)).codexPendingSse = g.codexPendingSse := by
          rw [moveCodexBucketStats_eq]
        refine ⟨?_, ?_, ?_, tracks.resolved⟩
        · have after : Represents _ (_ + Finsupp.single target (books.unassigned source)) :=
            moveCodexBucketStats_represents movable before
          rw [CodexBooks.ledger, mapDomain_redirect, ← add_assoc]
          exact after
        · rw [AggregatorInner.pendingLedgers, pendingSse]
          exact tracks.pending
        · exact pendingSse ▸ tracks.occupied

end Legacy

end OtelLogger
