import OtelLogger.PendingUsage
import OtelLogger.Separation

/-!
The exact effect of a session message. It moves what its conversation has pending to the
provider and effort that the session now names, keeps what is still unresolved, and touches
nothing else. A message that comes again finds everything moved already.
-/

namespace OtelLogger

open Std (ExtTreeMap TransOrd LawfulEqOrd)
open Accounting

/-! ### Whether anything moves -/

theorem mergePendingEntries_moved (provider effort : String) (providerConfirmed : Bool)
    (entries : List (Bucket × ModelStats)) : ∀ merge : PendingMerge,
      (entries.foldl (mergePendingEntry provider effort providerConfirmed) merge).movedAny = true ↔
        merge.movedAny = true ∨
          ∃ entry ∈ entries, pendingDestination provider effort entry.1 ≠ entry.1 := by
  induction entries with
  | nil => simp
  | cons entry entries ih =>
      intro merge
      rw [List.foldl_cons, ih, List.exists_mem_cons_iff, ← or_assoc]
      refine or_congr_left ?_
      unfold mergePendingEntry
      dsimp only
      split
      · rename_i moves
        simp [Ne.symm moves]
      · rename_i stays
        rw [not_not] at stays
        simp [← stays]

def AggregatorInner.pendingOf (g : AggregatorInner) (id : String) : ExtTreeMap Bucket ModelStats :=
  g.codexPendingSse[id]?.getD ∅

theorem mergeConversationPending_moved (g : AggregatorInner) (provider id effort : String)
    (providerConfirmed : Bool) :
    (mergeConversationPending g provider id effort providerConfirmed).2 = true ↔
      ∃ bucket ∈ g.pendingOf id, pendingDestination provider effort bucket ≠ bucket := by
  unfold mergeConversationPending AggregatorInner.pendingOf
  cases found : g.codexPendingSse[id]? with
  | none => simp
  | some entries =>
      have listed (bucket : Bucket) : bucket ∈ entries ↔
          ∃ stats, (bucket, stats) ∈ entries.toList := by
        rw [← ExtTreeMap.isSome_getElem?_iff_mem, Option.isSome_iff_exists]
        simp only [ExtTreeMap.mem_toList_iff_getElem?_eq_some]
      have moved := mergePendingEntries_moved provider effort providerConfirmed entries.toList
        { g := { g with codexPendingSse := g.codexPendingSse.erase id }
          kept := ∅
          movedAny := false }
      dsimp only [Option.getD_some]
      split
      · rw [moved]
        simp [listed]
      · rw [moved]
        simp [listed]

/-! ### What stays as it was -/

theorem moveCodexBucketStats_total (g : AggregatorInner) (source target : Bucket)
    (stats : ModelStats) : ((moveCodexBucketStats g source target stats).agent agentCodex).total =
      (g.agent agentCodex).total := by
  unfold moveCodexBucketStats
  cases found : g.agents[agentCodex]? with
  | none => rfl
  | some agentStats => simp [AggregatorInner.agent, found, AgentStats.moveBucketStats]

theorem movePending_total (provider effort : String) (entries : List (Bucket × ModelStats))
    (g : AggregatorInner) :
    ((movePending provider effort g entries).agent agentCodex).total =
      (g.agent agentCodex).total := by
  induction entries generalizing g with
  | nil => rfl
  | cons entry entries ih =>
      rw [movePending_cons, ih]
      split
      · exact moveCodexBucketStats_total g _ _ _
      · rfl

theorem mergeConversationPending_total (g : AggregatorInner) (provider id effort : String)
    (providerConfirmed : Bool) :
    ((mergeConversationPending g provider id effort providerConfirmed).1.agent agentCodex).total =
      (g.agent agentCodex).total := by
  cases found : g.codexPendingSse[id]? with
  | none => simp only [mergeConversationPending, found]
  | some entries =>
      rw [mergeConversationPending_of_some found]
      exact movePending_total provider effort entries.toList g

/-- Only the buckets of Codex, and what the service and the conversation have on record, differ. -/
structure ConversationOnly (g next : AggregatorInner) (service id : String) : Prop where
  total : (next.agent agentCodex).total = (g.agent agentCodex).total
  agents : OtherAgents agentCodex g next
  canonicalModels : next.claudeCanonicalModels = g.claudeCanonicalModels
  metricModels : next.claudeMetricModels = g.claudeMetricModels
  usageSources : next.claudeUsageSources = g.claudeUsageSources
  metricUsage : next.claudeMetricUsage = g.claudeMetricUsage
  tokenSources : next.codexTokenSources = g.codexTokenSources
  sessions : ∀ other, other ≠ id → next.codexSessions[other]? = g.codexSessions[other]?
  pending : ∀ other, other ≠ id → next.codexPendingSse[other]? = g.codexPendingSse[other]?
  lastSessions : ∀ other, other ≠ service →
    next.codexLastSessions[other]? = g.codexLastSessions[other]?

theorem updateCodexSessionWithLast_lastSessions (g : AggregatorInner) (service : String)
    (session : CodexSession) (updateLast : Bool) :
    (updateCodexSessionWithLast g service session updateLast).1.codexLastSessions =
      if updateLast then g.codexLastSessions.insert service (sessionAfter g session)
      else g.codexLastSessions := by
  rw [updateCodexSessionWithLast_eq, (mergeCodexPendingSse_only _ _ _ _ _ _).lastSessions]
  rfl

theorem updateCodexSessionWithLast_conversationOnly (g : AggregatorInner) (service : String)
    {session : CodexSession} (named : session.conversationId ≠ "") (updateLast : Bool) :
    ConversationOnly g (updateCodexSessionWithLast g service session updateLast).1 service
      session.conversationId := by
  have only := updateCodexSessionWithLast_codexOnly g service session updateLast
  have same := (CodexSame.refl g).updateCodexSessionWithLast service session updateLast
  refine ⟨?_, same.others, only.canonicalModels, only.metricModels, only.usageSources,
    only.metricUsage, updateCodexSessionWithLast_tokenSources g service session updateLast, ?_, ?_,
    ?_⟩
  · rw [updateCodexSessionWithLast_eq, mergeCodexPendingSse, if_pos (by rwa [sessionAfter_id])]
    exact mergeConversationPending_total _ _ _ _ _
  · intro other different
    rw [updateCodexSessionWithLast_session, if_neg fun own => different own.1.symm]
  · intro other different
    rw [updateCodexSessionWithLast_pending, if_neg fun own => different own.1.symm]
  · intro other different
    rw [updateCodexSessionWithLast_lastSessions]
    split
    · rw [lookup_insert, if_neg (Ne.symm different)]
    · rfl

/-! ### What moves -/

/-- The usage of a Codex bucket; an absent bucket counts as zero. -/
def AggregatorInner.codexAmount (g : AggregatorInner) (bucket : Bucket) : ModelStats :=
  ((g.agent agentCodex).buckets[bucket.key]?.map BucketStats.stats).getD 0

section Books

variable {g : AggregatorInner} {books : CodexBooks}

theorem CodexTracks.codexAmount_eq (tracks : CodexTracks g books) (bucket : Bucket) :
    g.codexAmount bucket = books.ledger bucket := by
  rw [AggregatorInner.codexAmount, tracks.represents.holds.entry]
  split
  · rename_i empty
    exact empty.symm
  · rfl

theorem CodexTracks.ledgerOf_pendingOf (tracks : CodexTracks g books) (id : String) :
    ledgerOf (g.pendingOf id) = books.pending id :=
  (tracks.pending_apply id).symm

theorem CodexTracks.pendingOf_occupied (tracks : CodexTracks g books) (id : String) :
    Occupied (g.pendingOf id) := by
  unfold AggregatorInner.pendingOf
  cases found : g.codexPendingSse[id]? with
  | none =>
      intro bucket stats missing
      simp at missing
  | some entries => exact (tracks.occupied id entries found).1

theorem CodexTracks.pendingOf_entry (tracks : CodexTracks g books) (id : String)
    (bucket : Bucket) :
    (g.pendingOf id)[bucket]? =
      if books.pending id bucket = 0 then none else some (books.pending id bucket) := by
  rw [← tracks.ledgerOf_pendingOf id, ledgerOf_apply]
  cases found : (g.pendingOf id)[bucket]? with
  | none => simp
  | some stats => simp [tracks.pendingOf_occupied id bucket stats found]

/-- Each bucket gives up what it has pending and receives what is sent to it, all at once. -/
theorem CodexTracks.resolved_amount (tracks : CodexTracks g books) {next : AggregatorInner}
    {id provider effort : String} {providerConfirmed : Bool}
    (resolved : CodexTracks next (books.resolve id provider effort providerConfirmed))
    (bucket : Bucket) :
    next.codexAmount bucket + (g.pendingOf id)[bucket]?.getD (0 : ModelStats) =
      g.codexAmount bucket +
        regrouped (pendingDestination provider effort) (g.pendingOf id) bucket := by
  rw [resolved.codexAmount_eq, tracks.codexAmount_eq, books.resolve_ledger, ← ledgerOf_apply,
    ← mapDomain_ledgerOf_apply, tracks.ledgerOf_pendingOf, books.pending_split id]
  simp only [Finsupp.add_apply]
  abel

theorem CodexTracks.resolved_pending (tracks : CodexTracks g books) {next : AggregatorInner}
    {id provider effort : String} {providerConfirmed : Bool}
    (resolved : CodexTracks next (books.resolve id provider effort providerConfirmed))
    (bucket : Bucket) (stats : ModelStats) :
    (next.pendingOf id)[bucket]? = some stats ↔
      (providerConfirmed = false ∨ bucket.effort = unknown) ∧
        (∃ source ∈ g.pendingOf id, pendingDestination provider effort source = bucket) ∧
        stats = regrouped (pendingDestination provider effort) (g.pendingOf id) bucket := by
  rw [resolved.pendingOf_entry, books.resolve_pending_self, ← tracks.ledgerOf_pendingOf,
    Finsupp.filter_apply, mapDomain_ledgerOf_apply,
    ← regrouped_ne_zero_iff (tracks.pendingOf_occupied id) bucket]
  by_cases stays : CodexBooks.StaysPending providerConfirmed bucket
  · rw [if_pos stays, Option.ite_none_left_eq_some, Option.some.injEq, eq_comm (b := stats)]
    exact (and_iff_right stays).symm
  · rw [if_neg stays, if_pos rfl]
    simp only [reduceCtorEq, false_iff]
    exact fun own => stays own.1

end Books

/-! ### Session messages -/

/-- The sessions that messages of a service bring, and whether they are to be its last one. -/
inductive SessionUpdate (g : AggregatorInner) (service : String) : CodexSession → Bool → Prop
  | log {record : LogRecord} {session : CodexSession}
      (starts : extractCodexConversationStarts record = some session) :
      SessionUpdate g service session true
  | spanEvent {attrs : List KeyValue} {session : CodexSession}
      (starts : extractSessionFromAttrs attrs = some session) :
      SessionUpdate g service session true
  | requestSpan {attrs : List KeyValue} {id effort : String}
      (carried : conversationId attrs = some id) (requested : requestEffort attrs = some effort) :
      SessionUpdate g service (spanSession g id effort attrs)
        (match codexLastSession g service with
          | none => true
          | some last => last.conversationId = (spanSession g id effort attrs).conversationId)

theorem known_ne_empty {attrs : List KeyValue} {key text : String}
    (carried : SessionMessage.known attrs key = some text) : text ≠ "" := by
  rw [SessionMessage.known, Option.filter_eq_some_iff] at carried
  simpa using carried.2

theorem extractSessionFromAttrs_provider {attrs : List KeyValue} {session : CodexSession}
    (found : extractSessionFromAttrs attrs = some session) : session.provider ≠ "" := by
  simp only [extractSessionFromAttrs] at found
  split at found
  · simp at found
  · rw [← Option.some.inj found]
    cases named : providerAttr attrs with
    | none => simp [providerOpenai]
    | some provider => exact known_ne_empty named

theorem sessionOf_provider (id : String) (messages : List SessionMessage) :
    (SessionMessage.sessionOf id messages).provider ≠ "" := by
  have openai : providerOpenai ≠ "" := by decide
  unfold SessionMessage.sessionOf
  cases named : SessionMessage.last SessionMessage.provider messages with
  | none => exact openai
  | some provider =>
      obtain ⟨message, _, carried⟩ := List.mem_filterMap.mp (List.mem_of_getLast? named)
      cases message with
      | starts attrs => exact known_ne_empty carried
      | span attrs => simp [SessionMessage.provider] at carried

theorem SessionUpdate.provider_ne_empty {g : AggregatorInner} {service : String}
    {session : CodexSession} {updateLast : Bool} (update : SessionUpdate g service session updateLast)
    (named : ∀ (id : String) (known : CodexSession), g.codexSessions[id]? = some known →
      known.provider ≠ "") (id : String) :
    (completeSession g.codexSessions[id]? session).provider ≠ "" := by
  have own : session.provider ≠ "" := by
    cases update with
    | log starts =>
        rw [extractCodexConversationStarts_eq, Option.ite_none_right_eq_some] at starts
        exact extractSessionFromAttrs_provider starts.2
    | spanEvent starts => exact extractSessionFromAttrs_provider starts
    | @requestSpan attrs other effort _ _ =>
        cases found : g.codexSessions[other]? with
        | none => simp [spanSession, found, providerOpenai]
        | some known => simpa [spanSession, found] using named other known found
  cases found : g.codexSessions[id]? with
  | none => exact own
  | some known =>
      simp only [completeSession]
      split
      · exact named id known found
      · exact own

theorem pendingDestination_parts {provider : String} (named : provider ≠ "") (effort : String)
    (bucket : Bucket) :
    (pendingDestination provider effort bucket).provider = provider ∧
      (pendingDestination provider effort bucket).model = bucket.model ∧
      (pendingDestination provider effort bucket).effort =
        if bucket.effort = unknown then nonEmpty effort else bucket.effort := by
  refine ⟨nonEmpty_of_ne named, nonEmpty_of_ne bucket.named.2.1, ?_⟩
  rw [pendingDestination, Bucket.fromParts_effort]
  split
  · exact nonEmpty_idem effort
  · exact nonEmpty_of_ne bucket.named.2.2

namespace Aggregator

theorem run_provider_ne_empty (calls : List Call) (id : String) (known : CodexSession)
    (found : (run calls).codexSessions[id]? = some known) : known.provider ≠ "" := by
  rw [session_last_known, Option.ite_none_left_eq_some] at found
  exact Option.some.inj found.2 ▸ sessionOf_provider id _

/-- What a session message does to the usage of its conversation, and that it does nothing else. -/
theorem session_update_exact (calls : List Call) (exactCounts : NonSaturating calls)
    {service : String} {session : CodexSession} {updateLast : Bool}
    (update : SessionUpdate (run calls) service session updateLast)
    (named : session.conversationId ≠ "") :
    let g := run calls
    let id := session.conversationId
    let updated := updateCodexSessionWithLast g service session updateLast
    ∃ known, updated.1.codexSessions[id]? = some known ∧
      let destination := pendingDestination known.provider known.effort
      (∀ bucket, (destination bucket).provider = known.provider ∧
        (destination bucket).model = bucket.model ∧
        (destination bucket).effort =
          if bucket.effort = unknown then nonEmpty known.effort else bucket.effort) ∧
      (∀ bucket, updated.1.codexAmount bucket + (g.pendingOf id)[bucket]?.getD (0 : ModelStats) =
        g.codexAmount bucket + regrouped destination (g.pendingOf id) bucket) ∧
      (∀ bucket stats, (updated.1.pendingOf id)[bucket]? = some stats ↔
        (known.providerConfirmed = false ∨ bucket.effort = unknown) ∧
          (∃ source ∈ g.pendingOf id, destination source = bucket) ∧
          stats = regrouped destination (g.pendingOf id) bucket) ∧
      updated.1.codexPendingSse[id]? ≠ some ∅ ∧
      (updated.2 = true ↔ ∃ bucket ∈ g.pendingOf id, destination bucket ≠ bucket) ∧
      ConversationOnly g updated.1 service id := by
  intro g id updated
  have tracks : CodexTracks g (booksOf (calls.flatMap Call.steps)) := by
    have reached := codexTracks_run (calls.flatMap Call.steps) exactCounts
    rwa [← run_eq] at reached
  have found : updated.1.codexSessions[id]? = some (completeSession g.codexSessions[id]? session) := by
    rw [updateCodexSessionWithLast_session, if_pos ⟨rfl, named⟩]
  have after : sessionAfter g session = completeSession g.codexSessions[id]? session :=
    if_pos named
  have provider := update.provider_ne_empty (run_provider_ne_empty calls) id
  have resolved := tracks.updateCodexSessionWithLast service session updateLast
  rw [CodexBooks.mergeSession, CodexBooks.merge, sessionAfter_id, if_pos named, after] at resolved
  refine ⟨_, found, pendingDestination_parts provider _, tracks.resolved_amount resolved,
    tracks.resolved_pending resolved, ?_, ?_,
    updateCodexSessionWithLast_conversationOnly g service named updateLast⟩
  · exact fun empty => (resolved.occupied id ∅ empty).2 rfl
  · have moved : updated.2 = (mergeCodexPendingSse (rememberSession g service session updateLast)
        (sessionAfter g session).provider (sessionAfter g session).model
        (sessionAfter g session).conversationId (sessionAfter g session).effort
        (sessionAfter g session).providerConfirmed).2 := by
      rw [← updateCodexSessionWithLast_eq]
    rw [moved, mergeCodexPendingSse, if_pos (by rwa [sessionAfter_id]),
      mergeConversationPending_moved, sessionAfter_id, after]
    rfl

theorem session_update_exact_start :
    let g := run [(completionMessage "c" "gpt-5" 7).call]
    let session : CodexSession :=
      { conversationId := "c", provider := "azure", model := "", effort := "high",
        providerConfirmed := true }
    let updated := updateCodexSessionWithLast g serviceCodexTui session true
    ∃ known, updated.1.codexSessions["c"]? = some known ∧
      ∀ bucket, updated.1.codexAmount bucket + (g.pendingOf "c")[bucket]?.getD (0 : ModelStats) =
        g.codexAmount bucket +
          regrouped (pendingDestination known.provider known.effort) (g.pendingOf "c") bucket := by
  have counts : NonSaturating [(completionMessage "c" "gpt-5" 7).call] := by
    intro counter
    cases counter <;> decide
  intro g session updated
  have starts : extractSessionFromAttrs
      [textAttr "conversation.id" "c", textAttr "provider_name" "azure",
        textAttr "reasoning_effort" "high"] = some session := by decide
  have update : SessionUpdate g serviceCodexTui session true := .spanEvent starts
  obtain ⟨known, found, _, amounts, _⟩ := session_update_exact _ counts update (by decide)
  exact ⟨known, found, amounts⟩

end Aggregator

end OtelLogger
