import OtelLogger.Runs

/-!
Revocable amounts are covered. What a later message may take out of a bucket again (metric
usage that a log cancels, pending usage that a session moves) is always there to be taken, so
none of the saturating subtractions made on the way cuts anything off.
-/

namespace OtelLogger

open Std (ExtTreeMap TransOrd LawfulEqOrd)
open Accounting

/-! ### What the subtractions take -/

/-- Taking the amount out of the bucket's entry does not clamp. -/
def EntryCovers (agentStats : AgentStats) (bucket : Bucket) (stats : ModelStats) : Prop :=
  ∃ entry : BucketStats, agentStats.buckets[bucket.key]? = some entry ∧
    entry.toBucket = bucket ∧ stats ≤ entry.stats

/-- Along a cancel, every entry and the total cover what is subtracted from them. -/
def CancelCovered (g : AggregatorInner) : List (Bucket × ModelStats) → Prop
  | [] => True
  | (bucket, stats) :: rest =>
      (EntryCovers (g.agent agentClaude) bucket stats ∧ stats ≤ (g.agent agentClaude).total) ∧
        CancelCovered (subtractFrom g agentClaude bucket stats) rest

def LogUsageCovered (g : AggregatorInner) (bucket : Bucket) (stats : ModelStats) : Prop :=
  stats.hasUsage = true → g.claudeUsageSources[bucket.usageKey]? = some .metrics →
    ∀ perBucket, g.claudeMetricUsage[bucket.usageKey]? = some perBucket →
      CancelCovered { g with claudeMetricUsage := g.claudeMetricUsage.erase bucket.usageKey }
        perBucket.toList

/-- Along the moves of a conversation's pending entries, every source covers its move. -/
def MovesCovered (provider effort : String) (g : AggregatorInner) :
    List (Bucket × ModelStats) → Prop
  | [] => True
  | (bucket, stats) :: rest =>
      let target := pendingDestination provider effort bucket
      (bucket ≠ target → EntryCovers (g.agent agentCodex) bucket stats) ∧
        MovesCovered provider effort
          (if bucket ≠ target then moveCodexBucketStats g bucket target stats else g) rest

/-- A whole-bucket move leaves what conversations have pending where it is. -/
def LegacyCovered (g : AggregatorInner) (provider model effort : String) : Prop :=
  model ≠ "" → effort ≠ "" → effort ≠ unknown →
    ∀ (source : Bucket) (entry : BucketStats), source = Bucket.fromParts provider model unknown →
      (g.agent agentCodex).buckets[source.key]? = some entry →
        sumPendingForBucket g source ≤ entry.stats ∧
          entry.stats.saturatingSubStats (sumPendingForBucket g source) +
            sumPendingForBucket g source = entry.stats

def MergeCovered (g : AggregatorInner) (session : CodexSession) : Prop :=
  if session.conversationId ≠ "" then
    ∀ entries, g.codexPendingSse[session.conversationId]? = some entries →
      MovesCovered session.provider session.effort
        { g with codexPendingSse := g.codexPendingSse.erase session.conversationId }
        entries.toList
  else LegacyCovered g session.provider session.model session.effort

/-- The merge of an effort that carries no conversation, as `updateCodexLastEffort` makes it. -/
def LastEffortCovered (g : AggregatorInner) (service effort : String) : Prop :=
  ∀ last : CodexSession, last = (codexLastSession g service).getD
      { conversationId := "", provider := providerOpenai, model := "", effort := "",
        providerConfirmed := false } →
    last.effort ≠ effort → last.conversationId = "" →
      MergeCovered
        { g with
          codexLastSessions := g.codexLastSessions.insert service { last with effort := effort } }
        { last with effort := effort }

def SessionCovered (g : AggregatorInner) (service : String) (session : CodexSession)
    (updateLast : Bool) : Prop :=
  MergeCovered (rememberSession g service session updateLast) (sessionAfter g session)

/-- Every subtraction that a step makes on its way is covered. -/
def Step.Covered (g : AggregatorInner) : Step → Prop
  | .claudeLog log =>
      ∀ bucket requestStats usageStats,
        extractClaudeApiRequestMeta g log = some (bucket, requestStats, usageStats) →
          LogUsageCovered (recordInto g agentClaude bucket requestStats) bucket usageStats
  | .session service started => SessionCovered g service started true
  | .requestSpan service attrs =>
      ∀ effort, requestEffort attrs = some effort →
        match conversationId attrs with
        | none => LastEffortCovered g service effort
        | some id => ∀ updateLast,
            SessionCovered g service (spanSession g id effort attrs) updateLast
  | _ => True

/-! ### Why they are covered -/

theorem Represents.entryCovers {agentStats : AgentStats} {bucket : Bucket} {stats : ModelStats}
    {ledger : Bucket →₀ ModelStats} (occupied : stats ≠ 0)
    (represents : Represents agentStats (Finsupp.single bucket stats + ledger)) :
    EntryCovers agentStats bucket stats := by
  have amount : (Finsupp.single bucket stats + ledger) bucket = stats + ledger bucket := by simp
  have present : stats + ledger bucket ≠ 0 := fun zero =>
    occupied (ModelStats.zero_of_add zero).1
  refine ⟨holding bucket (stats + ledger bucket), ?_, rfl, le_self_add⟩
  rw [represents.holds.entry, amount, if_neg present]

theorem cancelCovered (perBucket : List (Bucket × ModelStats)) (g : AggregatorInner)
    (rest : Bucket →₀ ModelStats) (occupied : ∀ entry ∈ perBucket, entry.2 ≠ 0)
    (represents : Represents (g.agent agentClaude) (entriesLedger perBucket + rest)) :
    CancelCovered g perBucket := by
  induction perBucket generalizing g with
  | nil => trivial
  | cons entry perBucket ih =>
      rw [entriesLedger_cons, add_assoc] at represents
      refine ⟨⟨represents.entryCovers (occupied entry List.mem_cons_self), ?_⟩, ?_⟩
      · rw [represents.total, map_add, Finsupp.degree_single]
        exact le_self_add
      · apply ih
        · exact fun other member => occupied other (List.mem_cons_of_mem _ member)
        · rw [subtractFrom_agent, if_pos rfl]
          exact represents.subtractFrom

theorem movesCovered (provider effort : String) (entries : List (Bucket × ModelStats))
    (g : AggregatorInner) (ledger : Bucket →₀ ModelStats)
    (occupied : ∀ entry ∈ entries, entry.2 ≠ 0)
    (represents : Represents (g.agent agentCodex) (entriesLedger entries + ledger)) :
    MovesCovered provider effort g entries := by
  induction entries generalizing g ledger with
  | nil => trivial
  | cons entry entries ih =>
      have present := occupied entry List.mem_cons_self
      rw [entriesLedger_cons, add_assoc] at represents
      refine ⟨fun _ => represents.entryCovers present, ?_⟩
      apply ih _ (ledger + Finsupp.single (pendingDestination provider effort entry.1) entry.2)
      · exact fun other member => occupied other (List.mem_cons_of_mem _ member)
      · rw [← add_assoc]
        split
        · exact moveCodexBucketStats_represents present represents
        · rename_i stays
          rw [not_not] at stays
          rwa [← stays, add_comm]

section Tracks

variable {g : AggregatorInner} {books : CodexBooks}

theorem CodexTracks.legacyCovered (tracks : CodexTracks g books)
    (provider model effort : String) : LegacyCovered g provider model effort := by
  intro _ _ _ source entry isSource found
  have unknownEffort : source.effort = unknown := by
    rw [isSource, Bucket.fromParts_effort, nonEmpty_unknown]
  have stored := tracks.represents.holds.entry source
  rw [found] at stored
  split at stored
  · simp at stored
  · rw [Option.some.inj stored, holding_stats]
    have movable := tracks.movable_eq unknownEffort
    have amount : books.ledger source =
        sumPendingForBucket g source + books.unassigned source := by
      have fits := tracks.represents.fits_apply source
      rw [CodexBooks.ledger, Finsupp.add_apply, Finsupp.add_apply,
        tracks.settled_unknown unknownEffort, add_zero, ← tracks.pending] at fits ⊢
      rw [sumPendingForBucket_eq g source fits.of_add]
    rw [movable, amount, add_comm (books.unassigned source)]
    exact ⟨le_self_add, rfl⟩

theorem CodexTracks.mergeCovered (tracks : CodexTracks g books) (session : CodexSession) :
    MergeCovered g session := by
  unfold MergeCovered
  split
  · intro entries found
    obtain ⟨entriesOccupied, _⟩ := tracks.occupied _ entries found
    have represents := tracks.represents
    rw [books.pending_split session.conversationId, tracks.pending_apply, found] at represents
    refine movesCovered _ _ entries.toList _ _ ?_ represents
    exact fun entry member =>
      entriesOccupied entry.1 entry.2 (ExtTreeMap.mem_toList_iff_getElem?_eq_some.mp member)
  · exact tracks.legacyCovered _ _ _

theorem CodexTracks.sessionCovered (tracks : CodexTracks g books) (service : String)
    (session : CodexSession) (updateLast : Bool) : SessionCovered g service session updateLast :=
  (tracks.rememberSession service session updateLast).mergeCovered _

end Tracks

theorem ClaudeTracks.logUsageCovered {g : AggregatorInner} {rest : Bucket →₀ ModelStats}
    (tracks : ClaudeTracks g rest) (bucket : Bucket) (stats : ModelStats) :
    LogUsageCovered g bucket stats := by
  intro _ _ perBucket found
  have represents := tracks.represents
  rw [degree_split g.metricLedgers bucket.usageKey, add_assoc, AggregatorInner.metricLedgers,
    ledgersOf_apply, found] at represents
  refine cancelCovered perBucket.toList _ _ ?_ represents
  exact fun entry member => (tracks.revocable _ perBucket entry.1 entry.2 found
    (ExtTreeMap.mem_toList_iff_getElem?_eq_some.mp member)).1

/-- In a state that tracks its ledgers, no step clamps. -/
theorem Step.covered {steps : List Step} {step : Step} {g : AggregatorInner}
    {rest : Bucket →₀ ModelStats} {books : CodexBooks} (counted : ClaudeCounted steps g rest)
    (tracks : CodexTracks g books) (fits : (offered (steps ++ [step])).Fits) :
    step.Covered g := by
  cases step with
  | claudeLog log =>
      intro bucket requestStats usageStats found
      rw [extractClaudeApiRequestMeta, Option.map_eq_some_iff] at found
      obtain ⟨samples, own, parsed⟩ := found
      obtain ⟨rfl, rfl, rfl⟩ := parsed
      have bound := counted.fits fits
      simp only [Step.sample, own] at bound
      rw [← add_assoc] at bound
      exact (counted.tracks.recordInto (claudeApiRequestStats_parts own).1
        bound.of_add).logUsageCovered _ _
  | session service started => exact tracks.sessionCovered service started true
  | requestSpan service attrs =>
      intro effort _
      split
      · intro last _ _ _
        have remembered : CodexTracks
            { g with
              codexLastSessions :=
                g.codexLastSessions.insert service { last with effort := effort } }
            books := tracks.congr rfl rfl
        exact remembered.mergeCovered _
      · exact fun updateLast => tracks.sessionCovered service _ updateLast
  | _ => trivial

def pendingCounter (g : AggregatorInner) (bucket : Bucket) (counter : Counter) : ℕ :=
  (g.codexPendingSse.toList.map fun conversation =>
    (conversation.2[bucket]?.getD (0 : ModelStats)).counter counter).sum

theorem pendingCounter_eq (g : AggregatorInner) (bucket : Bucket) (counter : Counter) :
    pendingCounter g bucket counter =
      (Finsupp.degree g.pendingLedgers bucket).counter counter := by
  rw [degree_pendingLedgers_apply, ← ModelStats.counterHom_apply, map_list_sum, List.map_map]
  rfl

/-- In every state of a run, pending Codex usage and revocable Claude usage are covered by the
buckets they were counted in; and no step of the run clamps a subtraction. -/
theorem Aggregator.revocable_covered (calls : List Call) (exactCounts : NonSaturating calls) :
    (∀ (bucket : Bucket) (counter : Counter),
      0 < pendingCounter (run calls) bucket counter →
        ∃ entry : BucketStats,
          ((run calls).agent agentCodex).buckets[bucket.key]? = some entry ∧
            entry.toBucket = bucket ∧
            pendingCounter (run calls) bucket counter ≤ entry.stats.counter counter) ∧
    (∀ (key : ClaudeUsageKey) (perBucket : ExtTreeMap Bucket ModelStats) (bucket : Bucket)
      (stats : ModelStats), (run calls).claudeMetricUsage[key]? = some perBucket →
        perBucket[bucket]? = some stats →
          bucket.usageKey = key ∧ (run calls).claudeUsageSources[key]? = some .metrics ∧
            EntryCovers ((run calls).agent agentClaude) bucket stats) ∧
    ∀ (before after : List Step) (step : Step),
      calls.flatMap Call.steps = before ++ step :: after → step.Covered (runSteps before) := by
  have fits : (offered (calls.flatMap Call.steps)).Fits := exactCounts
  rw [run_eq]
  have tracks := codexTracks_run _ fits
  obtain ⟨rest, counted⟩ := claudeCounted_run _ fits
  refine ⟨?_, ?_, ?_⟩
  · intro bucket counter positive
    rw [pendingCounter_eq] at positive ⊢
    have covered : Finsupp.degree (runSteps (calls.flatMap Call.steps)).pendingLedgers bucket ≤
        (booksOf (calls.flatMap Call.steps)).ledger bucket := by
      rw [tracks.pending, CodexBooks.ledger, add_assoc, Finsupp.add_apply]
      exact le_self_add
    have present : (booksOf (calls.flatMap Call.steps)).ledger bucket ≠ 0 := by
      intro zero
      have bound := ModelStats.counter_le covered counter
      rw [zero, ModelStats.counter_zero] at bound
      omega
    refine ⟨holding bucket _, ?_, rfl, ModelStats.counter_le covered counter⟩
    rw [tracks.represents.holds.entry, if_neg present]
  · intro key perBucket bucket stats found entry
    obtain ⟨occupied, keyed, source, _⟩ :=
      counted.tracks.revocable key perBucket bucket stats found entry
    refine ⟨keyed, source, ?_⟩
    have represents := counted.tracks.represents
    rw [degree_split _ key, add_assoc, AggregatorInner.metricLedgers, ledgersOf_apply, found,
      Option.getD_some, ← Finsupp.single_add_erase bucket (ledgerOf perBucket), ledgerOf_apply,
      entry, Option.getD_some, add_assoc] at represents
    exact represents.entryCovers occupied
  · intro before after step decomposed
    have prefixFits : (offered (before ++ [step])).Fits := by
      rw [decomposed, List.append_cons, offered_append] at fits
      exact fits.of_add
    have beforeFits : (offered before).Fits := by
      rw [offered_concat] at prefixFits
      exact prefixFits.of_add
    obtain ⟨rest, reached⟩ := claudeCounted_run before beforeFits
    exact Step.covered reached (codexTracks_run before beforeFits) prefixFits

theorem Aggregator.revocable_covered_completion :
    ∃ entry : BucketStats,
      ((run [(completionMessage "c" "gpt-5" 7).call]).agent agentCodex).buckets[
          (Bucket.fromParts providerOpenai "gpt-5" unknown).key]? = some entry ∧
        entry.toBucket = Bucket.fromParts providerOpenai "gpt-5" unknown ∧
        pendingCounter (run [(completionMessage "c" "gpt-5" 7).call])
          (Bucket.fromParts providerOpenai "gpt-5" unknown) .inputTokens ≤
            entry.stats.counter .inputTokens := by
  have counts : NonSaturating [(completionMessage "c" "gpt-5" 7).call] := by
    intro counter
    cases counter <;> decide
  exact (revocable_covered _ counts).1 _ .inputTokens (by decide)

end OtelLogger
