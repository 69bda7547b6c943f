import OtelLogger.BareNames

/-!
Snapshots are well formed: every entry is stored under the key of its own provider, model and
effort, and holds something. This is an invariant of every step, saturated counters included,
because entries and pending usage only ever grow by samples that are not zero.
-/

namespace OtelLogger

open Std (ExtTreeMap TransOrd LawfulEqOrd)
open Accounting

/-! ### Claude -/

theorem lasting_nonzero : Lasting fun _ stats => stats ≠ 0 where
  starts _ _ _ occupied empty := occupied (ModelStats.add_eq_zero_iff.mp empty).2
  grows _ _ _ occupied empty := occupied (ModelStats.add_eq_zero_iff.mp empty).1
  shrinks _ _ _ _ remains := ModelStats.hasAnyValue_iff.mp remains
  renames _ _ _ occupied empty := occupied (ModelStats.add_eq_zero_iff.mp empty).2

/-! ### Codex -/

theorem occupied_empty : Occupied (∅ : ExtTreeMap Bucket ModelStats) := by
  intro bucket stats found
  simp at found

theorem addAmount_nonzero {amounts : ExtTreeMap Bucket ModelStats} {bucket : Bucket}
    {stats : ModelStats} (occupied : Occupied amounts) (present : stats ≠ 0) :
    Occupied (addAmount amounts bucket stats) := by
  intro account amount found
  rcases addAmount_found found with ⟨rfl, rfl⟩ | before
  · exact fun empty => present (ModelStats.add_eq_zero_iff.mp empty).2
  · exact occupied account amount before

theorem keepPending_nonzero (provider effort : String) (providerConfirmed : Bool)
    (entries : List (Bucket × ModelStats)) (occupied : ∀ entry ∈ entries, entry.2 ≠ 0) :
    ∀ kept : ExtTreeMap Bucket ModelStats, Occupied kept →
      Occupied (keepPending provider effort providerConfirmed kept entries) := by
  induction entries with
  | nil => exact fun _ keptOccupied => keptOccupied
  | cons entry entries ih =>
      intro kept keptOccupied
      apply ih fun other member => occupied other (List.mem_cons_of_mem _ member)
      dsimp only
      split
      · exact addAmount_nonzero keptOccupied (occupied entry List.mem_cons_self)
      · exact keptOccupied

/-- No Codex entry is empty, and no conversation has an empty amount pending. -/
structure CodexKept (g : AggregatorInner) : Prop where
  stored : AllEntries (fun _ stats => stats ≠ 0) (g.agent agentCodex).buckets
  pending : ∀ (id : String) (entries : ExtTreeMap Bucket ModelStats),
    g.codexPendingSse[id]? = some entries → Occupied entries

namespace CodexKept

variable {g next : AggregatorInner}

theorem new : CodexKept Aggregator.new where
  stored := AllEntries.empty
  pending id entries found := by
    simp [Aggregator.new] at found

theorem congr (kept : CodexKept g) (agent : next.agent agentCodex = g.agent agentCodex)
    (pendingSse : next.codexPendingSse = g.codexPendingSse) : CodexKept next where
  stored := agent ▸ kept.stored
  pending := pendingSse ▸ kept.pending

theorem recordInto (kept : CodexKept g) (bucket : Bucket) {stats : ModelStats}
    (occupied : stats ≠ 0) : CodexKept (recordInto g agentCodex bucket stats) where
  stored := by
    rw [recordInto_agent, if_pos rfl]
    exact kept.stored.addEntry (fun empty => occupied (ModelStats.add_eq_zero_iff.mp empty).2)
      fun _ present empty => present (ModelStats.add_eq_zero_iff.mp empty).1
  pending := kept.pending

theorem moveCodexBucketStats (kept : CodexKept g) (source target : Bucket) {stats : ModelStats}
    (occupied : stats ≠ 0) : CodexKept (moveCodexBucketStats g source target stats) := by
  cases found : g.agents[agentCodex]? with
  | none =>
      have unchanged : OtelLogger.moveCodexBucketStats g source target stats = g := by
        simp only [OtelLogger.moveCodexBucketStats, found]
      rwa [unchanged]
  | some agentStats =>
      have before : g.agent agentCodex = agentStats := by
        simp [AggregatorInner.agent, found]
      have after : (OtelLogger.moveCodexBucketStats g source target stats).agent agentCodex =
          agentStats.moveBucketStats source target stats := by
        simp [OtelLogger.moveCodexBucketStats, AggregatorInner.agent, found]
      refine ⟨?_, ?_⟩
      · have taken := (before ▸ kept.stored).subtractEntry source stats
          fun _ _ remains => ModelStats.hasAnyValue_iff.mp remains
        rw [after]
        exact taken.addEntry (fun empty => occupied (ModelStats.add_eq_zero_iff.mp empty).2)
          fun _ present empty => present (ModelStats.add_eq_zero_iff.mp empty).1
      · rw [moveCodexBucketStats_eq]
        exact kept.pending

theorem movePending (provider effort : String) (entries : List (Bucket × ModelStats))
    (occupied : ∀ entry ∈ entries, entry.2 ≠ 0) (kept : CodexKept g) :
    CodexKept (movePending provider effort g entries) := by
  induction entries generalizing g with
  | nil => exact kept
  | cons entry entries ih =>
      rw [movePending_cons]
      apply ih fun other member => occupied other (List.mem_cons_of_mem _ member)
      split
      · exact kept.moveCodexBucketStats _ _ (occupied entry List.mem_cons_self)
      · exact kept

theorem mergeConversationPending (kept : CodexKept g) (provider id effort : String)
    (providerConfirmed : Bool) :
    CodexKept (mergeConversationPending g provider id effort providerConfirmed).1 := by
  cases found : g.codexPendingSse[id]? with
  | none =>
      simp only [OtelLogger.mergeConversationPending, found]
      exact kept
  | some entries =>
      have occupied : ∀ entry ∈ entries.toList, entry.2 ≠ 0 := fun entry member =>
        kept.pending id entries found entry.1 entry.2
          (ExtTreeMap.mem_toList_iff_getElem?_eq_some.mp member)
      rw [mergeConversationPending_of_some found]
      refine ⟨(kept.movePending provider effort entries.toList occupied).stored, ?_⟩
      intro other others present
      simp only at present
      split at present
      · rw [ExtTreeMap.getElem?_erase] at present
        split at present
        · simp at present
        · exact kept.pending other others present
      · rw [ExtTreeMap.getElem?_insert, ExtTreeMap.getElem?_erase] at present
        split at present
        · obtain rfl := Option.some.inj present
          exact keepPending_nonzero _ _ _ _ occupied _ occupied_empty
        · exact kept.pending other others present

theorem mergeLegacyUnknown (kept : CodexKept g) (provider model effort : String) :
    CodexKept (mergeLegacyUnknown g provider model effort).1 := by
  unfold OtelLogger.mergeLegacyUnknown
  split
  · exact kept
  · dsimp only
    split
    · exact kept
    · split
      · exact kept
      · split
        · rename_i movable
          exact kept.moveCodexBucketStats _ _ (ModelStats.hasAnyValue_iff.mp movable)
        · exact kept

theorem mergeCodexPendingSse (kept : CodexKept g) (provider model id effort : String)
    (providerConfirmed : Bool) :
    CodexKept (mergeCodexPendingSse g provider model id effort providerConfirmed).1 := by
  unfold OtelLogger.mergeCodexPendingSse
  split
  · exact kept.mergeConversationPending provider id effort providerConfirmed
  · exact kept.mergeLegacyUnknown provider model effort

theorem updateCodexSessionWithLast (kept : CodexKept g) (service : String)
    (session : CodexSession) (updateLast : Bool) :
    CodexKept (updateCodexSessionWithLast g service session updateLast).1 := by
  have remembered : CodexKept (rememberSession g service session updateLast) :=
    kept.congr rfl rfl
  rw [updateCodexSessionWithLast_eq]
  exact remembered.mergeCodexPendingSse _ _ _ _ _

theorem updateCodexLastEffort (kept : CodexKept g) (service effort : String) :
    CodexKept (updateCodexLastEffort g service effort).1 := by
  unfold OtelLogger.updateCodexLastEffort
  generalize (codexLastSession g service).getD _ = last
  dsimp only
  split
  · exact kept
  · have remembered : CodexKept
        { g with
          codexLastSessions := g.codexLastSessions.insert service { last with effort := effort } } :=
      kept.congr rfl rfl
    split
    · exact remembered.mergeCodexPendingSse _ _ _ _ _
    · exact remembered

theorem claudeOnly (kept : CodexKept g) (only : ClaudeOnly g next) : CodexKept next :=
  kept.congr (only.agents agentCodex (Ne.symm agentClaude_ne_agentCodex)) only.pendingSse

theorem requestSpan (kept : CodexKept g) (service : String) (attrs : List KeyValue) :
    CodexKept (Step.apply g (.requestSpan service attrs)).1 := by
  simp only [Step.apply, ingestRequestSpan, if_true, updateCodexEffortFromRequestAttrs]
  cases requestEffort attrs with
  | none => exact kept
  | some effort =>
      cases conversationId attrs with
      | some id => exact kept.updateCodexSessionWithLast service _ _
      | none => exact kept.updateCodexLastEffort service effort

theorem completion (kept : CodexKept g) (service : String) (log : LogRecord) :
    CodexKept (ingestSseCompletion service g log).1 := by
  unfold ingestSseCompletion
  cases found : extractCodexSseResponseCompleted g service log with
  | none => exact kept
  | some parsed =>
      obtain ⟨_, occupied, _, _⟩ := extract_facts found
      have recorded := kept.recordInto parsed.bucket occupied
      dsimp only
      split
      · exact kept
      · cases parsed.pendingConversationId with
        | none => exact recorded.congr rfl rfl
        | some id =>
            refine ⟨recorded.stored, ?_⟩
            intro other entries present
            simp only [addPending, ExtTreeMap.getElem?_insert] at present
            split at present
            · obtain rfl := Option.some.inj present
              refine addAmount_nonzero ?_ occupied
              cases before : g.codexPendingSse[id]? with
              | none =>
                  simp only [OtelLogger.recordInto, before]
                  exact occupied_empty
              | some previous =>
                  simp only [OtelLogger.recordInto, before]
                  exact kept.pending id previous before
            · exact kept.pending other entries present

theorem turn (kept : CodexKept g) (service : String) (attrs : List KeyValue) {value : ℕ}
    {stats : ModelStats} (occupied : value ≠ 0 → stats ≠ 0) :
    CodexKept (recordCodexTurn service attrs value stats g).1 := by
  unfold recordCodexTurn
  split
  · exact kept
  · rename_i positive
    exact kept.recordInto _ (occupied positive)

theorem codexTokens (kept : CodexKept g) (service : String) (dp : HistogramDataPoint) :
    CodexKept (ingestCodexTokenPoint service g dp).1 := by
  unfold ingestCodexTokenPoint
  dsimp only
  split
  · exact kept
  · cases found : codexTokenStats dp with
    | none => exact kept
    | some stats =>
        dsimp only
        split
        · exact kept
        · rename_i positive
          have recorded := kept.recordInto (codexMetricBucket g service dp.attributes)
            (codexTokenStats_ne_zero found positive)
          exact recorded.congr rfl rfl

theorem apply (kept : CodexKept g) (step : Step) : CodexKept (step.apply g).1 := by
  cases step with
  | session service started => exact kept.updateCodexSessionWithLast service started true
  | completion service log => exact kept.completion service log
  | requestSpan service attrs => exact kept.requestSpan service attrs
  | codexTokens service dp => exact kept.codexTokens service dp
  | turnCount service dp =>
      exact kept.turn service _ fun positive zero =>
        positive (congrArg ModelStats.requestCount zero)
  | duration service dp =>
      exact kept.turn service _ fun positive zero =>
        positive (congrArg ModelStats.durationMs zero)
  | claudeLog log => exact kept.claudeOnly (Step.apply_claudeOnly _ rfl g)
  | claudeTokens dp => exact kept.claudeOnly (Step.apply_claudeOnly _ rfl g)
  | claudeCost dp => exact kept.claudeOnly (Step.apply_claudeOnly _ rfl g)

theorem run (steps : List Step) : CodexKept (Aggregator.runSteps steps) := by
  induction steps using List.reverseRecOn with
  | nil => exact CodexKept.new
  | append_singleton steps step ih =>
      rw [Aggregator.runSteps_concat]
      exact ih.apply step

end CodexKept

/-! ### Snapshots -/

namespace Aggregator

theorem runSteps_nonzero (steps : List Step) (name : String) :
    AllEntries (fun _ stats => stats ≠ 0) ((runSteps steps).agent name).buckets := by
  by_cases claude : name = agentClaude
  · subst name
    exact lasting_nonzero.run steps
  · by_cases codex : name = agentCodex
    · subst name
      exact (CodexKept.run steps).stored
    · rw [runSteps_agent_other steps claude codex]
      exact AllEntries.empty

/-- Every entry of every agent is stored under its own key, is named in full and holds something,
and keys of different names differ. -/
theorem snapshot_wellFormed (calls : List Call) :
    (∀ (name : String) (agentStats : AgentStats) (key : String) (entry : BucketStats),
      (run calls).agents[name]? = some agentStats → agentStats.buckets[key]? = some entry →
      key = bucketKey entry.provider entry.model entry.effort ∧
        (entry.provider ≠ "" ∧ entry.model ≠ "" ∧ entry.effort ≠ "") ∧
        ((∃ counter, entry.stats.counter counter ≠ 0) ∨ entry.stats.costUsd ≠ 0)) ∧
    ∀ provider model effort otherProvider otherModel otherEffort : String,
      bucketKey provider model effort = bucketKey otherProvider otherModel otherEffort →
      provider = otherProvider ∧ model = otherModel ∧ effort = otherEffort := by
  refine ⟨?_, fun _ _ _ _ _ _ same => bucketKey_injective same⟩
  intro name agentStats key entry found stored
  have all := runSteps_nonzero (calls.flatMap Call.steps) name
  rw [← run_eq, AggregatorInner.agent, found] at all
  obtain ⟨keyed, occupied⟩ := all key entry stored
  exact ⟨keyed, entry.named, ModelStats.ne_zero_iff.mp occupied⟩

theorem snapshot_wellFormed_escaped :
    ∃ agentStats entry,
      (run [(claudeTokenMessage "a/b" 5).call]).agents[agentClaude]? = some agentStats ∧
        agentStats.buckets["anthropic/a%2Fb/unknown"]? = some entry ∧
        "anthropic/a%2Fb/unknown" = bucketKey entry.provider entry.model entry.effort := by
  have present : ((run [(claudeTokenMessage "a/b" 5).call]).agents[agentClaude]?.bind
      fun agentStats => agentStats.buckets["anthropic/a%2Fb/unknown"]?).isSome = true := by
    decide +kernel
  obtain ⟨entry, found⟩ := Option.isSome_iff_exists.mp present
  obtain ⟨agentStats, own, stored⟩ := Option.bind_eq_some_iff.mp found
  exact ⟨agentStats, entry, own, stored,
    ((snapshot_wellFormed _).1 agentClaude agentStats _ entry own stored).1⟩

end Aggregator

end OtelLogger
