import OtelLogger.CodexSteps

/-!
The total of Codex over a run. Moving usage between buckets leaves it as it is, so that it only
ever grows by samples, also where the counters saturate; a summary written later never shows less.
-/

namespace OtelLogger

open Std (ExtTreeMap)

def codexTotal (g : AggregatorInner) : ModelStats :=
  (g.agent agentCodex).total

section Moving

variable (g : AggregatorInner)

theorem codexTotal_move (source target : Bucket) (stats : ModelStats) :
    codexTotal (moveCodexBucketStats g source target stats) = codexTotal g := by
  unfold moveCodexBucketStats codexTotal AggregatorInner.agent
  split
  · rfl
  · rename_i agentStats found
    simp [found, AgentStats.moveBucketStats]

theorem codexTotal_movePending (provider effort : String)
    (entries : List (Bucket × ModelStats)) :
    codexTotal (movePending provider effort g entries) = codexTotal g := by
  induction entries generalizing g with
  | nil => rfl
  | cons entry entries ih =>
      refine (ih _).trans ?_
      dsimp only
      split
      · exact codexTotal_move g _ _ _
      · rfl

theorem codexTotal_merge (provider model id effort : String) (providerConfirmed : Bool) :
    codexTotal (mergeCodexPendingSse g provider model id effort providerConfirmed).1 =
      codexTotal g := by
  unfold mergeCodexPendingSse
  split
  · unfold mergeConversationPending
    split
    · rfl
    · rename_i entries _
      obtain ⟨moved, _⟩ := foldl_mergePendingEntry provider effort providerConfirmed entries.toList
        { g := { g with codexPendingSse := g.codexPendingSse.erase id }, kept := ∅,
          movedAny := false }
      have same := (congrArg codexTotal moved).trans (codexTotal_movePending _ provider effort _)
      dsimp only
      split
      · exact same
      · exact same
  · unfold mergeLegacyUnknown
    split
    · rfl
    · dsimp only
      split
      · rfl
      · split
        · rfl
        · split
          · exact codexTotal_move g _ _ _
          · rfl

theorem codexTotal_session (service : String) (session : CodexSession) (updateLast : Bool) :
    codexTotal (updateCodexSessionWithLast g service session updateLast).1 = codexTotal g := by
  rw [updateCodexSessionWithLast_eq, codexTotal_merge]
  rfl

theorem codexTotal_requestSpan (service : String) (attrs : List KeyValue) :
    codexTotal (Step.apply g (.requestSpan service attrs)).1 = codexTotal g := by
  simp only [Step.apply, ingestRequestSpan, if_true, updateCodexEffortFromRequestAttrs]
  cases requestEffort attrs with
  | none => rfl
  | some effort =>
      cases conversationId attrs with
      | some id => exact codexTotal_session g service _ _
      | none =>
          dsimp only
          unfold updateCodexLastEffort
          generalize (codexLastSession g service).getD _ = last
          dsimp only
          split
          · rfl
          · split
            · rw [codexTotal_merge]
              rfl
            · rfl

theorem codexTotal_recordInto (bucket : Bucket) (stats : ModelStats) :
    codexTotal (recordInto g agentCodex bucket stats) = (codexTotal g).add stats := by
  rw [codexTotal, recordInto_agent, if_pos rfl]
  rfl

end Moving

/-! ### Growth -/

/-- The total after some samples, added one after the other. -/
def addAll (total : ModelStats) (samples : List ModelStats) : ModelStats :=
  samples.foldl ModelStats.add total

theorem codexTurn_grows (service : String) (attrs : List KeyValue) (value : ℕ)
    (stats : ModelStats) (g : AggregatorInner) :
    ∃ samples, codexTotal (recordCodexTurn service attrs value stats g).1 =
      addAll (codexTotal g) samples := by
  unfold recordCodexTurn
  split
  · exact ⟨[], rfl⟩
  · exact ⟨[stats], codexTotal_recordInto g _ _⟩

theorem Step.codexTotal_grows (step : Step) (g : AggregatorInner) :
    ∃ samples, codexTotal (step.apply g).1 = addAll (codexTotal g) samples := by
  have claude (own : step.isClaude = true) :
      ∃ samples, codexTotal (step.apply g).1 = addAll (codexTotal g) samples := by
    have same := (Step.apply_claudeOnly step own g).agents agentCodex
      (Ne.symm agentClaude_ne_agentCodex)
    exact ⟨[], congrArg AgentStats.total same⟩
  cases step with
  | claudeLog | claudeTokens | claudeCost => exact claude rfl
  | session service started => exact ⟨[], codexTotal_session g service started true⟩
  | requestSpan service attrs => exact ⟨[], codexTotal_requestSpan g service attrs⟩
  | turnCount service dp | duration service dp => exact codexTurn_grows service _ _ _ g
  | completion service log =>
      simp only [Step.apply, ingestSseCompletion]
      split
      · exact ⟨[], rfl⟩
      · rename_i parsed _
        split
        · exact ⟨[], rfl⟩
        · refine ⟨[parsed.stats], ?_⟩
          refine Eq.trans ?_ (codexTotal_recordInto g parsed.bucket parsed.stats)
          cases parsed.pendingConversationId <;> rfl
  | codexTokens service dp =>
      simp only [Step.apply, ingestCodexTokenPoint]
      split
      · exact ⟨[], rfl⟩
      · split
        · exact ⟨[], rfl⟩
        · split
          · exact ⟨[], rfl⟩
          · rename_i stats _ _
            exact ⟨[stats], codexTotal_recordInto g _ stats⟩

theorem applyAll_codexTotal (steps : List Step) (g : AggregatorInner) :
    ∃ samples, codexTotal (applyAll g steps).1 = addAll (codexTotal g) samples := by
  induction steps using List.reverseRecOn with
  | nil => exact ⟨[], rfl⟩
  | append_singleton steps step ih =>
      obtain ⟨before, total⟩ := ih
      obtain ⟨sample, grown⟩ := step.codexTotal_grows (applyAll g steps).1
      refine ⟨before ++ sample, ?_⟩
      have last : (applyAll g (steps ++ [step])).1 = (step.apply (applyAll g steps).1).1 := by
        simp only [applyAll, forEach_append, forEach_singleton]
      rw [last, grown, total, addAll, addAll, addAll, List.foldl_append]

namespace ModelStats

/-- No counter and no cost is less. -/
structure AtMost (first second : ModelStats) : Prop where
  counter : ∀ counter, first.counter counter ≤ second.counter counter
  cost : first.costUsd ≤ second.costUsd

theorem AtMost.refl (stats : ModelStats) : stats.AtMost stats :=
  ⟨fun _ => le_rfl, le_rfl⟩

theorem AtMost.trans {first second third : ModelStats} (left : first.AtMost second)
    (right : second.AtMost third) : first.AtMost third :=
  ⟨fun counter => (left.counter counter).trans (right.counter counter),
    left.cost.trans right.cost⟩

theorem counter_saturates (total sample : ModelStats) (counter : Counter) :
    (total.add sample).counter counter =
      saturatingAdd (total.counter counter) (sample.counter counter) := by
  cases counter <;> rfl

theorem fits_add (total sample : ModelStats) : (total.add sample).Fits := by
  intro counter
  rw [counter_saturates]
  unfold saturatingAdd u64Max
  omega

theorem Fits.atMost_add {total : ModelStats} (fits : total.Fits) (sample : ModelStats) :
    total.AtMost (total.add sample) where
  counter counter := by
    have bound := fits counter
    rw [counter_saturates]
    unfold saturatingAdd u64Max
    omega
  cost := le_self_add

theorem Fits.addAll {total : ModelStats} (fits : total.Fits) (samples : List ModelStats) :
    (OtelLogger.addAll total samples).Fits ∧ total.AtMost (OtelLogger.addAll total samples) := by
  induction samples generalizing total with
  | nil => exact ⟨fits, AtMost.refl total⟩
  | cons sample samples ih =>
      obtain ⟨later, grown⟩ := ih (fits_add total sample)
      exact ⟨later, (fits.atMost_add sample).trans grown⟩

end ModelStats

namespace Aggregator

theorem codexTotal_fits (calls : List Call) : (codexTotal (run calls)).Fits := by
  obtain ⟨samples, total⟩ := applyAll_codexTotal (calls.flatMap Call.steps) new
  rw [run_eq, runSteps, total]
  refine (ModelStats.Fits.addAll ?_ samples).1
  intro counter
  cases counter <;> decide

/-- Over every run, whatever arrives and also where a counter is full: what comes later never
makes a counter or the cost of Codex's total smaller, and no counter leaves its range. -/
theorem codex_total_monotone (calls more : List Call) :
    (codexTotal (run (calls ++ more))).Fits ∧
      (codexTotal (run calls)).AtMost (codexTotal (run (calls ++ more))) := by
  have fits := codexTotal_fits calls
  obtain ⟨samples, total⟩ :=
    applyAll_codexTotal (more.flatMap Call.steps) (runSteps (calls.flatMap Call.steps))
  have split : run (calls ++ more) =
      (applyAll (runSteps (calls.flatMap Call.steps)) (more.flatMap Call.steps)).1 := by
    simp only [run_eq, runSteps, applyAll, List.flatMap_append, forEach_append]
  rw [split, total, ← run_eq]
  exact fits.addAll samples

end Aggregator

end OtelLogger
