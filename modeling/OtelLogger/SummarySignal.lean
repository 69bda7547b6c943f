import OtelLogger.ArrivalOrder
import OtelLogger.BareNames

/-!
What a returned count of zero says. Every operation that changes the agents counts itself, with
one exception: a metric point that is not counted still registers its model name, and so may
fold the buckets of the bare name.
-/

namespace OtelLogger

open Std (ExtTreeMap TransOrd LawfulEqOrd)
open Accounting

/-! ### Codex counts what it changes -/

section Codex

variable {g : AggregatorInner}

theorem mergePendingEntries_quiet (provider effort : String) (providerConfirmed : Bool)
    (entries : List (Bucket × ModelStats)) : ∀ merge : PendingMerge,
      (entries.foldl (mergePendingEntry provider effort providerConfirmed) merge).movedAny =
        false →
      merge.movedAny = false ∧
        (entries.foldl (mergePendingEntry provider effort providerConfirmed) merge).g =
          merge.g := by
  induction entries with
  | nil => exact fun merge quiet => ⟨quiet, rfl⟩
  | cons entry entries ih =>
      intro merge quiet
      obtain ⟨stayed, rest⟩ := ih _ quiet
      rw [List.foldl_cons, rest]
      unfold mergePendingEntry at stayed ⊢
      dsimp only at stayed ⊢
      split at stayed
      · simp at stayed
      · rename_i same
        rw [if_neg same]
        exact ⟨stayed, rfl⟩

theorem mergeCodexPendingSse_quiet {provider model id effort : String} {providerConfirmed : Bool}
    (quiet : (mergeCodexPendingSse g provider model id effort providerConfirmed).2 = false) :
    (mergeCodexPendingSse g provider model id effort providerConfirmed).1.agents = g.agents := by
  unfold mergeCodexPendingSse at quiet ⊢
  split at quiet
  · rename_i identified
    rw [if_pos identified]
    unfold mergeConversationPending at quiet ⊢
    cases pending : g.codexPendingSse[id]? with
    | none => rfl
    | some entries =>
        simp only [pending] at quiet
        have moved := mergePendingEntries_quiet provider effort providerConfirmed entries.toList
          { g := { g with codexPendingSse := g.codexPendingSse.erase id }
            kept := ∅
            movedAny := false }
        dsimp only
        split at quiet
        · rename_i settled
          rw [if_pos settled, (moved quiet).2]
        · rename_i kept
          rw [if_neg kept]
          have same := congrArg AggregatorInner.agents (moved quiet).2
          exact same
  · rename_i anonymous
    rw [if_neg anonymous]
    unfold mergeLegacyUnknown at quiet ⊢
    split
    · rfl
    · dsimp only at quiet ⊢
      split
      · rfl
      · split
        · rfl
        · split
          · simp [*] at quiet
          · rfl

theorem updateCodexSessionWithLast_quiet {service : String} {session : CodexSession}
    {updateLast : Bool}
    (quiet : (updateCodexSessionWithLast g service session updateLast).2 = false) :
    (updateCodexSessionWithLast g service session updateLast).1.agents = g.agents := by
  rw [updateCodexSessionWithLast_eq] at quiet ⊢
  exact mergeCodexPendingSse_quiet quiet

theorem updateCodexEffort_quiet {service : String} {attrs : List KeyValue}
    (quiet : (updateCodexEffortFromRequestAttrs g service attrs).2 = false) :
    (updateCodexEffortFromRequestAttrs g service attrs).1.agents = g.agents := by
  unfold updateCodexEffortFromRequestAttrs at quiet ⊢
  cases found : requestEffort attrs with
  | none => rfl
  | some effort =>
      simp only [found] at quiet ⊢
      cases identified : conversationId attrs with
      | some id =>
          simp only [identified] at quiet ⊢
          exact updateCodexSessionWithLast_quiet quiet
      | none =>
          simp only [identified] at quiet ⊢
          unfold updateCodexLastEffort at quiet ⊢
          dsimp only at quiet ⊢
          split
          · rfl
          · rename_i changed
            rw [if_neg changed] at quiet
            split
            · rename_i anonymous
              rw [if_pos anonymous] at quiet
              exact mergeCodexPendingSse_quiet quiet
            · rfl

theorem recordCodexTurn_quiet {service : String} {attrs : List KeyValue} {value : ℕ}
    {stats : ModelStats} (quiet : (recordCodexTurn service attrs value stats g).2 = 0) :
    (recordCodexTurn service attrs value stats g).1 = g := by
  unfold recordCodexTurn at quiet ⊢
  split at quiet
  · rename_i zero
    rw [if_pos zero]
  · simp at quiet

theorem unmoved_of_count {moved : Bool} (quiet : (if moved then 1 else 0) = 0) :
    moved = false := by
  cases moved with
  | false => rfl
  | true => simp at quiet

theorem Step.apply_codex_quiet {step : Step} (codex : step.isClaude = false)
    (quiet : (step.apply g).2 = 0) : (step.apply g).1.agents = g.agents := by
  cases step with
  | claudeLog | claudeTokens | claudeCost => simp [Step.isClaude] at codex
  | session service started =>
      have unmoved : (updateCodexSessionWithLast g service started true).2 = false :=
        unmoved_of_count quiet
      exact updateCodexSessionWithLast_quiet unmoved
  | completion service log =>
      simp only [Step.apply] at quiet ⊢
      unfold ingestSseCompletion at quiet ⊢
      cases parsed : extractCodexSseResponseCompleted g service log with
      | none => rfl
      | some extraction =>
          simp only [parsed] at quiet ⊢
          split at quiet
          · rename_i sourced
            rw [if_pos sourced]
          · simp at quiet
  | requestSpan service attrs =>
      have unmoved : (updateCodexEffortFromRequestAttrs g service attrs).2 = false :=
        unmoved_of_count quiet
      exact updateCodexEffort_quiet unmoved
  | codexTokens service dp =>
      simp only [Step.apply] at quiet ⊢
      unfold ingestCodexTokenPoint at quiet ⊢
      dsimp only at quiet ⊢
      split
      · rfl
      · rename_i counted
        rw [if_neg counted] at quiet
        cases typed : codexTokenStats dp with
        | none => rfl
        | some stats =>
            simp only [typed] at quiet ⊢
            split at quiet
            · rename_i zero
              rw [if_pos zero]
            · simp at quiet
  | turnCount service dp =>
      exact congrArg AggregatorInner.agents (recordCodexTurn_quiet quiet)
  | duration service dp =>
      exact congrArg AggregatorInner.agents (recordCodexTurn_quiet quiet)

end Codex

/-! ### Claude folds without counting -/

def HasModel (g : AggregatorInner) (model : String) : Prop :=
  ∃ (key : String) (entry : BucketStats),
    (g.agent agentClaude).buckets[key]? = some entry ∧ entry.model = model

theorem HasModel.congr {g next : AggregatorInner} {model : String}
    (same : next.agents = g.agents) : HasModel next model ↔ HasModel g model := by
  simp only [HasModel, AggregatorInner.agent, same]

/-- The step is a metric point with a full name whose bare name has buckets, was not reported
by metrics so far, and is not mapped to that full name yet. -/
def FoldsAfter (g : AggregatorInner) (earlier : List Step) (step : Step) : Prop :=
  ∃ full, step.metricName = some full ∧ FoldsBare g full ∧
    bareModel full ∉ metricNames earlier ∧ HasModel g (bareModel full)

def FoldsInto (g : AggregatorInner) (steps : List Step) : Prop :=
  ∃ earlier step, earlier ++ [step] <+: steps ∧ FoldsAfter g earlier step

section Quiet

variable {g : AggregatorInner} {full : String}

theorem recordClaudeMetricUsage_quiet {bucket : Bucket} {stats : ModelStats}
    (quiet : (recordClaudeMetricUsage g bucket stats).2 = 0) :
    (recordClaudeMetricUsage g bucket stats).1 = g := by
  apply recordClaudeMetricUsage_of_ignored
  rintro ⟨usage, source⟩
  rw [recordClaudeMetricUsage, if_pos usage, if_neg source] at quiet
  simp at quiet

theorem Step.apply_point_quiet {step : Step} (named : step.metricName = some full)
    (quiet : (step.apply g).2 = 0) :
    full ≠ "" ∧ (step.apply g).1 = registerCanonicalClaudeModel g full := by
  cases step with
  | claudeTokens dp =>
      obtain rfl := Option.some.inj named
      refine ⟨nonEmpty_ne _, ?_⟩
      have registered := claudeMetricModel_fst g dp.attributes
      simp only [Step.apply, ingestClaudeTokenPoint] at quiet ⊢
      generalize claudeMetricModel g dp.attributes = reported at registered quiet ⊢
      cases typed : claudeTokenStats dp with
      | none => exact registered
      | some stats =>
          simp only [typed] at quiet ⊢
          exact (recordClaudeMetricUsage_quiet quiet).trans registered
  | claudeCost dp =>
      obtain rfl := Option.some.inj named
      refine ⟨nonEmpty_ne _, ?_⟩
      have registered := claudeMetricModel_fst g dp.attributes
      simp only [Step.apply, ingestClaudeCostPoint] at quiet ⊢
      generalize claudeMetricModel g dp.attributes = reported at registered quiet ⊢
      exact (recordClaudeMetricUsage_quiet quiet).trans registered
  | _ => simp [Step.metricName] at named

theorem Step.apply_other_quiet {step : Step} (other : step.metricName = none)
    (quiet : (step.apply g).2 = 0) :
    (step.apply g).1.agents = g.agents ∧
      (step.apply g).1.claudeMetricModels = g.claudeMetricModels ∧
      (step.apply g).1.claudeCanonicalModels = g.claudeCanonicalModels := by
  cases claude : step.isClaude with
  | false =>
      have only := Step.apply_codexOnly step claude g
      exact ⟨Step.apply_codex_quiet claude quiet, only.metricModels, only.canonicalModels⟩
  | true =>
      cases step with
      | claudeLog log =>
          simp only [Step.apply, Step.ingestClaudeApiRequest] at quiet ⊢
          cases parsed : extractClaudeApiRequestMeta g log with
          | none => exact ⟨rfl, rfl, rfl⟩
          | some request => simp [parsed] at quiet
      | claudeTokens | claudeCost => simp [Step.metricName] at other
      | _ => simp [Step.isClaude] at claude

theorem foldBare_agents
    (all : AllEntries (fun bucket _ => bucket.provider = providerAnthropic)
      (g.agent agentClaude).buckets)
    (absent : ¬HasModel g (bareModel full)) : (foldBare g full).agents = g.agents := by
  cases found : g.agents[agentClaude]? with
  | none => simp [foldBare, found]
  | some agentStats =>
      have own : g.agent agentClaude = agentStats := by
        simp [AggregatorInner.agent, found]
      rw [own] at all
      have nothing : visitedKeys agentStats.buckets (bareModel full) = [] := by
        apply List.eq_nil_iff_forall_not_mem.mpr
        intro key visited
        have stored : key ∈ agentStats.buckets.keys :=
          (List.mem_filter.mp ((List.takeWhile_sublist _).subset visited)).1
        obtain ⟨entry, present⟩ := Option.isSome_iff_exists.mp
          (ExtTreeMap.isSome_getElem?_iff_mem.mpr (ExtTreeMap.mem_keys.mp stored))
        exact absent ⟨key, entry, own ▸ present, ((mem_visitedKeys all present _).mp visited).2⟩
      have same : mergeBareIntoFull agentStats (bareModel full) full = agentStats := by
        have buckets := mergeBareIntoFull_buckets agentStats (bareModel full) full
        rw [nothing, List.foldl_nil] at buckets
        exact congrArg (AgentStats.mk agentStats.total) buckets
      simp only [foldBare, found, same]
      apply ExtTreeMap.ext_getElem?
      intro name
      rw [lookup_insert]
      split
      · rename_i equal
        rw [← equal, found]
      · rfl

theorem foldBare_absent
    (all : AllEntries (fun bucket _ => bucket.provider = providerAnthropic)
      (g.agent agentClaude).buckets)
    (named : full ≠ "") (suffixed : bareModel full ≠ full) {bare : String}
    (plain : bareModel bare = bare) (absent : bare = bareModel full ∨ ¬HasModel g bare) :
    ¬HasModel (foldBare g full) bare := by
  rintro ⟨key, entry, found, model⟩
  rw [foldBare_agent, if_pos rfl] at found
  have distinct : nonEmpty full = full := nonEmpty_of_ne named
  rcases absent with rfl | absent
  · refine mergeBareIntoFull_free all ?_ found model
    rw [distinct]
    exact Ne.symm suffixed
  · have others : AllEntries (fun bucket _ => bucket.model ≠ bare)
        (g.agent agentClaude).buckets := by
      intro other stored present
      exact ⟨(all other stored present).1, fun same => absent ⟨other, stored, present, same⟩⟩
    have foreign : full ≠ bare := by
      rintro rfl
      exact suffixed plain
    have merged := others.mergeBareIntoFull (bareModel full) full
      (fun bucket _ _ => by rwa [Bucket.fromParts_model, distinct])
      (fun _ _ _ _ stored => stored)
    exact (merged key entry found).2 model

end Quiet

/-! ### Calls that return zero -/

/-- So far nothing the agents show has changed, and the name tables are those of the start but
for the names registered since. -/
structure Steady (g reached : AggregatorInner) (steps : List Step) : Prop where
  agents : reached.agents = g.agents
  metric : ∀ name, name ∈ reached.claudeMetricModels ↔
    name ∈ g.claudeMetricModels ∨ name ∈ metricNames steps
  canonical : ∀ bare : String, HasModel g bare → bare ∉ metricNames steps →
    reached.claudeCanonicalModels[bare]? = g.claudeCanonicalModels[bare]?

def Emptied (g reached : AggregatorInner) : Prop :=
  ∃ bare, bareModel bare = bare ∧ HasModel g bare ∧ ¬HasModel reached bare

theorem Emptied.agents_ne {g reached : AggregatorInner} (emptied : Emptied g reached) :
    reached.agents ≠ g.agents := by
  intro same
  obtain ⟨bare, _, before, after⟩ := emptied
  exact after ((HasModel.congr same).mpr before)

section Calls

variable {g reached : AggregatorInner} {steps : List Step} {step : Step}

theorem foldsInto_concat :
    FoldsInto g (steps ++ [step]) ↔ FoldsInto g steps ∨ FoldsAfter g steps step := by
  constructor
  · rintro ⟨earlier, other, reached, folds⟩
    rcases List.prefix_concat_iff.mp reached with same | before
    · obtain ⟨rfl, rfl⟩ := List.append_singleton_inj.mp same
      exact Or.inr folds
    · exact Or.inl ⟨earlier, other, before, folds⟩
  · rintro (⟨earlier, other, reached, folds⟩ | folds)
    · exact ⟨earlier, other, reached.trans (List.prefix_append _ _), folds⟩
    · exact ⟨steps, step, List.prefix_rfl, folds⟩

theorem Emptied.apply (emptied : Emptied g reached)
    (all : AllEntries (fun bucket _ => bucket.provider = providerAnthropic)
      (reached.agent agentClaude).buckets)
    (quiet : (step.apply reached).2 = 0) : Emptied g (step.apply reached).1 := by
  obtain ⟨bare, plain, before, after⟩ := emptied
  refine ⟨bare, plain, before, ?_⟩
  cases named : step.metricName with
  | none => rwa [HasModel.congr (Step.apply_other_quiet named quiet).1]
  | some full =>
      obtain ⟨occupied, result⟩ := Step.apply_point_quiet named quiet
      rw [result]
      rcases registerCanonicalClaudeModel_cases reached occupied with
        ⟨folds, registered⟩ | ⟨_, _, registered⟩ | ⟨_, _, registered⟩
      · rw [registered]
        exact foldBare_absent (g := reportModel reached full) all occupied folds.2.1 plain
          (Or.inr after)
      · rwa [registered]
      · rwa [registered]

theorem metricNames_concat_some {full : String} (named : step.metricName = some full)
    (name : String) :
    name ∈ metricNames (steps ++ [step]) ↔ name ∈ metricNames steps ∨ name = full := by
  simp [metricNames_concat, named]

theorem Steady.apply (steady : Steady g reached steps)
    (all : AllEntries (fun bucket _ => bucket.provider = providerAnthropic)
      (reached.agent agentClaude).buckets)
    (quiet : (step.apply reached).2 = 0) :
    (Steady g (step.apply reached).1 (steps ++ [step]) ∧ ¬FoldsAfter g steps step) ∨
      (Emptied g (step.apply reached).1 ∧ FoldsAfter g steps step) := by
  cases named : step.metricName with
  | none =>
      obtain ⟨agents, metric, canonical⟩ := Step.apply_other_quiet named quiet
      have names : metricNames (steps ++ [step]) = metricNames steps := by
        simp [metricNames_concat, named]
      refine Or.inl ⟨⟨agents.trans steady.agents, ?_, ?_⟩, ?_⟩
      · rw [metric, names]
        exact steady.metric
      · rw [canonical, names]
        exact steady.canonical
      · rintro ⟨full, own, _⟩
        simp [named] at own
  | some full =>
      obtain ⟨occupied, result⟩ := Step.apply_point_quiet named quiet
      rw [result]
      have noted (name : String) : name ∈ (reportModel reached full).claudeMetricModels ↔
          name ∈ g.claudeMetricModels ∨ name ∈ metricNames (steps ++ [step]) := by
        rw [metricNames_concat_some named, ← or_assoc, ← steady.metric]
        simp only [reportModel, ExtTreeMap.mem_insert, Std.compare_eq_iff_eq]
        rw [or_comm, @eq_comm _ full name]
      have mapped {bare : String} (present : HasModel g bare)
          (unreported : bare ∉ metricNames (steps ++ [step])) :
          reached.claudeCanonicalModels[bare]? = g.claudeCanonicalModels[bare]? := by
        rw [metricNames_concat_some named, not_or] at unreported
        exact steady.canonical bare present unreported.1
      rcases registerCanonicalClaudeModel_cases reached occupied with
        ⟨folds, registered⟩ | ⟨_, plain, registered⟩ | ⟨stays, suffixed, registered⟩
      · rw [registered]
        have fresh : bareModel full ∉ g.claudeMetricModels ∧
            bareModel full ∉ metricNames steps := by
          rw [← not_or, ← steady.metric]
          exact folds.2.2.1
        by_cases present : HasModel g (bareModel full)
        · refine Or.inr ⟨⟨bareModel full, bareModel_idem full, present, ?_⟩, ?_⟩
          · exact foldBare_absent (g := reportModel reached full) all occupied folds.2.1
              (bareModel_idem full) (Or.inl rfl)
          · refine ⟨full, named, ⟨folds.1, folds.2.1, fresh.1, ?_⟩, fresh.2, present⟩
            rw [← steady.canonical _ present fresh.2]
            exact folds.2.2.2
        · have absent : ¬HasModel (reportModel reached full) (bareModel full) := by
            have same : (reportModel reached full).agents = g.agents := steady.agents
            rwa [HasModel.congr same]
          refine Or.inl ⟨⟨?_, noted, ?_⟩, ?_⟩
          · exact (foldBare_agents all absent).trans steady.agents
          · intro bare own unreported
            have other : bareModel full ≠ bare := fun same => present (same ▸ own)
            rw [← mapped own unreported]
            simp [foldBare, reportModel, ExtTreeMap.getElem?_insert, other]
          · rintro ⟨other, same, _, _, own⟩
            exact present (Option.some.inj (same.symm.trans named) ▸ own)
      · rw [registered]
        refine Or.inl ⟨⟨steady.agents, noted, ?_⟩, ?_⟩
        · intro bare own unreported
          have other : full ≠ bare := by
            rintro rfl
            simp [metricNames_concat_some named] at unreported
          rw [← mapped own unreported]
          simp [ExtTreeMap.getElem?_insertIfNew, other]
        · rintro ⟨other, same, folds, _⟩
          obtain rfl := Option.some.inj (same.symm.trans named)
          exact plain.elim folds.1 folds.2.1
      · rw [registered]
        refine Or.inl ⟨⟨steady.agents, noted, fun bare => mapped⟩, ?_⟩
        rintro ⟨other, same, folds, fresh, own⟩
        obtain rfl := Option.some.inj (same.symm.trans named)
        refine stays ⟨folds.1, folds.2.1, ?_, ?_⟩
        · rw [steady.metric, not_or]
          exact ⟨folds.2.2.1, fresh⟩
        · rw [steady.canonical _ own fresh]
          exact folds.2.2.2

/-- A call that returns zero either leaves the agents alone, or folds and empties a bare name. -/
theorem quiet_calls (all : AllEntries (fun bucket _ => bucket.provider = providerAnthropic)
      (g.agent agentClaude).buckets) (quiet : (applyAll g steps).2 = 0) :
    (Steady g (applyAll g steps).1 steps ∧ ¬FoldsInto g steps) ∨
      (Emptied g (applyAll g steps).1 ∧ FoldsInto g steps) := by
  have anthropic (taken : List Step) :
      AllEntries (fun bucket _ => bucket.provider = providerAnthropic)
        ((applyAll g taken).1.agent agentClaude).buckets := by
    have kept (reached : AggregatorInner) (step : Step) (_ : step ∈ taken)
        (own : AllEntries (fun bucket _ => bucket.provider = providerAnthropic)
          (reached.agent agentClaude).buckets) :
        AllEntries (fun bucket _ => bucket.provider = providerAnthropic)
          ((step.apply reached).1.agent agentClaude).buckets :=
      lasting_anthropic.apply own step
    exact forEach_invariant kept g all
  induction steps using List.reverseRecOn with
  | nil =>
      refine Or.inl ⟨⟨rfl, ?_, fun _ _ _ => rfl⟩, ?_⟩
      · simp [applyAll, metricNames]
      · rintro ⟨earlier, step, reached, _⟩
        simp at reached
  | append_singleton steps step ih =>
      simp only [applyAll, forEach_append, forEach_singleton, Nat.add_eq_zero_iff] at quiet ⊢
      rw [foldsInto_concat]
      rcases ih quiet.1 with ⟨steady, stays⟩ | ⟨emptied, folds⟩
      · rcases steady.apply (anthropic steps) quiet.2 with ⟨next, spares⟩ | ⟨next, folds⟩
        · exact Or.inl ⟨next, not_or.mpr ⟨stays, spares⟩⟩
        · exact Or.inr ⟨next, Or.inr folds⟩
      · exact Or.inr ⟨emptied.apply (anthropic steps) quiet.2, Or.inl folds⟩

end Calls

namespace Aggregator

/-- A call on a reachable state that returns zero leaves the agents alone exactly if none of its
metric points folds the buckets of a bare name. -/
theorem zero_count_iff (calls : List Call) (call : Call)
    (zero : (ingest (run calls) call).2 = 0) :
    (ingest (run calls) call).1.agents = (run calls).agents ↔
      ¬FoldsInto (run calls) call.steps := by
  have anthropic : AllEntries (fun bucket _ => bucket.provider = providerAnthropic)
      ((run calls).agent agentClaude).buckets := by
    rw [run_eq]
    exact lasting_anthropic.run _
  rw [ingest_eq_steps] at zero ⊢
  rcases quiet_calls anthropic zero with ⟨steady, stays⟩ | ⟨emptied, folds⟩
  · exact iff_of_true steady.agents stays
  · exact iff_of_false emptied.agents_ne (not_not.mpr folds)

/-- A metric point whose key logs already report is not counted, and folds nothing either. -/
theorem zero_count_iff_same_name :
    (ingest (run [(apiRequestMessage "opus" 7).call])
        (claudeTokenMessage "opus" 5).call).1.agents =
      (run [(apiRequestMessage "opus" 7).call]).agents := by
  refine (zero_count_iff _ _ (by decide +kernel)).mpr ?_
  rintro ⟨earlier, step, reached, full, named, folds, _⟩
  have member : step ∈ [Step.claudeTokens _] := reached.subset (by simp)
  obtain rfl := List.mem_singleton.mp member
  obtain rfl := Option.some.inj named
  exact folds.2.1 (by decide)

/-- The point is ignored for its usage and renames the log's bucket. -/
theorem ignored_point_folds :
    (ingest (run [(apiRequestMessage "opus" 7).call])
        (claudeTokenMessage "opus[1m]" 5).call).2 = 0 ∧
      (ingest (run [(apiRequestMessage "opus" 7).call])
          (claudeTokenMessage "opus[1m]" 5).call).1.agents ≠
        (run [(apiRequestMessage "opus" 7).call]).agents := by
  refine ⟨by decide +kernel, ?_⟩
  intro same
  have keys := congrArg (fun agents : ExtTreeMap String AgentStats =>
    (agents[agentClaude]?.getD (default : AgentStats)).buckets.keys) same
  exact absurd keys (by decide +kernel)

end Aggregator

end OtelLogger
