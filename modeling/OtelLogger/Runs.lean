import OtelLogger.ClaudeSources
import OtelLogger.CodexSteps

/-!
Runs from a new aggregator. As long as the offered samples fit, every state reached represents
its ledgers, and so the total of an agent is the sum over its buckets after every call.
-/

namespace OtelLogger

open Std (ExtTreeMap TransOrd LawfulEqOrd)
open Accounting

namespace Aggregator

/-- The state of a run together with its books. -/
noncomputable def keepBooks (steps : List Step) : AggregatorInner × CodexBooks :=
  steps.foldl (fun reached step => ((step.apply reached.1).1, step.books reached.1 reached.2))
    (new, CodexBooks.empty)

noncomputable def booksOf (steps : List Step) : CodexBooks :=
  (keepBooks steps).2

@[simp] theorem booksOf_nil : booksOf [] = CodexBooks.empty := rfl

theorem keepBooks_state (steps : List Step) : (keepBooks steps).1 = runSteps steps := by
  induction steps using List.reverseRecOn with
  | nil => rfl
  | append_singleton steps step ih =>
      rw [runSteps_concat, ← ih, keepBooks, List.foldl_append]
      rfl

theorem booksOf_concat (steps : List Step) (step : Step) :
    booksOf (steps ++ [step]) = step.books (runSteps steps) (booksOf steps) := by
  rw [← keepBooks_state, booksOf, keepBooks, List.foldl_append]
  rfl

theorem booksOf_degree_le (steps : List Step) :
    Finsupp.degree (booksOf steps).ledger ≤ offered steps := by
  induction steps using List.reverseRecOn with
  | nil => simp [CodexBooks.ledger, CodexBooks.empty]
  | append_singleton steps step ih =>
      rw [booksOf_concat, offered_concat]
      exact (step.books_degree_le _ _).trans (add_le_add_left ih _)

theorem codexTracks_run (steps : List Step) (fits : (offered steps).Fits) :
    CodexTracks (runSteps steps) (booksOf steps) := by
  induction steps using List.reverseRecOn with
  | nil => exact CodexTracks.new
  | append_singleton steps step ih =>
      rw [offered_concat] at fits
      rw [runSteps_concat, booksOf_concat]
      refine (ih fits.of_add).apply step (fits.of_le ?_)
      exact add_le_add_left (booksOf_degree_le steps) _

theorem claudeCounted_apply {steps : List Step} {g : AggregatorInner}
    {rest : Bucket →₀ ModelStats} (counted : ClaudeCounted steps g rest) (step : Step)
    (fits : (offered (steps ++ [step])).Fits) :
    ∃ rest, ClaudeCounted (steps ++ [step]) (step.apply g).1 rest := by
  cases step with
  | claudeLog log => exact counted.claudeLog fits
  | claudeTokens dp => exact counted.claudeTokens fits
  | claudeCost dp => exact counted.claudeCost fits
  | _ => exact ⟨rest, counted.codexOnly (Step.apply_codexOnly _ rfl g) rfl rfl⟩

theorem claudeCounted_run (steps : List Step) (fits : (offered steps).Fits) :
    ∃ rest, ClaudeCounted steps (runSteps steps) rest := by
  induction steps using List.reverseRecOn with
  | nil => exact ⟨0, ClaudeCounted.new⟩
  | append_singleton steps step ih =>
      have before := fits
      rw [offered_concat] at before
      obtain ⟨rest, counted⟩ := ih before.of_add
      rw [runSteps_concat]
      exact claudeCounted_apply counted step fits

theorem runSteps_agent_other (steps : List Step) {name : String} (notClaude : name ≠ agentClaude)
    (notCodex : name ≠ agentCodex) : (runSteps steps).agent name = default := by
  induction steps using List.reverseRecOn with
  | nil => simp [runSteps, applyAll, new, AggregatorInner.agent]
  | append_singleton steps step ih =>
      rw [runSteps_concat, ← ih]
      cases claude : step.isClaude with
      | true => exact (step.apply_claudeOnly claude _).agents name notClaude
      | false => exact (step.apply_codexOnly claude _).agents name notCodex

theorem represents_run (steps : List Step) (fits : (offered steps).Fits) (name : String) :
    ∃ ledger, Represents ((runSteps steps).agent name) ledger := by
  by_cases claude : name = agentClaude
  · subst name
    obtain ⟨rest, counted⟩ := claudeCounted_run steps fits
    exact ⟨_, counted.tracks.represents⟩
  · by_cases codex : name = agentCodex
    · subst name
      exact ⟨_, (codexTracks_run steps fits).represents⟩
    · rw [runSteps_agent_other steps claude codex]
      exact ⟨0, Represents.initial⟩

end Aggregator

/-- The sum of a counter over all buckets of an agent. -/
def AgentStats.bucketsCounter (agentStats : AgentStats) (counter : Counter) : ℕ :=
  mapTotal agentStats.buckets fun _ (entry : BucketStats) => entry.stats.counter counter

theorem Represents.bucketsCounter {agentStats : AgentStats} {ledger : Bucket →₀ ModelStats}
    (represents : Represents agentStats ledger) (counter : Counter) :
    agentStats.bucketsCounter counter = agentStats.total.counter counter := by
  have sum := represents.holds.mapTotal_eq fun _ => ModelStats.counterHom counter
  have total : Finsupp.liftAddHom (fun _ => ModelStats.counterHom counter) ledger =
      ModelStats.counterHom counter (Finsupp.degree ledger) := by
    rw [Finsupp.liftAddHom_apply, Finsupp.degree_apply, map_sum]
    rfl
  rw [total, ← represents.total] at sum
  exact sum

/-- After every call of a run, the total of each agent is the sum over its buckets. -/
theorem Aggregator.total_eq_bucketsCounter (calls : List Call) (exactCounts : NonSaturating calls)
    (before : List Call) (reached : before <+: calls) (name : String) (agentStats : AgentStats)
    (found : (run before).agents[name]? = some agentStats) (counter : Counter) :
    agentStats.total.counter counter = agentStats.bucketsCounter counter := by
  obtain ⟨after, rfl⟩ := reached
  obtain ⟨ledger, represents⟩ := represents_run (before.flatMap Call.steps)
    exactCounts.of_append name
  have same : (runSteps (before.flatMap Call.steps)).agent name = agentStats := by
    rw [← run_eq, AggregatorInner.agent, found]
    rfl
  rw [same] at represents
  exact (represents.bucketsCounter counter).symm

/-- A metric point that a log cancels, and a metric that folds the bucket of another log. -/
def Aggregator.cancelAndFold : List Call :=
  [(claudeTokenMessage "sonnet" 5).call, (apiRequestMessage "sonnet" 4).call,
    (apiRequestMessage "opus" 7).call, (claudeTokenMessage "opus[1m]" 6).call]

theorem Aggregator.total_eq_bucketsCounter_cancelAndFold :
    ∃ agentStats : AgentStats,
      (run cancelAndFold).agents[agentClaude]? = some agentStats ∧
        agentStats.total.inputTokens = 11 ∧ agentStats.bucketsCounter .inputTokens = 11 := by
  have counts : NonSaturating cancelAndFold := by
    intro counter
    cases counter <;> decide +kernel
  have totalled : ((run cancelAndFold).agents[agentClaude]?.any fun agentStats =>
      agentStats.total.inputTokens = 11) = true := by
    decide +kernel
  obtain ⟨agentStats, found, total⟩ := (Option.any_eq_true _ _).mp totalled
  have total := of_decide_eq_true total
  have same := total_eq_bucketsCounter cancelAndFold counts cancelAndFold List.prefix_rfl
    agentClaude agentStats found .inputTokens
  exact ⟨agentStats, found, total, same.symm.trans total⟩

end OtelLogger
