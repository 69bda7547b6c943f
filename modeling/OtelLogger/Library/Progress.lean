import OtelLogger.Library.Interleaving

/-!
Systems that wind down by their own steps. Each own step lowers a rank, and one of them is enabled
until the goal is reached: whatever order they are taken in, the goal is near.
-/

namespace Interleaving

variable {σ α : Type*} {step : σ → α → Option σ} {own : α → Prop} {sound goal : σ → Prop}
  {rank : σ → ℕ}

structure WindsDown (step : σ → α → Option σ) (own : α → Prop) (sound goal : σ → Prop)
    (rank : σ → ℕ) : Prop where
  lowers : ∀ state action next, sound state → own action → step state action = some next →
    sound next ∧ rank next < rank state
  enabled : ∀ state, sound state → ¬goal state → ∃ action next, own action ∧
    step state action = some next

namespace WindsDown

theorem length_le (winds : WindsDown step own sound goal rank) :
    ∀ (actions : List α) (state reached : σ), sound state → (∀ action ∈ actions, own action) →
      runFrom step state actions = some reached →
      sound reached ∧ actions.length + rank reached ≤ rank state := by
  intro actions
  induction actions with
  | nil =>
      intro state reached held _ same
      obtain rfl := Option.some.inj same
      exact ⟨held, by simp⟩
  | cons action actions ih =>
      intro state reached held all ran
      rw [runFrom, Option.bind_eq_some_iff] at ran
      obtain ⟨next, taken, rest⟩ := ran
      rw [List.forall_mem_cons] at all
      obtain ⟨kept, lower⟩ := winds.lowers state action next held all.1 taken
      obtain ⟨later, shorter⟩ := ih next reached kept all.2 rest
      refine ⟨later, ?_⟩
      rw [List.length_cons]
      omega

theorem reaches (winds : WindsDown step own sound goal rank) :
    ∀ (bound : ℕ) (state : σ), rank state ≤ bound → sound state →
      ∃ actions reached, (∀ action ∈ actions, own action) ∧
        runFrom step state actions = some reached ∧ goal reached := by
  intro bound
  induction bound with
  | zero =>
      intro state low held
      by_cases there : goal state
      · exact ⟨[], state, by simp, rfl, there⟩
      · obtain ⟨action, next, owned, taken⟩ := winds.enabled state held there
        have lower := (winds.lowers state action next held owned taken).2
        omega
  | succ bound ih =>
      intro state low held
      by_cases there : goal state
      · exact ⟨[], state, by simp, rfl, there⟩
      · obtain ⟨action, next, owned, taken⟩ := winds.enabled state held there
        obtain ⟨kept, lower⟩ := winds.lowers state action next held owned taken
        obtain ⟨actions, reached, all, rest, arrived⟩ := ih next (by omega) kept
        refine ⟨action :: actions, reached, ?_, ?_, arrived⟩
        · rw [List.forall_mem_cons]
          exact ⟨owned, all⟩
        · rw [runFrom, taken]
          exact rest

/-- Own steps taken in any order can be followed by own steps to the goal, and are never more
than the rank in all. -/
theorem completes (winds : WindsDown step own sound goal rank) {actions : List α}
    {state reached : σ} (held : sound state) (all : ∀ action ∈ actions, own action)
    (ran : runFrom step state actions = some reached) :
    ∃ more last, (∀ action ∈ more, own action) ∧ runFrom step reached more = some last ∧
      goal last ∧ (actions ++ more).length ≤ rank state := by
  obtain ⟨kept, shorter⟩ := winds.length_le actions state reached held all ran
  obtain ⟨more, last, owned, rest, arrived⟩ := winds.reaches (rank reached) reached le_rfl kept
  have within := (winds.length_le more reached last kept owned rest).2
  refine ⟨more, last, owned, rest, arrived, ?_⟩
  rw [List.length_append]
  omega

end WindsDown

end Interleaving
