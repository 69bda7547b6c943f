import Mathlib

/-!
Noninterference by unwinding. A view of a state is given by when two states look the same to it.
If the actions that it cannot see leave its view alone, and those that it can see do the same to
states that look the same, then it cannot tell a run from the run without the unseen actions.
-/

namespace Noninterference

variable {σ α : Type*}

/-- The unwinding conditions, for the actions that may occur. -/
structure Unwinding (step : σ → α → σ) (occurs : α → Prop) (seen : α → Prop)
    (Same : σ → σ → Prop) : Prop where
  respects : ∀ {s t a}, occurs a → ¬seen a → Same s t → Same (step s a) t
  consistent : ∀ {s t a}, occurs a → seen a → Same s t → Same (step s a) (step t a)

namespace Unwinding

variable {step : σ → α → σ} {occurs seen : α → Prop} {Same : σ → σ → Prop}

theorem run [DecidablePred seen] (unwinding : Unwinding step occurs seen Same) {s t : σ}
    (same : Same s t) {actions : List α} (occur : ∀ a ∈ actions, occurs a) :
    Same (actions.foldl step s) ((actions.filter fun a => seen a).foldl step t) := by
  induction actions generalizing s t with
  | nil => exact same
  | cons a actions ih =>
      have here := occur a List.mem_cons_self
      have later := fun b member => occur b (List.mem_cons_of_mem a member)
      by_cases visible : seen a
      · rw [List.filter_cons_of_pos (by simpa using visible), List.foldl_cons, List.foldl_cons]
        exact ih (unwinding.consistent here visible same) later
      · rw [List.filter_cons_of_neg (by simpa using visible), List.foldl_cons]
        exact ih (unwinding.respects here visible same) later

/-- Runs look the same when they have the same seen actions in the same order. -/
theorem run_eq [DecidablePred seen] (unwinding : Unwinding step occurs seen Same)
    (trans : ∀ {s t u}, Same s u → Same t u → Same s t) {s : σ} (same : Same s s)
    {first second : List α} (occurFirst : ∀ a ∈ first, occurs a)
    (occurSecond : ∀ a ∈ second, occurs a)
    (visible : first.filter (fun a => seen a) = second.filter fun a => seen a) :
    Same (first.foldl step s) (second.foldl step s) := by
  have left := unwinding.run same occurFirst
  rw [visible] at left
  exact trans left (unwinding.run same occurSecond)

end Unwinding

section Amounts

variable {M : Type*} [AddCommMonoid M]

/-- What the actions of a run amount to, each in the state that it meets. -/
def amounts (step : σ → α → σ) (amount : σ → α → M) : σ → List α → M
  | _, [] => 0
  | s, a :: actions => amount s a + amounts step amount (step s a) actions

theorem amounts_concat (step : σ → α → σ) (amount : σ → α → M) (s : σ) (actions : List α)
    (a : α) : amounts step amount s (actions ++ [a]) =
      amounts step amount s actions + amount (actions.foldl step s) a := by
  induction actions generalizing s with
  | nil => simp [amounts]
  | cons first actions ih =>
      rw [List.cons_append, amounts, amounts, ih, add_assoc]
      rfl

/-- When every view decides what its own actions amount to, a run amounts to what the runs of
the views' own actions amount to together. -/
theorem amounts_eq_sum {K : Type*} [DecidableEq K] {step : σ → α → σ} {occurs : α → Prop}
    {view : α → K} {Same : K → σ → σ → Prop} {amount : σ → α → M} {keys : Finset K}
    (unwinding : ∀ key, Unwinding step occurs (view · = key) (Same key))
    (decided : ∀ {s t a}, occurs a → Same (view a) s t → amount s a = amount t a)
    (outside : ∀ {a}, occurs a → view a ∉ keys → ∀ s, amount s a = 0) {s : σ} {own : K → σ}
    (same : ∀ key, Same key s (own key)) {actions : List α} (occur : ∀ a ∈ actions, occurs a) :
    amounts step amount s actions =
      ∑ key ∈ keys, amounts step amount (own key) (actions.filter (view · = key)) := by
  induction actions generalizing s own with
  | nil => simp [amounts]
  | cons a actions ih =>
      have here := occur a List.mem_cons_self
      let next (key : K) : σ := if view a = key then step (own key) a else own key
      have looks (key : K) : Same key (step s a) (next key) := by
        by_cases visible : view a = key
        · simp only [next, if_pos visible]
          exact (unwinding key).consistent here visible (same key)
        · simp only [next, if_neg visible]
          exact (unwinding key).respects here visible (same key)
      have split (key : K) :
          amounts step amount (own key) ((a :: actions).filter (view · = key)) =
            (if key = view a then amount s a else 0) +
              amounts step amount (next key) (actions.filter (view · = key)) := by
        by_cases visible : view a = key
        · subst key
          simp [next, amounts, decided here (same (view a))]
        · simp [next, visible, Ne.symm visible]
      rw [amounts, ih looks fun b member => occur b (List.mem_cons_of_mem a member)]
      simp only [split, Finset.sum_add_distrib]
      congr 1
      rw [Finset.sum_ite_eq' keys (view a) fun _ => amount s a]
      by_cases counted : view a ∈ keys
      · rw [if_pos counted]
      · rw [if_neg counted, outside here counted s]

end Amounts

end Noninterference
