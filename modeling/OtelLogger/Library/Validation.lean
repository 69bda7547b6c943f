import Mathlib.Control.Basic
import Mathlib.Data.List.Basic

/-!
Validators that either fail or accept: what the success of a sequence, of a guard and of a pass
over a list says about each of its steps.
-/

namespace Validation

variable {ε α β : Type}

theorem bind_ok_iff {first : Except ε α} {rest : α → Except ε β} {result : β} :
    (first >>= rest) = .ok result ↔ ∃ value, first = .ok value ∧ rest value = .ok result := by
  cases first with
  | error reason => simp [bind, Except.bind]
  | ok value => simp [bind, Except.bind]

theorem pure_ok_iff {value result : α} : (pure value : Except ε α) = .ok result ↔ value = result :=
  Except.ok.injEq value result ▸ Iff.rfl

theorem throw_ne_ok {reason : ε} {result : α} : (throw reason : Except ε α) ≠ .ok result :=
  nofun

theorem refuse_ok_iff {refused : Prop} [Decidable refused] {reason : ε} {rest : Except ε α}
    {result : α} : (if refused then throw reason else rest) = .ok result ↔
      ¬refused ∧ rest = .ok result := by
  split
  · rename_i holds
    exact iff_of_false throw_ne_ok fun accepted => accepted.1 holds
  · rename_i fails
    exact (and_iff_right fails).symm

theorem continue_ok_iff {stops : Prop} [Decidable stops] {rest : Except ε (Option α)} {result : α} :
    (if stops then pure none else rest) = .ok (some result) ↔
      ¬stops ∧ rest = .ok (some result) := by
  split
  · rename_i holds
    exact iff_of_false nofun fun accepted => accepted.1 holds
  · rename_i fails
    exact (and_iff_right fails).symm

/-- The invariant of a fold relates the items it has passed to its state. -/
theorem invariant_foldlM {step : β → α → Except ε β} {motive : List α → β → Prop}
    (kept : ∀ passed state item next, motive passed state → step state item = .ok next →
      motive (passed ++ [item]) next) :
    ∀ (items passed : List α) (state result : β), motive passed state →
      items.foldlM step state = .ok result → motive (passed ++ items) result := by
  intro items
  induction items with
  | nil =>
      intro passed state result holds folded
      obtain rfl := pure_ok_iff.mp folded
      rwa [List.append_nil]
  | cons item items ih =>
      intro passed state result holds folded
      rw [List.foldlM_cons, bind_ok_iff] at folded
      obtain ⟨next, taken, rest⟩ := folded
      have later := ih (passed ++ [item]) next result (kept passed state item next holds taken) rest
      rwa [List.append_assoc, List.singleton_append] at later

theorem mem_of_mapM {view : α → Except ε β} {items : List α} {results : List β}
    (mapped : items.mapM view = .ok results) {result : β} (member : result ∈ results) :
    ∃ item ∈ items, view item = .ok result := by
  induction items generalizing results with
  | nil =>
      obtain rfl := pure_ok_iff.mp mapped
      exact absurd member List.not_mem_nil
  | cons item items ih =>
      simp only [List.mapM_cons, bind_ok_iff, pure_ok_iff] at mapped
      obtain ⟨first, viewed, others, rest, rfl⟩ := mapped
      rcases List.mem_cons.mp member with rfl | later
      · exact ⟨item, List.mem_cons_self, viewed⟩
      · obtain ⟨source, listed, found⟩ := ih rest later
        exact ⟨source, List.mem_cons_of_mem item listed, found⟩

theorem forM_ok {check : α → Except ε PUnit} {items : List α}
    (passed : items.forM check = .ok ()) : ∀ item ∈ items, check item = .ok () := by
  induction items with
  | nil => exact List.forall_mem_nil _
  | cons item items ih =>
      obtain ⟨_, first, rest⟩ := bind_ok_iff.mp passed
      exact List.forall_mem_cons.mpr ⟨first, ih rest⟩

end Validation
