import Mathlib

/-!
Projected runs. When every event has at most one owner and changes the state of that owner
alone, the state of an owner is what a run of its own events makes of the initial state.
-/

namespace Projection

section Owned

variable {σ α K : Type*} [DecidableEq K] (owner : α → Option K) (step : K → σ → α → σ)
  (initial : σ)

def eventsOf (key : K) (events : List α) : List α :=
  events.filter fun event => owner event = some key

theorem eventsOf_concat_own {owner : α → Option K} {key : K} {event : α}
    (own : owner event = some key) (events : List α) :
    eventsOf owner key (events ++ [event]) = eventsOf owner key events ++ [event] := by
  simp [eventsOf, own]

theorem eventsOf_concat_other {owner : α → Option K} {key : K} {event : α}
    (other : owner event ≠ some key) (events : List α) :
    eventsOf owner key (events ++ [event]) = eventsOf owner key events := by
  simp [eventsOf, other]

theorem sum_eventsOf {M : Type*} [AddCommMonoid M] {owner : α → Option K} {keys : Finset K}
    {weight : α → M} {events : List α}
    (owned : ∀ event ∈ events, (∃ key ∈ keys, owner event = some key) ∨ weight event = 0) :
    ∑ key ∈ keys, ((eventsOf owner key events).map weight).sum = (events.map weight).sum := by
  induction events with
  | nil => simp [eventsOf]
  | cons event events ih =>
      have later := ih fun other member => owned other (List.mem_cons_of_mem _ member)
      have single (key : K) : ((eventsOf owner key (event :: events)).map weight).sum =
          (if owner event = some key then weight event else 0) +
            ((eventsOf owner key events).map weight).sum := by
        by_cases mine : owner event = some key
        · simp [eventsOf, mine]
        · simp [eventsOf, mine]
      simp only [single, Finset.sum_add_distrib, later, List.map_cons, List.sum_cons]
      congr 1
      rcases owned event List.mem_cons_self with ⟨key, member, mine⟩ | weightless
      · rw [Finset.sum_eq_single key]
        · rw [if_pos mine]
        · intro other _ different
          rw [if_neg]
          rw [mine]
          exact fun same => different (Option.some.inj same).symm
        · exact fun absent => absurd member absent
      · simp [weightless]

theorem eventsOf_flatMap {β : Type*} {owner : α → Option K} {itemOwner : β → Option K}
    {events : β → List α} {key : K} {items : List β}
    (owned : ∀ item ∈ items, ∀ event ∈ events item, owner event = itemOwner item) :
    eventsOf owner key (items.flatMap events) =
      (eventsOf itemOwner key items).flatMap events := by
  induction items with
  | nil => rfl
  | cons item items ih =>
      have later := ih fun other member => owned other (List.mem_cons_of_mem _ member)
      have own := owned item List.mem_cons_self
      simp only [eventsOf] at later ⊢
      rw [List.flatMap_cons, List.filter_append, later]
      by_cases mine : itemOwner item = some key
      · have all : (events item).filter (fun event => owner event = some key) = events item := by
          apply List.filter_eq_self.mpr
          intro event member
          simp [own event member, mine]
        rw [all, List.filter_cons_of_pos (by simpa using mine), List.flatMap_cons]
      · have none : (events item).filter (fun event => owner event = some key) = [] := by
          apply List.filter_eq_nil_iff.mpr
          intro event member
          simpa [own event member] using mine
        rw [none, List.filter_cons_of_neg (by simpa using mine), List.nil_append]

def localRun (key : K) (events : List α) : σ :=
  (eventsOf owner key events).foldl (step key) initial

@[simp] theorem localRun_nil (key : K) : localRun owner step initial key [] = initial := rfl

theorem localRun_concat_own {key : K} {event : α} (own : owner event = some key)
    (events : List α) : localRun owner step initial key (events ++ [event]) =
      step key (localRun owner step initial key events) event := by
  simp [localRun, eventsOf, own]

theorem localRun_concat_other {key : K} {event : α} (other : owner event ≠ some key)
    (events : List α) : localRun owner step initial key (events ++ [event]) =
      localRun owner step initial key events := by
  simp [localRun, eventsOf, other]

/-- Events of other owners can be left out. -/
theorem localRun_eventsOf (key : K) (events : List α) :
    localRun owner step initial key (eventsOf owner key events) =
      localRun owner step initial key events := by
  simp [localRun, eventsOf]

theorem localRun_of_absent {key : K} {events : List α}
    (absent : ∀ event ∈ events, owner event ≠ some key) :
    localRun owner step initial key events = initial := by
  have none : eventsOf owner key events = [] := by
    rw [eventsOf, List.filter_eq_nil_iff]
    intro event member
    simpa using absent event member
  rw [localRun, none]
  rfl

end Owned

end Projection
