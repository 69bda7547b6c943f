import Mathlib

/-!
Systems that take one action at a time, and pools of numbered processes. An interleaving is the
list of the actions taken; an action that is not enabled in a state has no next state.
-/

namespace Interleaving

section Runs

variable {σ α : Type*} (step : σ → α → Option σ)

/-- The state after the actions, if each was enabled when its turn came. -/
def runFrom : σ → List α → Option σ
  | state, [] => some state
  | state, action :: rest => (step state action).bind fun next => runFrom next rest

variable {step}

/-- What the allowed actions keep is kept by a run of allowed actions. -/
theorem invariant_run_of {motive : σ → Prop} (allowed : α → Prop)
    (kept : ∀ state action next, allowed action → step state action = some next →
      motive state → motive next) :
    ∀ (actions : List α) (state reached : σ), (∀ action ∈ actions, allowed action) →
      runFrom step state actions = some reached → motive state → motive reached := by
  intro actions
  induction actions with
  | nil =>
      intro state reached _ same initial
      obtain rfl := Option.some.inj same
      exact initial
  | cons action actions ih =>
      intro state reached all ran initial
      rw [runFrom, Option.bind_eq_some_iff] at ran
      obtain ⟨next, taken, rest⟩ := ran
      rw [List.forall_mem_cons] at all
      exact ih next reached all.2 rest (kept state action next all.1 taken initial)

theorem invariant_run {motive : σ → Prop}
    (kept : ∀ state action next, step state action = some next → motive state →
      motive next)
    (actions : List α) (state reached : σ) (ran : runFrom step state actions = some reached)
    (initial : motive state) : motive reached :=
  invariant_run_of (fun _ => True) (fun state action next _ => kept state action next) actions state
    reached (fun _ _ => trivial) ran initial

/-- A system of which every step is a step of a view, or leaves the view as it is, runs as the
view does. -/
theorem projects_run {τ β : Type*} {inner : τ → β → Option τ} {view : σ → τ}
    (simulates : ∀ state action next, step state action = some next →
      view next = view state ∨ ∃ move, inner (view state) move = some (view next)) :
    ∀ (actions : List α) (state reached : σ), runFrom step state actions = some reached →
      ∃ moves, runFrom inner (view state) moves = some (view reached) := by
  intro actions
  induction actions with
  | nil =>
      intro state reached same
      obtain rfl := Option.some.inj same
      exact ⟨[], rfl⟩
  | cons action actions ih =>
      intro state reached ran
      rw [runFrom, Option.bind_eq_some_iff] at ran
      obtain ⟨next, taken, rest⟩ := ran
      obtain ⟨moves, later⟩ := ih next reached rest
      rcases simulates state action next taken with same | ⟨move, moved⟩
      · exact ⟨moves, same ▸ later⟩
      · exact ⟨move :: moves, by rw [runFrom, moved]; exact later⟩

/-- The system without the actions that are not allowed. -/
def restrict (allowed : σ → α → Bool) (step : σ → α → Option σ) (state : σ) (action : α) :
    Option σ :=
  if allowed state action then step state action else none

theorem restrict_eq_some {allowed : σ → α → Bool} {state next : σ} {action : α} :
    restrict allowed step state action = some next ↔
      allowed state action = true ∧ step state action = some next := by
  rw [restrict, Option.ite_none_right_eq_some]

theorem runFrom_append (before after : List α) (state : σ) :
    runFrom step state (before ++ after) =
      (runFrom step state before).bind fun middle => runFrom step middle after := by
  induction before generalizing state with
  | nil => rfl
  | cons action before ih =>
      rw [List.cons_append, runFrom, runFrom, Option.bind_assoc]
      simp only [ih]

/-- A history that grows by what each action marks is the marks of the actions of the run. -/
theorem history_run {ρ : Type*} {history : σ → List ρ} {mark : α → Option ρ}
    (grows : ∀ state action next, step state action = some next →
      history next = history state ++ (mark action).toList) :
    ∀ (actions : List α) (state reached : σ), runFrom step state actions = some reached →
      history reached = history state ++ actions.filterMap mark := by
  intro actions
  induction actions with
  | nil =>
      intro state reached same
      obtain rfl := Option.some.inj same
      simp
  | cons action actions ih =>
      intro state reached ran
      rw [runFrom, Option.bind_eq_some_iff] at ran
      obtain ⟨next, taken, rest⟩ := ran
      rw [ih next reached rest, grows state action next taken, List.append_assoc,
        ← List.singleton_append, List.filterMap_append]
      cases marked : mark action <;> simp [marked]

end Runs

/-! ### Pools -/

section Pools

variable {τ ρ : Type*} {pool : List τ} {id : ℕ} {old new : τ}

theorem lt_of_found (found : pool[id]? = some old) : id < pool.length :=
  (List.getElem?_eq_some_iff.mp found).1

theorem getElem?_set_of_found (found : pool[id]? = some old) (other : ℕ) :
    (pool.set id new)[other]? = if id = other then some new else pool[other]? := by
  rw [List.getElem?_set]
  split
  · rename_i same
    subst same
    rw [if_pos (lt_of_found found)]
  · rfl

theorem map_set_of_found (view : τ → ρ) (found : pool[id]? = some old)
    (same : view new = view old) : (pool.set id new).map view = pool.map view := by
  apply List.ext_getElem?
  intro other
  rw [List.getElem?_map, List.getElem?_map, getElem?_set_of_found found]
  split
  · rename_i equal
    subst equal
    rw [found, Option.map_some, Option.map_some, same]
  · rfl

theorem exists_concat_iff {property : τ → Prop} (fresh : ¬property new) (id : ℕ) :
    (∃ process, (pool ++ [new])[id]? = some process ∧ property process) ↔
      ∃ process, pool[id]? = some process ∧ property process := by
  constructor
  · rintro ⟨process, found, own⟩
    rw [List.getElem?_append] at found
    split at found
    · exact ⟨process, found, own⟩
    · obtain rfl := List.mem_singleton.mp (List.mem_of_getElem? found)
      exact absurd own fresh
  · rintro ⟨process, found, own⟩
    exact ⟨process, by rw [List.getElem?_append_left (lt_of_found found), found], own⟩

def load (weight : τ → ℕ) (pool : List τ) : ℕ :=
  (pool.map weight).sum

@[simp] theorem load_concat (weight : τ → ℕ) (pool : List τ) (process : τ) :
    load weight (pool ++ [process]) = load weight pool + weight process := by
  simp [load]

theorem load_add (first second : τ → ℕ) (pool : List τ) :
    load (fun process => first process + second process) pool =
      load first pool + load second pool :=
  List.sum_map_add

theorem load_map (weight : ρ → ℕ) (view : τ → ρ) (pool : List τ) :
    load weight (pool.map view) = load (fun process => weight (view process)) pool := by
  rw [load, List.map_map]
  rfl

theorem weight_le_load (weight : τ → ℕ) (found : pool[id]? = some old) :
    weight old ≤ load weight pool :=
  List.le_sum_of_mem (List.mem_map_of_mem (List.mem_of_getElem? found))

/-- Each process weighs what its number says. -/
def loadAt (weight : ℕ → τ → ℕ) (pool : List τ) : ℕ :=
  (pool.mapIdx weight).sum

theorem loadAt_set (weight : ℕ → τ → ℕ) (found : pool[id]? = some old) (new : τ) :
    loadAt weight (pool.set id new) + weight id old = loadAt weight pool + weight id new := by
  induction pool generalizing id weight with
  | nil => simp at found
  | cons process pool ih =>
      cases id with
      | zero =>
          obtain rfl := Option.some.inj found
          simp only [loadAt, List.set_cons_zero, List.mapIdx_cons, List.sum_cons]
          omega
      | succ id =>
          have rest := ih (fun position => weight (position + 1)) found
          simp only [loadAt, List.set_cons_succ, List.mapIdx_cons, List.sum_cons] at rest ⊢
          omega

@[simp] theorem loadAt_concat (weight : ℕ → τ → ℕ) (pool : List τ) (process : τ) :
    loadAt weight (pool ++ [process]) = loadAt weight pool + weight pool.length process := by
  simp [loadAt, List.mapIdx_append]

theorem loadAt_unnumbered (weight : τ → ℕ) (pool : List τ) :
    loadAt (fun _ => weight) pool = load weight pool := by
  induction pool with
  | nil => rfl
  | cons process pool ih =>
      rw [loadAt, List.mapIdx_cons, List.sum_cons, ← loadAt, ih, load, load, List.map_cons,
        List.sum_cons]

theorem load_set (weight : τ → ℕ) (found : pool[id]? = some old) (new : τ) :
    load weight (pool.set id new) + weight old = load weight pool + weight new := by
  rw [← loadAt_unnumbered, ← loadAt_unnumbered]
  exact loadAt_set (fun _ => weight) found new

theorem load_le_load {first second : τ → ℕ}
    (bounded : ∀ process ∈ pool, first process ≤ second process) :
    load first pool ≤ load second pool :=
  List.sum_le_sum bounded

theorem load_eq_sum (weight : τ → ℕ) (pool : List τ) :
    load weight pool = ∑ id ∈ Finset.range pool.length, (pool[id]?.map weight).getD 0 := by
  induction pool with
  | nil => rfl
  | cons process pool ih =>
      rw [List.length_cons, Finset.sum_range_succ']
      simp only [List.getElem?_cons_succ, List.getElem?_cons_zero, Option.map_some,
        Option.getD_some, ← ih]
      simp only [load, List.map_cons, List.sum_cons]
      omega

/-- Processes that are owned by different others weigh no more than these. -/
theorem load_le_of_owners {others : List ρ} {owners : List ℕ} {weight : τ → ℕ} {bound : ρ → ℕ}
    (once : owners.Nodup) (length : pool.length = owners.length)
    (covers : ∀ (place owner : ℕ) (process : τ), owners[place]? = some owner →
      pool[place]? = some process →
      ∃ other, others[owner]? = some other ∧ weight process ≤ bound other) :
    load weight pool ≤ load bound others := by
  rw [load_eq_sum weight pool, load_eq_sum bound others]
  let own (place : ℕ) : ℕ := owners.getD place 0
  have found {place : ℕ} (below : place ∈ Finset.range pool.length) :
      owners[place]? = some (own place) := by
    rw [Finset.mem_range, length] at below
    rw [List.getElem?_eq_getElem below]
    simp [own, below]
  have apart : Set.InjOn own (Finset.range pool.length) := by
    intro first inFirst second inSecond same
    have here := found inFirst
    rw [same, ← found inSecond] at here
    exact (List.getElem?_inj (lt_of_found (found inFirst)) once).mp here
  have within : (Finset.range pool.length).image own ⊆ Finset.range others.length := by
    intro owner member
    obtain ⟨place, below, rfl⟩ := Finset.mem_image.mp member
    have present := List.getElem?_eq_getElem (Finset.mem_range.mp below)
    obtain ⟨other, there, _⟩ := covers place _ _ (found below) present
    exact Finset.mem_range.mpr (lt_of_found there)
  refine le_trans ?_ (Finset.sum_le_sum_of_subset within)
  rw [Finset.sum_image apart]
  refine Finset.sum_le_sum fun place below => ?_
  have present := List.getElem?_eq_getElem (Finset.mem_range.mp below)
  obtain ⟨other, there, lighter⟩ := covers place _ _ (found below) present
  rw [present, there]
  exact lighter

/-- If everything up to each item that weighs something is within the bound, so is everything:
the latest such item sees all others. -/
theorem sum_le_of_latest (turn : τ → ℕ) {weight : τ → ℕ} {items : List τ} {bound : ℕ}
    (earlier : ∀ item ∈ items, weight item ≠ 0 →
      load weight (items.filter fun other => turn other ≤ turn item) ≤ bound) :
    load weight items ≤ bound := by
  by_cases none : ∀ item ∈ items, weight item = 0
  · have zero : load weight items = 0 := List.sum_eq_zero fun value member => by
      obtain ⟨item, own, rfl⟩ := List.mem_map.mp member
      exact none item own
    omega
  · push Not at none
    obtain ⟨some, member, weighs⟩ := none
    obtain ⟨latest, ⟨own, heavy⟩, last⟩ := Set.exists_max_image
      {item | item ∈ items ∧ weight item ≠ 0} turn
      ((List.finite_toSet items).subset fun _ own => own.1) ⟨some, member, weighs⟩
    refine le_of_eq_of_le ?_ (earlier latest own heavy)
    have split (rest : List τ) (within : ∀ item ∈ rest, item ∈ items) :
        load weight rest =
          load weight (rest.filter fun other => turn other ≤ turn latest) := by
      induction rest with
      | nil => rfl
      | cons item rest ih =>
          rw [List.forall_mem_cons] at within
          have tail := ih within.2
          by_cases seen : turn item ≤ turn latest
          · rw [List.filter_cons_of_pos (by simpa using seen)]
            simp only [load, List.map_cons, List.sum_cons] at tail ⊢
            omega
          · have light : weight item = 0 := by
              by_contra heavy
              exact seen (last item ⟨within.1, heavy⟩)
            rw [List.filter_cons_of_neg (by simpa using seen)]
            simp only [load, List.map_cons, List.sum_cons] at tail ⊢
            omega
    exact split items fun _ own => own

/-! ### Logs -/

/-- The log has each process that passed the mark once, under its number and label, and no
other. -/
structure Logged (log : List (ℕ × ρ)) (pool : List τ) (label : τ → ρ) (passed : τ → Bool) :
    Prop where
  once : log.Nodup
  mem : ∀ id value, (id, value) ∈ log ↔
    ∃ process, pool[id]? = some process ∧ label process = value ∧ passed process = true

namespace Logged

variable {log : List (ℕ × ρ)} {label : τ → ρ} {passed : τ → Bool}

theorem empty : Logged ([] : List (ℕ × ρ)) ([] : List τ) label passed where
  once := List.nodup_nil
  mem id value := by simp

theorem keep (logged : Logged log pool label passed) (found : pool[id]? = some old)
    (sameLabel : label new = label old) (same : passed new = passed old) :
    Logged log (pool.set id new) label passed where
  once := logged.once
  mem other value := by
    rw [logged.mem, getElem?_set_of_found found]
    split
    · rename_i equal
      subst equal
      simp [found, sameLabel, same]
    · rfl

theorem pass (logged : Logged log pool label passed) (found : pool[id]? = some old)
    (sameLabel : label new = label old) (before : passed old = false)
    (after : passed new = true) :
    Logged (log ++ [(id, label old)]) (pool.set id new) label passed where
  once := by
    rw [List.nodup_append]
    refine ⟨logged.once, List.nodup_singleton _, ?_⟩
    rintro entry member other own rfl
    obtain rfl := List.mem_singleton.mp own
    obtain ⟨process, present, _, had⟩ := (logged.mem _ _).mp member
    obtain rfl := Option.some.inj (found.symm.trans present)
    simp [before] at had
  mem other value := by
    rw [List.mem_append, List.mem_singleton, logged.mem, getElem?_set_of_found found,
      Prod.mk.injEq]
    split
    · rename_i equal
      subst equal
      constructor
      · rintro (⟨process, present, _, had⟩ | ⟨_, rfl⟩)
        · obtain rfl := Option.some.inj (found.symm.trans present)
          simp [before] at had
        · exact ⟨new, rfl, sameLabel, after⟩
      · rintro ⟨process, present, rfl, _⟩
        obtain rfl := Option.some.inj present
        exact Or.inr ⟨rfl, sameLabel⟩
    · rename_i different
      simp [Ne.symm different]

theorem join (logged : Logged log pool label passed) (fresh : passed new = false) :
    Logged log (pool ++ [new]) label passed where
  once := logged.once
  mem id value := by
    rw [logged.mem]
    refine (exists_concat_iff ?_ id).symm
    simp [fresh]

theorem perm {other : List (ℕ × ρ)} {mark : τ → Bool} (logged : Logged log pool label passed)
    (marked : Logged other pool label mark)
    (same : ∀ process ∈ pool, passed process = mark process) : log.Perm other := by
  rw [List.perm_ext_iff_of_nodup logged.once marked.once]
  rintro ⟨id, value⟩
  rw [logged.mem, marked.mem]
  constructor
  · rintro ⟨process, found, own, had⟩
    exact ⟨process, found, own, same process (List.mem_of_getElem? found) ▸ had⟩
  · rintro ⟨process, found, own, had⟩
    exact ⟨process, found, own, (same process (List.mem_of_getElem? found)).symm ▸ had⟩

theorem mem_of_found (logged : Logged log pool label passed) (found : pool[id]? = some old)
    (had : passed old = true) : (id, label old) ∈ log :=
  (logged.mem _ _).mpr ⟨old, found, rfl, had⟩

theorem passed_of_mem (logged : Logged log pool label passed) (found : pool[id]? = some old)
    {value : ρ} (member : (id, value) ∈ log) : passed old = true := by
  obtain ⟨process, present, _, had⟩ := (logged.mem _ _).mp member
  obtain rfl := Option.some.inj (found.symm.trans present)
  exact had

theorem ids_nodup (logged : Logged log pool label passed) : (log.map Prod.fst).Nodup := by
  refine List.Nodup.map_on ?_ logged.once
  rintro ⟨id, first⟩ firstMember ⟨other, second⟩ secondMember same
  obtain rfl : id = other := same
  obtain ⟨process, found, rfl, _⟩ := (logged.mem _ _).mp firstMember
  obtain ⟨again, present, rfl, _⟩ := (logged.mem _ _).mp secondMember
  obtain rfl := Option.some.inj (found.symm.trans present)
  rfl

theorem count_id (logged : Logged log pool label passed)
    (found : pool[id]? = some old) :
    (log.map Prod.fst).count id = (passed old).toNat := by
  cases had : passed old with
  | true =>
      have member : id ∈ log.map Prod.fst :=
        List.mem_map_of_mem (logged.mem_of_found found had)
      exact List.count_eq_one_of_mem logged.ids_nodup member
  | false =>
      rw [Bool.toNat_false, List.count_eq_zero]
      intro member
      obtain ⟨⟨other, value⟩, entry, rfl⟩ := List.mem_map.mp member
      have passes := logged.passed_of_mem found entry
      rw [had] at passes
      cases passes

end Logged

/-- The log has each number that passed once, with its label. -/
structure Numbered (log : List (ℕ × ρ)) (label : ℕ → Option ρ) (passed : ℕ → Prop) : Prop where
  once : (log.map Prod.fst).Nodup
  mem : ∀ id value, (id, value) ∈ log ↔ passed id ∧ label id = some value

namespace Numbered

variable {log : List (ℕ × ρ)} {label other : ℕ → Option ρ} {passed later : ℕ → Prop}

theorem empty (none : ∀ id, ¬passed id) : Numbered [] label passed where
  once := List.nodup_nil
  mem id value := by simp [none id]

theorem keep (numbered : Numbered log label passed) (same : ∀ id, later id ↔ passed id)
    (labels : ∀ id, passed id → other id = label id) : Numbered log other later where
  once := numbered.once
  mem id value := by
    rw [numbered.mem, same]
    constructor
    · rintro ⟨own, found⟩
      exact ⟨own, (labels id own).trans found⟩
    · rintro ⟨own, found⟩
      exact ⟨own, (labels id own).symm.trans found⟩

theorem pass (numbered : Numbered log label passed) {id : ℕ} {value : ρ}
    (fresh : ¬passed id) (found : label id = some value)
    (passes : ∀ number, later number ↔ passed number ∨ number = id) :
    Numbered (log ++ [(id, value)]) label later where
  once := by
    rw [List.map_append, List.nodup_append]
    refine ⟨numbered.once, List.nodup_singleton _, ?_⟩
    rintro number member other own rfl
    obtain rfl : number = id := by simpa using own
    obtain ⟨⟨number, label⟩, listed, rfl⟩ := List.mem_map.mp member
    exact fresh ((numbered.mem _ _).mp listed).1
  mem number label := by
    rw [List.mem_append, List.mem_singleton, numbered.mem, passes, Prod.mk.injEq]
    constructor
    · rintro (⟨own, labelled⟩ | ⟨rfl, rfl⟩)
      · exact ⟨Or.inl own, labelled⟩
      · exact ⟨Or.inr rfl, found⟩
    · rintro ⟨own | rfl, labelled⟩
      · exact Or.inl ⟨own, labelled⟩
      · exact Or.inr ⟨rfl, Option.some.inj (labelled.symm.trans found)⟩

end Numbered

end Pools

end Interleaving
