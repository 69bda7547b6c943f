import Mathlib
import OtelLogger.Library.MapTotal

/-!
Ledgers: finitely many accounts, each holding an amount of a commutative monoid. Recording
adds a single entry and regrouping sends every account to another one, so neither can change
the part of the total that lies in accounts it does not leave.
-/

namespace Accounting

open Std (ExtTreeMap TransOrd LawfulEqOrd ReflCmp)

section Ledger

variable {α β M : Type*} [AddCommMonoid M]

open scoped Classical in
/-- What the accounts satisfying a predicate hold together. -/
noncomputable def partTotal (part : α → Prop) : (α →₀ M) →+ M :=
  Finsupp.liftAddHom fun account => if part account then AddMonoidHom.id M else 0

open scoped Classical in
theorem partTotal_single (part : α → Prop) (account : α) (amount : M) :
    partTotal part (Finsupp.single account amount) = if part account then amount else 0 := by
  rw [partTotal, Finsupp.liftAddHom_apply_single]
  split <;> rfl

open scoped Classical in
theorem map_partTotal {N : Type*} [AddCommMonoid N] (hom : M →+ N) (part : α → Prop)
    (ledger : α →₀ M) : hom (partTotal part ledger) =
      Finsupp.liftAddHom (fun account => if part account then hom else 0) ledger := by
  rw [partTotal, Finsupp.liftAddHom_apply, Finsupp.liftAddHom_apply, map_finsuppSum]
  apply Finsupp.sum_congr
  intro account _
  split <;> simp

theorem partTotal_mapDomain {part : α → Prop} {destination : α → α} (ledger : α →₀ M)
    (kept : ∀ account, ledger account ≠ 0 → (part (destination account) ↔ part account)) :
    partTotal part (Finsupp.mapDomain destination ledger) = partTotal part ledger := by
  classical
  induction ledger using Finsupp.induction with
  | zero => simp
  | single_add account amount rest fresh nonzero ih =>
      rw [Finsupp.mapDomain_add, Finsupp.mapDomain_single, map_add, map_add, ih]
      · have same := kept account (by simpa [Finsupp.notMem_support_iff.mp fresh] using nonzero)
        rw [partTotal_single, partTotal_single]
        simp only [same]
      · intro other present
        refine kept other ?_
        have different : account ≠ other := by
          rintro rfl
          exact fresh (Finsupp.mem_support_iff.mpr present)
        simpa [Finsupp.single_apply, different] using present

theorem partTotal_eq_zero {part : α → Prop} (ledger : α →₀ M)
    (outside : ∀ account, part account → ledger account = 0) : partTotal part ledger = 0 := by
  rw [partTotal, Finsupp.liftAddHom_apply]
  apply Finset.sum_eq_zero
  intro account _
  dsimp only
  split
  · rename_i inside
    exact outside account inside
  · rfl

theorem partTotal_eq_degree {part : α → Prop} (ledger : α →₀ M)
    (inside : ∀ account, ledger account ≠ 0 → part account) :
    partTotal part ledger = Finsupp.degree ledger := by
  rw [partTotal, Finsupp.liftAddHom_apply, Finsupp.degree_apply]
  apply Finset.sum_congr rfl
  intro account present
  dsimp only
  rw [if_pos (inside account (Finsupp.mem_support_iff.mp present))]
  rfl

theorem partTotal_true (ledger : α →₀ M) :
    partTotal (fun _ => True) ledger = Finsupp.degree ledger := by
  simp [partTotal, Finsupp.liftAddHom_apply, Finsupp.degree_apply, Finsupp.sum]

theorem degree_mapDomain (destination : α → α) (ledger : α →₀ M) :
    Finsupp.degree (Finsupp.mapDomain destination ledger) = Finsupp.degree ledger := by
  have kept : partTotal (fun _ => True) (Finsupp.mapDomain destination ledger) =
      partTotal (fun _ => True) ledger := partTotal_mapDomain ledger fun _ _ => Iff.rfl
  rwa [partTotal_true, partTotal_true] at kept

theorem degree_split (ledger : α →₀ M) (account : α) :
    Finsupp.degree ledger = ledger account + Finsupp.degree (ledger.erase account) := by
  conv_lhs => rw [← Finsupp.erase_add_single account ledger]
  rw [map_add, Finsupp.degree_single, add_comm]

theorem apply_le_degree [PartialOrder M] [CanonicallyOrderedAdd M] (ledger : α →₀ M)
    (account : α) : ledger account ≤ Finsupp.degree ledger := by
  rw [degree_split ledger account]
  exact le_self_add

theorem exists_of_degree_apply {K : Type*} {ledgers : K →₀ α →₀ M} {account : α}
    (present : Finsupp.degree ledgers account ≠ 0) : ∃ key, ledgers key account ≠ 0 := by
  by_contra absent
  push Not at absent
  apply present
  rw [Finsupp.degree_apply, Finsupp.finsetSum_apply]
  exact Finset.sum_eq_zero fun key _ => absent key

/-- When each ledger only has accounts of its own key, the accounts of a key are its ledger. -/
theorem partTotal_degree_of_keyed {K : Type*} {ledgers : K →₀ α →₀ M} {keyOf : α → K}
    (keyed : ∀ key account, ledgers key account ≠ 0 → keyOf account = key) (key : K) :
    partTotal (fun account => keyOf account = key) (Finsupp.degree ledgers) =
      Finsupp.degree (ledgers key) := by
  rw [degree_split ledgers key, map_add, partTotal_eq_degree _ (keyed key), partTotal_eq_zero,
    add_zero]
  intro account own
  by_contra present
  obtain ⟨other, amount⟩ := exists_of_degree_apply present
  by_cases same : other = key
  · subst other
    simp at amount
  · rw [Finsupp.erase_ne same] at amount
    exact same ((keyed other account amount).symm.trans own)

theorem mapDomain_eq_self {destination : α → α} {ledger : α →₀ M}
    (fixed : ∀ account, ledger account ≠ 0 → destination account = account) :
    Finsupp.mapDomain destination ledger = ledger := by
  have congruent : Finsupp.mapDomain destination ledger = Finsupp.mapDomain id ledger :=
    Finsupp.mapDomain_congr fun account present =>
      fixed account (Finsupp.mem_support_iff.mp present)
  rw [congruent, Finsupp.mapDomain_id]

/-- Sends one account to another and keeps all others. -/
def redirect [DecidableEq α] (source target account : α) : α :=
  if account = source then target else account

theorem mapDomain_redirect [DecidableEq α] (source target : α) (ledger : α →₀ M) :
    Finsupp.mapDomain (redirect source target) ledger =
      ledger.erase source + Finsupp.single target (ledger source) := by
  conv_lhs => rw [← Finsupp.erase_add_single source ledger]
  rw [Finsupp.mapDomain_add, Finsupp.mapDomain_single]
  congr 1
  · apply mapDomain_eq_self
    intro account present
    have other : account ≠ source := by
      rintro rfl
      simp at present
    exact if_neg other
  · simp [redirect]

end Ledger

section OfMap

variable {α M : Type*} [AddCommMonoid M] [Ord α] [TransOrd α] [LawfulEqOrd α]

theorem mapTotal_single_apply {V : Type*} (entries : ExtTreeMap α V) (amount : V → M)
    (account : α) :
    mapTotal entries (fun key value => Finsupp.single key (amount value)) account =
      (entries[account]?.map amount).getD (0 : M) := by
  classical
  have others (map : ExtTreeMap α V) (missing : map[account]? = none) :
      mapTotal map (fun key value => Finsupp.single key (amount value)) account = 0 := by
    have moved := map_mapTotal (Finsupp.applyAddHom account) map
      fun key value => Finsupp.single (M := M) key (amount value)
    refine moved.trans (mapTotal_eq_zero ?_)
    intro other value found
    refine Finsupp.single_eq_of_ne' ?_
    rintro rfl
    simp [missing] at found
  cases found : entries[account]? with
  | none => exact others entries found
  | some value =>
      have rest := others (entries.erase account) (by simp)
      rw [mapTotal_split found, Finsupp.add_apply, Finsupp.single_eq_same, rest]
      simp

/-- The ledger that a map from accounts to amounts stands for. -/
noncomputable def ledgerOf (entries : ExtTreeMap α M) : α →₀ M :=
  mapTotal entries Finsupp.single

omit [LawfulEqOrd α] in
@[simp] theorem ledgerOf_empty : ledgerOf (∅ : ExtTreeMap α M) = 0 :=
  mapTotal_empty _

theorem ledgerOf_apply (entries : ExtTreeMap α M) (account : α) :
    ledgerOf entries account = entries[account]?.getD (0 : M) := by
  have single := mapTotal_single_apply entries id account
  rwa [Option.map_id_fun, id] at single

theorem ledgerOf_insert (entries : ExtTreeMap α M) (account : α) (amount : M) :
    ledgerOf (entries.insert account amount) =
      (ledgerOf entries).erase account + Finsupp.single account amount := by
  classical
  ext1 other
  rw [Finsupp.add_apply, ledgerOf_apply, ExtTreeMap.getElem?_insert]
  by_cases same : account = other
  · subst other
    simp
  · simp [same, Finsupp.erase_ne (Ne.symm same), ledgerOf_apply, Ne.symm same]

/-- What the accounts of the map that are sent to a given one hold together. -/
def regrouped {β : Type*} [DecidableEq β] (destination : α → β) (entries : ExtTreeMap α M)
    (account : β) : M :=
  mapTotal entries fun source amount => if destination source = account then amount else 0

omit [LawfulEqOrd α] in
theorem mapDomain_ledgerOf_apply {β : Type*} [DecidableEq β] (destination : α → β)
    (entries : ExtTreeMap α M) (account : β) :
    Finsupp.mapDomain destination (ledgerOf entries) account =
      regrouped destination entries account := by
  have moved := map_mapTotal ((Finsupp.applyAddHom account).comp
    (Finsupp.mapDomain.addMonoidHom destination)) entries
    (Finsupp.single : α → M → α →₀ M)
  refine moved.trans ?_
  unfold regrouped
  congr 1
  funext source amount
  simp [Finsupp.single_apply]

/-- No account of the map is empty. -/
def Occupied (entries : ExtTreeMap α M) : Prop :=
  ∀ (account : α) (amount : M), entries[account]? = some amount → amount ≠ 0

theorem regrouped_ne_zero_iff {β : Type*} [DecidableEq β] [PartialOrder M]
    [CanonicallyOrderedAdd M] {destination : α → β} {entries : ExtTreeMap α M}
    (occupied : Occupied entries) (account : β) :
    regrouped destination entries account ≠ (0 : M) ↔
      ∃ source ∈ entries, destination source = account := by
  constructor
  · intro present
    by_contra absent
    apply present
    apply mapTotal_eq_zero
    intro source amount found
    refine if_neg fun same => absent ⟨source, ?_, same⟩
    rw [← ExtTreeMap.isSome_getElem?_iff_mem, found]
    rfl
  · rintro ⟨source, member, same⟩ empty
    rw [← ExtTreeMap.isSome_getElem?_iff_mem, Option.isSome_iff_exists] at member
    obtain ⟨amount, found⟩ := member
    rw [regrouped, mapTotal_split found, if_pos same, add_eq_zero] at empty
    exact occupied source amount found empty.1

theorem Occupied.ext {first second : ExtTreeMap α M} (firstOccupied : Occupied first)
    (secondOccupied : Occupied second) (same : ledgerOf first = ledgerOf second) :
    first = second := by
  apply ExtTreeMap.ext_getElem?
  intro account
  have amounts := DFunLike.congr_fun same account
  rw [ledgerOf_apply, ledgerOf_apply] at amounts
  cases firstFound : first[account]? with
  | none =>
      cases secondFound : second[account]? with
      | none => rfl
      | some amount =>
          simp only [firstFound, secondFound, Option.getD_none, Option.getD_some] at amounts
          exact absurd amounts.symm (secondOccupied account amount secondFound)
  | some amount =>
      cases secondFound : second[account]? with
      | none =>
          simp only [firstFound, secondFound, Option.getD_none, Option.getD_some] at amounts
          exact absurd amounts (firstOccupied account amount firstFound)
      | some other => simpa [firstFound, secondFound] using amounts

end OfMap

section OfMaps

variable {K α M : Type*} [AddCommMonoid M] [Ord K] [TransOrd K] [LawfulEqOrd K] [Ord α]
  [TransOrd α] [LawfulEqOrd α]

/-- The ledgers that a map of maps stands for, one for each key. -/
noncomputable def ledgersOf (entries : ExtTreeMap K (ExtTreeMap α M)) : K →₀ α →₀ M :=
  mapTotal entries fun key inner => Finsupp.single key (ledgerOf inner)

omit [LawfulEqOrd K] [LawfulEqOrd α] in
@[simp] theorem ledgersOf_empty : ledgersOf (∅ : ExtTreeMap K (ExtTreeMap α M)) = 0 :=
  mapTotal_empty _

omit [LawfulEqOrd α] in
theorem ledgersOf_apply (entries : ExtTreeMap K (ExtTreeMap α M)) (key : K) :
    ledgersOf entries key = ledgerOf (entries[key]?.getD ∅) := by
  rw [ledgersOf, mapTotal_single_apply]
  cases entries[key]? <;> simp

omit [LawfulEqOrd α] in
theorem ledgersOf_erase (entries : ExtTreeMap K (ExtTreeMap α M)) (key : K) :
    ledgersOf (entries.erase key) = (ledgersOf entries).erase key := by
  classical
  ext1 other
  rw [ledgersOf_apply, ExtTreeMap.getElem?_erase]
  by_cases same : key = other
  · subst other
    simp
  · simp [same, Finsupp.erase_ne (Ne.symm same), ledgersOf_apply]

omit [LawfulEqOrd α] in
theorem ledgersOf_insert (entries : ExtTreeMap K (ExtTreeMap α M)) (key : K)
    (inner : ExtTreeMap α M) :
    ledgersOf (entries.insert key inner) =
      (ledgersOf entries).erase key + Finsupp.single key (ledgerOf inner) := by
  classical
  ext1 other
  rw [Finsupp.add_apply, ledgersOf_apply, ExtTreeMap.getElem?_insert]
  by_cases same : key = other
  · subst other
    simp
  · simp [same, Finsupp.erase_ne (Ne.symm same), ledgersOf_apply, Ne.symm same]

end OfMaps

end Accounting
