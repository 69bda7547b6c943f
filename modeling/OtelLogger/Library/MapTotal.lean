import Mathlib

/-!
Sums over the entries of a finite ordered map. Every change of a map is described by the
entry it puts in or takes out, so a sum changes by the weight of that entry alone.
-/

namespace Accounting

open Std (ExtTreeMap TransOrd LawfulEqOrd ReflCmp)

section Lookup

variable {K V : Type*} [Ord K] [TransOrd K] [LawfulEqOrd K] [DecidableEq K]

theorem lookup_insert (entries : ExtTreeMap K V) (key other : K) (value : V) :
    (entries.insert key value)[other]? = if key = other then some value else entries[other]? := by
  rw [ExtTreeMap.getElem?_insert]
  by_cases same : key = other
  · rw [if_pos same, if_pos (Std.compare_eq_iff_eq.mpr same)]
  · rw [if_neg same, if_neg fun equal => same (Std.compare_eq_iff_eq.mp equal)]

theorem lookup_erase (entries : ExtTreeMap K V) (key other : K) :
    (entries.erase key)[other]? = if key = other then none else entries[other]? := by
  rw [ExtTreeMap.getElem?_erase]
  by_cases same : key = other
  · rw [if_pos same, if_pos (Std.compare_eq_iff_eq.mpr same)]
  · rw [if_neg same, if_neg fun equal => same (Std.compare_eq_iff_eq.mp equal)]

end Lookup

section Total

variable {K V M N : Type*} [Ord K] [TransOrd K] [LawfulEqOrd K]

def mapTotal [AddCommMonoid M] (entries : ExtTreeMap K V) (weight : K → V → M) : M :=
  (entries.toList.map fun entry => weight entry.1 entry.2).sum

theorem toList_nodup (entries : ExtTreeMap K V) : entries.toList.Nodup := by
  have distinctKeys := ExtTreeMap.distinct_keys_toList (t := entries)
  apply distinctKeys.imp
  intro first second distinct same
  subst second
  exact distinct ReflCmp.compare_self

theorem toList_perm_erase {entries : ExtTreeMap K V} {key : K} {value : V}
    (found : entries[key]? = some value) :
    entries.toList.Perm ((key, value) :: (entries.erase key).toList) := by
  have absent : (key, value) ∉ (entries.erase key).toList := by
    simp [ExtTreeMap.mem_toList_iff_getElem?_eq_some]
  apply (List.perm_ext_iff_of_nodup (toList_nodup entries)
    (List.nodup_cons.mpr ⟨absent, toList_nodup _⟩)).mpr
  rintro ⟨otherKey, otherValue⟩
  simp only [List.mem_cons, ExtTreeMap.mem_toList_iff_getElem?_eq_some, Prod.mk.injEq,
    ExtTreeMap.getElem?_erase, Std.compare_eq_iff_eq]
  by_cases same : key = otherKey
  · subst otherKey
    simp [found, eq_comm]
  · simp [same, Ne.symm same]

theorem erase_eq_self {entries : ExtTreeMap K V} {key : K} (missing : entries[key]? = none) :
    entries.erase key = entries := by
  apply ExtTreeMap.ext_getElem?
  intro other
  rw [ExtTreeMap.getElem?_erase]
  split
  · rename_i same
    rw [← Std.compare_eq_iff_eq.mp same, missing]
  · rfl

theorem erase_insert (entries : ExtTreeMap K V) (key : K) (value : V) :
    (entries.insert key value).erase key = entries.erase key := by
  apply ExtTreeMap.ext_getElem?
  intro other
  simp only [ExtTreeMap.getElem?_erase, ExtTreeMap.getElem?_insert]
  split <;> rfl

theorem insert_eq_self {entries : ExtTreeMap K V} {key : K} {value : V}
    (found : entries[key]? = some value) : entries.insert key value = entries := by
  apply ExtTreeMap.ext_getElem?
  intro other
  rw [ExtTreeMap.getElem?_insert]
  split
  · rename_i same
    rw [← Std.compare_eq_iff_eq.mp same, found]
  · rfl

theorem insert_erase_eq_self {entries : ExtTreeMap K V} {key : K} {value : V}
    (found : entries[key]? = some value) : (entries.erase key).insert key value = entries := by
  apply ExtTreeMap.ext_getElem?
  intro other
  rw [ExtTreeMap.getElem?_insert, ExtTreeMap.getElem?_erase]
  split
  · rename_i same
    rw [← Std.compare_eq_iff_eq.mp same, found]
  · rfl

variable [AddCommMonoid M] [AddCommMonoid N]

omit [LawfulEqOrd K] in
@[simp] theorem mapTotal_empty (weight : K → V → M) :
    mapTotal (∅ : ExtTreeMap K V) weight = 0 := by
  have none : (∅ : ExtTreeMap K V).toList = [] := ExtTreeMap.toList_eq_nil_iff.mpr rfl
  simp [mapTotal, none]

theorem mapTotal_split {entries : ExtTreeMap K V} {key : K} {value : V}
    (found : entries[key]? = some value) (weight : K → V → M) :
    mapTotal entries weight = weight key value + mapTotal (entries.erase key) weight := by
  have permuted := (toList_perm_erase found).map fun entry => weight entry.1 entry.2
  simpa [mapTotal] using permuted.sum_eq

theorem mapTotal_insert (entries : ExtTreeMap K V) (key : K) (value : V) (weight : K → V → M) :
    mapTotal (entries.insert key value) weight =
      weight key value + mapTotal (entries.erase key) weight := by
  have found : (entries.insert key value)[key]? = some value := by simp
  rw [mapTotal_split found, erase_insert]

theorem mapTotal_insert_new {entries : ExtTreeMap K V} {key : K}
    (missing : entries[key]? = none) (value : V) (weight : K → V → M) :
    mapTotal (entries.insert key value) weight = weight key value + mapTotal entries weight := by
  rw [mapTotal_insert, erase_eq_self missing]

omit [LawfulEqOrd K] in
theorem map_mapTotal (hom : M →+ N) (entries : ExtTreeMap K V) (weight : K → V → M) :
    hom (mapTotal entries weight) = mapTotal entries fun key value => hom (weight key value) := by
  simp [mapTotal, map_list_sum, Function.comp_def]

theorem mapTotal_congr {entries : ExtTreeMap K V} {first second : K → V → M}
    (same : ∀ key value, entries[key]? = some value → first key value = second key value) :
    mapTotal entries first = mapTotal entries second := by
  unfold mapTotal
  congr 1
  apply List.map_congr_left
  intro entry member
  exact same entry.1 entry.2 (ExtTreeMap.mem_toList_iff_getElem?_eq_some.mp member)

theorem mapTotal_eq_zero {entries : ExtTreeMap K V} {weight : K → V → M}
    (zero : ∀ key value, entries[key]? = some value → weight key value = 0) :
    mapTotal entries weight = 0 := by
  calc mapTotal entries weight = mapTotal entries fun _ _ => (0 : M) := mapTotal_congr zero
    _ = 0 := by simp [mapTotal]

end Total

end Accounting
