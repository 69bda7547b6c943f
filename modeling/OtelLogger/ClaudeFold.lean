import OtelLogger.AgentLedger

/-!
Folding the buckets of a bare Claude model name into those of its full name. The keys that the
range scan visits are exactly the keys of the bare name's buckets, so the fold is a renaming
of the ledger's accounts.
-/

namespace OtelLogger

open Std (ExtTreeMap TransOrd LawfulEqOrd)
open Accounting

/-! ### The range scan -/

theorem prefix_of_between : ∀ start middle rest : List Char,
    ¬middle < start → ¬start ++ rest < middle → start <+: middle := by
  intro start
  induction start with
  | nil => exact fun middle _ _ _ => List.nil_prefix
  | cons c start ih =>
      intro middle rest above below
      cases middle with
      | nil => exact absurd (List.nil_lt_cons c start) above
      | cons d middle =>
          rw [List.cons_append, List.cons_lt_cons_iff, not_or] at below
          rw [List.cons_lt_cons_iff, not_or] at above
          have heads : c = d := le_antisymm (not_lt.mp above.1) (not_lt.mp below.1)
          subst d
          have tailAbove : ¬middle < start := fun smaller => above.2 ⟨rfl, smaller⟩
          have tailBelow : ¬start ++ rest < middle := fun larger => below.2 ⟨rfl, larger⟩
          exact List.cons_prefix_cons.mpr ⟨rfl, ih middle rest tailAbove tailBelow⟩

theorem not_append_lt : ∀ start rest : List Char, ¬start ++ rest < start := by
  intro start rest
  induction start with
  | nil => exact List.not_lt_nil _
  | cons c start ih =>
      rw [List.cons_append, List.cons_lt_cons_iff, not_or]
      exact ⟨lt_irrefl c, fun smaller => ih smaller.2⟩

/-- In sorted keys, those from `start` on that begin with it come first. -/
theorem mem_prefixRange {keys : List String}
    (sorted : keys.Pairwise fun first second => compare first second = .lt)
    (start key : String) :
    key ∈ ((keys.filter fun key => compare start key ≠ .gt).takeWhile fun key =>
      start.toList.isPrefixOf key.toList) ↔ key ∈ keys ∧ start.toList <+: key.toList := by
  have reached {other : String} (begins : start.toList <+: other.toList) :
      compare start other ≠ .gt := by
    obtain ⟨rest, same⟩ := begins
    rw [Ne, compare_gt_iff_gt, String.lt_iff_toList_lt, ← same]
    exact not_append_lt _ _
  induction keys with
  | nil => simp
  | cons first keys ih =>
      obtain ⟨later, sortedRest⟩ := List.pairwise_cons.mp sorted
      have rest : key ∈ _ ↔ key ∈ keys ∧ start.toList <+: key.toList := ih sortedRest
      by_cases begins : start.toList <+: first.toList
      · have visited : start.toList.isPrefixOf first.toList = true :=
          List.isPrefixOf_iff_prefix.mpr begins
        rw [List.filter_cons_of_pos (by simpa using reached begins), List.takeWhile_cons, visited,
          if_pos rfl, List.mem_cons, rest, List.mem_cons]
        constructor
        · rintro (rfl | ⟨member, starts⟩)
          · exact ⟨Or.inl rfl, begins⟩
          · exact ⟨Or.inr member, starts⟩
        · rintro ⟨rfl | member, starts⟩
          · exact Or.inl rfl
          · exact Or.inr ⟨member, starts⟩
      · by_cases before : compare start first = .gt
        · rw [List.filter_cons_of_neg (by simpa using before), rest]
          constructor
          · exact fun ⟨member, starts⟩ => ⟨List.mem_cons_of_mem _ member, starts⟩
          · rintro ⟨member, starts⟩
            rcases List.mem_cons.mp member with rfl | member
            · exact absurd starts begins
            · exact ⟨member, starts⟩
        · rw [List.filter_cons_of_pos (by simpa using before),
            List.takeWhile_cons_of_neg (by simpa using begins)]
          refine ⟨fun member => absurd member List.not_mem_nil, ?_⟩
          rintro ⟨member, starts⟩
          rcases List.mem_cons.mp member with rfl | member
          · exact absurd starts begins
          · obtain ⟨tail, same⟩ := starts
            have above : ¬first.toList < start.toList := by
              rwa [compare_gt_iff_gt, String.lt_iff_toList_lt] at before
            have below : ¬start.toList ++ tail < first.toList := by
              rw [same, ← String.lt_iff_toList_lt]
              exact (compare_lt_iff_lt.mp (later key member)).asymm
            exact absurd (prefix_of_between _ _ _ above below) begins

/-! ### The visited buckets -/

def bareRangeStart (bare : String) : String :=
  escapeBucketComponent providerAnthropic ++ "/" ++ escapeBucketComponent bare ++ "/"

/-- A key begins with the range start exactly when it is the key of a bucket of the bare name. -/
theorem bareRangeStart_prefix_iff (bare : String) (bucket : Bucket) :
    (bareRangeStart bare).toList <+: bucket.key.toList ↔
      bucket.provider = providerAnthropic ∧ bucket.model = bare := by
  have slash : ("/" : String).toList = ['/'] := rfl
  have start : (bareRangeStart bare).toList =
      (escapeBucketComponent providerAnthropic).toList ++
        '/' :: ((escapeBucketComponent bare).toList ++ '/' :: []) := by
    simp [bareRangeStart, slash]
  have key : bucket.key.toList =
      (escapeBucketComponent bucket.provider).toList ++
        '/' :: ((escapeBucketComponent bucket.model).toList ++
          '/' :: (escapeBucketComponent bucket.effort).toList) := by
    simp [Bucket.key, slash]
  rw [start, key]
  constructor
  · rintro ⟨rest, same⟩
    simp only [List.append_assoc, List.cons_append, List.nil_append] at same
    obtain ⟨provider, tail⟩ := slash_split (escape_no_slash _) (escape_no_slash _) same
    obtain ⟨model, _⟩ := slash_split (escape_no_slash _) (escape_no_slash _) tail
    exact ⟨(escapeBucketComponent_injective (String.toList_injective provider)).symm,
      (escapeBucketComponent_injective (String.toList_injective model)).symm⟩
  · rintro ⟨provider, model⟩
    refine ⟨(escapeBucketComponent bucket.effort).toList, ?_⟩
    simp [provider, model]

/-- Where a bucket's usage is found after a fold. -/
def renameModel (bare full : String) (bucket : Bucket) : Bucket :=
  if bucket.provider = providerAnthropic ∧ bucket.model = bare then
    Bucket.fromParts bucket.provider full bucket.effort
  else bucket

@[simp] theorem renameModel_effort (bare full : String) (bucket : Bucket) :
    (renameModel bare full bucket).effort = bucket.effort := by
  unfold renameModel
  split
  · exact nonEmpty_of_ne bucket.named.2.2
  · rfl

theorem renameModel_of_ne {bare full : String} {bucket : Bucket} (other : bucket.model ≠ bare) :
    renameModel bare full bucket = bucket :=
  if_neg fun same => other same.2

open scoped Classical in
theorem Holds.foldBareKeys {bare full : String} (distinct : nonEmpty full ≠ bare) :
    ∀ (bareKeys : List String) (buckets : ExtTreeMap String BucketStats)
      (ledger : Bucket →₀ ModelStats), Holds buckets ledger → (Finsupp.degree ledger).Fits →
      (∀ bucket : Bucket, bucket.key ∈ bareKeys →
        bucket.provider = providerAnthropic ∧ bucket.model = bare) →
      Holds
        (bareKeys.foldl (fun buckets bareKey =>
          match buckets[bareKey]? with
          | none => buckets
          | some bareStats =>
              let fullBucket := Bucket.fromParts bareStats.provider full bareStats.effort
              AgentStats.addEntry (buckets.erase bareKey) fullBucket bareStats.stats) buckets)
        (Finsupp.mapDomain
          (fun bucket => if bucket.key ∈ bareKeys then renameModel bare full bucket else bucket)
          ledger) := by
  intro bareKeys
  induction bareKeys with
  | nil =>
      intro buckets ledger holds _ _
      simpa [mapDomain_eq_self] using holds
  | cons bareKey bareKeys ih =>
      intro buckets ledger holds fits visited
      have visitedRest (bucket : Bucket) (member : bucket.key ∈ bareKeys) :=
        visited bucket (List.mem_cons_of_mem _ member)
      rw [List.foldl_cons]
      cases found : buckets[bareKey]? with
      | none =>
          have rest := ih buckets ledger holds fits visitedRest
          have same : Finsupp.mapDomain (fun bucket : Bucket =>
                if bucket.key ∈ bareKey :: bareKeys then renameModel bare full bucket
                else bucket) ledger =
              Finsupp.mapDomain (fun bucket : Bucket =>
                if bucket.key ∈ bareKeys then renameModel bare full bucket else bucket)
                ledger := by
            apply Finsupp.mapDomain_congr
            intro bucket present
            have other : bucket.key ≠ bareKey := by
              rintro rfl
              rw [holds.entry, if_neg (Finsupp.mem_support_iff.mp present)] at found
              simp at found
            simp [other]
          rw [same]
          exact rest
      | some entry =>
          have key := holds.keyed bareKey entry found
          obtain ⟨amount, present⟩ := holds.stats_eq found
          obtain ⟨provider, model⟩ := visited entry.toBucket (key ▸ List.mem_cons_self)
          have target : Bucket.fromParts entry.provider full entry.effort =
              renameModel bare full entry.toBucket := (if_pos ⟨provider, model⟩).symm
          have targetModel : (renameModel bare full entry.toBucket).model ≠ bare := by
            rw [← target]
            exact distinct
          have moved : Holds
              (AgentStats.addEntry (buckets.erase bareKey) (renameModel bare full entry.toBucket)
                entry.stats)
              (Finsupp.mapDomain (redirect entry.toBucket (renameModel bare full entry.toBucket))
                ledger) := by
            rw [mapDomain_redirect, key, amount]
            have total : Finsupp.degree (ledger.erase entry.toBucket +
                Finsupp.single (renameModel bare full entry.toBucket)
                  (ledger entry.toBucket)) = Finsupp.degree ledger := by
              rw [← mapDomain_redirect, degree_mapDomain]
            have bound := apply_le_degree (ledger.erase entry.toBucket +
              Finsupp.single (renameModel bare full entry.toBucket) (ledger entry.toBucket))
              (renameModel bare full entry.toBucket)
            rw [total, Finsupp.add_apply, Finsupp.single_eq_same] at bound
            exact (holds.erase _).addEntry _ present (fits.of_le bound)
          have rest := ih _ _ moved (by rwa [degree_mapDomain]) visitedRest
          rw [← Finsupp.mapDomain_comp] at rest
          dsimp only
          rw [target]
          refine Eq.subst (motive := fun destination => Holds _ (Finsupp.mapDomain destination _))
            ?_ rest
          funext bucket
          by_cases same : bucket = entry.toBucket
          · subst same
            have unvisited : (renameModel bare full entry.toBucket).key ∉ bareKeys :=
              fun member => targetModel (visitedRest _ member).2
            simp [redirect, unvisited, key]
          · have other : bucket.key ≠ bareKey := fun equal =>
              same (Bucket.key_injective (equal.trans key))
            simp [redirect, same, other]

theorem Represents.mergeBareIntoFull {agentStats : AgentStats} {ledger : Bucket →₀ ModelStats}
    {bare full : String} (represents : Represents agentStats ledger)
    (distinct : nonEmpty full ≠ bare) :
    Represents (OtelLogger.mergeBareIntoFull agentStats bare full)
      (Finsupp.mapDomain (renameModel bare full) ledger) := by
  classical
  refine ⟨?_, ?_, ?_⟩
  · have visited (bucket : Bucket) :=
      mem_prefixRange (ExtTreeMap.ordered_keys (t := agentStats.buckets)) (bareRangeStart bare)
        bucket.key
    have folded := represents.holds.foldBareKeys distinct _ _ _ represents.fits
      fun bucket member => (bareRangeStart_prefix_iff bare bucket).mp ((visited bucket).mp member).2
    change Holds (OtelLogger.mergeBareIntoFull agentStats bare full).buckets _ at folded
    convert folded using 1
    apply Finsupp.mapDomain_congr
    intro bucket present
    have stored : bucket.key ∈ agentStats.buckets.keys := by
      rw [ExtTreeMap.mem_keys, ← ExtTreeMap.isSome_getElem?_iff_mem, represents.holds.entry,
        if_neg (Finsupp.mem_support_iff.mp present)]
      rfl
    split
    · rfl
    · rename_i unvisited
      refine if_neg fun bareBucket => unvisited ?_
      exact (visited bucket).mpr ⟨stored, (bareRangeStart_prefix_iff bare bucket).mpr bareBucket⟩
  · rw [degree_mapDomain]
    exact represents.total
  · rw [degree_mapDomain]
    exact represents.fits

end OtelLogger
