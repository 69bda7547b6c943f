import OtelLogger.BareNames

/-!
The fold of a bare model name looks only at the keys that start with its prefix. It is the same as
a scan over all entries, in whatever order, because the prefix picks exactly the buckets of the
name and no bucket that receives usage is itself one of them.
-/

namespace OtelLogger

open Std (ExtTreeMap TransOrd LawfulEqOrd)
open Accounting

/-! ### The full scan -/

def fullBucket (full : String) (entry : String × BucketStats) : Bucket :=
  Bucket.fromParts providerAnthropic full entry.2.effort

/-- Takes an entry out of the map and adds its usage to the bucket of the full name. -/
def moveToFull (full : String) (buckets : ExtTreeMap String BucketStats)
    (entry : String × BucketStats) : ExtTreeMap String BucketStats :=
  AgentStats.addEntry (buckets.erase entry.1) (fullBucket full entry) entry.2.stats

/-- What a scan over the whole map does with one entry. -/
def scanEntry (bare full : String) (buckets : ExtTreeMap String BucketStats)
    (entry : String × BucketStats) : ExtTreeMap String BucketStats :=
  if entry.2.provider = providerAnthropic ∧ entry.2.model = bare then
    moveToFull full buckets entry
  else buckets

def isBare (bare : String) (entry : String × BucketStats) : Bool :=
  entry.2.provider = providerAnthropic ∧ entry.2.model = bare

theorem foldl_scanEntry (bare full : String) (entries : List (String × BucketStats))
    (buckets : ExtTreeMap String BucketStats) :
    entries.foldl (scanEntry bare full) buckets =
      (entries.filter (isBare bare)).foldl (moveToFull full) buckets := by
  rw [List.foldl_filter]
  congr 1
  funext merged entry
  simp [scanEntry, isBare]

/-- The prefix range holds the keys of the buckets of the bare name, in the order of the map. -/
theorem visitedKeys_eq {P : Bucket → ModelStats → Prop}
    {buckets : ExtTreeMap String BucketStats} (all : AllEntries P buckets) (bare : String) :
    visitedKeys buckets bare = (buckets.toList.filter (isBare bare)).map Prod.fst := by
  have increasing : (visitedKeys buckets bare).Pairwise fun first second =>
      compare first second = .lt :=
    (ExtTreeMap.ordered_keys (t := buckets)).sublist
      ((List.takeWhile_sublist _).trans List.filter_sublist)
  have scanned : ((buckets.toList.filter (isBare bare)).map Prod.fst).Pairwise
      fun first second => compare first second = .lt := by
    rw [List.pairwise_map]
    exact ExtTreeMap.ordered_keys_toList.sublist List.filter_sublist
  have distinct {keys : List String}
      (sorted : keys.Pairwise fun first second => compare first second = .lt) : keys.Nodup := by
    apply sorted.imp
    rintro first _ before rfl
    simp at before
  have same : (visitedKeys buckets bare).Perm
      ((buckets.toList.filter (isBare bare)).map Prod.fst) := by
    rw [List.perm_ext_iff_of_nodup (distinct increasing) (distinct scanned)]
    intro key
    constructor
    · intro visited
      have stored : key ∈ buckets.keys := List.mem_of_mem_filter (List.takeWhile_subset _ visited)
      obtain ⟨entry, found⟩ := Option.isSome_iff_exists.mp
        (ExtTreeMap.isSome_getElem?_iff_mem.mpr (ExtTreeMap.mem_keys.mp stored))
      rw [mem_visitedKeys all found] at visited
      refine List.mem_map.mpr ⟨(key, entry), List.mem_filter.mpr ⟨?_, decide_eq_true visited⟩, rfl⟩
      exact ExtTreeMap.mem_toList_iff_getElem?_eq_some.mpr found
    · intro scans
      obtain ⟨entry, member, rfl⟩ := List.mem_map.mp scans
      obtain ⟨listed, named⟩ := List.mem_filter.mp member
      have found := ExtTreeMap.mem_toList_iff_getElem?_eq_some.mp listed
      exact (mem_visitedKeys all found bare).mpr (of_decide_eq_true named)
  apply same.eq_of_pairwise _ increasing scanned
  intro first second _ _ before after
  rw [compare_lt_iff_lt] at before after
  exact absurd after before.asymm

/-! ### Entries still to be moved -/

/-- The usage that a bucket map holds for a bucket; an absent bucket counts as zero. -/
def amountAt (buckets : ExtTreeMap String BucketStats) (bucket : Bucket) : ModelStats :=
  (buckets[bucket.key]?.map BucketStats.stats).getD 0

def bucketsTotal (buckets : ExtTreeMap String BucketStats) : ModelStats :=
  mapTotal buckets fun _ (entry : BucketStats) => entry.stats

/-- Different entries of a bare name that the map still holds as they were. -/
structure Unmoved (bare : String) (buckets : ExtTreeMap String BucketStats)
    (entries : List (String × BucketStats)) : Prop where
  distinct : entries.Pairwise fun first second => first.1 ≠ second.1
  stored : ∀ entry ∈ entries, buckets[entry.1]? = some entry.2
  keyed : ∀ entry ∈ entries, entry.1 = entry.2.toBucket.key
  bare : ∀ entry ∈ entries, entry.2.provider = providerAnthropic ∧ entry.2.model = bare

/-- What an entry becomes when usage is added to its bucket. -/
def grownEntry (previous : Option BucketStats) (bucket : Bucket) (stats : ModelStats) :
    BucketStats :=
  { previous.getD (BucketStats.fromBucket bucket) with
    stats := (previous.getD (BucketStats.fromBucket bucket)).stats.add stats }

theorem addEntry_lookup (buckets : ExtTreeMap String BucketStats) (bucket : Bucket)
    (stats : ModelStats) (key : String) :
    (AgentStats.addEntry buckets bucket stats)[key]? =
      if bucket.key = key then some (grownEntry buckets[bucket.key]? bucket stats)
      else buckets[key]? := by
  rw [AgentStats.addEntry, lookup_insert]
  rfl

section Moving

variable {bare full : String} {buckets : ExtTreeMap String BucketStats}
  {entries : List (String × BucketStats)} {entry other : String × BucketStats}

theorem moveToFull_lookup {key : String} (source : entry.1 ≠ key)
    (target : (fullBucket full entry).key ≠ key) :
    (moveToFull full buckets entry)[key]? = buckets[key]? := by
  rw [moveToFull, addEntry_lookup, if_neg target, lookup_erase, if_neg source]

/-- No entry of the bare name receives what another one gives up. -/
theorem fullBucket_ne (entry : String × BucketStats) (distinct : nonEmpty full ≠ bare)
    (keyed : other.1 = other.2.toBucket.key) (named : other.2.model = bare) :
    (fullBucket full entry).key ≠ other.1 := by
  intro same
  have buckets := Bucket.key_injective (same.trans keyed)
  exact distinct ((congrArg Bucket.model buckets).trans named)

theorem fullBucket_injective (keyed : entry.1 = entry.2.toBucket.key)
    (otherKeyed : other.1 = other.2.toBucket.key)
    (named : entry.2.provider = providerAnthropic ∧ entry.2.model = bare)
    (otherNamed : other.2.provider = providerAnthropic ∧ other.2.model = bare)
    (same : fullBucket full entry = fullBucket full other) : entry.1 = other.1 := by
  have efforts : nonEmpty entry.2.effort = nonEmpty other.2.effort := congrArg Bucket.effort same
  rw [nonEmpty_of_ne entry.2.named.2.2, nonEmpty_of_ne other.2.named.2.2] at efforts
  rw [keyed, otherKeyed]
  congr 1
  exact Bucket.ext (named.1.trans otherNamed.1.symm) (named.2.trans otherNamed.2.symm) efforts

theorem Unmoved.next (unmoved : Unmoved bare buckets (entry :: entries))
    (distinct : nonEmpty full ≠ bare) : Unmoved bare (moveToFull full buckets entry) entries where
  distinct := (List.pairwise_cons.mp unmoved.distinct).2
  stored other member := by
    have later := List.mem_cons_of_mem entry member
    rw [moveToFull_lookup ((List.pairwise_cons.mp unmoved.distinct).1 other member)]
    · exact unmoved.stored other later
    · exact fullBucket_ne _ distinct (unmoved.keyed other later) (unmoved.bare other later).2
  keyed other member := unmoved.keyed other (List.mem_cons_of_mem entry member)
  bare other member := unmoved.bare other (List.mem_cons_of_mem entry member)

theorem moveBareKey_eq (full : String) (found : buckets[entry.1]? = some entry.2)
    (anthropic : entry.2.provider = providerAnthropic) :
    moveBareKey full buckets entry.1 = moveToFull full buckets entry := by
  simp only [moveBareKey, found, anthropic, moveToFull, fullBucket]

theorem Unmoved.foldl_moveBareKey (distinct : nonEmpty full ≠ bare) :
    ∀ (entries : List (String × BucketStats)) (buckets : ExtTreeMap String BucketStats),
      Unmoved bare buckets entries →
        (entries.map Prod.fst).foldl (moveBareKey full) buckets =
          entries.foldl (moveToFull full) buckets := by
  intro entries
  induction entries with
  | nil =>
      intro buckets unmoved
      rfl
  | cons entry entries ih =>
      intro buckets unmoved
      have first := moveBareKey_eq full (unmoved.stored entry List.mem_cons_self)
        (unmoved.bare entry List.mem_cons_self).1
      rw [List.map_cons, List.foldl_cons, List.foldl_cons, first]
      exact ih _ (unmoved.next distinct)

/-! ### Sums -/

theorem addEntry_total {bucket : Bucket} {stats : ModelStats}
    (fits : (amountAt buckets bucket + stats).Fits) :
    bucketsTotal (AgentStats.addEntry buckets bucket stats) = bucketsTotal buckets + stats := by
  unfold AgentStats.addEntry bucketsTotal
  cases found : buckets[bucket.key]? with
  | none =>
      rw [amountAt, found] at fits
      rw [mapTotal_insert_new found, add_comm]
      congr 1
      exact (ModelStats.add_eq fits).trans (zero_add stats)
  | some entry =>
      rw [amountAt, found] at fits
      rw [mapTotal_insert, mapTotal_split found]
      have grown : entry.stats.add stats = entry.stats + stats := ModelStats.add_eq fits
      simp only [Option.getD_some, grown]
      abel

theorem moveToFull_total (found : buckets[entry.1]? = some entry.2)
    (different : (fullBucket full entry).key ≠ entry.1)
    (fits : (amountAt buckets (fullBucket full entry) + entry.2.stats).Fits) :
    bucketsTotal (moveToFull full buckets entry) = bucketsTotal buckets := by
  have kept : amountAt (buckets.erase entry.1) (fullBucket full entry) =
      amountAt buckets (fullBucket full entry) := by
    rw [amountAt, lookup_erase, if_neg different.symm, amountAt]
  rw [moveToFull, addEntry_total (by rwa [kept]), bucketsTotal, bucketsTotal,
    mapTotal_split found, add_comm]

theorem Unmoved.foldl_total (distinct : nonEmpty full ≠ bare) :
    ∀ (entries : List (String × BucketStats)) (buckets : ExtTreeMap String BucketStats),
      Unmoved bare buckets entries →
      (∀ entry ∈ entries, (amountAt buckets (fullBucket full entry) + entry.2.stats).Fits) →
        bucketsTotal (entries.foldl (moveToFull full) buckets) = bucketsTotal buckets := by
  intro entries
  induction entries with
  | nil =>
      intro buckets unmoved fits
      rfl
  | cons entry entries ih =>
      intro buckets unmoved fits
      have own := List.mem_cons_self (a := entry) (l := entries)
      have different := fullBucket_ne entry distinct (unmoved.keyed entry own)
        (unmoved.bare entry own).2
      rw [List.foldl_cons, ih _ (unmoved.next distinct)]
      · exact moveToFull_total (unmoved.stored entry own) different (fits entry own)
      · intro other member
        have later := List.mem_cons_of_mem entry member
        have same : amountAt (moveToFull full buckets entry) (fullBucket full other) =
            amountAt buckets (fullBucket full other) := by
          rw [amountAt, moveToFull_lookup, amountAt]
          · exact (fullBucket_ne _ distinct (unmoved.keyed entry own) (unmoved.bare entry own).2).symm
          · intro equal
            refine (List.pairwise_cons.mp unmoved.distinct).1 other member ?_
            exact fullBucket_injective (unmoved.keyed entry own) (unmoved.keyed other later)
              (unmoved.bare entry own) (unmoved.bare other later) (Bucket.key_injective equal)
        rw [same]
        exact fits other later

/-! ### Any order -/

theorem moveToFull_comm (distinct : nonEmpty full ≠ bare)
    (keyed : entry.1 = entry.2.toBucket.key) (otherKeyed : other.1 = other.2.toBucket.key)
    (named : entry.2.provider = providerAnthropic ∧ entry.2.model = bare)
    (otherNamed : other.2.provider = providerAnthropic ∧ other.2.model = bare)
    (different : entry.1 ≠ other.1) :
    moveToFull full (moveToFull full buckets entry) other =
      moveToFull full (moveToFull full buckets other) entry := by
  have targets : (fullBucket full entry).key ≠ (fullBucket full other).key := fun same =>
    different (fullBucket_injective keyed otherKeyed named otherNamed (Bucket.key_injective same))
  have ownOwn : (fullBucket full entry).key ≠ entry.1 := fullBucket_ne _ distinct keyed named.2
  have ownOther : (fullBucket full entry).key ≠ other.1 :=
    fullBucket_ne _ distinct otherKeyed otherNamed.2
  have otherOwn : (fullBucket full other).key ≠ entry.1 := fullBucket_ne _ distinct keyed named.2
  have otherOther : (fullBucket full other).key ≠ other.1 :=
    fullBucket_ne _ distinct otherKeyed otherNamed.2
  apply ExtTreeMap.ext_getElem?
  intro key
  simp only [moveToFull, addEntry_lookup, lookup_erase, if_neg targets, if_neg targets.symm,
    if_neg ownOwn.symm, if_neg ownOther.symm, if_neg otherOwn.symm, if_neg otherOther.symm]
  by_cases own : (fullBucket full entry).key = key
  · subst key
    rw [if_pos rfl, if_neg targets.symm, if_neg ownOther.symm, if_pos rfl]
  · by_cases next : (fullBucket full other).key = key
    · subst key
      rw [if_pos rfl, if_neg targets, if_neg otherOwn.symm, if_pos rfl]
    · rw [if_neg own, if_neg own, if_neg next, if_neg next]
      split <;> split <;> rfl

end Moving

theorem AllEntries.unmoved {P : Bucket → ModelStats → Prop}
    {buckets : ExtTreeMap String BucketStats} (all : AllEntries P buckets) (bare : String) :
    Unmoved bare buckets (buckets.toList.filter (isBare bare)) := by
  have stored (entry : String × BucketStats)
      (member : entry ∈ buckets.toList.filter (isBare bare)) :
      buckets[entry.1]? = some entry.2 :=
    ExtTreeMap.mem_toList_iff_getElem?_eq_some.mp (List.mem_of_mem_filter member)
  constructor
  · apply (ExtTreeMap.distinct_keys_toList.sublist List.filter_sublist).imp
    intro first second distinct same
    rw [same] at distinct
    exact distinct Std.ReflCmp.compare_self
  · exact stored
  · intro entry member
    exact (all entry.1 entry.2 (stored entry member)).1
  · intro entry member
    exact of_decide_eq_true (List.mem_filter.mp member).2

theorem full_ne_bare (bare rest : String) : nonEmpty (bare ++ "[" ++ rest) ≠ bare := by
  have longer : bare ++ "[" ++ rest ≠ bare := by
    intro same
    have lengths := congrArg String.length same
    have bracket : ("[" : String).length = 1 := rfl
    rw [String.length_append, String.length_append, bracket] at lengths
    omega
  have named : bare ++ "[" ++ rest ≠ "" := by
    intro empty
    have lengths := congrArg String.length empty
    have bracket : ("[" : String).length = 1 := rfl
    have nothing : ("" : String).length = 0 := rfl
    rw [String.length_append, String.length_append, bracket, nothing] at lengths
    omega
  rwa [nonEmpty_of_ne named]

/-- The scan of a prefix range does what a scan of all entries does in any order, and moves usage
without losing any. -/
theorem prefix_scan_eq_full_scan {agentStats : AgentStats}
    (keyed : AllEntries (fun _ _ => True) agentStats.buckets) (bare rest : String) :
    let full := bare ++ "[" ++ rest
    let merged := mergeBareIntoFull agentStats bare full
    merged.total = agentStats.total ∧
      (∀ entries : List (String × BucketStats), entries.Perm agentStats.buckets.toList →
        merged.buckets = entries.foldl (scanEntry bare full) agentStats.buckets) ∧
      ((∀ entry ∈ agentStats.buckets.toList,
          entry.2.provider = providerAnthropic ∧ entry.2.model = bare →
            (amountAt agentStats.buckets (fullBucket full entry) + entry.2.stats).Fits) →
        bucketsTotal merged.buckets = bucketsTotal agentStats.buckets) := by
  intro full merged
  have distinct : nonEmpty full ≠ bare := full_ne_bare bare rest
  have unmoved := keyed.unmoved bare
  have scanned : merged.buckets =
      (agentStats.buckets.toList.filter (isBare bare)).foldl (moveToFull full)
        agentStats.buckets := by
    change (mergeBareIntoFull agentStats bare full).buckets = _
    rw [mergeBareIntoFull_buckets, visitedKeys_eq keyed]
    exact Unmoved.foldl_moveBareKey distinct _ _ unmoved
  refine ⟨rfl, ?_, ?_⟩
  · intro entries listed
    rw [scanned, foldl_scanEntry]
    apply (listed.symm.filter (isBare bare)).foldl_eq'
    intro first firstMember second secondMember buckets
    by_cases same : first.1 = second.1
    · have entries := unmoved.stored second secondMember
      rw [← same, unmoved.stored first firstMember] at entries
      rw [Prod.ext same (Option.some.inj entries)]
    · exact moveToFull_comm distinct (unmoved.keyed first firstMember)
        (unmoved.keyed second secondMember) (unmoved.bare first firstMember)
        (unmoved.bare second secondMember) same
  · intro fits
    rw [scanned]
    apply Unmoved.foldl_total distinct _ _ unmoved
    intro entry member
    obtain ⟨listed, named⟩ := List.mem_filter.mp member
    exact fits entry listed (of_decide_eq_true named)

/-- A name with a separator, its full name and a name that is a prefix of it. -/
theorem prefix_scan_eq_full_scan_separator :
    let entry (model : String) : BucketStats :=
      { Bucket.fromParts providerAnthropic model "high" with stats := { inputTokens := 7 } }
    let buckets : ExtTreeMap String BucketStats :=
      ((∅ : ExtTreeMap String BucketStats).insert (entry "claude/4").key (entry "claude/4")).insert
        (entry "claude").key (entry "claude")
    let merged := mergeBareIntoFull { buckets := buckets } "claude/4" ("claude/4" ++ "[" ++ "1m]")
    merged.buckets = buckets.toList.foldl (scanEntry "claude/4" ("claude/4" ++ "[" ++ "1m]"))
        buckets ∧
      bucketsTotal merged.buckets = bucketsTotal buckets := by
  intro entry buckets merged
  have keyed : AllEntries (fun _ _ => True) ({ buckets := buckets } : AgentStats).buckets :=
    (AllEntries.empty.insert rfl trivial).insert rfl trivial
  obtain ⟨_, scanned, total⟩ := prefix_scan_eq_full_scan keyed "claude/4" "1m]"
  refine ⟨scanned _ (List.Perm.refl _), total ?_⟩
  rintro ⟨key, stored⟩ member ⟨_, named⟩
  have found := ExtTreeMap.mem_toList_iff_getElem?_eq_some.mp member
  obtain ⟨rfl, -⟩ := keyed key stored found
  rw [ExtTreeMap.getElem?_insert, ExtTreeMap.getElem?_insert] at found
  split at found
  · obtain rfl := Option.some.inj found
    exact absurd named (by decide)
  · split at found
    · obtain rfl := Option.some.inj found
      intro counter
      cases counter <;> decide +kernel
    · simp at found

end OtelLogger
