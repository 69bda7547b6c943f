import OtelLogger.AggregatorRun

/-!
What the counting operations do to an agent, as changes of a ledger over its buckets. The
bucket map is the canonical form of the ledger: one entry for each bucket that holds
something, stored under the bucket's own key. While nothing saturates, recording adds to one
account, cancelling undoes it, and moving and folding regroup accounts.
-/

namespace OtelLogger

open Std (ExtTreeMap TransOrd LawfulEqOrd)
open Accounting

def holding (bucket : Bucket) (stats : ModelStats) : BucketStats :=
  { bucket with stats := stats }

@[simp] theorem holding_toBucket (bucket : Bucket) (stats : ModelStats) :
    (holding bucket stats).toBucket = bucket := rfl

@[simp] theorem holding_stats (bucket : Bucket) (stats : ModelStats) :
    (holding bucket stats).stats = stats := rfl

/-- The bucket map holds exactly the amounts of the ledger. -/
structure Holds (buckets : ExtTreeMap String BucketStats) (ledger : Bucket →₀ ModelStats) :
    Prop where
  entry : ∀ bucket : Bucket, buckets[bucket.key]? =
    if ledger bucket = 0 then none else some (holding bucket (ledger bucket))
  keyed : ∀ (key : String) (entry : BucketStats), buckets[key]? = some entry →
    key = entry.toBucket.key

namespace Holds

variable {buckets : ExtTreeMap String BucketStats} {ledger : Bucket →₀ ModelStats}

theorem empty : Holds ∅ 0 where
  entry bucket := by simp
  keyed key entry found := by simp at found

theorem stats_eq (holds : Holds buckets ledger) {key : String} {entry : BucketStats}
    (found : buckets[key]? = some entry) :
    entry.stats = ledger entry.toBucket ∧ ledger entry.toBucket ≠ 0 := by
  have own := holds.entry entry.toBucket
  rw [← holds.keyed key entry found, found] at own
  split at own
  · simp at own
  · rename_i present
    exact ⟨congrArg BucketStats.stats (Option.some.inj own), present⟩

theorem getD_entry (holds : Holds buckets ledger) (bucket : Bucket) :
    buckets[bucket.key]?.getD (BucketStats.fromBucket bucket) =
      holding bucket (ledger bucket) := by
  rw [holds.entry]
  split
  · rename_i empty
    rw [empty]
    rfl
  · rfl

theorem unique {other : ExtTreeMap String BucketStats} (holds : Holds buckets ledger)
    (otherHolds : Holds other ledger) : buckets = other := by
  apply ExtTreeMap.ext_getElem?
  intro key
  cases found : buckets[key]? with
  | some entry =>
      have own := holds.keyed key entry found
      rw [own, otherHolds.entry, ← holds.entry, ← own, found]
  | none =>
      cases otherFound : other[key]? with
      | none => rfl
      | some entry =>
          have own := otherHolds.keyed key entry otherFound
          rw [own, otherHolds.entry, ← holds.entry, ← own, found] at otherFound
          simp at otherFound

theorem mapTotal_single (holds : Holds buckets ledger) :
    mapTotal buckets (fun _ (entry : BucketStats) => Finsupp.single entry.toBucket entry.stats) = ledger := by
  ext1 bucket
  have applied := map_mapTotal (Finsupp.applyAddHom bucket) buckets
    fun _ (entry : BucketStats) => Finsupp.single entry.toBucket entry.stats
  refine applied.trans ?_
  have outside (map : ExtTreeMap String BucketStats)
      (missing : ∀ (key : String) (entry : BucketStats), map[key]? = some entry →
        entry.toBucket ≠ bucket) :
      mapTotal map (fun _ (entry : BucketStats) => Finsupp.applyAddHom bucket
        (Finsupp.single entry.toBucket entry.stats)) = 0 :=
    mapTotal_eq_zero fun key entry found =>
      Finsupp.single_eq_of_ne' (missing key entry found)
  by_cases empty : ledger bucket = 0
  · rw [empty]
    apply outside
    rintro key entry found rfl
    exact (holds.stats_eq found).2 empty
  · have found : buckets[bucket.key]? = some (holding bucket (ledger bucket)) := by
      rw [holds.entry, if_neg empty]
    rw [mapTotal_split found, outside]
    · simp
    · rintro key entry later rfl
      rw [ExtTreeMap.getElem?_erase] at later
      split at later
      · simp at later
      · rename_i different
        exact different (by rw [holds.keyed key entry later]; exact Std.ReflCmp.compare_self)

theorem mapTotal_eq {M : Type*} [AddCommMonoid M] (holds : Holds buckets ledger)
    (weight : Bucket → ModelStats →+ M) :
    mapTotal buckets (fun _ (entry : BucketStats) => weight entry.toBucket entry.stats) =
      Finsupp.liftAddHom weight ledger := by
  conv_rhs => rw [← holds.mapTotal_single, map_mapTotal]
  simp

theorem set (holds : Holds buckets ledger) (bucket : Bucket) {amounts : Bucket →₀ ModelStats}
    {next : ExtTreeMap String BucketStats}
    (own : next[bucket.key]? =
      if amounts bucket = 0 then none else some (holding bucket (amounts bucket)))
    (others : ∀ key, key ≠ bucket.key → next[key]? = buckets[key]?)
    (kept : ∀ account, account ≠ bucket → amounts account = ledger account) :
    Holds next amounts where
  entry account := by
    by_cases same : account = bucket
    · subst account
      exact own
    · have different : account.key ≠ bucket.key := fun equal => same (Bucket.key_injective equal)
      rw [others _ different, holds.entry, kept account same]
  keyed key entry found := by
    by_cases same : key = bucket.key
    · subst key
      rw [own] at found
      split at found
      · simp at found
      · rw [← Option.some.inj found, holding_toBucket]
    · rw [others key same] at found
      exact holds.keyed key entry found

theorem addEntry (holds : Holds buckets ledger) (bucket : Bucket) {stats : ModelStats}
    (occupied : stats ≠ 0) (fits : (ledger bucket + stats).Fits) :
    Holds (AgentStats.addEntry buckets bucket stats) (ledger + Finsupp.single bucket stats) := by
  have amount : (ledger + Finsupp.single bucket stats) bucket = ledger bucket + stats := by simp
  have present : ledger bucket + stats ≠ 0 := fun zero =>
    occupied (ModelStats.zero_of_add zero).2
  apply holds.set bucket
  · simp [AgentStats.addEntry, holds.getD_entry, amount, present, ModelStats.add_eq fits, holding]
  · intro key different
    simp [AgentStats.addEntry, ExtTreeMap.getElem?_insert, Ne.symm different]
  · intro account different
    simp [Ne.symm different]

theorem subtractEntry {bucket : Bucket} {stats : ModelStats}
    (holds : Holds buckets (Finsupp.single bucket stats + ledger)) :
    Holds (AgentStats.subtractEntry buckets bucket stats) ledger := by
  have amount : (Finsupp.single bucket stats + ledger) bucket = stats + ledger bucket := by simp
  have kept (account : Bucket) (different : account ≠ bucket) :
      ledger account = (Finsupp.single bucket stats + ledger) account := by
    simp [Ne.symm different]
  have entry := holds.entry bucket
  rw [amount] at entry
  apply holds.set bucket _ _ kept
  · unfold AgentStats.subtractEntry
    split at entry
    · rename_i empty
      simp [entry, (ModelStats.zero_of_add empty).2]
    · simp only [entry, holding_stats, ModelStats.add_subtract]
      by_cases rest : ledger bucket = 0
      · simp [rest, ModelStats.hasAnyValue_eq_false.mpr]
      · simp [rest, ModelStats.hasAnyValue_iff.mpr rest, holding]
  · intro key different
    unfold AgentStats.subtractEntry
    split
    · rfl
    · dsimp only
      split <;> simp [ExtTreeMap.getElem?_insert, ExtTreeMap.getElem?_erase, Ne.symm different]

theorem erase (holds : Holds buckets ledger) (bucket : Bucket) :
    Holds (buckets.erase bucket.key) (ledger.erase bucket) := by
  apply holds.set bucket
  · simp
  · intro key different
    simp [ExtTreeMap.getElem?_erase, Ne.symm different]
  · intro account different
    exact Finsupp.erase_ne different

end Holds

/-- What an agent has counted is the ledger: its buckets hold the amounts, its total is their
sum, and that sum is still counted exactly. -/
structure Represents (agentStats : AgentStats) (ledger : Bucket →₀ ModelStats) : Prop where
  holds : Holds agentStats.buckets ledger
  total : agentStats.total = Finsupp.degree ledger
  fits : (Finsupp.degree ledger).Fits

namespace Represents

variable {agentStats : AgentStats} {ledger : Bucket →₀ ModelStats} {bucket : Bucket}
  {stats : ModelStats}

theorem initial : Represents default 0 where
  holds := Holds.empty
  total := by simp; rfl
  fits counter := by simp

theorem fits_apply (represents : Represents agentStats ledger) (bucket : Bucket) :
    (ledger bucket).Fits :=
  represents.fits.of_le (apply_le_degree ledger bucket)

theorem recordInto (represents : Represents agentStats ledger) (occupied : stats ≠ 0)
    (fits : (Finsupp.degree ledger + stats).Fits) :
    Represents (agentStats.recordInto bucket stats) (ledger + Finsupp.single bucket stats) where
  holds := by
    have bound := add_le_add_left (apply_le_degree ledger bucket) stats
    exact represents.holds.addEntry bucket occupied (fits.of_le bound)
  total := by
    simp only [AgentStats.recordInto, represents.total, ModelStats.add_eq fits, map_add,
      Finsupp.degree_single]
  fits := by simpa using fits

theorem subtractFrom
    (represents : Represents agentStats (Finsupp.single bucket stats + ledger)) :
    Represents (agentStats.subtractFrom bucket stats) ledger where
  holds := represents.holds.subtractEntry
  total := by
    simp [AgentStats.subtractFrom, represents.total]
  fits := by
    have covered := represents.fits
    rw [map_add] at covered
    exact covered.of_le le_add_self

theorem moveBucketStats {source target : Bucket} (occupied : stats ≠ 0)
    (represents : Represents agentStats (Finsupp.single source stats + ledger)) :
    Represents (agentStats.moveBucketStats source target stats)
      (ledger + Finsupp.single target stats) := by
  have total : Finsupp.degree (ledger + Finsupp.single target stats) =
      Finsupp.degree (Finsupp.single source stats + ledger) := by
    simp [add_comm]
  have fits : (Finsupp.degree (ledger + Finsupp.single target stats)).Fits :=
    total ▸ represents.fits
  refine ⟨?_, total ▸ represents.total, fits⟩
  apply represents.holds.subtractEntry.addEntry target occupied
  have bound := apply_le_degree (ledger + Finsupp.single target stats) target
  exact fits.of_le (by simpa using bound)

end Represents

def AggregatorInner.agent (g : AggregatorInner) (name : String) : AgentStats :=
  g.agents[name]?.getD default

theorem recordInto_agent (g : AggregatorInner) (name other : String) (bucket : Bucket)
    (stats : ModelStats) :
    (recordInto g name bucket stats).agent other =
      if other = name then (g.agent name).recordInto bucket stats else g.agent other := by
  by_cases same : other = name
  · subst other
    simp [recordInto, AggregatorInner.agent]
  · simp [recordInto, AggregatorInner.agent, ExtTreeMap.getElem?_insert, same, Ne.symm same]

theorem subtractFrom_default (bucket : Bucket) (stats : ModelStats) :
    (default : AgentStats).subtractFrom bucket stats = default := by
  have total : (0 : ModelStats).subtract stats = 0 := by
    ext <;> simp [ModelStats.subtract]
  exact congrArg (fun total => (⟨total, ∅⟩ : AgentStats)) total

theorem subtractFrom_agent (g : AggregatorInner) (name other : String) (bucket : Bucket)
    (stats : ModelStats) :
    (subtractFrom g name bucket stats).agent other =
      if other = name then (g.agent name).subtractFrom bucket stats else g.agent other := by
  cases found : g.agents[name]? with
  | none =>
      by_cases same : other = name
      · subst other
        simp [subtractFrom, AggregatorInner.agent, found, subtractFrom_default]
      · simp [subtractFrom, found, same]
  | some agentStats =>
      by_cases same : other = name
      · subst other
        simp [subtractFrom, AggregatorInner.agent, found]
      · simp [subtractFrom, AggregatorInner.agent, found, ExtTreeMap.getElem?_insert, same,
          Ne.symm same]

/-! ### Amounts per bucket -/

theorem ledgerOf_addAmount {amounts : ExtTreeMap Bucket ModelStats} {bucket : Bucket}
    {stats : ModelStats}
    (fits : (ledgerOf amounts bucket + stats).Fits) :
    ledgerOf (addAmount amounts bucket stats) =
      ledgerOf amounts + Finsupp.single bucket stats := by
  have amount : amounts[bucket]?.getD {} = ledgerOf amounts bucket :=
    (ledgerOf_apply amounts bucket).symm
  rw [addAmount, amount, ledgerOf_insert, ModelStats.add_eq fits, Finsupp.single_add,
    ← add_assoc, Finsupp.erase_add_single]

theorem addAmount_found {amounts : ExtTreeMap Bucket ModelStats} {bucket account : Bucket}
    {stats amount : ModelStats}
    (found : (addAmount amounts bucket stats)[account]? = some amount) :
    (account = bucket ∧ amount = (amounts[bucket]?.getD (0 : ModelStats)).add stats) ∨
      amounts[account]? = some amount := by
  rw [addAmount, lookup_insert] at found
  split at found
  · rename_i same
    exact Or.inl ⟨same.symm, (Option.some.inj found).symm⟩
  · exact Or.inr found

theorem addAmount_occupied {amounts : ExtTreeMap Bucket ModelStats} {bucket : Bucket}
    {stats : ModelStats} (occupied : Occupied amounts) (present : stats ≠ 0)
    (fits : (ledgerOf amounts bucket + stats).Fits) :
    Occupied (addAmount amounts bucket stats) := by
  intro account amount found
  rcases addAmount_found found with ⟨rfl, sum⟩ | before
  · rw [← ledgerOf_apply, ModelStats.add_eq fits] at sum
    rintro rfl
    exact present (ModelStats.zero_of_add sum.symm).2
  · exact occupied account amount before

end OtelLogger
