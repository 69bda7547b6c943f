import OtelLogger.BareNames
import OtelLogger.ClaudeSources

/-!
What becomes of the usage that logs report. The buckets of the names that share a bare name hold,
for each effort, all that logs reported under these names: a fold moves it, and a cancellation takes
out only what metrics reported. A counter that saturates stays at its limit.
-/

namespace OtelLogger

open Std (ExtTreeMap)
open Accounting

/-! ### What logs reported -/

/-- The names that share a bare name, with one effort. -/
abbrev Family := String × String

def Bucket.family (bucket : Bucket) : Family :=
  (bareModel bucket.model, bucket.effort)

def logFamily (log : LogRecord) : Family :=
  (bareModel (nonEmpty ((stringAttr log.attributes "model").getD "")),
    nonEmpty ((stringAttr log.attributes "effort").getD ""))

def logReport (family : Family) : Step → ModelStats
  | .claudeLog log =>
      match claudeApiRequestStats log with
      | some samples => if logFamily log = family then samples.1 + samples.2 else 0
      | none => 0
  | _ => 0

/-- All that request logs reported under the names of a family. -/
def reportedByLogs (family : Family) (steps : List Step) : ModelStats :=
  (steps.map (logReport family)).sum

theorem reportedByLogs_concat (family : Family) (steps : List Step) (step : Step) :
    reportedByLogs family (steps ++ [step]) =
      reportedByLogs family steps + logReport family step := by
  simp [reportedByLogs]

theorem logReport_of_some {log : LogRecord} {samples : ModelStats × ModelStats}
    (found : claudeApiRequestStats log = some samples) (family : Family) :
    logReport family (.claudeLog log) =
      if logFamily log = family then samples.1 + samples.2 else 0 := by
  rw [logReport, found]

theorem UsageOnly.add {amount stats : ModelStats} (usage : UsageOnly amount)
    (more : UsageOnly stats) : UsageOnly (amount.add stats) := by
  simp [UsageOnly, ModelStats.add, saturatingAdd, usage.1, usage.2, more.1, more.2]

theorem claudeApiRequestStats_idle {log : LogRecord} {samples : ModelStats × ModelStats}
    (found : claudeApiRequestStats log = some samples) : samples.1.hasUsage = false := by
  unfold claudeApiRequestStats at found
  split at found
  · split at found
    · obtain rfl := Option.some.inj found
      rfl
    · simp at found
  · simp at found

/-- The usage key that a family is part of. -/
def Family.usageKey (family : Family) : ClaudeUsageKey :=
  claudeUsageSourceKey family.1 family.2

theorem Bucket.family_usageKey (bucket : Bucket) : bucket.family.usageKey = bucket.usageKey := by
  rw [Family.usageKey, Bucket.family, Bucket.usageKey, claudeUsageSourceKey, claudeUsageSourceKey,
    bareModel_idem]

/-! ### Readings -/

/-- One amount of the samples. A sum that is `full` may not be exact, and grows no further. -/
structure Reading (M : Type) [AddCommMonoid M] [PartialOrder M] where
  read : ModelStats →+ M
  full : M → Prop
  usage : Bool
  grows : ∀ less more, less ≤ more → full less → full more
  add : ∀ amount stats, read (amount.add stats) = read amount + read stats ∨
    full (read (amount.add stats))
  request : usage = false → ∀ amount stats, UsageOnly stats →
    read (amount.subtract stats) = read amount
  unused : usage = true → ∀ stats, stats.hasUsage = false → read stats = 0

theorem ModelStats.counter_add_exactly (amount stats : ModelStats) (counter : Counter) :
    (amount.add stats).counter counter = amount.counter counter + stats.counter counter ∨
      u64Max ≤ (amount.add stats).counter counter := by
  have added : (amount.add stats).counter counter =
      saturatingAdd (amount.counter counter) (stats.counter counter) := by
    cases counter <;> rfl
  rw [added, saturatingAdd]
  omega

theorem UsageOnly.counter_subtract {stats : ModelStats} (usage : UsageOnly stats)
    {counter : Counter} (request : counter.isToken = false) (amount : ModelStats) :
    (amount.subtract stats).counter counter = amount.counter counter := by
  have taken : (amount.subtract stats).counter counter =
      amount.counter counter - stats.counter counter := by
    cases counter <;> rfl
  rw [taken, usage.counter_eq_zero request, Nat.sub_zero]

theorem ModelStats.unused_of_idle {stats : ModelStats} (idle : stats.hasUsage = false) :
    (∀ counter : Counter, counter.isToken = true → stats.counter counter = 0) ∧
      stats.costUsd = 0 := by
  simp only [ModelStats.hasUsage, Bool.or_eq_false_iff, decide_eq_false_iff_not, not_not] at idle
  refine ⟨fun counter token => ?_, by simp [idle]⟩
  cases counter <;> simp_all [Counter.isToken, ModelStats.counter]

def Reading.counter (counter : Counter) : Reading ℕ where
  read := ModelStats.counterHom counter
  full total := u64Max ≤ total
  usage := counter.isToken
  grows _ _ within most := most.trans within
  add amount stats := ModelStats.counter_add_exactly amount stats counter
  request untouched amount _ usageOnly := usageOnly.counter_subtract untouched amount
  unused token _ idle := (ModelStats.unused_of_idle idle).1 counter token

def Reading.cost : Reading ℚ≥0 where
  read := { toFun := ModelStats.costUsd, map_zero' := rfl, map_add' := fun _ _ => rfl }
  full _ := False
  usage := true
  grows _ _ _ := id
  add _ _ := Or.inl rfl
  request never := Bool.noConfusion never
  unused _ _ idle := (ModelStats.unused_of_idle idle).2

namespace Reading

variable {M : Type} [AddCommMonoid M] [PartialOrder M] (R : Reading M)

def share (family : Family) (_ : String) (entry : BucketStats) : M :=
  if entry.toBucket.family = family then R.read entry.stats else 0

def total (family : Family) (buckets : ExtTreeMap String BucketStats) : M :=
  mapTotal buckets (R.share family)

/-- The entries of a family hold an amount, unless they are full. -/
def Holds (family : Family) (amount : M) (buckets : ExtTreeMap String BucketStats) : Prop :=
  amount ≤ R.total family buckets ∨ R.full (R.total family buckets)

variable {R} {family : Family} {amount more : M} {buckets next : ExtTreeMap String BucketStats}

theorem Holds.of_eq (same : R.total family next = R.total family buckets)
    (holds : R.Holds family amount buckets) : R.Holds family amount next := by
  rwa [Holds, same]

theorem Holds.mono (holds : R.Holds family more buckets) (within : amount ≤ more) :
    R.Holds family amount buckets :=
  holds.imp_left within.trans

theorem total_split (bucket : Bucket) (buckets : ExtTreeMap String BucketStats) :
    R.total family buckets =
      R.share family bucket.key (buckets[bucket.key]?.getD (BucketStats.fromBucket bucket)) +
        R.total family (buckets.erase bucket.key) := by
  cases found : buckets[bucket.key]? with
  | none =>
      have empty : R.share family bucket.key (BucketStats.fromBucket bucket) = 0 := by
        rw [share, BucketStats.fromBucket_stats, map_zero, ite_self]
      rw [Option.getD_none, empty, zero_add, erase_eq_self found]
  | some entry => exact mapTotal_split found _

/-- What is taken out without a difference to the reading leaves the total. -/
theorem total_subtractEntry (all : AllEntries (fun _ _ => True) buckets) {bucket : Bucket}
    {stats : ModelStats} (keeps : bucket.family = family →
      ∀ amount : ModelStats, R.read (amount.subtract stats) = R.read amount) :
    R.total family (AgentStats.subtractEntry buckets bucket stats) = R.total family buckets := by
  unfold AgentStats.subtractEntry
  cases found : buckets[bucket.key]? with
  | none => rfl
  | some entry =>
      have own := all.toBucket_eq found
      have left : R.share family bucket.key { entry with stats := entry.stats.subtract stats } =
          R.share family bucket.key entry := by
        simp only [share, own]
        split
        · rename_i same
          exact keeps same _
        · rfl
      dsimp only
      split
      · rw [total, mapTotal_insert, left, total, ← mapTotal_split found]
      · rename_i empty
        have none : entry.stats.subtract stats = 0 := by
          rwa [ModelStats.hasAnyValue_iff, not_not] at empty
        have zero : R.share family bucket.key entry = 0 := by
          rw [← left, share, none, map_zero, ite_self]
        rw [total, total, mapTotal_split found, zero, zero_add]

variable [CanonicallyOrderedAdd M]

/-- An amount that is added is held besides what was. -/
theorem holds_addEntry (R : Reading M) (family : Family)
    (all : AllEntries (fun _ _ => True) buckets) (bucket : Bucket) (stats : ModelStats) :
    R.Holds family (R.total family buckets + if bucket.family = family then R.read stats else 0)
      (AgentStats.addEntry buckets bucket stats) := by
  have split : R.total family buckets = _ := total_split bucket buckets
  have after : R.total family (AgentStats.addEntry buckets bucket stats) = _ :=
    mapTotal_insert _ _ _ _
  have own : (buckets[bucket.key]?.getD (BucketStats.fromBucket bucket)).toBucket = bucket := by
    cases found : buckets[bucket.key]? with
    | none => rfl
    | some entry => exact all.toBucket_eq found
  generalize buckets[bucket.key]?.getD (BucketStats.fromBucket bucket) = entry at split after own
  change R.total family (AgentStats.addEntry buckets bucket stats) = _ + R.total family _ at after
  rw [Holds, after, split]
  simp only [share, own]
  split
  · rcases R.add entry.stats stats with exactly | most
    · refine Or.inl (le_of_eq ?_)
      rw [exactly, add_right_comm]
    · exact Or.inr (R.grows _ _ le_self_add most)
  · exact Or.inl (by simp)

/-- Moving a bare entry to its full name moves all that it holds. -/
theorem holds_moveBareKey (R : Reading M) (family : Family)
    (all : AllEntries (fun _ _ => True) buckets) {full : String} (named : full ≠ "")
    {bareKey : String}
    (bare : ∀ entry, buckets[bareKey]? = some entry → entry.model = bareModel full) :
    R.Holds family (R.total family buckets) (moveBareKey full buckets bareKey) := by
  unfold moveBareKey
  cases found : buckets[bareKey]? with
  | none => exact Or.inl le_rfl
  | some entry =>
      have added := R.holds_addEntry family (all.erase bareKey)
        (Bucket.fromParts entry.provider full entry.effort) entry.stats
      have same : (Bucket.fromParts entry.provider full entry.effort).family =
          entry.toBucket.family := by
        rw [Bucket.family, Bucket.family, Bucket.fromParts_model, Bucket.fromParts_effort,
          nonEmpty_of_ne named, nonEmpty_of_ne entry.named.2.2, bare entry found, bareModel_idem]
      have before : R.total family buckets = R.share family bareKey entry +
          R.total family (buckets.erase bareKey) := mapTotal_split found _
      rw [before, add_comm, share, ← same]
      exact added

variable [IsOrderedAddMonoid M]

theorem Holds.plus (holds : R.Holds family amount buckets)
    (kept : R.Holds family (R.total family buckets + more) next) :
    R.Holds family (amount + more) next := by
  rcases kept with kept | most
  · rcases holds with enough | most
    · exact Or.inl ((add_le_add enough le_rfl).trans kept)
    · exact Or.inr (R.grows _ _ (le_self_add.trans kept) most)
  · exact Or.inr most

theorem Holds.trans (holds : R.Holds family amount buckets)
    (kept : R.Holds family (R.total family buckets) next) : R.Holds family amount next := by
  have kept : R.Holds family (R.total family buckets + 0) next := by rwa [add_zero]
  have both := holds.plus kept
  rwa [add_zero] at both

end Reading

section Fold

variable {M : Type} [AddCommMonoid M] [PartialOrder M] [IsOrderedAddMonoid M]
  [CanonicallyOrderedAdd M] (R : Reading M) (family : Family)

theorem holds_mergeBareIntoFull {agentStats : AgentStats}
    (all : AllEntries (fun _ _ => True) agentStats.buckets) {full : String} (named : full ≠ "") :
    R.Holds family (R.total family agentStats.buckets)
      (mergeBareIntoFull agentStats (bareModel full) full).buckets := by
  have bare : ∀ key ∈ visitedKeys agentStats.buckets (bareModel full),
      ∃ bucket : Bucket, key = bucket.key ∧ bucket.model = bareModel full := by
    intro key visited
    have stored : key ∈ agentStats.buckets.keys :=
      List.mem_of_mem_filter ((List.takeWhile_sublist _).subset visited)
    rw [ExtTreeMap.mem_keys, ← ExtTreeMap.isSome_getElem?_iff_mem] at stored
    obtain ⟨entry, found⟩ := Option.isSome_iff_exists.mp stored
    exact ⟨entry.toBucket, (all key entry found).1, ((mem_visitedKeys all found _).mp visited).2⟩
  rw [mergeBareIntoFull_buckets]
  generalize visitedKeys agentStats.buckets (bareModel full) = bareKeys at bare ⊢
  generalize agentStats.buckets = reached at all ⊢
  induction bareKeys generalizing reached with
  | nil => exact Or.inl le_rfl
  | cons key rest ih =>
      obtain ⟨⟨bucket, keyed, model⟩, later⟩ := List.forall_mem_cons.mp bare
      subst keyed
      have moved := R.holds_moveBareKey family all named fun entry found => by
        rw [all.toBucket_eq found, model]
      exact moved.trans (ih later _
        (all.moveBareKey (fun _ _ _ => trivial) (fun _ _ _ _ _ => trivial) bucket.key))

end Fold

section Kept

variable {M : Type} [AddCommMonoid M] [PartialOrder M] (R : Reading M) {family : Family}
  {g : AggregatorInner} {reported : Family → ModelStats}

/-! ### Cancelling -/

/-- The entries are under their own keys. -/
abbrev EntriesKeyed (g : AggregatorInner) : Prop :=
  AllEntries (fun _ _ => True) (g.agent agentClaude).buckets

variable {R} in
theorem total_cancelMetricUsage (perBucket : List (Bucket × ModelStats))
    (keeps : ∀ entry ∈ perBucket, entry.1.family = family →
      ∀ amount : ModelStats, R.read (amount.subtract entry.2) = R.read amount)
    (keyed : EntriesKeyed g) :
    R.total family ((cancelMetricUsage g perBucket).agent agentClaude).buckets =
      R.total family (g.agent agentClaude).buckets := by
  induction perBucket generalizing g with
  | nil => rfl
  | cons entry rest ih =>
      obtain ⟨own, others⟩ := List.forall_mem_cons.mp keeps
      have buckets : ((subtractFrom g agentClaude entry.1 entry.2).agent agentClaude).buckets =
          AgentStats.subtractEntry (g.agent agentClaude).buckets entry.1 entry.2 := by
        rw [subtractFrom_agent, if_pos rfl]
        rfl
      have after : EntriesKeyed (subtractFrom g agentClaude entry.1 entry.2) := by
        rw [EntriesKeyed, buckets]
        exact keyed.subtractEntry _ _ fun _ _ _ => trivial
      refine (ih others after).trans ?_
      rw [buckets]
      exact Reading.total_subtractEntry keyed own

theorem cancelMetricsOf_metricUsage {sourceKey key : ClaudeUsageKey}
    {perBucket : ExtTreeMap Bucket ModelStats}
    (found : (cancelMetricsOf g sourceKey).claudeMetricUsage[key]? = some perBucket) :
    g.claudeMetricUsage[key]? = some perBucket := by
  unfold cancelMetricsOf at found
  split at found
  · split at found
    · exact found
    · rw [cancelMetricUsage_eq] at found
      simp only [lookup_erase] at found
      split at found
      · simp at found
      · exact found
  · exact found

/-- Of every family the entries hold what its logs reported. -/
structure LogsKept (reported : Family → ModelStats) (g : AggregatorInner) : Prop where
  keyed : EntriesKeyed g
  canonical : ∀ raw full : String, g.claudeCanonicalModels[raw]? = some full →
    raw ≠ "" ∧ full ≠ "" ∧ bareModel full = bareModel raw ∧ (full = raw ∨ bareModel raw = raw)
  revocable : ∀ (key : ClaudeUsageKey) (perBucket : ExtTreeMap Bucket ModelStats)
    (bucket : Bucket) (stats : ModelStats), g.claudeMetricUsage[key]? = some perBucket →
    perBucket[bucket]? = some stats → bucket.usageKey = key ∧ UsageOnly stats
  unseen : ∀ family : Family, g.claudeUsageSources[family.usageKey]? ≠ some .logs →
    R.usage = true → R.read (reported family) = 0
  kept : ∀ family : Family, R.Holds family (R.read (reported family)) (g.agent agentClaude).buckets

/-- What was reported, with one more sample of a bucket. -/
def withSample (reported : Family → ModelStats) (bucket : Bucket) (stats : ModelStats)
    (family : Family) : ModelStats :=
  reported family + if bucket.family = family then stats else 0

theorem withSample_zero (reported : Family → ModelStats) (bucket : Bucket) :
    withSample reported bucket 0 = reported := by
  funext family
  rw [withSample, ite_self, add_zero]

theorem read_withSample (reported : Family → ModelStats) (bucket : Bucket) (stats : ModelStats)
    (family : Family) : R.read (withSample reported bucket stats family) =
      R.read (reported family) + if bucket.family = family then R.read stats else 0 := by
  rw [withSample, map_add]
  split
  · rfl
  · rw [map_zero]

namespace LogsKept

variable {R} {next : AggregatorInner}

theorem new : LogsKept R (fun _ => 0) Aggregator.new where
  keyed := AllEntries.empty
  canonical raw full found := by simp [Aggregator.new] at found
  revocable key perBucket bucket stats found := by simp [Aggregator.new] at found
  unseen _ _ _ := map_zero R.read
  kept family := by
    have empty : R.total family (Aggregator.new.agent agentClaude).buckets = 0 := mapTotal_empty _
    exact Or.inl ((map_zero R.read).trans empty.symm).le

theorem codexOnly (kept : LogsKept R reported g) (same : CodexOnly g next) :
    LogsKept R reported next where
  keyed := by
    rw [EntriesKeyed, same.agents agentClaude agentClaude_ne_agentCodex]
    exact kept.keyed
  canonical := same.canonicalModels ▸ kept.canonical
  revocable := same.metricUsage ▸ kept.revocable
  unseen := same.usageSources ▸ kept.unseen
  kept family := by
    rw [same.agents agentClaude agentClaude_ne_agentCodex]
    exact kept.kept family

theorem logBucket_family (kept : LogsKept R reported g) (log : LogRecord) :
    (logBucket g log).family = logFamily log := by
  have bare (raw : String) : bareModel (nonEmpty (canonicalClaudeModel g raw)) =
      bareModel (nonEmpty raw) := by
    unfold canonicalClaudeModel
    split
    · rfl
    · cases found : g.claudeCanonicalModels[raw]? with
      | none => rfl
      | some full =>
          obtain ⟨named, whole, same, _⟩ := kept.canonical raw full found
          rw [Option.getD_some, nonEmpty_of_ne named, nonEmpty_of_ne whole, same]
  rw [logBucket, Bucket.family, Bucket.fromParts_model, Bucket.fromParts_effort, bare, logFamily]

end LogsKept

variable {R} [CanonicallyOrderedAdd M]

/-- Cancelling the metric usage of a key takes nothing that logs reported. -/
theorem holds_cancelMetricsOf {sourceKey : ClaudeUsageKey} {amount : M} (keyed : EntriesKeyed g)
    (revocable : ∀ (perBucket : ExtTreeMap Bucket ModelStats) (bucket : Bucket)
      (stats : ModelStats), g.claudeMetricUsage[sourceKey]? = some perBucket →
      perBucket[bucket]? = some stats → bucket.usageKey = sourceKey ∧ UsageOnly stats)
    (unseen : family.usageKey = sourceKey → g.claudeUsageSources[sourceKey]? ≠ some .logs →
      R.usage = true → amount = 0)
    (holds : R.Holds family amount (g.agent agentClaude).buckets) :
    R.Holds family amount ((cancelMetricsOf g sourceKey).agent agentClaude).buckets := by
  unfold cancelMetricsOf
  split
  · rename_i metrics
    have source : g.claudeUsageSources[sourceKey]? ≠ some .logs := by simp [metrics]
    split
    · exact holds
    · rename_i perBucket found
      by_cases seen : family.usageKey = sourceKey ∧ R.usage = true
      · rw [unseen seen.1 source seen.2]
        exact Or.inl zero_le
      · refine holds.of_eq (total_cancelMetricUsage _ ?_ keyed)
        intro entry member same amount
        rw [ExtTreeMap.mem_toList_iff_getElem?_eq_some] at member
        obtain ⟨own, usageOnly⟩ := revocable _ _ _ found member
        have source : family.usageKey = sourceKey := by
          rw [← same, Bucket.family_usageKey, own]
        exact R.request (by simpa [source] using seen) amount _ usageOnly
  · exact holds

theorem LogsKept.cancel (kept : LogsKept R reported g) (sourceKey : ClaudeUsageKey) :
    LogsKept R reported (cancelMetricsOf g sourceKey) where
  keyed := AllEntries.cancelMetricsOf kept.keyed _ fun _ _ _ _ _ => trivial
  canonical := by
    rw [cancelMetricsOf_eq]
    exact kept.canonical
  revocable key perBucket bucket stats found :=
    kept.revocable key perBucket bucket stats (cancelMetricsOf_metricUsage found)
  unseen := by
    rw [cancelMetricsOf_eq]
    exact kept.unseen
  kept family := by
    refine holds_cancelMetricsOf kept.keyed (fun perBucket bucket stats =>
      kept.revocable sourceKey perBucket bucket stats) ?_ (kept.kept family)
    exact fun same source => kept.unseen family (same ▸ source)

variable [IsOrderedAddMonoid M]

theorem holds_recordInto {amount : M} (keyed : EntriesKeyed g) (bucket : Bucket)
    (stats : ModelStats) (holds : R.Holds family amount (g.agent agentClaude).buckets) :
    R.Holds family (amount + if bucket.family = family then R.read stats else 0)
      ((recordInto g agentClaude bucket stats).agent agentClaude).buckets := by
  rw [recordInto_agent, if_pos rfl]
  exact holds.plus (R.holds_addEntry family keyed bucket stats)

theorem keyed_recordInto (keyed : EntriesKeyed g) (bucket : Bucket) (stats : ModelStats) :
    EntriesKeyed (recordInto g agentClaude bucket stats) :=
  AllEntries.recordInto keyed trivial fun _ _ => trivial

namespace LogsKept

/-- The request of a log carries no usage, so that metrics may still count its key. -/
theorem request (kept : LogsKept R reported g) (bucket : Bucket) {stats : ModelStats}
    (idle : stats.hasUsage = false) :
    LogsKept R (withSample reported bucket stats) (recordInto g agentClaude bucket stats) where
  keyed := keyed_recordInto kept.keyed bucket stats
  canonical := kept.canonical
  revocable := kept.revocable
  unseen family source reading := by
    rw [read_withSample, kept.unseen family source reading, R.unused reading stats idle, ite_self,
      add_zero]
  kept family := by
    rw [read_withSample]
    exact holds_recordInto kept.keyed bucket stats (kept.kept family)

/-- From the first usage on, the logs are what counts of a key. -/
theorem count (kept : LogsKept R reported g) (bucket : Bucket) (stats : ModelStats) :
    LogsKept R (withSample reported bucket stats)
      { recordInto g agentClaude bucket stats with
        claudeUsageSources := g.claudeUsageSources.insert bucket.usageKey .logs } where
  keyed := keyed_recordInto kept.keyed bucket stats
  canonical := kept.canonical
  revocable := kept.revocable
  unseen family source reading := by
    rw [lookup_insert] at source
    split at source
    · simp at source
    · rename_i other
      have apart : bucket.family ≠ family := by
        rintro rfl
        exact other (Bucket.family_usageKey bucket).symm
      rw [withSample, if_neg apart, add_zero]
      exact kept.unseen family source reading
  kept family := by
    rw [read_withSample]
    exact holds_recordInto kept.keyed bucket stats (kept.kept family)

theorem ingestClaudeLog (kept : LogsKept R reported g) (bucket : Bucket)
    {requestStats usageStats : ModelStats} (idle : requestStats.hasUsage = false)
    (usageOnly : UsageOnly usageStats) :
    LogsKept R (withSample (withSample reported bucket requestStats) bucket usageStats)
      (OtelLogger.ingestClaudeLog g bucket requestStats usageStats) := by
  have requested := kept.request bucket idle
  unfold OtelLogger.ingestClaudeLog
  by_cases usage : usageStats.hasUsage = true
  · rw [recordClaudeLogUsage_of_usage usage]
    exact (requested.cancel bucket.usageKey).count bucket usageStats
  · have unused : usageStats = 0 := not_not.mp fun occupied => usage (usageOnly.hasUsage occupied)
    rw [recordClaudeLogUsage, if_neg usage, unused, withSample_zero]
    exact requested

theorem claudeLog (kept : LogsKept R reported g) (log : LogRecord) :
    LogsKept R (fun family => reported family + logReport family (.claudeLog log))
      (Step.apply g (.claudeLog log)).1 := by
  cases samples : claudeApiRequestStats log with
  | none =>
      have silent (family : Family) : logReport family (.claudeLog log) = 0 := by
        rw [logReport, samples]
      simp only [silent, add_zero]
      rwa [Step.apply_claudeLog_of_none samples]
  | some samples' =>
      have counted := kept.ingestClaudeLog (logBucket g log) (claudeApiRequestStats_idle samples)
        (claudeApiRequestStats_parts samples).2.2
      have report : withSample (withSample reported (logBucket g log) samples'.1) (logBucket g log)
          samples'.2 = fun family => reported family + logReport family (.claudeLog log) := by
        funext family
        rw [withSample, withSample, logReport_of_some samples, kept.logBucket_family log]
        split <;> simp [add_assoc]
      rw [Step.apply_claudeLog_of_some samples, ← report]
      exact counted

/-- A fold moves what it takes from the bare name. -/
theorem register (kept : LogsKept R reported g) {full : String} (named : full ≠ "") :
    LogsKept R reported (registerCanonicalClaudeModel g full) := by
  rcases registerCanonicalClaudeModel_cases g named with
    ⟨folds, result⟩ | ⟨_, _, result⟩ | ⟨_, _, result⟩
  · rw [result]
    have agent : (foldBare (reportModel g full) full).agent agentClaude =
        mergeBareIntoFull (g.agent agentClaude) (bareModel full) full := by
      rw [foldBare_agent, if_pos rfl]
      rfl
    refine ⟨?_, ?_, kept.revocable, kept.unseen, ?_⟩
    · rw [EntriesKeyed, agent]
      exact kept.keyed.mergeBareIntoFull _ full (fun _ _ _ => trivial) fun _ _ _ _ _ => trivial
    · intro raw other found
      simp only [foldBare, ExtTreeMap.getElem?_insert] at found
      split at found
      · rename_i same
        obtain rfl : bareModel full = raw := Std.compare_eq_iff_eq.mp same
        obtain rfl := Option.some.inj found
        exact ⟨folds.1, named, (bareModel_idem _).symm, Or.inr (bareModel_idem _)⟩
      · exact kept.canonical raw other found
    · intro family
      rw [agent]
      exact (kept.kept family).trans (holds_mergeBareIntoFull R family kept.keyed named)
  · rw [result]
    refine ⟨kept.keyed, ?_, kept.revocable, kept.unseen, kept.kept⟩
    intro raw other found
    rw [ExtTreeMap.getElem?_insertIfNew] at found
    split at found
    · rename_i same
      obtain rfl : full = raw := Std.compare_eq_iff_eq.mp same.1
      obtain rfl := Option.some.inj found
      exact ⟨named, named, rfl, Or.inl rfl⟩
    · exact kept.canonical raw other found
  · rw [result]
    exact ⟨kept.keyed, kept.canonical, kept.revocable, kept.unseen, kept.kept⟩

/-- A metric point adds to what the logs reported, and is not a log. -/
theorem measure (kept : LogsKept R reported g) (bucket : Bucket) {stats : ModelStats}
    (usageOnly : UsageOnly stats) :
    LogsKept R reported (recordClaudeMetricUsage g bucket stats).1 := by
  by_cases counted : stats.hasUsage = true ∧ g.claudeUsageSources[bucket.usageKey]? ≠ some .logs
  · rw [recordClaudeMetricUsage_of_counted counted]
    refine ⟨keyed_recordInto kept.keyed bucket stats, kept.canonical, ?_, ?_, ?_⟩
    · intro key perBucket account amount found entry
      simp only [lookup_insert] at found
      split at found
      · rename_i same
        subst same
        obtain rfl := Option.some.inj found
        have former (amount : ModelStats)
            (entry : (g.claudeMetricUsage[bucket.usageKey]?.getD ∅)[account]? = some amount) :
            account.usageKey = bucket.usageKey ∧ UsageOnly amount := by
          cases found : g.claudeMetricUsage[bucket.usageKey]? with
          | none => simp [found] at entry
          | some amounts =>
              rw [found, Option.getD_some] at entry
              exact kept.revocable _ amounts account amount found entry
        rw [addAmount, lookup_insert] at entry
        split at entry
        · rename_i same
          subst same
          obtain rfl := Option.some.inj entry
          refine ⟨rfl, ?_⟩
          cases before : (g.claudeMetricUsage[bucket.usageKey]?.getD ∅)[bucket]? with
          | none => exact UsageOnly.add ⟨rfl, rfl⟩ usageOnly
          | some amount => exact (former amount before).2.add usageOnly
        · exact former amount entry
      · exact kept.revocable key perBucket account amount found entry
    · intro family source
      refine kept.unseen family fun logs => ?_
      rw [lookup_insert] at source
      split at source
      · rename_i same
        exact counted.2 (same ▸ logs)
      · exact source logs
    · intro family
      exact Reading.Holds.mono (holds_recordInto kept.keyed bucket stats (kept.kept family))
        le_self_add
  · rwa [recordClaudeMetricUsage_of_ignored counted]

theorem point (kept : LogsKept R reported g) (attrs : List KeyValue) {stats : ModelStats}
    (usageOnly : UsageOnly stats) :
    LogsKept R reported (recordClaudeMetricUsage (claudeMetricModel g attrs).1
      (claudeMetricBucket attrs (claudeMetricModel g attrs).2) stats).1 := by
  rw [claudeMetricModel_fst, claudeMetricModel_snd]
  exact (kept.register (nonEmpty_ne _)).measure _ usageOnly

theorem apply (kept : LogsKept R reported g) (step : Step) :
    LogsKept R (fun family => reported family + logReport family step) (step.apply g).1 := by
  cases step with
  | claudeLog log => exact kept.claudeLog log
  | claudeTokens dp =>
      simp only [Step.apply, logReport, add_zero]
      rw [ingestClaudeTokenPoint_eq]
      refine kept.point dp.attributes ?_
      cases parsed : claudeTokenStats dp with
      | none => exact ⟨rfl, rfl⟩
      | some stats => exact claudeTokenStats_usageOnly parsed
  | claudeCost dp =>
      simp only [Step.apply, logReport, add_zero]
      rw [ingestClaudeCostPoint_eq]
      exact kept.point dp.attributes (claudeCostStats_usageOnly dp)
  | _ =>
      simp only [logReport, add_zero]
      exact kept.codexOnly (Step.apply_codexOnly _ rfl g)

theorem run (R : Reading M) (steps : List Step) :
    LogsKept R (fun family => reportedByLogs family steps) (Aggregator.runSteps steps) := by
  induction steps using List.reverseRecOn with
  | nil => exact LogsKept.new
  | append_singleton steps step ih =>
      simp only [Aggregator.runSteps_concat, reportedByLogs_concat]
      exact ih.apply step

end LogsKept

end Kept

namespace Aggregator

/-- What the entries of the full names of a bare name hold together, for one effort. -/
def fullNameUsage (g : AggregatorInner) (model effort : String) : ModelStats :=
  mapTotal (g.agent agentClaude).buckets fun _ entry =>
    if entry.model ≠ model ∧ bareModel entry.model = model ∧ entry.effort = effort then entry.stats
    else 0

/-- Where no entry has the bare name, all of the family is in its full names. -/
theorem read_fullNameUsage {M : Type} [AddCommMonoid M] [PartialOrder M] (R : Reading M)
    {g : AggregatorInner} {model : String}
    (free : ∀ (key : String) (entry : BucketStats),
      (g.agent agentClaude).buckets[key]? = some entry → entry.model ≠ model) (effort : String) :
    R.read (fullNameUsage g model effort) =
      R.total (model, effort) (g.agent agentClaude).buckets := by
  rw [fullNameUsage, map_mapTotal]
  refine mapTotal_congr fun key entry found => ?_
  have whole := free key entry found
  by_cases own : bareModel entry.model = model ∧ entry.effort = effort
  · simp [Reading.share, Bucket.family, whole, own]
  · have apart : entry.toBucket.family ≠ (model, effort) := fun same => own (Prod.mk.inj same)
    rw [if_neg fun both => own both.2, Reading.share, if_neg apart, map_zero]

/-- A split name is bare and has no Claude bucket in any state of a run, and the buckets of its
full names hold all that request logs reported under these names until then, up to where a counter
saturates, as long as no request log without a model is processed while `unknown` is split. -/
theorem split_name_free (calls : List Call)
    (named : ∀ earlier step, earlier ++ [step] <+: calls.flatMap Call.steps →
      NamelessRequest step → ¬Split (runSteps earlier) unknown)
    (before : List Call) (reached : before <+: calls) (model : String)
    (split : Split (run before) model) :
    bareModel model = model ∧
    (∀ (key : String) (entry : BucketStats),
      ((run before).agent agentClaude).buckets[key]? = some entry → entry.model ≠ model) ∧
    ∀ effort : String,
      (∀ counter : Counter,
        min ((reportedByLogs (model, effort) (before.flatMap Call.steps)).counter counter) u64Max ≤
          (fullNameUsage (run before) model effort).counter counter) ∧
      (reportedByLogs (model, effort) (before.flatMap Call.steps)).costUsd ≤
        (fullNameUsage (run before) model effort).costUsd := by
  obtain ⟨after, rfl⟩ := reached
  rw [run_eq] at split ⊢
  have unsplit := unsplit_run (before.flatMap Call.steps) fun earlier step earlierReached => by
    refine named earlier step (earlierReached.trans ?_)
    rw [List.flatMap_append]
    exact List.prefix_append _ _
  have free : ∀ (key : String) (entry : BucketStats),
      ((runSteps (before.flatMap Call.steps)).agent agentClaude).buckets[key]? = some entry →
        entry.model ≠ model :=
    fun key entry found same => (unsplit.placed key entry found).2.2 (same ▸ split)
  refine ⟨?_, free, fun effort => ⟨fun counter => ?_, ?_⟩⟩
  · obtain ⟨⟨full, mapped, different⟩, _⟩ := split
    have canonical := (LogsKept.run Reading.cost (before.flatMap Call.steps)).canonical model full
    exact (canonical mapped).2.2.2.resolve_left different
  · have kept := (LogsKept.run (Reading.counter counter) (before.flatMap Call.steps)).kept
      (model, effort)
    rw [Reading.Holds, ← read_fullNameUsage _ free effort] at kept
    rcases kept with held | full
    · exact (min_le_left _ _).trans held
    · exact (min_le_right _ _).trans full
  · have kept := (LogsKept.run Reading.cost (before.flatMap Call.steps)).kept (model, effort)
    rw [Reading.Holds, ← read_fullNameUsage _ free effort] at kept
    exact kept.resolve_right id

/-- A log of the bare name before the metric that reports its full name, and one after it. -/
def opusCalls : List Call :=
  [(apiRequestMessage "opus" 7).call, (claudeTokenMessage "opus[1m]" 5).call,
    (apiRequestMessage "opus" 3).call]

theorem split_name_free_opus :
    ∃ entry : BucketStats,
      ((run opusCalls).agent agentClaude).buckets[
        (Bucket.fromParts providerAnthropic "opus[1m]" unknown).key]? = some entry ∧
      entry.model ≠ "opus" ∧
      10 ≤ (fullNameUsage (run opusCalls) "opus" unknown).inputTokens := by
  have present : (((run opusCalls).agent agentClaude).buckets[
      (Bucket.fromParts providerAnthropic "opus[1m]" unknown).key]?).isSome = true := by
    decide +kernel
  obtain ⟨entry, found⟩ := Option.isSome_iff_exists.mp present
  have named (earlier : List Step) (step : Step)
      (reached : earlier ++ [step] <+: opusCalls.flatMap Call.steps)
      (nameless : NamelessRequest step) : ¬Split (runSteps earlier) unknown := by
    have member : step ∈ [Step.claudeLog _, Step.claudeTokens _, Step.claudeLog _] :=
      reached.subset (by simp)
    simp only [List.mem_cons, List.not_mem_nil, or_false] at member
    rcases member with rfl | rfl | rfl
    · exact absurd nameless.2 (by decide)
    · exact nameless.elim
    · exact absurd nameless.2 (by decide)
  have split : Split (run opusCalls) "opus" :=
    ⟨⟨"opus[1m]", by decide +kernel, by decide⟩, by decide +kernel⟩
  obtain ⟨_, free, held⟩ := split_name_free opusCalls named opusCalls List.prefix_rfl "opus" split
  have reported : (reportedByLogs ("opus", unknown)
      (opusCalls.flatMap Call.steps)).inputTokens = 10 := by
    decide +kernel
  have most := (held unknown).1 .inputTokens
  change min (reportedByLogs _ _).inputTokens u64Max ≤ _ at most
  rw [reported] at most
  exact ⟨entry, found, free _ entry found, most⟩

/-- A request log without a model, once metrics have reported `unknown[1m]`. -/
theorem nameless_request_splits :
    Split (run [(claudeTokenMessage "unknown[1m]" 5).call, (apiRequestMessage "" 7).call])
        unknown ∧
      ∃ entry : BucketStats,
        ((run [(claudeTokenMessage "unknown[1m]" 5).call,
            (apiRequestMessage "" 7).call]).agent agentClaude).buckets[
          (Bucket.fromParts providerAnthropic unknown unknown).key]? = some entry ∧
        entry.model = unknown := by
  refine ⟨⟨⟨"unknown[1m]", by decide +kernel, by decide⟩, by decide +kernel⟩, ?_⟩
  have stored : (((run [(claudeTokenMessage "unknown[1m]" 5).call,
      (apiRequestMessage "" 7).call]).agent agentClaude).buckets[
        (Bucket.fromParts providerAnthropic unknown unknown).key]?.map
          fun entry => entry.model) = some unknown := by decide +kernel
  exact Option.map_eq_some_iff.mp stored

end Aggregator

end OtelLogger
