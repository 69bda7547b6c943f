import OtelLogger.Runs

/-!
Where the usage of a bare model name is found. Once metrics report a full name for a bare one
and never the bare name itself, no bucket of the bare name is left, whether the logs came before
or after. This holds of every run, saturated counters included.
-/

namespace OtelLogger

open Std (ExtTreeMap TransOrd LawfulEqOrd)
open Accounting

/-- Every entry is stored under the key of its own bucket, and the property holds of it. -/
def AllEntries (P : Bucket → ModelStats → Prop) (buckets : ExtTreeMap String BucketStats) : Prop :=
  ∀ (key : String) (entry : BucketStats), buckets[key]? = some entry →
    key = entry.toBucket.key ∧ P entry.toBucket entry.stats

namespace AllEntries

variable {P : Bucket → ModelStats → Prop} {buckets : ExtTreeMap String BucketStats}

theorem empty : AllEntries P ∅ := by
  intro key entry found
  simp at found

theorem imp {Q : Bucket → ModelStats → Prop} (all : AllEntries P buckets)
    (weaker : ∀ bucket stats, P bucket stats → Q bucket stats) : AllEntries Q buckets := by
  intro key entry found
  exact ⟨(all key entry found).1, weaker _ _ (all key entry found).2⟩

theorem insert (all : AllEntries P buckets) {bucket : Bucket} {entry : BucketStats}
    (own : entry.toBucket = bucket) (fits : P bucket entry.stats) :
    AllEntries P (buckets.insert bucket.key entry) := by
  subst bucket
  intro key other found
  rw [lookup_insert] at found
  split at found
  · rename_i same
    obtain rfl := Option.some.inj found
    exact ⟨same.symm, fits⟩
  · exact all key other found

theorem erase (all : AllEntries P buckets) (key : String) : AllEntries P (buckets.erase key) := by
  intro other entry found
  rw [ExtTreeMap.getElem?_erase] at found
  split at found
  · simp at found
  · exact all other entry found

theorem toBucket_eq (all : AllEntries P buckets) {bucket : Bucket} {entry : BucketStats}
    (found : buckets[bucket.key]? = some entry) : entry.toBucket = bucket :=
  (Bucket.key_injective (all _ _ found).1).symm

theorem addEntry (all : AllEntries P buckets) {bucket : Bucket} {stats : ModelStats}
    (started : P bucket (ModelStats.add 0 stats))
    (grows : ∀ amount, P bucket amount → P bucket (amount.add stats)) :
    AllEntries P (AgentStats.addEntry buckets bucket stats) := by
  unfold AgentStats.addEntry
  cases found : buckets[bucket.key]? with
  | none => exact all.insert rfl started
  | some entry =>
      have own := all.toBucket_eq found
      exact all.insert own (grows _ (own ▸ (all _ _ found).2))

theorem subtractEntry (all : AllEntries P buckets) (bucket : Bucket) (stats : ModelStats)
    (shrinks : ∀ amount, P bucket amount → (amount.subtract stats).hasAnyValue = true →
      P bucket (amount.subtract stats)) :
    AllEntries P (AgentStats.subtractEntry buckets bucket stats) := by
  unfold AgentStats.subtractEntry
  cases found : buckets[bucket.key]? with
  | none => exact all
  | some entry =>
      have own := all.toBucket_eq found
      dsimp only
      split
      · rename_i remains
        exact all.insert own (shrinks _ (own ▸ (all _ _ found).2) remains)
      · exact all.erase _

end AllEntries

theorem addEntry_absent {buckets : ExtTreeMap String BucketStats} {bucket : Bucket}
    {stats : ModelStats} {key : String} (other : bucket.key ≠ key) :
    (AgentStats.addEntry buckets bucket stats)[key]? = buckets[key]? := by
  simp [AgentStats.addEntry, ExtTreeMap.getElem?_insert, other]

theorem nonEmpty_providerAnthropic : nonEmpty providerAnthropic = providerAnthropic := by decide

/-! ### Folding -/

/-- What a fold does with one key it visits. -/
def moveBareKey (full : String) (buckets : ExtTreeMap String BucketStats) (bareKey : String) :
    ExtTreeMap String BucketStats :=
  match buckets[bareKey]? with
  | none => buckets
  | some bareStats =>
      AgentStats.addEntry (buckets.erase bareKey)
        (Bucket.fromParts bareStats.provider full bareStats.effort) bareStats.stats

def visitedKeys (buckets : ExtTreeMap String BucketStats) (bare : String) : List String :=
  (buckets.keys.filter fun key => compare (bareRangeStart bare) key ≠ .gt).takeWhile fun key =>
    (bareRangeStart bare).toList.isPrefixOf key.toList

theorem mergeBareIntoFull_buckets (agentStats : AgentStats) (bare full : String) :
    (mergeBareIntoFull agentStats bare full).buckets =
      (visitedKeys agentStats.buckets bare).foldl (moveBareKey full) agentStats.buckets :=
  rfl

theorem mem_visitedKeys {P : Bucket → ModelStats → Prop}
    {buckets : ExtTreeMap String BucketStats} (all : AllEntries P buckets) {key : String}
    {entry : BucketStats} (found : buckets[key]? = some entry) (bare : String) :
    key ∈ visitedKeys buckets bare ↔
      entry.provider = providerAnthropic ∧ entry.model = bare := by
  have stored : key ∈ buckets.keys := by
    rw [ExtTreeMap.mem_keys, ← ExtTreeMap.isSome_getElem?_iff_mem, found]
    rfl
  have own := (all key entry found).1
  rw [visitedKeys, mem_prefixRange ExtTreeMap.ordered_keys, and_iff_right stored, own,
    bareRangeStart_prefix_iff]

section Fold

variable {P : Bucket → ModelStats → Prop} {buckets : ExtTreeMap String BucketStats}
  {full : String}

theorem AllEntries.moveBareKey (all : AllEntries P buckets)
    (renames : ∀ bucket stats, P bucket stats →
      P (Bucket.fromParts bucket.provider full bucket.effort) (ModelStats.add 0 stats))
    (grows : ∀ bucket amount stats, bucket.model = nonEmpty full → P bucket amount →
      P bucket (amount.add stats)) (bareKey : String) :
    AllEntries P (moveBareKey full buckets bareKey) := by
  unfold OtelLogger.moveBareKey
  cases found : buckets[bareKey]? with
  | none => exact all
  | some entry =>
      apply (all.erase bareKey).addEntry
      · exact renames _ _ (all bareKey entry found).2
      · intro amount stored
        exact grows _ amount _ rfl stored

theorem moveBareKey_free {key bareKey : String}
    (foreign : ∀ bucket : Bucket, bucket.model = nonEmpty full → bucket.key ≠ key)
    (free : buckets[key]? = none ∨ key = bareKey) :
    (moveBareKey full buckets bareKey)[key]? = none := by
  unfold moveBareKey
  cases found : buckets[bareKey]? with
  | none =>
      rcases free with free | rfl
      · exact free
      · exact found
  | some entry =>
      dsimp only
      rw [addEntry_absent (foreign _ rfl), ExtTreeMap.getElem?_erase]
      rcases free with free | rfl
      · rw [free, ite_self]
      · simp

theorem foldl_moveBareKey_free (bareKeys : List String) {key : String}
    (foreign : ∀ bucket : Bucket, bucket.model = nonEmpty full → bucket.key ≠ key) :
    ∀ buckets : ExtTreeMap String BucketStats, buckets[key]? = none ∨ key ∈ bareKeys →
      (bareKeys.foldl (moveBareKey full) buckets)[key]? = none := by
  induction bareKeys with
  | nil =>
      intro buckets free
      exact free.resolve_right List.not_mem_nil
  | cons bareKey bareKeys ih =>
      intro buckets free
      apply ih
      rcases free with free | visited
      · exact Or.inl (moveBareKey_free foreign (Or.inl free))
      · rcases List.mem_cons.mp visited with same | later
        · exact Or.inl (moveBareKey_free foreign (Or.inr same))
        · exact Or.inr later

theorem AllEntries.mergeBareIntoFull {agentStats : AgentStats}
    (all : AllEntries P agentStats.buckets) (bare full : String)
    (renames : ∀ bucket stats, P bucket stats →
      P (Bucket.fromParts bucket.provider full bucket.effort) (ModelStats.add 0 stats))
    (grows : ∀ bucket amount stats, bucket.model = nonEmpty full → P bucket amount →
      P bucket (amount.add stats)) :
    AllEntries P (OtelLogger.mergeBareIntoFull agentStats bare full).buckets := by
  rw [mergeBareIntoFull_buckets]
  generalize visitedKeys agentStats.buckets bare = bareKeys
  generalize agentStats.buckets = reached at all
  induction bareKeys generalizing reached with
  | nil => exact all
  | cons bareKey bareKeys ih => exact ih _ (all.moveBareKey renames grows bareKey)

theorem mergeBareIntoFull_free {agentStats : AgentStats} {bare : String}
    (all : AllEntries (fun bucket _ => bucket.provider = providerAnthropic) agentStats.buckets)
    (distinct : nonEmpty full ≠ bare) {key : String} {entry : BucketStats}
    (found : (mergeBareIntoFull agentStats bare full).buckets[key]? = some entry) :
    entry.model ≠ bare := by
  intro bareModel
  have merged := all.mergeBareIntoFull bare full
    (fun _ _ anthropic => anthropic ▸ nonEmpty_providerAnthropic)
    (fun _ _ _ _ anthropic => anthropic)
  obtain ⟨own, anthropic⟩ := merged key entry found
  have foreign : ∀ bucket : Bucket, bucket.model = nonEmpty full → bucket.key ≠ key := by
    intro bucket named same
    have equal := Bucket.key_injective (same.trans own)
    exact distinct (named.symm.trans (equal ▸ bareModel))
  have free : agentStats.buckets[key]? = none ∨ key ∈ visitedKeys agentStats.buckets bare := by
    cases before : agentStats.buckets[key]? with
    | none => exact Or.inl rfl
    | some previous =>
        have same := Bucket.key_injective ((all key previous before).1.symm.trans own)
        rw [mem_visitedKeys all before, same]
        exact Or.inr ⟨anthropic, bareModel⟩
  rw [mergeBareIntoFull_buckets, foldl_moveBareKey_free _ foreign _ free] at found
  simp at found

end Fold

/-! ### Split names -/

/-- Metrics report a full name for a bare one, and never the bare name itself. -/
def Split (g : AggregatorInner) (model : String) : Prop :=
  (∃ full, g.claudeCanonicalModels[model]? = some full ∧ full ≠ model) ∧
    model ∉ g.claudeMetricModels

/-- An API request log without a model: its bucket is `unknown`, but it is looked up as the
empty name. -/
def NamelessRequest : Step → Prop
  | .claudeLog log =>
      claudeApiRequestStats log ≠ none ∧ (stringAttr log.attributes "model").getD "" = ""
  | _ => False

/-- No Claude bucket of a split name is left. -/
structure Unsplit (g : AggregatorInner) : Prop where
  placed : AllEntries (fun bucket _ => bucket.provider = providerAnthropic ∧ ¬Split g bucket.model)
    (g.agent agentClaude).buckets
  reported : ∀ raw full : String, g.claudeCanonicalModels[raw]? = some full → full ∈ g.claudeMetricModels
  named : "" ∉ g.claudeMetricModels

namespace Unsplit

variable {g next : AggregatorInner}

theorem new : Unsplit Aggregator.new where
  placed := AllEntries.empty
  reported raw full found := by simp [Aggregator.new] at found
  named := by simp [Aggregator.new]

theorem congr (unsplit : Unsplit g) (metric : next.claudeMetricModels = g.claudeMetricModels)
    (canonical : next.claudeCanonicalModels = g.claudeCanonicalModels)
    (placed : AllEntries
      (fun bucket _ => bucket.provider = providerAnthropic ∧ ¬Split g bucket.model)
      (next.agent agentClaude).buckets) : Unsplit next where
  placed := placed.imp fun bucket _ own => by
    rwa [Split, metric, canonical]
  reported raw full found := by
    rw [metric]
    exact unsplit.reported raw full (canonical ▸ found)
  named := metric ▸ unsplit.named

theorem codexOnly (unsplit : Unsplit g) (same : CodexOnly g next) : Unsplit next :=
  unsplit.congr same.metricModels same.canonicalModels
    (same.agents agentClaude agentClaude_ne_agentCodex ▸ unsplit.placed)

end Unsplit

theorem AllEntries.recordInto {P : Bucket → ModelStats → Prop} {g : AggregatorInner}
    (all : AllEntries P (g.agent agentClaude).buckets) {bucket : Bucket} {stats : ModelStats}
    (started : P bucket (ModelStats.add 0 stats))
    (grows : ∀ amount, P bucket amount → P bucket (amount.add stats)) :
    AllEntries P ((recordInto g agentClaude bucket stats).agent agentClaude).buckets := by
  rw [recordInto_agent, if_pos rfl]
  exact all.addEntry started grows

theorem AllEntries.cancelMetricsOf {P : Bucket → ModelStats → Prop} {g : AggregatorInner}
    (all : AllEntries P (g.agent agentClaude).buckets) (sourceKey : ClaudeUsageKey)
    (shrinks : ∀ bucket amount stats, P bucket amount →
      (amount.subtract stats).hasAnyValue = true → P bucket (amount.subtract stats)) :
    AllEntries P ((cancelMetricsOf g sourceKey).agent agentClaude).buckets := by
  have cancel (perBucket : List (Bucket × ModelStats)) : ∀ reached : AggregatorInner,
      AllEntries P (reached.agent agentClaude).buckets →
        AllEntries P ((cancelMetricUsage reached perBucket).agent agentClaude).buckets := by
    induction perBucket with
    | nil => exact fun _ stored => stored
    | cons entry perBucket ih =>
        intro reached stored
        apply ih
        rw [subtractFrom_agent, if_pos rfl]
        exact stored.subtractEntry _ _ fun amount => shrinks _ amount _
  unfold OtelLogger.cancelMetricsOf
  split
  · split
    · exact all
    · exact cancel _ _ all
  · exact all

theorem AllEntries.ingestClaudeLog {P : Bucket → ModelStats → Prop} {g : AggregatorInner}
    (all : AllEntries P (g.agent agentClaude).buckets) {bucket : Bucket}
    {requestStats usageStats : ModelStats}
    (started : ∀ stats, stats = requestStats ∨ stats = usageStats ∧ usageStats.hasUsage = true →
      P bucket (ModelStats.add 0 stats))
    (grows : ∀ amount stats, P bucket amount → P bucket (amount.add stats))
    (shrinks : ∀ bucket amount stats, P bucket amount →
      (amount.subtract stats).hasAnyValue = true → P bucket (amount.subtract stats)) :
    AllEntries P
      ((OtelLogger.ingestClaudeLog g bucket requestStats usageStats).agent agentClaude).buckets := by
  have requested := all.recordInto (started requestStats (Or.inl rfl))
    fun amount => grows amount requestStats
  unfold OtelLogger.ingestClaudeLog
  by_cases usage : usageStats.hasUsage = true
  · rw [recordClaudeLogUsage_of_usage usage]
    exact (requested.cancelMetricsOf _ shrinks).recordInto (started usageStats (Or.inr ⟨rfl, usage⟩))
      fun amount => grows amount usageStats
  · rw [recordClaudeLogUsage, if_neg usage]
    exact requested

/-- A property of entries that no Claude operation breaks. -/
structure Lasting (P : Bucket → ModelStats → Prop) : Prop where
  starts : ∀ (bucket : Bucket) (stats : ModelStats), bucket.provider = providerAnthropic →
    stats ≠ 0 → P bucket (ModelStats.add 0 stats)
  grows : ∀ bucket amount stats, P bucket amount → P bucket (amount.add stats)
  shrinks : ∀ bucket amount stats, P bucket amount →
    (amount.subtract stats).hasAnyValue = true → P bucket (amount.subtract stats)
  renames : ∀ (full : String) (bucket : Bucket) (stats : ModelStats), P bucket stats →
    P (Bucket.fromParts bucket.provider full bucket.effort) (ModelStats.add 0 stats)

section Lasting

variable {P : Bucket → ModelStats → Prop} {g : AggregatorInner}

theorem Lasting.register (lasting : Lasting P)
    (all : AllEntries P (g.agent agentClaude).buckets) {full : String} (named : full ≠ "") :
    AllEntries P ((registerCanonicalClaudeModel g full).agent agentClaude).buckets := by
  rcases registerCanonicalClaudeModel_cases g named with
    ⟨_, result⟩ | ⟨_, _, result⟩ | ⟨_, _, result⟩
  · rw [result, foldBare_agent, if_pos rfl]
    exact all.mergeBareIntoFull _ full (lasting.renames full)
      fun bucket amount stats _ => lasting.grows bucket amount stats
  · rw [result]
    exact all
  · rw [result]
    exact all

theorem Lasting.measure (lasting : Lasting P)
    (all : AllEntries P (g.agent agentClaude).buckets) {bucket : Bucket}
    (anthropic : bucket.provider = providerAnthropic) (stats : ModelStats) :
    AllEntries P ((recordClaudeMetricUsage g bucket stats).1.agent agentClaude).buckets := by
  by_cases counted : stats.hasUsage = true ∧ g.claudeUsageSources[bucket.usageKey]? ≠ some .logs
  · rw [recordClaudeMetricUsage_of_counted counted]
    exact all.recordInto
      (lasting.starts bucket stats anthropic (ModelStats.ne_zero_of_hasUsage counted.1))
      fun amount => lasting.grows bucket amount stats
  · rwa [recordClaudeMetricUsage_of_ignored counted]

theorem Lasting.point (lasting : Lasting P)
    (all : AllEntries P (g.agent agentClaude).buckets) (attrs : List KeyValue)
    (stats : ModelStats) :
    AllEntries P ((recordClaudeMetricUsage (claudeMetricModel g attrs).1
      (claudeMetricBucket attrs (claudeMetricModel g attrs).2) stats).1.agent
        agentClaude).buckets := by
  rw [claudeMetricModel_fst, claudeMetricModel_snd]
  exact lasting.measure (lasting.register all (nonEmpty_ne _)) nonEmpty_providerAnthropic stats

theorem Lasting.apply (lasting : Lasting P)
    (all : AllEntries P (g.agent agentClaude).buckets) (step : Step) :
    AllEntries P ((step.apply g).1.agent agentClaude).buckets := by
  cases step with
  | claudeLog log =>
      simp only [Step.apply, Step.ingestClaudeApiRequest, extractClaudeApiRequestMeta]
      cases parsed : claudeApiRequestStats log with
      | none => exact all
      | some samples =>
          refine all.ingestClaudeLog ?_ (fun amount stats => lasting.grows _ amount stats)
            lasting.shrinks
          rintro stats (rfl | ⟨rfl, usage⟩)
          · exact lasting.starts _ _ nonEmpty_providerAnthropic
              (claudeApiRequestStats_parts parsed).1
          · exact lasting.starts _ _ nonEmpty_providerAnthropic
              (ModelStats.ne_zero_of_hasUsage usage)
  | claudeTokens dp =>
      simp only [Step.apply]
      rw [ingestClaudeTokenPoint_eq]
      exact lasting.point all dp.attributes _
  | claudeCost dp =>
      simp only [Step.apply]
      rw [ingestClaudeCostPoint_eq]
      exact lasting.point all dp.attributes _
  | _ =>
      rw [(Step.apply_codexOnly _ rfl g).agents agentClaude agentClaude_ne_agentCodex]
      exact all

theorem Lasting.run (lasting : Lasting P) (steps : List Step) :
    AllEntries P ((Aggregator.runSteps steps).agent agentClaude).buckets := by
  induction steps using List.reverseRecOn with
  | nil => exact AllEntries.empty
  | append_singleton steps step ih =>
      rw [Aggregator.runSteps_concat]
      exact lasting.apply ih step

end Lasting

theorem lasting_anthropic : Lasting fun bucket _ => bucket.provider = providerAnthropic where
  starts _ _ anthropic _ := anthropic
  grows _ _ _ anthropic := anthropic
  shrinks _ _ _ anthropic _ := anthropic
  renames _ _ _ anthropic := anthropic ▸ nonEmpty_providerAnthropic

section Step

variable {g : AggregatorInner}

theorem Unsplit.canonicalClaudeModel (unsplit : Unsplit g) {raw : String}
    (nameless : raw = "" → ¬Split g unknown) :
    ¬Split g (nonEmpty (canonicalClaudeModel g raw)) := by
  have plain {model : String} (reported : model ∈ g.claudeMetricModels) :
      ¬Split g (nonEmpty model) := by
    have occupied : model ≠ "" := fun empty => unsplit.named (empty ▸ reported)
    rw [nonEmpty_of_ne occupied]
    exact fun split => split.2 reported
  unfold OtelLogger.canonicalClaudeModel
  split
  · rename_i reported
    exact plain (ExtTreeMap.mem_iff_contains.mpr reported)
  · cases found : g.claudeCanonicalModels[raw]? with
    | some full => exact plain (unsplit.reported raw full found)
    | none =>
        by_cases empty : raw = ""
        · rw [Option.getD_none, empty]
          exact nameless empty
        · rw [Option.getD_none, nonEmpty_of_ne empty]
          rintro ⟨⟨full, mapped, _⟩, _⟩
          simp [found] at mapped

theorem Unsplit.claudeLog (unsplit : Unsplit g) {log : LogRecord}
    (named : NamelessRequest (.claudeLog log) → ¬Split g unknown) :
    Unsplit (Step.apply g (.claudeLog log)).1 := by
  simp only [Step.apply, Step.ingestClaudeApiRequest, extractClaudeApiRequestMeta]
  cases parsed : claudeApiRequestStats log with
  | none => exact unsplit
  | some samples =>
      obtain ⟨metric, canonical⟩ := ingestClaudeLog_models g
        (Bucket.fromParts providerAnthropic
          (OtelLogger.canonicalClaudeModel g ((stringAttr log.attributes "model").getD ""))
          ((stringAttr log.attributes "effort").getD "")) samples.1 samples.2
      have own := unsplit.canonicalClaudeModel
        fun empty => named ⟨by simp [parsed], empty⟩
      refine unsplit.congr metric canonical (unsplit.placed.ingestClaudeLog ?_ ?_ ?_)
      · exact fun _ _ => ⟨nonEmpty_providerAnthropic, own⟩
      · exact fun _ _ stored => stored
      · exact fun _ _ _ stored _ => stored

theorem Unsplit.recordClaudeMetricUsage (unsplit : Unsplit g) {bucket : Bucket}
    (anthropic : bucket.provider = providerAnthropic)
    (reported : bucket.model ∈ g.claudeMetricModels) (stats : ModelStats) :
    Unsplit (recordClaudeMetricUsage g bucket stats).1 := by
  by_cases counted : stats.hasUsage = true ∧ g.claudeUsageSources[bucket.usageKey]? ≠ some .logs
  · rw [recordClaudeMetricUsage_of_counted counted]
    refine unsplit.congr rfl rfl (unsplit.placed.recordInto ?_ fun _ stored => stored)
    exact ⟨anthropic, fun split => split.2 reported⟩
  · rwa [recordClaudeMetricUsage_of_ignored counted]

theorem Unsplit.reportModel (unsplit : Unsplit g) {full : String} (named : full ≠ "") :
    Unsplit (reportModel g full) where
  placed := unsplit.placed.imp fun bucket _ own =>
    ⟨own.1, fun split => own.2 ⟨split.1, fun reported => split.2 (by simp [OtelLogger.reportModel, reported])⟩⟩
  reported raw other found := by
    simp [OtelLogger.reportModel, unsplit.reported raw other found]
  named := by
    simp [OtelLogger.reportModel, unsplit.named, named]

theorem Unsplit.register (unsplit : Unsplit g) {full : String} (named : full ≠ "") :
    Unsplit (registerCanonicalClaudeModel g full) := by
  have noted := unsplit.reportModel named
  have own : full ∈ (OtelLogger.reportModel g full).claudeMetricModels := by
    simp [OtelLogger.reportModel]
  rcases registerCanonicalClaudeModel_cases g named with
    ⟨folds, result⟩ | ⟨_, _, result⟩ | ⟨_, _, result⟩
  · rw [result]
    have distinct : nonEmpty full ≠ bareModel full := by
      rw [nonEmpty_of_ne named]
      exact Ne.symm folds.2.1
    have anthropic := noted.placed.imp
      (Q := fun bucket _ => bucket.provider = providerAnthropic) fun _ _ own => own.1
    refine ⟨?_, ?_, noted.named⟩
    · rw [foldBare_agent, if_pos rfl]
      have merged := noted.placed.mergeBareIntoFull (bareModel full) full
        (fun bucket _ stored => ⟨stored.1 ▸ nonEmpty_providerAnthropic, by
          rw [Bucket.fromParts_model, nonEmpty_of_ne named]
          exact fun split => split.2 own⟩)
        (fun _ _ _ _ stored => stored)
      intro key entry found
      obtain ⟨keyed, provider, whole⟩ := merged key entry found
      refine ⟨keyed, provider, ?_⟩
      rintro ⟨⟨other, mapped, different⟩, unreported⟩
      have notBare := mergeBareIntoFull_free anthropic distinct found
      refine whole ⟨⟨other, ?_, different⟩, unreported⟩
      simpa [foldBare, ExtTreeMap.getElem?_insert, Ne.symm notBare] using mapped
    · intro raw other found
      simp only [foldBare, ExtTreeMap.getElem?_insert] at found
      split at found
      · obtain rfl := Option.some.inj found
        exact own
      · exact noted.reported raw other found
  · rw [result]
    have mapped {raw other : String}
        (found : (g.claudeCanonicalModels.insertIfNew full full)[raw]? = some other) :
        (raw = full ∧ other = full) ∨ g.claudeCanonicalModels[raw]? = some other := by
      rw [ExtTreeMap.getElem?_insertIfNew] at found
      split at found
      · rename_i same
        exact Or.inl ⟨(Std.compare_eq_iff_eq.mp same.1).symm, (Option.some.inj found).symm⟩
      · exact Or.inr found
    refine ⟨noted.placed.imp fun bucket _ stored => ⟨stored.1, ?_⟩, ?_, noted.named⟩
    · rintro ⟨⟨other, found, different⟩, unreported⟩
      rcases mapped found with ⟨same, rfl⟩ | before
      · exact different same.symm
      · exact stored.2 ⟨⟨other, before, different⟩, unreported⟩
    · intro raw other found
      rcases mapped found with ⟨_, rfl⟩ | before
      · exact own
      · exact noted.reported raw other before
  · rw [result]
    exact noted

theorem Unsplit.point (unsplit : Unsplit g) (attrs : List KeyValue) (stats : ModelStats) :
    Unsplit (OtelLogger.recordClaudeMetricUsage (claudeMetricModel g attrs).1
      (claudeMetricBucket attrs (claudeMetricModel g attrs).2) stats).1 := by
  have named : nonEmpty ((stringAttr attrs "model").getD "") ≠ "" := nonEmpty_ne _
  rw [claudeMetricModel_fst, claudeMetricModel_snd]
  refine Unsplit.recordClaudeMetricUsage (unsplit.register named) nonEmpty_providerAnthropic ?_ stats
  rw [(registerCanonicalClaudeModel_frame g named).2.2.1]
  simp [claudeMetricBucket]

theorem Unsplit.apply (unsplit : Unsplit g) (step : Step)
    (named : NamelessRequest step → ¬Split g unknown) : Unsplit (step.apply g).1 := by
  cases step with
  | claudeLog log => exact unsplit.claudeLog named
  | claudeTokens dp =>
      simp only [Step.apply]
      rw [ingestClaudeTokenPoint_eq]
      exact unsplit.point dp.attributes _
  | claudeCost dp =>
      simp only [Step.apply]
      rw [ingestClaudeCostPoint_eq]
      exact unsplit.point dp.attributes _
  | _ => exact unsplit.codexOnly (Step.apply_codexOnly _ rfl g)

end Step

namespace Aggregator

theorem unsplit_run (steps : List Step)
    (named : ∀ earlier step, earlier ++ [step] <+: steps → NamelessRequest step →
      ¬Split (runSteps earlier) unknown) : Unsplit (runSteps steps) := by
  induction steps using List.reverseRecOn with
  | nil => exact Unsplit.new
  | append_singleton steps step ih =>
      rw [runSteps_concat]
      refine (ih fun earlier other reached => ?_).apply step (named steps step List.prefix_rfl)
      exact named earlier other (reached.trans (List.prefix_append steps [step]))

end Aggregator

end OtelLogger
