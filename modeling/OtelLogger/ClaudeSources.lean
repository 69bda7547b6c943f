import OtelLogger.ClaudeLedger

/-!
The two reports of Claude usage. A usage key counts what its request logs say once one of them
has usage, and what its metric points say until then, in whatever order they arrive.
-/

namespace OtelLogger

open Std (ExtTreeMap TransOrd LawfulEqOrd)
open Accounting

/-! ### Steps -/

def logKey (log : LogRecord) : ClaudeUsageKey :=
  claudeUsageSourceKey ((stringAttr log.attributes "model").getD "")
    ((stringAttr log.attributes "effort").getD "")

/-- The bucket that a request log is counted in. -/
def logBucket (g : AggregatorInner) (log : LogRecord) : Bucket :=
  Bucket.fromParts providerAnthropic
    (canonicalClaudeModel g ((stringAttr log.attributes "model").getD ""))
    ((stringAttr log.attributes "effort").getD "")

def pointKey (attrs : List KeyValue) : ClaudeUsageKey :=
  claudeUsageSourceKey ((stringAttr attrs "model").getD "") ((stringAttr attrs "effort").getD "")

def Step.apiRequest : Step → Option (ClaudeUsageKey × ModelStats × ModelStats)
  | .claudeLog log => (claudeApiRequestStats log).map fun samples => (logKey log, samples)
  | _ => none

def Step.tokenPoint : Step → Option (ClaudeUsageKey × ModelStats)
  | .claudeTokens dp => (claudeTokenStats dp).map fun stats => (pointKey dp.attributes, stats)
  | _ => none

def Step.claudePoint : Step → Option (ClaudeUsageKey × ModelStats)
  | .claudeCost dp => some (pointKey dp.attributes, claudeCostStats dp)
  | step => step.tokenPoint

def apiRequests (key : ClaudeUsageKey) (steps : List Step) : List (ModelStats × ModelStats) :=
  ((steps.filterMap Step.apiRequest).filter (·.1 = key)).map Prod.snd

def LogSeen (key : ClaudeUsageKey) (steps : List Step) : Prop :=
  ∃ samples ∈ apiRequests key steps, samples.2.hasUsage = true

def logTotal (key : ClaudeUsageKey) (steps : List Step) : ModelStats :=
  ((apiRequests key steps).map fun samples => samples.1 + samples.2).sum

def pointTotal (key : ClaudeUsageKey) (steps : List Step) : ModelStats :=
  (((steps.filterMap Step.claudePoint).filter (·.1 = key)).map Prod.snd).sum

theorem nonEmpty_bareModel (model : String) :
    nonEmpty (bareModel (nonEmpty model)) = nonEmpty (bareModel model) := by
  by_cases empty : model = ""
  · subst model
    decide
  · rw [nonEmpty_of_ne empty]

theorem usageKey_fromParts (provider model effort : String) :
    (Bucket.fromParts provider model effort).usageKey = claudeUsageSourceKey model effort := by
  simp only [Bucket.usageKey, claudeUsageSourceKey, Bucket.fromParts_model,
    Bucket.fromParts_effort, nonEmpty_bareModel, nonEmpty_idem]

theorem renameModel_usageKey {full : String} (bucket : Bucket) :
    (renameModel (bareModel full) full bucket).usageKey = bucket.usageKey := by
  unfold renameModel
  split
  · rename_i bare
    rw [usageKey_fromParts, Bucket.usageKey, claudeUsageSourceKey, claudeUsageSourceKey, bare.2,
      bareModel_idem]
  · rfl

/-- Samples that only carry usage. -/
def UsageOnly (stats : ModelStats) : Prop :=
  stats.requestCount = 0 ∧ stats.durationMs = 0

theorem UsageOnly.hasUsage {stats : ModelStats} (usage : UsageOnly stats) (occupied : stats ≠ 0) :
    stats.hasUsage = true := by
  have value := ModelStats.hasAnyValue_iff.mpr occupied
  simpa [ModelStats.hasAnyValue, usage.1, usage.2] using value

theorem UsageOnly.counter_eq_zero {stats : ModelStats} (usage : UsageOnly stats)
    {counter : Counter} (request : counter.isToken = false) : stats.counter counter = 0 := by
  cases counter with
  | requestCount => exact usage.1
  | durationMs => exact usage.2
  | _ => simp [Counter.isToken] at request

theorem claudeApiRequestStats_parts {log : LogRecord} {samples : ModelStats × ModelStats}
    (found : claudeApiRequestStats log = some samples) :
    samples.1 ≠ 0 ∧ (∀ counter : Counter, counter.isToken = true → samples.1.counter counter = 0) ∧
      UsageOnly samples.2 := by
  unfold claudeApiRequestStats at found
  split at found
  · split at found
    · obtain rfl := Option.some.inj found
      refine ⟨?_, ?_, rfl, rfl⟩
      · intro zero
        exact absurd (congrArg ModelStats.requestCount zero) (by simp)
      · intro counter token
        cases counter <;> first | rfl | simp [Counter.isToken] at token
    · simp at found
  · simp at found

theorem claudeTokenStats_usageOnly {dp : NumberDataPoint} {stats : ModelStats}
    (found : claudeTokenStats dp = some stats) : UsageOnly stats := by
  unfold claudeTokenStats at found
  dsimp only at found
  split at found
  all_goals first
    | (obtain rfl := Option.some.inj found; exact ⟨rfl, rfl⟩)
    | simp at found

theorem claudeCostStats_usageOnly (dp : NumberDataPoint) : UsageOnly (claudeCostStats dp) :=
  ⟨rfl, rfl⟩

/-! ### What a step adds -/

section Totals

variable (key : ClaudeUsageKey) (steps : List Step) (step : Step)

theorem apiRequests_concat : apiRequests key (steps ++ [step]) =
    apiRequests key steps ++ apiRequests key [step] := by
  simp [apiRequests]

theorem logTotal_concat :
    logTotal key (steps ++ [step]) = logTotal key steps + logTotal key [step] := by
  simp [logTotal, apiRequests_concat]

theorem logSeen_concat :
    LogSeen key (steps ++ [step]) ↔ LogSeen key steps ∨ LogSeen key [step] := by
  simp only [LogSeen, apiRequests_concat, List.mem_append, or_and_right, exists_or]

theorem pointTotal_concat :
    pointTotal key (steps ++ [step]) = pointTotal key steps + pointTotal key [step] := by
  simp [pointTotal]

end Totals

theorem apiRequests_of_none {step : Step} (other : step.apiRequest = none)
    (key : ClaudeUsageKey) : apiRequests key [step] = [] := by
  simp [apiRequests, other]

theorem apiRequests_of_some {step : Step} {own : ClaudeUsageKey} {samples : ModelStats × ModelStats}
    (request : step.apiRequest = some (own, samples)) (key : ClaudeUsageKey) :
    apiRequests key [step] = if own = key then [samples] else [] := by
  by_cases same : own = key <;> simp [apiRequests, request, same]

theorem pointTotal_of_none {step : Step} (other : step.claudePoint = none)
    (key : ClaudeUsageKey) : pointTotal key [step] = 0 := by
  simp [pointTotal, other]

theorem pointTotal_of_some {step : Step} {own : ClaudeUsageKey} {stats : ModelStats}
    (point : step.claudePoint = some (own, stats)) (key : ClaudeUsageKey) :
    pointTotal key [step] = if own = key then stats else 0 := by
  by_cases same : own = key <;> simp [pointTotal, point, same]

/-! ### Runs -/

/-- What the steps so far have made of Claude's state. -/
structure ClaudeCounted (steps : List Step) (g : AggregatorInner)
    (rest : Bucket →₀ ModelStats) : Prop where
  tracks : ClaudeTracks g rest
  bounded : Finsupp.degree (Finsupp.degree g.metricLedgers + rest) ≤ offered steps
  canonical : ∀ raw full : String, g.claudeCanonicalModels[raw]? = some full →
    bareModel full = bareModel raw
  logged : ∀ key, partTotal (fun bucket => bucket.usageKey = key) rest = logTotal key steps
  sourced : ∀ key, g.claudeUsageSources[key]? = some .logs ↔ LogSeen key steps
  measured : ∀ key, ¬LogSeen key steps →
    Finsupp.degree (g.metricLedgers key) = pointTotal key steps

theorem ClaudeCounted.new : ClaudeCounted [] Aggregator.new 0 where
  tracks := ClaudeTracks.new
  bounded := by
    have empty : Aggregator.new.metricLedgers = 0 := ledgersOf_empty
    simp [empty]
  canonical raw full found := by
    simp [Aggregator.new] at found
  logged key := by
    simp [logTotal, apiRequests]
  sourced key := by
    simp [Aggregator.new, LogSeen, apiRequests]
  measured key _ := by
    have empty : Aggregator.new.metricLedgers = 0 := ledgersOf_empty
    simp [empty, pointTotal]

section Step

variable {steps : List Step} {step : Step} {g : AggregatorInner} {rest : Bucket →₀ ModelStats}

theorem ClaudeCounted.fits (counted : ClaudeCounted steps g rest)
    (fits : (offered (steps ++ [step])).Fits) :
    (Finsupp.degree (Finsupp.degree g.metricLedgers + rest) + step.sample).Fits := by
  rw [offered_concat] at fits
  exact fits.of_le (add_le_add_left counted.bounded step.sample)

theorem canonicalClaudeModel_bare (counted : ClaudeCounted steps g rest) (raw : String) :
    bareModel (canonicalClaudeModel g raw) = bareModel raw := by
  unfold canonicalClaudeModel
  split
  · rfl
  · cases found : g.claudeCanonicalModels[raw]? with
    | none => rfl
    | some full => exact counted.canonical raw full found

theorem ClaudeCounted.codexOnly {next : AggregatorInner} (counted : ClaudeCounted steps g rest)
    (same : CodexOnly g next) (noLog : step.apiRequest = none)
    (noPoint : step.claudePoint = none) : ClaudeCounted (steps ++ [step]) next rest where
  tracks := counted.tracks.codexOnly same
  bounded := by
    rw [AggregatorInner.metricLedgers, same.metricUsage, offered_concat]
    exact counted.bounded.trans le_self_add
  canonical := same.canonicalModels ▸ counted.canonical
  logged key := by
    rw [logTotal_concat, logTotal, logTotal, apiRequests_of_none noLog]
    simpa [logTotal] using counted.logged key
  sourced key := by
    rw [same.usageSources, counted.sourced, logSeen_concat]
    simp [LogSeen, apiRequests_of_none noLog]
  measured key unseen := by
    rw [logSeen_concat, not_or] at unseen
    rw [AggregatorInner.metricLedgers, same.metricUsage, pointTotal_concat,
      pointTotal_of_none noPoint, add_zero]
    exact counted.measured key unseen.1

theorem Step.apply_claudeLog_of_none {log : LogRecord}
    (silent : claudeApiRequestStats log = none) : (Step.apply g (.claudeLog log)).1 = g := by
  simp [Step.apply, Step.ingestClaudeApiRequest, extractClaudeApiRequestMeta, silent]

theorem Step.apply_claudeLog_of_some {log : LogRecord} {requestStats usageStats : ModelStats}
    (samples : claudeApiRequestStats log = some (requestStats, usageStats)) :
    (Step.apply g (.claudeLog log)).1 =
      ingestClaudeLog g (logBucket g log) requestStats usageStats := by
  simp [Step.apply, Step.ingestClaudeApiRequest, extractClaudeApiRequestMeta, samples, logBucket]

theorem ClaudeCounted.logBucket_usageKey (counted : ClaudeCounted steps g rest)
    (log : LogRecord) : (logBucket g log).usageKey = logKey log := by
  rw [logBucket, usageKey_fromParts, claudeUsageSourceKey, canonicalClaudeModel_bare counted]
  rfl

theorem ClaudeCounted.ingestClaudeLog_metricLedgers {bucket : Bucket}
    {requestStats usageStats : ModelStats} (counted : ClaudeCounted steps g rest)
    (request : requestStats ≠ 0)
    (bound : (Finsupp.degree (Finsupp.degree g.metricLedgers + rest) +
      (requestStats + usageStats)).Fits) :
    (ingestClaudeLog g bucket requestStats usageStats).metricLedgers =
      if usageStats.hasUsage then g.metricLedgers.erase bucket.usageKey
      else g.metricLedgers := by
  rw [← add_assoc] at bound
  exact (counted.tracks.recordInto request bound.of_add).ingestClaudeLog_metricLedgers

theorem ClaudeCounted.claudeLog {log : LogRecord} (counted : ClaudeCounted steps g rest)
    (fits : (offered (steps ++ [.claudeLog log])).Fits) :
    ∃ rest, ClaudeCounted (steps ++ [.claudeLog log]) (Step.apply g (.claudeLog log)).1 rest := by
  have bound := counted.fits fits
  have noPoint : (Step.claudeLog log).claudePoint = none := rfl
  cases samples : claudeApiRequestStats log with
  | none =>
      refine ⟨rest, ?_⟩
      rw [Step.apply_claudeLog_of_none samples]
      exact counted.codexOnly (CodexOnly.refl g) (by simp [Step.apiRequest, samples]) noPoint
  | some samples' =>
      obtain ⟨requestStats, usageStats⟩ := samples'
      obtain ⟨request, _, usage⟩ := claudeApiRequestStats_parts samples
      have own : (Step.claudeLog log).apiRequest =
          some (logKey log, requestStats, usageStats) := by
        simp [Step.apiRequest, samples]
      have sample : (Step.claudeLog log).sample = requestStats + usageStats := by
        simp [Step.sample, samples]
      have bucketKey := counted.logBucket_usageKey log
      have applied := @Step.apply_claudeLog_of_some g log requestStats usageStats samples
      generalize logBucket g log = bucket at bucketKey applied
      rw [sample] at bound
      have ledgers := @ClaudeCounted.ingestClaudeLog_metricLedgers _ _ _ bucket _ _ counted
        request bound
      have seen (key : ClaudeUsageKey) : LogSeen key [Step.claudeLog log] ↔
          logKey log = key ∧ usageStats.hasUsage = true := by
        rw [LogSeen, apiRequests_of_some own]
        by_cases same : logKey log = key <;> simp [same]
      refine ⟨rest + Finsupp.single bucket (requestStats + usageStats), ?_⟩
      rw [applied]
      refine ⟨?_, ?_, ?_, ?_, ?_, ?_⟩
      · exact counted.tracks.ingestClaudeLog request usage.hasUsage bound
      · rw [offered_concat, sample, ← add_assoc, map_add, Finsupp.degree_single]
        refine add_le_add_left (le_trans ?_ counted.bounded) _
        rw [ledgers]
        split
        · rw [degree_split g.metricLedgers bucket.usageKey]
          simp only [map_add, add_assoc]
          exact le_add_self
        · exact le_rfl
      · rw [(ingestClaudeLog_models g bucket requestStats usageStats).2]
        exact counted.canonical
      · intro key
        rw [map_add, counted.logged, partTotal_single, bucketKey, logTotal_concat, logTotal,
          logTotal, apiRequests_of_some own]
        by_cases same : logKey log = key <;> simp [same]
      · intro key
        rw [ingestClaudeLog_sources, logSeen_concat, seen, ← counted.sourced, bucketKey]
        by_cases used : usageStats.hasUsage = true
        · by_cases same : logKey log = key
          · simp [used, same]
          · simp [used, same, ExtTreeMap.getElem?_insert]
        · simp [used]
      · intro key unseen
        rw [logSeen_concat, not_or, seen] at unseen
        rw [ledgers, pointTotal_concat, pointTotal_of_none noPoint, add_zero,
          ← counted.measured key unseen.1]
        split
        · rename_i used
          rw [bucketKey, Finsupp.erase_ne]
          rintro rfl
          exact unseen.2 ⟨rfl, used⟩
        · rfl

theorem ClaudeCounted.register {full : String} (counted : ClaudeCounted steps g rest)
    (named : full ≠ "") :
    ∃ rest, ClaudeCounted steps (registerCanonicalClaudeModel g full) rest := by
  classical
  obtain ⟨usage, sources, _, _⟩ := registerCanonicalClaudeModel_frame g named
  have ledgers : (registerCanonicalClaudeModel g full).metricLedgers = g.metricLedgers := by
    rw [AggregatorInner.metricLedgers, usage]
    rfl
  have tracks := counted.tracks.registerCanonicalClaudeModel named
  generalize regrouped : (if FoldsBare g full then
    Finsupp.mapDomain (renameModel (bareModel full) full) rest else rest) = after at tracks
  have total : Finsupp.degree after = Finsupp.degree rest := by
    rw [← regrouped]
    split
    · exact degree_mapDomain _ _
    · rfl
  refine ⟨after, tracks, ?_, ?_, ?_, ?_, ?_⟩
  · rw [ledgers, map_add, total, ← map_add]
    exact counted.bounded
  · intro raw canonical found
    have known (other : g.claudeCanonicalModels[raw]? = some canonical) :=
      counted.canonical raw canonical other
    rcases registerCanonicalClaudeModel_cases g named with
      ⟨_, result⟩ | ⟨_, _, result⟩ | ⟨_, _, result⟩
    · simp only [result, foldBare, reportModel, lookup_insert] at found
      split at found
      · rename_i same
        rw [← Option.some.inj found, ← same, bareModel_idem]
      · exact known found
    · simp only [result, reportModel, ExtTreeMap.getElem?_insertIfNew] at found
      split at found
      · rename_i same
        rw [← Option.some.inj found, Std.compare_eq_iff_eq.mp same.1]
      · exact known found
    · exact known (by simpa [result, reportModel] using found)
  · intro key
    rw [← counted.logged, ← regrouped]
    split
    · exact partTotal_mapDomain rest fun bucket _ => by rw [renameModel_usageKey]
    · rfl
  · rw [sources]
    exact counted.sourced
  · rw [ledgers]
    exact counted.measured

/-- A metric point counts for its key unless a log with usage was seen there. -/
theorem ClaudeCounted.measure {bucket : Bucket} {stats : ModelStats}
    (counted : ClaudeCounted steps g rest) (reported : bucket.model ∈ g.claudeMetricModels)
    (usage : UsageOnly stats) (noLog : step.apiRequest = none)
    (points : ∀ key, pointTotal key [step] = if bucket.usageKey = key then stats else 0)
    (sample : step.sample = stats) (fits : (offered (steps ++ [step])).Fits) :
    ClaudeCounted (steps ++ [step]) (recordClaudeMetricUsage g bucket stats).1 rest := by
  have bound := counted.fits fits
  rw [sample] at bound
  have tracks := counted.tracks.recordClaudeMetricUsage reported bound
  have logs (key : ClaudeUsageKey) : logTotal key (steps ++ [step]) = logTotal key steps := by
    rw [logTotal_concat, logTotal, logTotal, apiRequests_of_none noLog]
    simp
  have seen (key : ClaudeUsageKey) : LogSeen key (steps ++ [step]) ↔ LogSeen key steps := by
    rw [logSeen_concat]
    simp [LogSeen, apiRequests_of_none noLog]
  by_cases recorded : stats.hasUsage = true ∧ g.claudeUsageSources[bucket.usageKey]? ≠ some .logs
  · have result := recordClaudeMetricUsage_of_counted recorded
    have ledgers := recordClaudeMetricUsage_metricLedgers (metricLedgers_fits bound) recorded
    refine ⟨tracks, ?_, ?_, ?_, ?_, ?_⟩
    · rw [ledgers, offered_concat, sample]
      have total := add_le_add_left counted.bounded stats
      simpa [add_right_comm] using total
    · rw [result]
      exact counted.canonical
    · intro key
      rw [logs]
      exact counted.logged key
    · intro key
      rw [seen, ← counted.sourced, result]
      by_cases same : bucket.usageKey = key
      · subst key
        simpa using recorded.2
      · simp [ExtTreeMap.getElem?_insert, same]
    · intro key unseen
      rw [seen] at unseen
      rw [ledgers, Finsupp.add_apply, map_add, counted.measured key unseen, pointTotal_concat,
        points]
      by_cases same : bucket.usageKey = key
      · subst key
        simp
      · simp [same, Finsupp.single_eq_of_ne' same]
  · have result := recordClaudeMetricUsage_of_ignored recorded
    rw [result] at tracks ⊢
    refine ⟨tracks, ?_, counted.canonical, ?_, ?_, ?_⟩
    · rw [offered_concat]
      exact counted.bounded.trans le_self_add
    · intro key
      rw [logs]
      exact counted.logged key
    · intro key
      rw [seen]
      exact counted.sourced key
    · intro key unseen
      rw [seen] at unseen
      rw [counted.measured key unseen, pointTotal_concat, points]
      split
      · rename_i same
        have source : g.claudeUsageSources[bucket.usageKey]? ≠ some .logs := fun logged =>
          unseen (same ▸ (counted.sourced _).mp logged)
        have empty : stats = 0 := not_not.mp fun occupied =>
          recorded ⟨usage.hasUsage occupied, source⟩
        rw [empty, add_zero]
      · rw [add_zero]

theorem claudeMetricModel_fst (g : AggregatorInner) (attrs : List KeyValue) :
    (claudeMetricModel g attrs).1 =
      registerCanonicalClaudeModel g (nonEmpty ((stringAttr attrs "model").getD "")) := by
  simp only [claudeMetricModel]

theorem claudeMetricModel_snd (g : AggregatorInner) (attrs : List KeyValue) :
    (claudeMetricModel g attrs).2 = nonEmpty ((stringAttr attrs "model").getD "") := by
  simp only [claudeMetricModel]

theorem claudeMetricBucket_usageKey (g : AggregatorInner) (attrs : List KeyValue) :
    (claudeMetricBucket attrs (claudeMetricModel g attrs).2).usageKey = pointKey attrs := by
  rw [claudeMetricModel_snd, claudeMetricBucket, usageKey_fromParts, pointKey,
    claudeUsageSourceKey, claudeUsageSourceKey, nonEmpty_bareModel]

theorem ClaudeCounted.point {attrs : List KeyValue} {stats : ModelStats}
    (counted : ClaudeCounted steps g rest) (usage : UsageOnly stats)
    (noLog : step.apiRequest = none)
    (points : ∀ key, pointTotal key [step] = if pointKey attrs = key then stats else 0)
    (sample : step.sample = stats) (fits : (offered (steps ++ [step])).Fits) :
    ∃ rest, ClaudeCounted (steps ++ [step])
      (recordClaudeMetricUsage (claudeMetricModel g attrs).1
        (claudeMetricBucket attrs (claudeMetricModel g attrs).2) stats).1 rest := by
  have key := claudeMetricBucket_usageKey g attrs
  rw [claudeMetricModel_fst, claudeMetricModel_snd]
  rw [claudeMetricModel_snd] at key
  have named := nonEmpty_ne ((stringAttr attrs "model").getD "")
  generalize nonEmpty ((stringAttr attrs "model").getD "") = model at key named ⊢
  obtain ⟨rest, registered⟩ := counted.register named
  refine ⟨rest, registered.measure ?_ usage noLog ?_ sample fits⟩
  · have models := (registerCanonicalClaudeModel_frame g named).2.2.1
    have own : (claudeMetricBucket attrs model).model = model := nonEmpty_of_ne named
    rw [own, models]
    simp
  · rw [key]
    exact points

theorem ingestClaudeTokenPoint_eq (g : AggregatorInner) (dp : NumberDataPoint) :
    (ingestClaudeTokenPoint g dp).1 =
      (recordClaudeMetricUsage (claudeMetricModel g dp.attributes).1
        (claudeMetricBucket dp.attributes (claudeMetricModel g dp.attributes).2)
        ((claudeTokenStats dp).getD 0)).1 := by
  simp only [ingestClaudeTokenPoint]
  generalize claudeMetricModel g dp.attributes = reported
  cases claudeTokenStats dp with
  | some stats => rfl
  | none => simp [recordClaudeMetricUsage_of_ignored, ModelStats.hasUsage_zero]

theorem ClaudeCounted.claudeTokens {dp : NumberDataPoint} (counted : ClaudeCounted steps g rest)
    (fits : (offered (steps ++ [.claudeTokens dp])).Fits) :
    ∃ rest, ClaudeCounted (steps ++ [.claudeTokens dp]) (Step.apply g (.claudeTokens dp)).1
      rest := by
  have applied : (Step.apply g (.claudeTokens dp)).1 = _ := ingestClaudeTokenPoint_eq g dp
  rw [applied]
  refine counted.point ?_ rfl ?_ rfl fits
  · cases found : claudeTokenStats dp with
    | none => exact ⟨rfl, rfl⟩
    | some stats => exact claudeTokenStats_usageOnly found
  · intro key
    cases found : claudeTokenStats dp with
    | none =>
        rw [pointTotal_of_none (by simp [Step.claudePoint, Step.tokenPoint, found])]
        simp
    | some stats =>
        have own : (Step.claudeTokens dp).claudePoint = some (pointKey dp.attributes, stats) := by
          simp [Step.claudePoint, Step.tokenPoint, found]
        rw [pointTotal_of_some own]
        rfl

theorem ingestClaudeCostPoint_eq (g : AggregatorInner) (dp : NumberDataPoint) :
    (ingestClaudeCostPoint g dp).1 =
      (recordClaudeMetricUsage (claudeMetricModel g dp.attributes).1
        (claudeMetricBucket dp.attributes (claudeMetricModel g dp.attributes).2)
        (claudeCostStats dp)).1 := by
  rw [ingestClaudeCostPoint]

theorem ClaudeCounted.claudeCost {dp : NumberDataPoint} (counted : ClaudeCounted steps g rest)
    (fits : (offered (steps ++ [.claudeCost dp])).Fits) :
    ∃ rest, ClaudeCounted (steps ++ [.claudeCost dp]) (Step.apply g (.claudeCost dp)).1 rest := by
  rw [Step.apply, ingestClaudeCostPoint_eq]
  refine counted.point (claudeCostStats_usageOnly dp) rfl ?_ rfl fits
  exact fun key => pointTotal_of_some rfl key

end Step

end OtelLogger
