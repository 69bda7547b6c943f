import OtelLogger.Runs

/-!
The Claude breakdown as a function of what was reported, not of the order. A log counts in the
bucket of the one full name that metrics report for its model, whether they do so before or
after it; a metric point counts in its own bucket unless some log of its key has usage.
-/

namespace OtelLogger

open Std (ExtTreeMap TransOrd LawfulEqOrd)
open Accounting

/-! ### The reported names -/

def reportedModel (attrs : List KeyValue) : String :=
  nonEmpty ((stringAttr attrs "model").getD "")

def Step.metricName : Step → Option String
  | .claudeTokens dp | .claudeCost dp => some (reportedModel dp.attributes)
  | _ => none

def metricNames (steps : List Step) : List String :=
  steps.filterMap Step.metricName

def requestModel (log : LogRecord) : String :=
  (stringAttr log.attributes "model").getD ""

/-- Every API request log carries a model. -/
def RequestsNamed (steps : List Step) : Prop :=
  ∀ log, Step.claudeLog log ∈ steps → claudeApiRequestStats log ≠ none → requestModel log ≠ ""

/-- At most one metric name for each bare name. -/
def OnePerBare (names : List String) : Prop :=
  ∀ first ∈ names, ∀ second ∈ names, bareModel first = bareModel second → first = second

/-- The name under which a request log of a model is found in the end. -/
def fullName (names : List String) (raw : String) : String :=
  if raw ∈ names then raw else (names.find? (bareModel · = raw)).getD raw

theorem metricNames_concat (steps : List Step) (step : Step) :
    metricNames (steps ++ [step]) = metricNames steps ++ step.metricName.toList := by
  rw [metricNames, metricNames, List.filterMap_append]
  cases named : step.metricName with
  | none => simp [named]
  | some name => simp [named]

theorem metricNames_ne {steps : List Step} {name : String} (reported : name ∈ metricNames steps) :
    name ≠ "" := by
  obtain ⟨step, _, named⟩ := List.mem_filterMap.mp reported
  cases step with
  | claudeTokens dp =>
      rw [← Option.some.inj named]
      exact nonEmpty_ne _
  | claudeCost dp =>
      rw [← Option.some.inj named]
      exact nonEmpty_ne _
  | _ => simp [Step.metricName] at named

section FullName

variable {names : List String}

theorem find_bare_eq_some (once : OnePerBare names) {raw full : String} :
    names.find? (bareModel · = raw) = some full ↔ full ∈ names ∧ bareModel full = raw := by
  constructor
  · intro found
    exact ⟨List.mem_of_find?_eq_some found, by simpa using List.find?_some found⟩
  · rintro ⟨member, rfl⟩
    cases found : names.find? (bareModel · = bareModel full) with
    | none =>
        have missing := List.find?_eq_none.mp found full member
        simp at missing
    | some other =>
        have same : bareModel other = bareModel full := by simpa using List.find?_some found
        rw [once other (List.mem_of_find?_eq_some found) full member same]

theorem fullName_eq_or (names : List String) (raw : String) :
    fullName names raw = raw ∨ fullName names raw ∈ names := by
  unfold fullName
  split
  · exact Or.inl rfl
  · cases found : names.find? (bareModel · = raw) with
    | none => exact Or.inl rfl
    | some full => exact Or.inr (List.mem_of_find?_eq_some found)

theorem fullName_perm {other : List String} (once : OnePerBare names)
    (reordered : other.Perm names) (raw : String) : fullName other raw = fullName names raw := by
  have onceOther : OnePerBare other := by
    intro first firstMember second secondMember
    exact once first (reordered.subset firstMember) second (reordered.subset secondMember)
  have search : other.find? (bareModel · = raw) = names.find? (bareModel · = raw) := by
    ext full
    rw [find_bare_eq_some once, find_bare_eq_some onceOther, reordered.mem_iff]
  rw [fullName, fullName, search]
  simp only [reordered.mem_iff]

end FullName

/-! ### The names in the state -/

structure NamesTrack (names : List String) (g : AggregatorInner) : Prop where
  models : ∀ name : String, name ∈ g.claudeMetricModels ↔ name ∈ names
  canonical : ∀ raw : String, raw ≠ "" → raw ∉ names →
    g.claudeCanonicalModels[raw]? = names.find? (bareModel · = raw)

section NamesTrack

variable {names : List String} {g : AggregatorInner} {full : String}

theorem NamesTrack.new : NamesTrack [] Aggregator.new where
  models name := by simp [Aggregator.new]
  canonical raw _ _ := by simp [Aggregator.new]

theorem NamesTrack.canonicalClaudeModel_eq (track : NamesTrack names g) {raw : String}
    (named : raw ≠ "") : canonicalClaudeModel g raw = fullName names raw := by
  unfold canonicalClaudeModel fullName
  by_cases reported : raw ∈ names
  · rw [if_pos reported, if_pos]
    exact ExtTreeMap.contains_iff_mem.mpr ((track.models raw).mpr reported)
  · rw [if_neg reported, if_neg, track.canonical raw named reported]
    intro contained
    exact reported ((track.models raw).mp (ExtTreeMap.contains_iff_mem.mp contained))

/-- A name folds its bare name's buckets when it is the first one with this bare name. -/
theorem NamesTrack.foldsBare_iff (track : NamesTrack names g)
    (once : OnePerBare (names ++ [full])) :
    FoldsBare g full ↔ bareModel full ≠ "" ∧ bareModel full ≠ full ∧ full ∉ names := by
  have before : OnePerBare names := fun first firstMember second secondMember =>
    once first (List.mem_append_left _ firstMember) second (List.mem_append_left _ secondMember)
  have own : full ∈ names ++ [full] := List.mem_append_right _ (List.mem_singleton_self full)
  have unreported (different : bareModel full ≠ full) : bareModel full ∉ names := by
    intro member
    exact different (once _ (List.mem_append_left _ member) full own (bareModel_idem full))
  constructor
  · rintro ⟨bare, different, unknown, unmapped⟩
    refine ⟨bare, different, fun member => unmapped ?_⟩
    rw [track.canonical _ bare (unreported different), find_bare_eq_some before]
    exact ⟨member, rfl⟩
  · rintro ⟨bare, different, fresh⟩
    refine ⟨bare, different, ?_, ?_⟩
    · rw [track.models]
      exact unreported different
    · rw [track.canonical _ bare (unreported different), Ne, find_bare_eq_some before]
      exact fun found => fresh found.1

theorem find_concat (names : List String) (full raw : String) :
    (names ++ [full]).find? (bareModel · = raw) =
      (names.find? (bareModel · = raw)).or (if bareModel full = raw then some full else none) := by
  rw [List.find?_append]
  congr 1
  by_cases same : bareModel full = raw
  · simp [same]
  · simp [same]

theorem bareModel_of_find {names : List String} {raw full : String}
    (found : names.find? (bareModel · = raw) = some full) : bareModel raw = raw := by
  have bare : bareModel full = raw := by simpa using List.find?_some found
  rw [← bare, bareModel_idem]

theorem NamesTrack.fullName_concat (track : NamesTrack names g)
    (once : OnePerBare (names ++ [full])) {raw : String} (request : raw ≠ "") :
    (FoldsBare g full → raw = bareModel full →
      fullName names raw = raw ∧ fullName (names ++ [full]) raw = full) ∧
    (¬(FoldsBare g full ∧ raw = bareModel full) →
      fullName (names ++ [full]) raw = fullName names raw) := by
  have before : OnePerBare names := fun first firstMember second secondMember =>
    once first (List.mem_append_left _ firstMember) second (List.mem_append_left _ secondMember)
  have own : full ∈ names ++ [full] := List.mem_append_right _ (List.mem_singleton_self full)
  rw [track.foldsBare_iff once]
  constructor
  · rintro ⟨bare, different, fresh⟩ rfl
    have missing : names.find? (bareModel · = bareModel full) = none := by
      cases found : names.find? (bareModel · = bareModel full) with
      | none => rfl
      | some other =>
          obtain ⟨member, same⟩ := (find_bare_eq_some before).mp found
          have equal := once other (List.mem_append_left _ member) full own same
          exact absurd (equal ▸ member) fresh
    have unreported : bareModel full ∉ names := by
      intro member
      exact different (once _ (List.mem_append_left _ member) full own (bareModel_idem full))
    constructor
    · rw [fullName, if_neg unreported, missing]
      rfl
    · rw [fullName, if_neg, find_concat, missing, if_pos rfl]
      · rfl
      · simp [unreported, different]
  · intro other
    by_cases known : full ∈ names
    · have members : raw ∈ names ++ [full] ↔ raw ∈ names := by
        rw [List.mem_append, List.mem_singleton]
        exact ⟨fun found => found.elim id fun same => same ▸ known, Or.inl⟩
      have search : (names ++ [full]).find? (bareModel · = raw) =
          names.find? (bareModel · = raw) := by
        rw [find_concat]
        split
        · rename_i same
          rw [(find_bare_eq_some before).mpr ⟨known, same⟩]
          rfl
        · exact Option.or_none
      rw [fullName, fullName, search]
      simp only [members]
    · by_cases self : raw = full
      · subst raw
        rw [fullName, if_pos own, fullName, if_neg known]
        cases found : names.find? (bareModel · = full) with
        | none => rfl
        | some name =>
            obtain ⟨member, same⟩ := (find_bare_eq_some before).mp found
            have plain := bareModel_of_find found
            have equal := once name (List.mem_append_left _ member) full own (same.trans plain.symm)
            exact absurd (equal ▸ member) known
      · have search : (names ++ [full]).find? (bareModel · = raw) =
            names.find? (bareModel · = raw) := by
          rw [find_concat, if_neg, Option.or_none]
          intro same
          refine other ⟨⟨same ▸ request, fun plain => self (same.symm.trans plain), known⟩, same.symm⟩
        rw [fullName, fullName, search]
        simp [self]

theorem NamesTrack.register (track : NamesTrack names g) (once : OnePerBare (names ++ [full]))
    (named : full ≠ "") : NamesTrack (names ++ [full]) (registerCanonicalClaudeModel g full) := by
  have before : OnePerBare names := fun first firstMember second secondMember =>
    once first (List.mem_append_left _ firstMember) second (List.mem_append_left _ secondMember)
  refine ⟨?_, ?_⟩
  · intro name
    rw [(registerCanonicalClaudeModel_frame g named).2.2.1, ExtTreeMap.mem_insert,
      Std.compare_eq_iff_eq, track.models, List.mem_append, List.mem_singleton]
    exact ⟨fun found => found.elim (fun same => Or.inr same.symm) Or.inl,
      fun found => found.elim Or.inr fun same => Or.inl same.symm⟩
  · intro raw request unreported
    rw [List.mem_append, List.mem_singleton, not_or] at unreported
    have known := track.canonical raw request unreported.1
    rw [find_concat]
    rcases registerCanonicalClaudeModel_cases g named with
      ⟨folds, result⟩ | ⟨_, plain, result⟩ | ⟨spares, suffixed, result⟩
    · obtain ⟨_, _, fresh⟩ := (track.foldsBare_iff once).mp folds
      simp only [result, foldBare, reportModel, lookup_insert]
      by_cases same : bareModel full = raw
      · rw [if_pos same, if_pos same, ← known]
        cases mapped : g.claudeCanonicalModels[raw]? with
        | none => rfl
        | some other =>
            rw [mapped] at known
            obtain ⟨member, bare⟩ := (find_bare_eq_some before).mp known.symm
            have own : full ∈ names ++ [full] := by simp
            have equal := once other (List.mem_append_left _ member) full own (bare.trans same.symm)
            exact absurd (equal ▸ member) fresh
      · rw [if_neg same, if_neg same, known, Option.or_none]
    · have apart : bareModel full ≠ raw := by
        rintro rfl
        rcases plain with empty | whole
        · exact request empty
        · exact unreported.2 whole
      rw [if_neg apart, Option.or_none, ← known]
      simp only [result, reportModel, ExtTreeMap.getElem?_insertIfNew]
      rw [if_neg]
      rintro ⟨same, _⟩
      exact unreported.2 (Std.compare_eq_iff_eq.mp same).symm
    · have result' : (registerCanonicalClaudeModel g full).claudeCanonicalModels =
          g.claudeCanonicalModels := by rw [result]; rfl
      rw [result', known]
      split
      · rename_i same
        have reported : full ∈ names := by
          by_contra fresh
          exact spares ((track.foldsBare_iff once).mpr ⟨same ▸ request, suffixed, fresh⟩)
        rw [(find_bare_eq_some before).mpr ⟨reported, same⟩]
        rfl
      · exact Option.or_none.symm

end NamesTrack

/-! ### The ledgers -/

theorem Represents.unique {agentStats : AgentStats} {first second : Bucket →₀ ModelStats}
    (left : Represents agentStats first) (right : Represents agentStats second) :
    first = second :=
  left.holds.mapTotal_single.symm.trans right.holds.mapTotal_single

theorem ClaudeTracks.unique {g : AggregatorInner} {first second : Bucket →₀ ModelStats}
    (left : ClaudeTracks g first) (right : ClaudeTracks g second) : first = second :=
  add_left_cancel (left.represents.unique right.represents)

def requestBucket (names : List String) (log : LogRecord) : Bucket :=
  Bucket.fromParts providerAnthropic (fullName names (requestModel log))
    ((stringAttr log.attributes "effort").getD "")

def pointBucket (attrs : List KeyValue) : Bucket :=
  claudeMetricBucket attrs (reportedModel attrs)

/-- What a request log counts, given the names that metrics report. -/
noncomputable def Step.requested (names : List String) : Step → Bucket →₀ ModelStats
  | .claudeLog log =>
      match claudeApiRequestStats log with
      | some samples => Finsupp.single (requestBucket names log) (samples.1 + samples.2)
      | none => 0
  | _ => 0

noncomputable def Step.measured (key : ClaudeUsageKey) : Step → Bucket →₀ ModelStats
  | .claudeTokens dp =>
      if pointKey dp.attributes = key then
        Finsupp.single (pointBucket dp.attributes) ((claudeTokenStats dp).getD 0)
      else 0
  | .claudeCost dp =>
      if pointKey dp.attributes = key then
        Finsupp.single (pointBucket dp.attributes) (claudeCostStats dp)
      else 0
  | _ => 0

noncomputable def requestLedger (names : List String) (steps : List Step) : Bucket →₀ ModelStats :=
  (steps.map (Step.requested names)).sum

noncomputable def pointLedger (key : ClaudeUsageKey) (steps : List Step) : Bucket →₀ ModelStats :=
  (steps.map (Step.measured key)).sum

theorem requestLedger_concat (names : List String) (steps : List Step) (step : Step) :
    requestLedger names (steps ++ [step]) = requestLedger names steps + step.requested names := by
  simp [requestLedger]

theorem pointLedger_concat (key : ClaudeUsageKey) (steps : List Step) (step : Step) :
    pointLedger key (steps ++ [step]) = pointLedger key steps + step.measured key := by
  simp [pointLedger]

/-- What the steps so far have made of Claude's state, bucket by bucket. -/
structure ClaudeOrdered (steps : List Step) (g : AggregatorInner) : Prop where
  counted : ClaudeCounted steps g (requestLedger (metricNames steps) steps)
  names : NamesTrack (metricNames steps) g
  measured : ∀ key, ¬LogSeen key steps → g.metricLedgers key = pointLedger key steps

section Steps

variable {steps : List Step} {step : Step} {g : AggregatorInner}

theorem requestLedger_register {full : String} (track : NamesTrack (metricNames steps) g)
    (once : OnePerBare (metricNames steps ++ [full])) (requests : RequestsNamed steps)
    [Decidable (FoldsBare g full)] :
    (if FoldsBare g full then
      Finsupp.mapDomain (renameModel (bareModel full) full)
        (requestLedger (metricNames steps) steps)
    else requestLedger (metricNames steps) steps) =
      requestLedger (metricNames steps ++ [full]) steps := by
  have each : ∀ step ∈ steps, (if FoldsBare g full then
      Finsupp.mapDomain (renameModel (bareModel full) full) (step.requested (metricNames steps))
      else step.requested (metricNames steps)) =
        step.requested (metricNames steps ++ [full]) := by
    intro step member
    cases step with
    | claudeLog log =>
        cases samples : claudeApiRequestStats log with
        | none => simp [Step.requested, samples]
        | some parts =>
            have request := requests log member (by simp [samples])
            obtain ⟨folded, others⟩ := track.fullName_concat once request
            simp only [Step.requested, samples]
            split
            · rename_i folds
              rw [Finsupp.mapDomain_single]
              congr 1
              by_cases bare : requestModel log = bareModel full
              · obtain ⟨before, after⟩ := folded folds bare
                rw [requestBucket, requestBucket, before, after, renameModel, if_pos]
                · simp [Bucket.fromParts]
                · refine ⟨?_, ?_⟩
                  · change nonEmpty providerAnthropic = providerAnthropic
                    decide
                  · rw [Bucket.fromParts_model, nonEmpty_of_ne request, bare]
              · have same := others fun both => bare both.2
                rw [requestBucket, requestBucket, same, renameModel_of_ne]
                rw [Bucket.fromParts_model]
                have unreported := folds.2.2.1
                rcases fullName_eq_or (metricNames steps) (requestModel log) with raw | reported
                · rwa [raw, nonEmpty_of_ne request]
                · rw [nonEmpty_of_ne (metricNames_ne reported)]
                  exact fun equal => unreported ((track.models _).mpr (equal ▸ reported))
            · rename_i spares
              rw [requestBucket, requestBucket, others fun both => spares both.1]
    | _ => simp [Step.requested]
  unfold requestLedger
  rw [← List.map_congr_left each]
  split
  · rw [← Finsupp.mapDomain.addMonoidHom_apply, map_list_sum, List.map_map]
    rfl
  · rfl

theorem ClaudeOrdered.new : ClaudeOrdered [] Aggregator.new where
  counted := ClaudeCounted.new
  names := NamesTrack.new
  measured key _ := by
    have empty : Aggregator.new.metricLedgers = 0 := ledgersOf_empty
    simp [empty, pointLedger]

theorem ClaudeOrdered.codexOnly {next : AggregatorInner} (ordered : ClaudeOrdered steps g)
    (same : CodexOnly g next) (noLog : step.apiRequest = none)
    (noPoint : step.claudePoint = none) (noName : step.metricName = none)
    (noRequest : ∀ names, step.requested names = 0) (noMeasure : ∀ key, step.measured key = 0) :
    ClaudeOrdered (steps ++ [step]) next := by
  have names : metricNames (steps ++ [step]) = metricNames steps := by
    rw [metricNames_concat, noName]
    exact List.append_nil _
  have requests : requestLedger (metricNames (steps ++ [step])) (steps ++ [step]) =
      requestLedger (metricNames steps) steps := by
    rw [names, requestLedger_concat, noRequest, add_zero]
  refine ⟨?_, ?_, ?_⟩
  · rw [requests]
    exact ordered.counted.codexOnly same noLog noPoint
  · rw [names]
    refine ⟨?_, ?_⟩
    · rw [same.metricModels]
      exact ordered.names.models
    · rw [same.canonicalModels]
      exact ordered.names.canonical
  · intro key unseen
    rw [logSeen_concat, not_or] at unseen
    rw [pointLedger_concat, noMeasure, add_zero, ← ordered.measured key unseen.1,
      AggregatorInner.metricLedgers, same.metricUsage]
    rfl

theorem ClaudeOrdered.claudeLog {log : LogRecord} (ordered : ClaudeOrdered steps g)
    (requests : RequestsNamed (steps ++ [.claudeLog log]))
    (fits : (offered (steps ++ [.claudeLog log])).Fits) :
    ClaudeOrdered (steps ++ [.claudeLog log]) (Step.apply g (.claudeLog log)).1 := by
  cases samples : claudeApiRequestStats log with
  | none =>
      rw [Step.apply_claudeLog_of_none samples]
      refine ordered.codexOnly (CodexOnly.refl g) ?_ rfl rfl ?_ fun _ => rfl
      · simp [Step.apiRequest, samples]
      · intro names
        simp [Step.requested, samples]
  | some parts =>
      obtain ⟨requestStats, usageStats⟩ := parts
      obtain ⟨request, _, usage⟩ := claudeApiRequestStats_parts samples
      have named : requestModel log ≠ "" := requests log (by simp) (by simp [samples])
      have bound := ordered.counted.fits fits
      have sample : (Step.claudeLog log).sample = requestStats + usageStats := by
        simp [Step.sample, samples]
      have names : metricNames (steps ++ [.claudeLog log]) = metricNames steps := by
        rw [metricNames_concat]
        exact List.append_nil _
      have own : (Step.claudeLog log).requested (metricNames steps) =
          Finsupp.single (requestBucket (metricNames steps) log) (requestStats + usageStats) := by
        simp [Step.requested, samples]
      have placed : requestBucket (metricNames steps) log = logBucket g log := by
        rw [requestBucket, ← ordered.names.canonicalClaudeModel_eq named]
        rfl
      have bucketKey := ordered.counted.logBucket_usageKey log
      have applied := @Step.apply_claudeLog_of_some g log requestStats usageStats samples
      rw [placed] at own
      generalize logBucket g log = bucket at own bucketKey applied
      rw [sample] at bound
      have tracks : ClaudeTracks (ingestClaudeLog g bucket requestStats usageStats) _ :=
        ordered.counted.tracks.ingestClaudeLog request usage.hasUsage bound
      obtain ⟨rest, counted⟩ := Aggregator.claudeCounted_apply ordered.counted (.claudeLog log) fits
      have models := ingestClaudeLog_models g bucket requestStats usageStats
      have ledgers := @ClaudeCounted.ingestClaudeLog_metricLedgers _ _ _ bucket _ _
        ordered.counted request bound
      rw [applied] at counted ⊢
      obtain rfl := counted.tracks.unique tracks
      refine ⟨?_, ?_, ?_⟩
      · rw [names, requestLedger_concat, own]
        exact counted
      · rw [names]
        refine ⟨?_, ?_⟩
        · rw [models.1]
          exact ordered.names.models
        · rw [models.2]
          exact ordered.names.canonical
      · intro key unseen
        rw [logSeen_concat, not_or] at unseen
        have quiet : (Step.claudeLog log).measured key = 0 := rfl
        rw [pointLedger_concat, quiet, add_zero, ← ordered.measured key unseen.1, ledgers]
        split
        · rename_i used
          rw [bucketKey, Finsupp.erase_ne]
          rintro rfl
          refine unseen.2 ⟨(requestStats, usageStats), ?_, used⟩
          have entry : (Step.claudeLog log).apiRequest =
              some (logKey log, requestStats, usageStats) := by
            simp [Step.apiRequest, samples]
          rw [apiRequests_of_some entry, if_pos rfl]
          exact List.mem_singleton_self _
        · rfl

theorem ClaudeOrdered.point {attrs : List KeyValue} {stats : ModelStats}
    (ordered : ClaudeOrdered steps g) (once : OnePerBare (metricNames (steps ++ [step])))
    (requests : RequestsNamed steps) (usage : UsageOnly stats)
    (named : step.metricName = some (reportedModel attrs))
    (noLog : step.apiRequest = none) (noRequest : ∀ names, step.requested names = 0)
    (measures : ∀ key, step.measured key =
      if pointKey attrs = key then Finsupp.single (pointBucket attrs) stats else 0)
    (sample : step.sample = stats) (fits : (offered (steps ++ [step])).Fits)
    (applied : (step.apply g).1 = (recordClaudeMetricUsage
      (registerCanonicalClaudeModel g (reportedModel attrs)) (pointBucket attrs) stats).1) :
    ClaudeOrdered (steps ++ [step]) (step.apply g).1 := by
  classical
  obtain ⟨last, counted⟩ := Aggregator.claudeCounted_apply ordered.counted step fits
  have full : reportedModel attrs ≠ "" := nonEmpty_ne _
  have names : metricNames (steps ++ [step]) = metricNames steps ++ [reportedModel attrs] := by
    rw [metricNames_concat, named]
    rfl
  rw [names] at once
  have frame := registerCanonicalClaudeModel_frame g full
  have registered := ordered.names.register once full
  have tracks := ordered.counted.tracks.registerCanonicalClaudeModel full
  rw [requestLedger_register ordered.names once requests] at tracks
  obtain ⟨rest, regrouped⟩ := ordered.counted.register full
  obtain rfl := regrouped.tracks.unique tracks
  have bound := regrouped.fits fits
  rw [sample] at bound
  have ledgers : (registerCanonicalClaudeModel g (reportedModel attrs)).metricLedgers =
      g.metricLedgers := by
    rw [AggregatorInner.metricLedgers, frame.1]
    rfl
  have reported : (pointBucket attrs).model ∈
      (registerCanonicalClaudeModel g (reportedModel attrs)).claudeMetricModels := by
    rw [registered.models, pointBucket, claudeMetricBucket, Bucket.fromParts_model,
      nonEmpty_of_ne full]
    simp
  have recorded := tracks.recordClaudeMetricUsage reported bound
  have key : (pointBucket attrs).usageKey = pointKey attrs := claudeMetricBucket_usageKey g attrs
  rw [applied] at counted ⊢
  obtain rfl := counted.tracks.unique recorded
  have seen (key : ClaudeUsageKey) : LogSeen key (steps ++ [step]) ↔ LogSeen key steps := by
    rw [logSeen_concat]
    simp [LogSeen, apiRequests_of_none noLog]
  generalize registerCanonicalClaudeModel g (reportedModel attrs) = reached at *
  refine ⟨?_, ?_, ?_⟩
  · rw [names, requestLedger_concat, noRequest, add_zero]
    exact counted
  · rw [names]
    by_cases counts : stats.hasUsage = true ∧
        reached.claudeUsageSources[(pointBucket attrs).usageKey]? ≠ some .logs
    · rw [recordClaudeMetricUsage_of_counted counts]
      exact ⟨registered.models, registered.canonical⟩
    · rw [recordClaudeMetricUsage_of_ignored counts]
      exact registered
  · intro other unseen
    rw [seen] at unseen
    rw [pointLedger_concat, measures, ← ordered.measured other unseen, ← ledgers]
    by_cases counts : stats.hasUsage = true ∧
        reached.claudeUsageSources[(pointBucket attrs).usageKey]? ≠ some .logs
    · rw [recordClaudeMetricUsage_metricLedgers (metricLedgers_fits bound) counts, key,
        Finsupp.add_apply]
      by_cases same : pointKey attrs = other
      · rw [if_pos same, same, Finsupp.single_eq_same]
      · rw [if_neg same, Finsupp.single_eq_of_ne' same]
    · rw [recordClaudeMetricUsage_of_ignored counts]
      split
      · rename_i same
        have unlogged : reached.claudeUsageSources[(pointBucket attrs).usageKey]? ≠
            some .logs := by
          rw [key, same, Ne, regrouped.sourced]
          exact unseen
        have empty : stats = 0 := not_not.mp fun occupied =>
          counts ⟨usage.hasUsage occupied, unlogged⟩
        rw [empty, Finsupp.single_zero, add_zero]
      · rw [add_zero]

theorem ClaudeOrdered.apply (ordered : ClaudeOrdered steps g) (step : Step)
    (once : OnePerBare (metricNames (steps ++ [step])))
    (requests : RequestsNamed (steps ++ [step])) (fits : (offered (steps ++ [step])).Fits) :
    ClaudeOrdered (steps ++ [step]) (step.apply g).1 := by
  have earlier : RequestsNamed steps := by
    intro log member
    exact requests log (List.mem_append_left _ member)
  have registered (attrs : List KeyValue) (stats : ModelStats) :
      (recordClaudeMetricUsage (claudeMetricModel g attrs).1
        (claudeMetricBucket attrs (claudeMetricModel g attrs).2) stats).1 =
      (recordClaudeMetricUsage (registerCanonicalClaudeModel g (reportedModel attrs))
        (pointBucket attrs) stats).1 := by
    rw [claudeMetricModel_fst, claudeMetricModel_snd, pointBucket, reportedModel]
  cases step with
  | claudeLog log => exact ordered.claudeLog requests fits
  | claudeTokens dp =>
      refine ordered.point once earlier ?_ rfl rfl (fun _ => rfl) (fun _ => rfl) rfl fits
        ((ingestClaudeTokenPoint_eq g dp).trans (registered dp.attributes _))
      cases found : claudeTokenStats dp with
      | none => exact ⟨rfl, rfl⟩
      | some stats => exact claudeTokenStats_usageOnly found
  | claudeCost dp =>
      exact ordered.point once earlier (claudeCostStats_usageOnly dp) rfl rfl (fun _ => rfl)
        (fun _ => rfl) rfl fits
        ((ingestClaudeCostPoint_eq g dp).trans (registered dp.attributes _))
  | _ =>
      exact ordered.codexOnly (Step.apply_codexOnly _ rfl g) rfl rfl rfl (fun _ => rfl)
        fun _ => rfl

end Steps

namespace Aggregator

theorem claudeOrdered_run (steps : List Step) (once : OnePerBare (metricNames steps))
    (requests : RequestsNamed steps) (fits : (offered steps).Fits) :
    ClaudeOrdered steps (runSteps steps) := by
  induction steps using List.reverseRecOn with
  | nil => exact ClaudeOrdered.new
  | append_singleton steps step ih =>
      have before := fits
      rw [offered_concat] at before
      have onceBefore : OnePerBare (metricNames steps) := by
        rw [metricNames_concat] at once
        intro first firstMember second secondMember
        exact once first (List.mem_append_left _ firstMember) second
          (List.mem_append_left _ secondMember)
      have ordered := ih onceBefore
        (fun log member => requests log (List.mem_append_left _ member)) before.of_add
      rw [runSteps_concat]
      exact ordered.apply step once requests fits

end Aggregator

/-! ### Any order -/

theorem Represents.agentStats_eq {first second : AgentStats} {ledger : Bucket →₀ ModelStats}
    (left : Represents first ledger) (right : Represents second ledger) : first = second := by
  obtain ⟨firstTotal, firstBuckets⟩ := first
  obtain ⟨secondTotal, secondBuckets⟩ := second
  have total : firstTotal = secondTotal := left.total.trans right.total.symm
  have buckets : firstBuckets = secondBuckets := left.holds.unique right.holds
  rw [total, buckets]

section Perm

variable {steps other : List Step}

theorem OnePerBare.perm {names others : List String} (once : OnePerBare names)
    (reordered : others.Perm names) : OnePerBare others := by
  intro first firstMember second secondMember
  exact once first (reordered.subset firstMember) second (reordered.subset secondMember)

theorem logSeen_perm (reordered : other.Perm steps) (key : ClaudeUsageKey) :
    LogSeen key other ↔ LogSeen key steps := by
  have requests := ((reordered.filterMap Step.apiRequest).filter (·.1 = key)).map Prod.snd
  exact exists_congr fun samples => and_congr_left fun _ => requests.mem_iff

theorem pointLedger_perm (reordered : other.Perm steps) (key : ClaudeUsageKey) :
    pointLedger key other = pointLedger key steps :=
  (reordered.map _).sum_eq

theorem requestLedger_perm (once : OnePerBare (metricNames steps)) (reordered : other.Perm steps) :
    requestLedger (metricNames other) other = requestLedger (metricNames steps) steps := by
  have names : (metricNames other).Perm (metricNames steps) := reordered.filterMap _
  have same : Step.requested (metricNames other) = Step.requested (metricNames steps) := by
    funext step
    cases step with
    | claudeLog log =>
        simp only [Step.requested, requestBucket, fullName_perm once names]
    | _ => rfl
  rw [requestLedger, same]
  exact (reordered.map _).sum_eq

end Perm

/-- The Claude breakdown is the same for every order and batching of the messages, as long as
nothing saturates, the request logs carry a model, and metrics report one name for each bare
name. -/
theorem Aggregator.claude_order_free (calls other : List Call)
    (reordered : (other.flatMap Call.messages).Perm (calls.flatMap Call.messages))
    (exactCounts : NonSaturating calls) (requests : RequestsNamed (calls.flatMap Call.steps))
    (once : OnePerBare (metricNames (calls.flatMap Call.steps))) :
    (run other).agent agentClaude = (run calls).agent agentClaude := by
  have exactOther : NonSaturating other := exactCounts.perm reordered
  have steps : (other.flatMap Call.steps).Perm (calls.flatMap Call.steps) := by
    rw [Call.steps_flatMap, Call.steps_flatMap]
    exact reordered.flatMap_right Message.steps
  have onceOther : OnePerBare (metricNames (other.flatMap Call.steps)) :=
    once.perm (steps.filterMap _)
  have requestsOther : RequestsNamed (other.flatMap Call.steps) := by
    intro log member
    exact requests log (steps.subset member)
  have ordered := claudeOrdered_run _ once requests exactCounts
  have orderedOther := claudeOrdered_run _ onceOther requestsOther exactOther
  rw [run_eq, run_eq]
  have ledgers : (runSteps (other.flatMap Call.steps)).metricLedgers =
      (runSteps (calls.flatMap Call.steps)).metricLedgers := by
    ext1 key
    by_cases seen : LogSeen key (calls.flatMap Call.steps)
    · have source := (ordered.counted.sourced key).mpr seen
      have sourceOther := (orderedOther.counted.sourced key).mpr ((logSeen_perm steps key).mpr seen)
      rw [ordered.counted.tracks.metricLedgers_eq_zero (by simp [source]),
        orderedOther.counted.tracks.metricLedgers_eq_zero (by simp [sourceOther])]
    · rw [ordered.measured key seen,
        orderedOther.measured key fun found => seen ((logSeen_perm steps key).mp found),
        pointLedger_perm steps]
  have represents := orderedOther.counted.tracks.represents
  rw [ledgers, requestLedger_perm once steps] at represents
  exact represents.agentStats_eq ordered.counted.tracks.represents

/-- A log before and after the metric that names its full model. -/
theorem Aggregator.claude_order_free_late_name :
    (run [(claudeTokenMessage "opus[1m]" 5).call, (apiRequestMessage "opus" 7).call]).agent
        agentClaude =
      (run [(apiRequestMessage "opus" 7).call, (claudeTokenMessage "opus[1m]" 5).call]).agent
        agentClaude := by
  have counts : NonSaturating
      [(apiRequestMessage "opus" 7).call, (claudeTokenMessage "opus[1m]" 5).call] := by
    intro counter
    cases counter <;> decide
  refine claude_order_free _ _ (List.Perm.swap _ _ _) counts ?_ ?_
  · intro log member _
    rcases List.mem_pair.mp member with same | same
    · obtain rfl := Step.claudeLog.inj same
      decide
    · simp at same
  · intro first firstMember second secondMember _
    rw [List.mem_singleton.mp firstMember, List.mem_singleton.mp secondMember]

end OtelLogger
