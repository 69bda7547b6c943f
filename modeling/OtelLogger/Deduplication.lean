import OtelLogger.Runs

/-!
Usage that arrives twice is counted once. Claude usage of a key comes from its request logs or
from its token metrics, Codex usage of a model from its completions or from its token metrics,
and the buckets hold exactly what the chosen reports say.
-/

namespace OtelLogger

open Std (ExtTreeMap TransOrd LawfulEqOrd)
open Accounting

/-! ### Parts of an agent -/

section Part

variable {agentStats : AgentStats} {ledger : Bucket →₀ ModelStats}

def AgentStats.partCounter (agentStats : AgentStats) (part : Bucket → Prop) [DecidablePred part]
    (counter : Counter) : ℕ :=
  mapTotal agentStats.buckets fun _ (entry : BucketStats) =>
    if part entry.toBucket then entry.stats.counter counter else 0

theorem Represents.partCounter (represents : Represents agentStats ledger)
    (part : Bucket → Prop) [DecidablePred part] (counter : Counter) :
    agentStats.partCounter part counter = (partTotal part ledger).counter counter := by
  classical
  rw [← ModelStats.counterHom_apply, map_partTotal, ← represents.holds.mapTotal_eq]
  apply mapTotal_congr
  intro key entry _
  split <;> simp

end Part

/-! ### Claude -/

def tokenPoints (key : ClaudeUsageKey) (steps : List Step) : List ModelStats :=
  ((steps.filterMap Step.tokenPoint).filter (·.1 = key)).map Prod.snd

theorem mem_apiRequests {key : ClaudeUsageKey} {steps : List Step}
    {samples : ModelStats × ModelStats} (member : samples ∈ apiRequests key steps) :
    ∃ log, claudeApiRequestStats log = some samples := by
  simp only [apiRequests, List.mem_map, List.mem_filter, List.mem_filterMap] at member
  obtain ⟨⟨own, found⟩, ⟨⟨step, _, request⟩, _⟩, rfl⟩ := member
  cases step with
  | claudeLog log =>
      simp only [Step.apiRequest, Option.map_eq_some_iff, Prod.mk.injEq] at request
      obtain ⟨samples, stats, _, rfl⟩ := request
      exact ⟨log, stats⟩
  | _ => simp [Step.apiRequest] at request

theorem logTotal_counter (key : ClaudeUsageKey) (steps : List Step) (counter : Counter) :
    (logTotal key steps).counter counter =
      ((apiRequests key steps).map fun samples =>
        samples.1.counter counter + samples.2.counter counter).sum := by
  rw [logTotal, ← ModelStats.counterHom_apply, map_list_sum, List.map_map]
  simp [Function.comp_def]

theorem logTotal_token {counter : Counter} (token : counter.isToken = true)
    (key : ClaudeUsageKey) (steps : List Step) : (logTotal key steps).counter counter =
      ((apiRequests key steps).map fun samples => samples.2.counter counter).sum := by
  rw [logTotal_counter]
  congr 1
  apply List.map_congr_left
  intro samples member
  obtain ⟨log, found⟩ := mem_apiRequests member
  rw [(claudeApiRequestStats_parts found).2.1 counter token, zero_add]

theorem logTotal_request {counter : Counter} (request : counter.isToken = false)
    (key : ClaudeUsageKey) (steps : List Step) : (logTotal key steps).counter counter =
      ((apiRequests key steps).map fun samples => samples.1.counter counter).sum := by
  rw [logTotal_counter]
  congr 1
  apply List.map_congr_left
  intro samples member
  obtain ⟨log, found⟩ := mem_apiRequests member
  rw [(claudeApiRequestStats_parts found).2.2.counter_eq_zero request, add_zero]

theorem logTotal_unseen {key : ClaudeUsageKey} {steps : List Step}
    (unseen : ¬LogSeen key steps) {counter : Counter} (token : counter.isToken = true) :
    (logTotal key steps).counter counter = 0 := by
  rw [logTotal_token token]
  apply List.sum_eq_zero
  simp only [List.mem_map, forall_exists_index, and_imp]
  rintro _ samples member rfl
  obtain ⟨log, found⟩ := mem_apiRequests member
  have empty : samples.2 = 0 := not_not.mp fun occupied =>
    unseen ⟨samples, member, (claudeApiRequestStats_parts found).2.2.hasUsage occupied⟩
  rw [empty, ModelStats.counter_zero]

theorem pointTotal_of_tokenPoint {step : Step} (same : step.claudePoint = step.tokenPoint)
    (key : ClaudeUsageKey) (counter : Counter) : (pointTotal key [step]).counter counter =
      ((tokenPoints key [step]).map fun stats => stats.counter counter).sum := by
  cases found : step.tokenPoint with
  | none =>
      rw [pointTotal_of_none (same.trans found)]
      simp [tokenPoints, found]
  | some point =>
      rw [pointTotal_of_some (same.trans found)]
      by_cases own : point.1 = key <;> simp [tokenPoints, found, own]

theorem pointTotal_token {counter : Counter} (token : counter.isToken = true)
    (key : ClaudeUsageKey) (steps : List Step) : (pointTotal key steps).counter counter =
      ((tokenPoints key steps).map fun stats => stats.counter counter).sum := by
  induction steps using List.reverseRecOn with
  | nil => simp [pointTotal, tokenPoints]
  | append_singleton steps step ih =>
      have points : tokenPoints key (steps ++ [step]) =
          tokenPoints key steps ++ tokenPoints key [step] := by
        simp [tokenPoints]
      rw [pointTotal_concat, ModelStats.counter_add, ih, points, List.map_append,
        List.sum_append]
      congr 1
      cases step with
      | claudeCost dp =>
          rw [pointTotal_of_some rfl]
          have cost : (claudeCostStats dp).counter counter = 0 := by
            cases counter <;> rfl
          have none : tokenPoints key [Step.claudeCost dp] = [] := rfl
          rw [none]
          split
          · exact cost
          · exact ModelStats.counter_zero counter
      | _ => exact pointTotal_of_tokenPoint rfl key counter

theorem pointTotal_request {counter : Counter} (request : counter.isToken = false)
    (key : ClaudeUsageKey) (steps : List Step) : (pointTotal key steps).counter counter = 0 := by
  rw [pointTotal, ← ModelStats.counterHom_apply, map_list_sum]
  apply List.sum_eq_zero
  simp only [List.mem_map, List.mem_filter, List.mem_filterMap, forall_exists_index, and_imp]
  rintro _ _ ⟨own, stats⟩ step _ point _ rfl rfl
  have usage : UsageOnly stats := by
    cases step with
    | claudeCost dp =>
        obtain ⟨_, rfl⟩ := Prod.mk.inj (Option.some.inj point)
        exact claudeCostStats_usageOnly dp
    | claudeTokens dp =>
        simp only [Step.claudePoint, Step.tokenPoint, Option.map_eq_some_iff,
          Prod.mk.injEq] at point
        obtain ⟨found, own, _, rfl⟩ := point
        exact claudeTokenStats_usageOnly own
    | _ => simp [Step.claudePoint, Step.tokenPoint] at point
  exact usage.counter_eq_zero request

theorem ClaudeCounted.keyTotal {steps : List Step} {g : AggregatorInner}
    {rest : Bucket →₀ ModelStats} (counted : ClaudeCounted steps g rest) (key : ClaudeUsageKey) :
    partTotal (fun bucket => bucket.usageKey = key) (Finsupp.degree g.metricLedgers + rest) =
      Finsupp.degree (g.metricLedgers key) + logTotal key steps := by
  rw [map_add, counted.logged, partTotal_degree_of_keyed]
  intro own bucket amount
  rw [AggregatorInner.metricLedgers, ledgersOf_apply, ledgerOf_apply] at amount
  cases found : g.claudeMetricUsage[own]? with
  | none => simp [found] at amount
  | some perBucket =>
      cases entry : perBucket[bucket]? with
      | none => simp [found, entry] at amount
      | some stats => exact (counted.tracks.revocable own perBucket bucket stats found entry).2.1

/-- A usage key counts the tokens of its request logs as soon as one of them has usage, and those
of its token points otherwise; its requests and durations are always those of the logs. -/
theorem Aggregator.claude_log_over_metric (calls : List Call) (exactCounts : NonSaturating calls)
    (key : ClaudeUsageKey) (counter : Counter) :
    ((run calls).agent agentClaude).partCounter (fun bucket => bucket.usageKey = key) counter =
      if counter.isToken = false then
        ((apiRequests key (calls.flatMap Call.steps)).map fun samples =>
          samples.1.counter counter).sum
      else if (apiRequests key (calls.flatMap Call.steps)).any (·.2.hasUsage) then
        ((apiRequests key (calls.flatMap Call.steps)).map fun samples =>
          samples.2.counter counter).sum
      else
        ((tokenPoints key (calls.flatMap Call.steps)).map fun stats => stats.counter counter).sum := by
  obtain ⟨rest, counted⟩ := claudeCounted_run _ exactCounts
  rw [run_eq, counted.tracks.represents.partCounter, counted.keyTotal, ModelStats.counter_add]
  have seenIff : (apiRequests key (calls.flatMap Call.steps)).any (·.2.hasUsage) = true ↔
      LogSeen key (calls.flatMap Call.steps) := by
    simp [LogSeen]
  have metrics : Finsupp.degree
      ((runSteps (calls.flatMap Call.steps)).metricLedgers key) =
        if (apiRequests key (calls.flatMap Call.steps)).any (·.2.hasUsage) then 0
        else pointTotal key (calls.flatMap Call.steps) := by
    split
    · rename_i seen
      have source := (counted.sourced key).mpr (seenIff.mp seen)
      rw [counted.tracks.metricLedgers_eq_zero (by simp [source]), map_zero]
    · rename_i unseen
      exact counted.measured key fun seen => unseen (seenIff.mpr seen)
  rw [metrics]
  by_cases seen : (apiRequests key (calls.flatMap Call.steps)).any (·.2.hasUsage) = true
  · simp only [if_pos seen]
    rw [ModelStats.counter_zero, zero_add]
    split
    · rename_i request
      exact logTotal_request request key _
    · rename_i token
      exact logTotal_token (by simpa using token) key _
  · simp only [if_neg seen]
    split
    · rename_i request
      rw [pointTotal_request request, zero_add]
      exact logTotal_request request key _
    · rename_i token
      rw [logTotal_unseen (fun found => seen (seenIff.mpr found)) (by simpa using token), add_zero]
      exact pointTotal_token (by simpa using token) key _

theorem Aggregator.claude_log_over_metric_variants :
    ((run [(claudeTokenMessage "opus[1m]" 5).call, (apiRequestMessage "opus" 7).call,
      (claudeTokenMessage "opus" 3).call]).agent agentClaude).partCounter
        (fun bucket => bucket.usageKey = claudeUsageSourceKey "opus" "") .inputTokens = 7 := by
  have counts : NonSaturating [(claudeTokenMessage "opus[1m]" 5).call,
      (apiRequestMessage "opus" 7).call, (claudeTokenMessage "opus" 3).call] := by
    intro counter
    cases counter <;> decide
  refine (claude_log_over_metric _ counts (claudeUsageSourceKey "opus" "") .inputTokens).trans ?_
  decide +kernel

/-! ### Codex -/

def CodexTokenSource.other : CodexTokenSource → CodexTokenSource
  | .logs => .metrics
  | .metrics => .logs

theorem CodexTokenSource.ne_other_iff (first second : CodexTokenSource) :
    first ≠ second.other ↔ first = second := by
  cases first <;> cases second <;> simp [CodexTokenSource.other]

structure UsageEvent where
  kind : CodexTokenSource
  model : String
  stats : ModelStats

/-- The usage event that a step is in the state it meets: an accepted completion, or a token
point of a counted type and a non-zero value. -/
def Step.usageEvent (g : AggregatorInner) : Step → Option UsageEvent
  | .completion service log =>
      (extractCodexSseResponseCompleted g service log).map fun parsed =>
        { kind := .logs, model := parsed.bucket.model, stats := parsed.stats }
  | .codexTokens _ dp =>
      (codexTokenStats dp).bind fun stats =>
        if histogramSumAsU64 dp = 0 then none
        else
          some { kind := .metrics, model := nonEmpty (codexMetricModel dp.attributes), stats }
  | _ => none

def usageEventsFrom (g : AggregatorInner) : List Step → List UsageEvent
  | [] => []
  | step :: rest => (step.usageEvent g).toList ++ usageEventsFrom (step.apply g).1 rest

def eventsOf (model : String) (steps : List Step) : List UsageEvent :=
  (usageEventsFrom Aggregator.new steps).filter (·.model = model)

/-- The events of the kind that came first. -/
def firstKind (events : List UsageEvent) : List UsageEvent :=
  match events with
  | [] => []
  | first :: _ => events.filter (·.kind = first.kind)

theorem firstKind_concat (events : List UsageEvent) (event : UsageEvent) :
    firstKind (events ++ [event]) = firstKind events ++
      if events.head?.map UsageEvent.kind = some event.kind.other then [] else [event] := by
  cases events with
  | nil => simp [firstKind]
  | cons first rest =>
      simp only [firstKind, List.cons_append, List.head?_cons, Option.map_some,
        Option.some.injEq]
      rw [← List.cons_append, List.filter_append]
      congr 1
      by_cases same : first.kind = event.kind
      · rw [if_neg ((CodexTokenSource.ne_other_iff _ _).mpr same)]
        simp [same]
      · rw [if_pos (not_not.mp fun different =>
          same ((CodexTokenSource.ne_other_iff _ _).mp different))]
        simp [Ne.symm same]

theorem usageEventsFrom_concat (g : AggregatorInner) (steps : List Step) (step : Step) :
    usageEventsFrom g (steps ++ [step]) =
      usageEventsFrom g steps ++ (step.usageEvent (applyAll g steps).1).toList := by
  induction steps generalizing g with
  | nil => simp [usageEventsFrom, applyAll]
  | cons first steps ih =>
      simp only [List.cons_append, usageEventsFrom, ih, List.append_assoc, applyAll, forEach_cons]

theorem eventsOf_concat (model : String) (steps : List Step) (step : Step) :
    eventsOf model (steps ++ [step]) = eventsOf model steps ++
      ((step.usageEvent (Aggregator.runSteps steps)).toList.filter (·.model = model)) := by
  rw [eventsOf, usageEventsFrom_concat, List.filter_append]
  rfl

/-- Only a usage event fixes the source of its model, and only if the other kind has not. -/
theorem Step.apply_tokenSources (step : Step) (g : AggregatorInner) :
    (step.apply g).1.codexTokenSources =
      match step.usageEvent g with
      | none => g.codexTokenSources
      | some event =>
          if g.codexTokenSources[event.model]? = some event.kind.other then g.codexTokenSources
          else g.codexTokenSources.insert event.model event.kind := by
  cases step with
  | claudeLog log => exact (Step.apply_claudeOnly (.claudeLog log) rfl g).tokenSources
  | claudeTokens dp => exact (Step.apply_claudeOnly (.claudeTokens dp) rfl g).tokenSources
  | claudeCost dp => exact (Step.apply_claudeOnly (.claudeCost dp) rfl g).tokenSources
  | session service started =>
      exact updateCodexSessionWithLast_tokenSources g service started true
  | requestSpan service attrs => exact requestSpan_tokenSources g service attrs
  | turnCount service dp => exact recordCodexTurn_tokenSources g service _ _ _
  | duration service dp => exact recordCodexTurn_tokenSources g service _ _ _
  | completion service log =>
      simp only [Step.apply, ingestSseCompletion, Step.usageEvent]
      cases found : extractCodexSseResponseCompleted g service log with
      | none => rfl
      | some parsed =>
          have named : codexTokenSourceKey parsed.bucket.model = parsed.bucket.model :=
            nonEmpty_of_ne parsed.bucket.named.2.1
          simp only [Option.map_some, named, CodexTokenSource.other]
          by_cases fixed : g.codexTokenSources[parsed.bucket.model]? = some .metrics
          · rw [if_pos fixed]
            exact (if_pos fixed).symm
          · rw [if_neg fixed]
            refine Eq.trans ?_ (if_neg fixed).symm
            cases parsed.pendingConversationId <;> rfl
  | codexTokens service dp =>
      simp only [Step.apply, ingestCodexTokenPoint, Step.usageEvent]
      cases found : codexTokenStats dp with
      | none => simp
      | some stats =>
          by_cases zero : histogramSumAsU64 dp = 0
          · simp [zero]
          · simp only [Option.bind_some, zero, if_false, codexTokenSourceKey,
              CodexTokenSource.other]
            by_cases fixed : g.codexTokenSources[nonEmpty (codexMetricModel dp.attributes)]? =
                some .logs
            · rw [if_pos fixed]
              exact (if_pos fixed).symm
            · rw [if_neg fixed]
              exact (if_neg fixed).symm

theorem tokenSources_run (steps : List Step) (model : String) :
    (Aggregator.runSteps steps).codexTokenSources[model]? =
      (eventsOf model steps).head?.map UsageEvent.kind := by
  induction steps using List.reverseRecOn with
  | nil => simp [eventsOf, usageEventsFrom, Aggregator.runSteps, applyAll, Aggregator.new]
  | append_singleton steps step ih =>
      rw [Aggregator.runSteps_concat, Step.apply_tokenSources, eventsOf_concat]
      cases step.usageEvent (Aggregator.runSteps steps) with
      | none => simpa using ih
      | some event =>
          by_cases own : event.model = model
          · subst own
            simp only [Option.toList_some, List.filter_cons, decide_true, if_true, List.filter_nil]
            cases before : eventsOf event.model steps with
            | nil =>
                rw [before] at ih
                simp only [ih]
                simp
            | cons first rest =>
                rw [before] at ih
                simp only [ih]
                by_cases other : first.kind = event.kind.other
                · simp [other, ih]
                · have same := (CodexTokenSource.ne_other_iff _ _).mp other
                  have plain : event.kind ≠ event.kind.other :=
                    (CodexTokenSource.ne_other_iff _ _).mpr rfl
                  simp [same, plain]
          · have kept : (if (Aggregator.runSteps steps).codexTokenSources[event.model]? =
                some event.kind.other then (Aggregator.runSteps steps).codexTokenSources
              else (Aggregator.runSteps steps).codexTokenSources.insert event.model
                event.kind)[model]? = (Aggregator.runSteps steps).codexTokenSources[model]? := by
              split
              · rfl
              · simp [ExtTreeMap.getElem?_insert, own]
            simp only [kept, ih]
            simp [own]

theorem Step.counted_tokens (step : Step) (g : AggregatorInner) (model : String)
    {counter : Counter} (token : counter.isToken = true) :
    (partTotal (ofModel (· = model)) (step.countedLedger g)).counter counter =
      (((step.usageEvent g).toList.filter fun event => event.model = model ∧
        g.codexTokenSources[model]? ≠ some event.kind.other).map fun event =>
          event.stats.counter counter).sum := by
  have counts (bucket : Bucket) (stats : ModelStats) :
      (partTotal (ofModel (· = model)) (Finsupp.single bucket stats)).counter counter =
        if bucket.model = model then stats.counter counter else 0 := by
    rw [partTotal_single, ofModel]
    split <;> simp
  cases step with
  | completion service log =>
      simp only [Step.countedLedger, Step.counted, Step.usageEvent]
      cases found : extractCodexSseResponseCompleted g service log with
      | none => simp
      | some parsed =>
          have named : codexTokenSourceKey parsed.bucket.model = parsed.bucket.model :=
            nonEmpty_of_ne parsed.bucket.named.2.1
          simp only [named, Option.map_some, Option.toList_some, CodexTokenSource.other]
          by_cases own : parsed.bucket.model = model
          · by_cases fixed : g.codexTokenSources[model]? = some .metrics
            · simp [own, fixed]
            · simp [own, fixed, counts]
          · by_cases fixed : g.codexTokenSources[parsed.bucket.model]? = some .metrics
            · simp [own, fixed]
            · simp [own, fixed, counts]
  | codexTokens service dp =>
      simp only [Step.countedLedger, Step.counted, Step.usageEvent, codexTokenSourceKey]
      cases found : codexTokenStats dp with
      | none =>
          by_cases fixed : g.codexTokenSources[nonEmpty (codexMetricModel dp.attributes)]? =
              some .logs <;> simp [fixed]
      | some stats =>
          have bucketModel : (codexMetricBucket g service dp.attributes).model =
              nonEmpty (codexMetricModel dp.attributes) := rfl
          by_cases zero : histogramSumAsU64 dp = 0
          · simp [zero]
          · simp only [Option.bind_some, zero, if_false, Option.toList_some,
              CodexTokenSource.other]
            by_cases own : nonEmpty (codexMetricModel dp.attributes) = model
            · by_cases fixed : g.codexTokenSources[model]? = some .logs
              · simp [own, fixed]
              · simp [own, fixed, counts, bucketModel]
            · by_cases fixed : g.codexTokenSources[nonEmpty (codexMetricModel dp.attributes)]? =
                  some .logs
              · simp [own, fixed]
              · simp [own, fixed, counts, bucketModel]
  | turnCount service dp =>
      simp only [Step.countedLedger, Step.counted, Step.usageEvent]
      by_cases zero : numberValueAsU64 dp = 0
      · simp [zero]
      · have turn : ({ requestCount := numberValueAsU64 dp } : ModelStats).counter counter = 0 := by
          cases counter <;> first | rfl | simp [Counter.isToken] at token
        simp [zero, counts, turn]
  | duration service dp =>
      simp only [Step.countedLedger, Step.counted, Step.usageEvent]
      by_cases zero : histogramSumAsU64 dp = 0
      · simp [zero]
      · have turn : ({ durationMs := histogramSumAsU64 dp } : ModelStats).counter counter = 0 := by
          cases counter <;> first | rfl | simp [Counter.isToken] at token
        simp [zero, counts, turn]
  | _ => simp [Step.countedLedger, Step.counted, Step.usageEvent]

theorem booksOf_tokens (steps : List Step) (model : String) {counter : Counter}
    (token : counter.isToken = true) :
    (partTotal (ofModel (· = model)) (Aggregator.booksOf steps).ledger).counter counter =
      ((firstKind (eventsOf model steps)).map fun event => event.stats.counter counter).sum := by
  induction steps using List.reverseRecOn with
  | nil => simp [CodexBooks.ledger, CodexBooks.empty, eventsOf, usageEventsFrom, firstKind]
  | append_singleton steps step ih =>
      rw [Aggregator.booksOf_concat, Step.books_models, ModelStats.counter_add, ih,
        Step.counted_tokens _ _ _ token, eventsOf_concat, tokenSources_run]
      cases step.usageEvent (Aggregator.runSteps steps) with
      | none => simp
      | some event =>
          by_cases own : event.model = model
          · simp only [Option.toList_some, List.filter_cons, List.filter_nil, own, decide_true,
              if_true, true_and, firstKind_concat, List.map_append, List.sum_append]
            congr 1
            by_cases other : (eventsOf model steps).head?.map UsageEvent.kind =
                some event.kind.other
            · simp [other]
            · simp [other]
          · simp [own]

/-- Whatever happens in between, the buckets of a model hold the tokens of its usage events of
the kind that came first, and of no others. -/
theorem Aggregator.codex_first_source (calls : List Call) (exactCounts : NonSaturating calls)
    (model : String) (counter : Counter) (token : counter.isToken = true) :
    ((run calls).agent agentCodex).partCounter (fun bucket => bucket.model = model) counter =
      ((firstKind (eventsOf model (calls.flatMap Call.steps))).map fun event =>
        event.stats.counter counter).sum := by
  have tracks := codexTracks_run _ exactCounts
  rw [run_eq, tracks.represents.partCounter]
  exact booksOf_tokens _ model token

theorem Aggregator.codex_first_source_completion :
    ((run [(completionMessage "c" "gpt-5" 7).call, (codexTokenMessage "gpt-5" 5).call]).agent
      agentCodex).partCounter (fun bucket => bucket.model = "gpt-5") .inputTokens = 7 := by
  have counts : NonSaturating
      [(completionMessage "c" "gpt-5" 7).call, (codexTokenMessage "gpt-5" 5).call] := by
    intro counter
    cases counter <;> decide +kernel
  refine (codex_first_source _ counts "gpt-5" .inputTokens rfl).trans ?_
  decide +kernel

end OtelLogger
