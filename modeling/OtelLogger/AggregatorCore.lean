import OtelLogger.Otlp
import OtelLogger.Buckets

/-!
The usage aggregator: its state and every operation on it. State is passed explicitly, and an
operation that reports how often it changed the totals returns that number beside the state.
Hash maps and hash sets are ordered maps here; only `sumPendingForBucket` walks one, and its
result does not depend on the order.
-/

namespace OtelLogger

open Std (ExtTreeMap TransOrd LawfulEqOrd TransCmp)

def agentClaude : String := "claude-code"
def agentCodex : String := "codex"
def serviceClaude : String := "claude-code"
def serviceCodexTui : String := "codex_cli_rs"
def serviceCodexExec : String := "codex_exec"
def serviceCodexAppServer : String := "codex-app-server"
def serviceCodexMcpServer : String := "codex_mcp_server"
def serviceCodexDesktop : String := "Codex Desktop"
def serviceCodexExecServer : String := "codex-exec-server"
def providerAnthropic : String := "anthropic"
def providerOpenai : String := "OpenAI"

def isCodexService (service : String) : Bool :=
  service = serviceCodexTui || service = serviceCodexExec || service = serviceCodexAppServer ||
    service = serviceCodexMcpServer || service = serviceCodexDesktop ||
    service = serviceCodexExecServer

structure CodexSession where
  conversationId : String
  provider : String
  model : String
  effort : String
  /-- Whether `provider` was carried by a message, not just assumed. -/
  providerConfirmed : Bool
  deriving DecidableEq

inductive CodexTokenSource where
  | logs
  | metrics
  deriving DecidableEq

@[ext]
structure ClaudeUsageKey where
  model : String
  effort : String
  deriving DecidableEq

namespace ClaudeUsageKey

def components (key : ClaudeUsageKey) : List String :=
  [key.model, key.effort]

theorem components_injective : Function.Injective components := by
  intro first second same
  simp only [components, List.cons.injEq, and_true] at same
  exact ClaudeUsageKey.ext same.1 same.2

instance : Ord ClaudeUsageKey where
  compare first second := compare first.components second.components

instance : TransOrd ClaudeUsageKey :=
  inferInstanceAs (TransCmp (compareOn components))

instance : LawfulEqOrd ClaudeUsageKey where
  eq_of_compare same := components_injective (Std.compare_eq_iff_eq.mp same)

end ClaudeUsageKey

inductive ClaudeUsageSource where
  | logs
  | metrics
  deriving DecidableEq

structure AggregatorInner where
  agents : ExtTreeMap String AgentStats := ∅
  claudeCanonicalModels : ExtTreeMap String String := ∅
  claudeMetricModels : ExtTreeMap String Unit := ∅
  claudeUsageSources : ExtTreeMap ClaudeUsageKey ClaudeUsageSource := ∅
  claudeMetricUsage : ExtTreeMap ClaudeUsageKey (ExtTreeMap Bucket ModelStats) := ∅
  codexLastSessions : ExtTreeMap String CodexSession := ∅
  codexSessions : ExtTreeMap String CodexSession := ∅
  codexTokenSources : ExtTreeMap String CodexTokenSource := ∅
  codexPendingSse : ExtTreeMap String (ExtTreeMap Bucket ModelStats) := ∅

namespace Aggregator

def new : AggregatorInner := {}

end Aggregator

def forEach {σ α : Type*} (body : σ → α → σ × ℕ) (g : σ) (items : List α) : σ × ℕ :=
  items.foldl (fun reached item =>
    let next := body reached.1 item
    (next.1, reached.2 + next.2)) (g, 0)

/-! ### Counting -/

namespace AgentStats

def addEntry (buckets : ExtTreeMap String BucketStats) (bucket : Bucket)
    (stats : ModelStats) : ExtTreeMap String BucketStats :=
  let entry := buckets[bucket.key]?.getD (BucketStats.fromBucket bucket)
  buckets.insert bucket.key { entry with stats := entry.stats.add stats }

/-- Takes `stats` out of one entry, and the entry out of the map once it holds nothing. -/
def subtractEntry (buckets : ExtTreeMap String BucketStats) (bucket : Bucket)
    (stats : ModelStats) : ExtTreeMap String BucketStats :=
  match buckets[bucket.key]? with
  | none => buckets
  | some entry =>
      let rest := entry.stats.subtract stats
      if rest.hasAnyValue then buckets.insert bucket.key { entry with stats := rest }
      else buckets.erase bucket.key

def recordInto (agentStats : AgentStats) (bucket : Bucket) (stats : ModelStats) : AgentStats :=
  { total := agentStats.total.add stats
    buckets := addEntry agentStats.buckets bucket stats }

def subtractFrom (agentStats : AgentStats) (bucket : Bucket) (stats : ModelStats) : AgentStats :=
  { total := agentStats.total.subtract stats
    buckets := subtractEntry agentStats.buckets bucket stats }

def moveBucketStats (agentStats : AgentStats) (source target : Bucket) (stats : ModelStats) :
    AgentStats :=
  { agentStats with
    buckets := addEntry (subtractEntry agentStats.buckets source stats) target stats }

end AgentStats

def recordInto (g : AggregatorInner) (agent : String) (bucket : Bucket) (stats : ModelStats) :
    AggregatorInner :=
  let agentStats := g.agents[agent]?.getD default
  { g with agents := g.agents.insert agent (agentStats.recordInto bucket stats) }

def subtractFrom (g : AggregatorInner) (agent : String) (bucket : Bucket) (stats : ModelStats) :
    AggregatorInner :=
  match g.agents[agent]? with
  | none => g
  | some agentStats =>
      { g with agents := g.agents.insert agent (agentStats.subtractFrom bucket stats) }

/-! ### Claude -/

/-- The text before the first `[` of a model name. -/
def bareModel (model : String) : String :=
  String.ofList (model.toList.takeWhile (· ≠ '['))

def claudeUsageSourceKey (model effort : String) : ClaudeUsageKey where
  model := nonEmpty (bareModel model)
  effort := nonEmpty effort

def Bucket.usageKey (bucket : Bucket) : ClaudeUsageKey :=
  claudeUsageSourceKey bucket.model bucket.effort

def cancelMetricUsage (g : AggregatorInner) (perBucket : List (Bucket × ModelStats)) :
    AggregatorInner :=
  perBucket.foldl (fun g entry => subtractFrom g agentClaude entry.1 entry.2) g

def recordClaudeLogUsage (g : AggregatorInner) (bucket : Bucket) (stats : ModelStats) :
    AggregatorInner :=
  if stats.hasUsage then
    let sourceKey := bucket.usageKey
    let cancelled :=
      if g.claudeUsageSources[sourceKey]? = some .metrics then
        match g.claudeMetricUsage[sourceKey]? with
        | none => g
        | some perBucket =>
            cancelMetricUsage { g with claudeMetricUsage := g.claudeMetricUsage.erase sourceKey }
              perBucket.toList
      else g
    let recorded := recordInto cancelled agentClaude bucket stats
    { recorded with
      claudeUsageSources := recorded.claudeUsageSources.insert sourceKey .logs }
  else g

def addAmount (amounts : ExtTreeMap Bucket ModelStats) (bucket : Bucket) (stats : ModelStats) :
    ExtTreeMap Bucket ModelStats :=
  amounts.insert bucket ((amounts[bucket]?.getD {}).add stats)

def recordClaudeMetricUsage (g : AggregatorInner) (bucket : Bucket) (stats : ModelStats) :
    AggregatorInner × ℕ :=
  if stats.hasUsage then
    let sourceKey := bucket.usageKey
    if g.claudeUsageSources[sourceKey]? = some .logs then (g, 0)
    else
      let recorded := recordInto g agentClaude bucket stats
      let perBucket := recorded.claudeMetricUsage[sourceKey]?.getD ∅
      ({ recorded with
          claudeUsageSources := recorded.claudeUsageSources.insert sourceKey .metrics
          claudeMetricUsage :=
            recorded.claudeMetricUsage.insert sourceKey (addAmount perBucket bucket stats) }, 1)
  else (g, 0)

/-- Folds the buckets of a bare model name into those of its full name. The keys that start
with the escaped provider and bare name follow each other in the map. -/
def mergeBareIntoFull (agentStats : AgentStats) (bare full : String) : AgentStats :=
  let start := escapeBucketComponent providerAnthropic ++ "/" ++ escapeBucketComponent bare ++ "/"
  let bareKeys :=
    ((agentStats.buckets.keys.filter fun key => compare start key ≠ .gt).takeWhile fun key =>
      start.toList.isPrefixOf key.toList)
  { agentStats with
    buckets := bareKeys.foldl (fun buckets bareKey =>
      match buckets[bareKey]? with
      | none => buckets
      | some bareStats =>
          let fullBucket := Bucket.fromParts bareStats.provider full bareStats.effort
          AgentStats.addEntry (buckets.erase bareKey) fullBucket bareStats.stats)
      agentStats.buckets }

def registerCanonicalClaudeModel (g : AggregatorInner) (full : String) : AggregatorInner :=
  let registered :=
    if full = "" then g
    else { g with claudeMetricModels := g.claudeMetricModels.insert full () }
  let bare := bareModel full
  if bare = "" ∨ bare = full then
    if full = "" then registered
    else
      { registered with
        claudeCanonicalModels := registered.claudeCanonicalModels.insertIfNew full full }
  else if registered.claudeMetricModels.contains bare then registered
  else if registered.claudeCanonicalModels[bare]? = some full then registered
  else
    { registered with
      claudeCanonicalModels := registered.claudeCanonicalModels.insert bare full
      agents :=
        match registered.agents[agentClaude]? with
        | none => registered.agents
        | some agentStats =>
            registered.agents.insert agentClaude (mergeBareIntoFull agentStats bare full) }

def canonicalClaudeModel (g : AggregatorInner) (raw : String) : String :=
  if g.claudeMetricModels.contains raw then raw else g.claudeCanonicalModels[raw]?.getD raw

/-- The request and usage samples of an API request log; they do not depend on the state. -/
def claudeApiRequestStats (log : LogRecord) : Option (ModelStats × ModelStats) :=
  match log.body.bind AnyValue.value with
  | some (.stringValue body) =>
      if body = "claude_code.api_request" then
        some
          ({ requestCount := 1
             durationMs := ((intAttr log.attributes "duration_ms").getD 0).toNat },
           { inputTokens := u64Attr log.attributes "input_tokens"
             outputTokens := u64Attr log.attributes "output_tokens"
             cacheReadTokens := u64Attr log.attributes "cache_read_tokens"
             cacheCreationTokens := u64Attr log.attributes "cache_creation_tokens"
             costUsd := ((f64Attr log.attributes "cost_usd").getD 0).toNNRat })
      else none
  | _ => none

def extractClaudeApiRequestMeta (g : AggregatorInner) (log : LogRecord) :
    Option (Bucket × ModelStats × ModelStats) :=
  (claudeApiRequestStats log).map fun samples =>
    let rawModel := (stringAttr log.attributes "model").getD ""
    let model := canonicalClaudeModel g rawModel
    let effort := (stringAttr log.attributes "effort").getD ""
    (Bucket.fromParts providerAnthropic model effort, samples.1, samples.2)

/-- The model name of a metric data point as its bucket spells it, registered as one that
metrics report. -/
def claudeMetricModel (g : AggregatorInner) (attrs : List KeyValue) : AggregatorInner × String :=
  let model := nonEmpty ((stringAttr attrs "model").getD "")
  (registerCanonicalClaudeModel g model, model)

def deltaTemporality : ℤ := 1

/-- Cumulative, unspecified and unknown temporalities are dropped. -/
def isDeltaTemporality (temporality : ℤ) : Bool :=
  temporality = deltaTemporality

def claudeTokenStats (dp : NumberDataPoint) : Option ModelStats :=
  let value := numberValueAsU64 dp
  match (stringAttr dp.attributes "type").getD "" with
  | "input" => some { inputTokens := value }
  | "output" => some { outputTokens := value }
  | "cacheRead" => some { cacheReadTokens := value }
  | "cacheCreation" => some { cacheCreationTokens := value }
  | _ => none

def claudeMetricBucket (attrs : List KeyValue) (model : String) : Bucket :=
  Bucket.fromParts providerAnthropic model ((stringAttr attrs "effort").getD "")

/-- A data point of an unknown type still registers its model name. -/
def ingestClaudeTokenPoint (g : AggregatorInner) (dp : NumberDataPoint) : AggregatorInner × ℕ :=
  let (g, model) := claudeMetricModel g dp.attributes
  match claudeTokenStats dp with
  | none => (g, 0)
  | some stats => recordClaudeMetricUsage g (claudeMetricBucket dp.attributes model) stats

def ingestClaudeToken (g : AggregatorInner) (metric : Metric) : AggregatorInner × ℕ :=
  match metric.data with
  | some (.sum dataPoints temporality) =>
      if isDeltaTemporality temporality then forEach ingestClaudeTokenPoint g dataPoints
      else (g, 0)
  | _ => (g, 0)

def claudeCostStats (dp : NumberDataPoint) : ModelStats :=
  { costUsd := numberValueAsF64 dp }

def ingestClaudeCostPoint (g : AggregatorInner) (dp : NumberDataPoint) : AggregatorInner × ℕ :=
  let (g, model) := claudeMetricModel g dp.attributes
  recordClaudeMetricUsage g (claudeMetricBucket dp.attributes model) (claudeCostStats dp)

def ingestClaudeCost (g : AggregatorInner) (metric : Metric) : AggregatorInner × ℕ :=
  match metric.data with
  | some (.sum dataPoints temporality) =>
      if isDeltaTemporality temporality then forEach ingestClaudeCostPoint g dataPoints
      else (g, 0)
  | _ => (g, 0)

/-! ### Codex -/

def codexLastSession (g : AggregatorInner) (service : String) : Option CodexSession :=
  g.codexLastSessions[service]?

def codexProviderFromSession (session : Option CodexSession) : String :=
  (session.map CodexSession.provider).getD providerOpenai

def codexEffortFromSession (session : Option CodexSession) : String :=
  (session.map CodexSession.effort).getD ""

def codexProvider (g : AggregatorInner) (service : String) : String :=
  codexProviderFromSession (codexLastSession g service)

def codexEffort (g : AggregatorInner) (service : String) : String :=
  codexEffortFromSession (codexLastSession g service)

def conversationId (attrs : List KeyValue) : Option String :=
  (stringAttr attrs "conversation.id").filter (· ≠ "")

def codexTokenSourceKey (model : String) : String :=
  nonEmpty model

def otelEventMatches (name : String) (attrs : List KeyValue) (expected : String) : Bool :=
  name = expected || stringAttr attrs "event.name" = some expected

def providerAttr (attrs : List KeyValue) : Option String :=
  (stringAttr attrs "provider_name").filter (· ≠ "")

def extractSessionFromAttrs (attrs : List KeyValue) : Option CodexSession :=
  let id := (stringAttr attrs "conversation.id").getD ""
  let model := (stringAttr attrs "model").getD ""
  let effort := (stringAttr attrs "reasoning_effort").getD ""
  if id = "" ∧ model = "" ∧ effort = "" then none
  else
    some
      { conversationId := id
        provider := (providerAttr attrs).getD providerOpenai
        model := model
        effort := effort
        providerConfirmed := (providerAttr attrs).isSome }

def conversationStarts : String := "codex.conversation_starts"

def extractCodexConversationStarts (log : LogRecord) : Option CodexSession :=
  let bodyMatches :=
    match log.body.bind AnyValue.value with
    | some (.stringValue body) => body = conversationStarts
    | _ => false
  if bodyMatches || otelEventMatches log.eventName log.attributes conversationStarts then
    extractSessionFromAttrs log.attributes
  else none

/-- The usage of an SSE completion; tool-only and empty completions carry none. It does not
depend on the state. -/
def codexSseStats (attrs : List KeyValue) : Option ModelStats :=
  if stringAttr attrs "event.name" ≠ some "codex.sse_event" ∨
      stringAttr attrs "event.kind" ≠ some "response.completed" then none
  else
    let inputTokens := u64Attr attrs "input_token_count"
    let outputTokens := u64Attr attrs "output_token_count"
    let cacheReadTokens := u64Attr attrs "cached_token_count"
    let cacheWriteTokens := u64Attr attrs "cache_write_token_count"
    let reasoningOutputTokens := u64Attr attrs "reasoning_token_count"
    let toolTokens := u64Attr attrs "tool_token_count"
    if inputTokens ≠ 0 ∧ inputTokens = toolTokens ∧ outputTokens = 0 ∧ cacheReadTokens = 0 ∧
        cacheWriteTokens = 0 ∧ reasoningOutputTokens = 0 then none
    else if inputTokens = 0 ∧ outputTokens = 0 ∧ cacheReadTokens = 0 ∧ cacheWriteTokens = 0 ∧
        reasoningOutputTokens = 0 then none
    else
      some
        { inputTokens := inputTokens
          outputTokens := outputTokens
          cacheReadTokens := cacheReadTokens
          cacheCreationTokens := cacheWriteTokens
          reasoningOutputTokens := reasoningOutputTokens }

structure CodexSseExtraction where
  bucket : Bucket
  stats : ModelStats
  pendingConversationId : Option String

/-- The session an SSE completion is attributed to: its own conversation's, and the last one of
the service only when it carries no `conversation.id`. -/
def codexSseSession (g : AggregatorInner) (service : String) (attrs : List KeyValue) :
    Option CodexSession :=
  match conversationId attrs with
  | some id => g.codexSessions[id]?
  | none => codexLastSession g service

def codexSseBucket (session : Option CodexSession) (attrs : List KeyValue) : Bucket :=
  let model :=
    (((stringAttr attrs "model").filter (· ≠ "")).or
      (((stringAttr attrs "slug").filter (· ≠ "")).or (session.map CodexSession.model))).getD ""
  let effort :=
    ((stringAttr attrs "model_reasoning_effort").filter (· ≠ "")).getD
      (codexEffortFromSession session)
  Bucket.fromParts (codexProviderFromSession session) model effort

def providerUnconfirmed (session : Option CodexSession) : Bool :=
  match session with
  | none => true
  | some s => !s.providerConfirmed

def extractCodexSseResponseCompleted (g : AggregatorInner) (service : String) (log : LogRecord) :
    Option CodexSseExtraction :=
  (codexSseStats log.attributes).map fun stats =>
    let session := codexSseSession g service log.attributes
    let bucket := codexSseBucket session log.attributes
    { bucket := bucket
      stats := stats
      pendingConversationId :=
        if providerUnconfirmed session ∨ bucket.effort = unknown then
          conversationId log.attributes
        else none }

def moveCodexBucketStats (g : AggregatorInner) (source target : Bucket) (stats : ModelStats) :
    AggregatorInner :=
  match g.agents[agentCodex]? with
  | none => g
  | some agentStats =>
      { g with
        agents := g.agents.insert agentCodex (agentStats.moveBucketStats source target stats) }

def sumPendingForBucket (g : AggregatorInner) (bucket : Bucket) : ModelStats :=
  g.codexPendingSse.toList.foldl (fun total entry =>
    match entry.2[bucket]? with
    | none => total
    | some stats => total.add stats) {}

/-- Where pending usage of a conversation belongs under its session: the usage keeps its own
model and, when known, its own effort. -/
def pendingDestination (provider effort : String) (source : Bucket) : Bucket :=
  let resolvedEffort := if source.effort = unknown then nonEmpty effort else source.effort
  Bucket.fromParts provider source.model resolvedEffort

structure PendingMerge where
  g : AggregatorInner
  kept : ExtTreeMap Bucket ModelStats
  movedAny : Bool

def mergePendingEntry (provider effort : String) (providerConfirmed : Bool) (merge : PendingMerge)
    (entry : Bucket × ModelStats) : PendingMerge :=
  let target := pendingDestination provider effort entry.1
  let kept :=
    if !providerConfirmed || target.effort = unknown then addAmount merge.kept target entry.2
    else merge.kept
  if entry.1 ≠ target then
    { g := moveCodexBucketStats merge.g entry.1 target entry.2, kept := kept, movedAny := true }
  else { merge with kept := kept }

def mergeConversationPending (g : AggregatorInner) (provider id effort : String)
    (providerConfirmed : Bool) : AggregatorInner × Bool :=
  match g.codexPendingSse[id]? with
  | none => (g, false)
  | some entries =>
      let merge := entries.toList.foldl (mergePendingEntry provider effort providerConfirmed)
        { g := { g with codexPendingSse := g.codexPendingSse.erase id }
          kept := ∅
          movedAny := false }
      if merge.kept.isEmpty then (merge.g, merge.movedAny)
      else
        ({ merge.g with codexPendingSse := merge.g.codexPendingSse.insert id merge.kept },
          merge.movedAny)

/-- Old telemetry without a `conversation.id`: everything in the unknown-effort bucket that is
not pending for some conversation moves to the effort's bucket. -/
def mergeLegacyUnknown (g : AggregatorInner) (provider model effort : String) :
    AggregatorInner × Bool :=
  if model = "" ∨ effort = "" ∨ effort = unknown then (g, false)
  else
    let source := Bucket.fromParts provider model unknown
    let target := Bucket.fromParts provider model effort
    if source = target then (g, false)
    else
      match g.agents[agentCodex]?.bind fun agentStats => agentStats.buckets[source.key]? with
      | none => (g, false)
      | some sourceStats =>
          let movable := sourceStats.stats.saturatingSubStats (sumPendingForBucket g source)
          if movable.hasAnyValue then (moveCodexBucketStats g source target movable, true)
          else (g, false)

def mergeCodexPendingSse (g : AggregatorInner) (provider model id effort : String)
    (providerConfirmed : Bool) : AggregatorInner × Bool :=
  if id ≠ "" then mergeConversationPending g provider id effort providerConfirmed
  else mergeLegacyUnknown g provider model effort

/-- A new session keeps what the previous one of its conversation knew and it does not. -/
def completeSession (previous : Option CodexSession) (session : CodexSession) : CodexSession :=
  match previous with
  | none => session
  | some prev =>
      { session with
        model := if session.model = "" then prev.model else session.model
        effort := if session.effort = "" then prev.effort else session.effort
        provider :=
          if !session.providerConfirmed && prev.providerConfirmed then prev.provider
          else session.provider
        providerConfirmed := session.providerConfirmed || prev.providerConfirmed }

def updateCodexSessionWithLast (g : AggregatorInner) (service : String) (session : CodexSession)
    (updateLast : Bool) : AggregatorInner × Bool :=
  let session :=
    if session.conversationId ≠ "" then
      completeSession g.codexSessions[session.conversationId]? session
    else session
  let stored :=
    if session.conversationId ≠ "" then
      { g with codexSessions := g.codexSessions.insert session.conversationId session }
    else g
  let remembered :=
    if updateLast then
      { stored with codexLastSessions := stored.codexLastSessions.insert service session }
    else stored
  mergeCodexPendingSse remembered session.provider session.model session.conversationId
    session.effort session.providerConfirmed

def updateCodexSession (g : AggregatorInner) (service : String) (session : CodexSession) :
    AggregatorInner × Bool :=
  updateCodexSessionWithLast g service session true

def updateCodexLastEffort (g : AggregatorInner) (service effort : String) :
    AggregatorInner × Bool :=
  let last := (codexLastSession g service).getD
    { conversationId := "", provider := providerOpenai, model := "", effort := "",
      providerConfirmed := false }
  if last.effort = effort then (g, false)
  else
    let last := { last with effort := effort }
    let remembered := { g with codexLastSessions := g.codexLastSessions.insert service last }
    if last.conversationId = "" then
      mergeCodexPendingSse remembered last.provider last.model "" effort last.providerConfirmed
    else (remembered, false)

def spanSession (g : AggregatorInner) (id effort : String) (attrs : List KeyValue) :
    CodexSession :=
  match g.codexSessions[id]? with
  | some session => { session with effort := effort }
  | none =>
      { conversationId := id
        provider := providerOpenai
        model := (stringAttr attrs "model").getD ""
        effort := effort
        providerConfirmed := false }

def requestEffort (attrs : List KeyValue) : Option String :=
  (stringAttr attrs "codex.request.reasoning_effort").filter (· ≠ "")

def updateCodexEffortFromRequestAttrs (g : AggregatorInner) (service : String)
    (attrs : List KeyValue) : AggregatorInner × Bool :=
  match requestEffort attrs with
  | none => (g, false)
  | some effort =>
      match conversationId attrs with
      | none => updateCodexLastEffort g service effort
      | some id =>
          let session := spanSession g id effort attrs
          let updateLast :=
            match codexLastSession g service with
            | none => true
            | some last => last.conversationId = session.conversationId
          updateCodexSessionWithLast g service session updateLast

def codexMetricModel (attrs : List KeyValue) : String :=
  (stringAttr attrs "model").getD ""

def codexMetricBucket (g : AggregatorInner) (service : String) (attrs : List KeyValue) : Bucket :=
  Bucket.fromParts (codexProvider g service) (codexMetricModel attrs) (codexEffort g service)

/-- `total` overlaps the other token types and is not counted. -/
def codexTokenStats (dp : HistogramDataPoint) : Option ModelStats :=
  let value := histogramSumAsU64 dp
  match (stringAttr dp.attributes "token_type").getD "" with
  | "input" => some { inputTokens := value }
  | "output" => some { outputTokens := value }
  | "cached_input" => some { cacheReadTokens := value }
  | "cache_write_input" => some { cacheCreationTokens := value }
  | "reasoning_output" => some { reasoningOutputTokens := value }
  | _ => none

/-- A zero value neither makes a bucket nor fixes the token source of its model. -/
def ingestCodexTokenPoint (service : String) (g : AggregatorInner) (dp : HistogramDataPoint) :
    AggregatorInner × ℕ :=
  let sourceKey := codexTokenSourceKey (codexMetricModel dp.attributes)
  if g.codexTokenSources[sourceKey]? = some .logs then (g, 0)
  else
    match codexTokenStats dp with
    | none => (g, 0)
    | some stats =>
        if histogramSumAsU64 dp = 0 then (g, 0)
        else
          let recorded := recordInto g agentCodex (codexMetricBucket g service dp.attributes) stats
          ({ recorded with
              codexTokenSources := recorded.codexTokenSources.insert sourceKey .metrics }, 1)

def ingestCodexToken (g : AggregatorInner) (service : String) (metric : Metric) :
    AggregatorInner × ℕ :=
  match metric.data with
  | some (.histogram dataPoints temporality) =>
      if isDeltaTemporality temporality then forEach (ingestCodexTokenPoint service) g dataPoints
      else (g, 0)
  | _ => (g, 0)

/-- Counts one turn metric; a zero value makes no bucket. -/
def recordCodexTurn (service : String) (attrs : List KeyValue) (value : ℕ) (stats : ModelStats)
    (g : AggregatorInner) : AggregatorInner × ℕ :=
  if value = 0 then (g, 0)
  else (recordInto g agentCodex (codexMetricBucket g service attrs) stats, 1)

def ingestCodexTurnCountPoint (service : String) (g : AggregatorInner) (dp : NumberDataPoint) :
    AggregatorInner × ℕ :=
  let requestCount := numberValueAsU64 dp
  recordCodexTurn service dp.attributes requestCount { requestCount := requestCount } g

def ingestCodexTurnCount (g : AggregatorInner) (service : String) (metric : Metric) :
    AggregatorInner × ℕ :=
  match metric.data with
  | some (.sum dataPoints temporality) =>
      if isDeltaTemporality temporality then
        forEach (ingestCodexTurnCountPoint service) g dataPoints
      else (g, 0)
  | _ => (g, 0)

def ingestCodexDurationPoint (service : String) (g : AggregatorInner) (dp : HistogramDataPoint) :
    AggregatorInner × ℕ :=
  let durationMs := histogramSumAsU64 dp
  recordCodexTurn service dp.attributes durationMs { durationMs := durationMs } g

def ingestCodexDuration (g : AggregatorInner) (service : String) (metric : Metric) :
    AggregatorInner × ℕ :=
  match metric.data with
  | some (.histogram dataPoints temporality) =>
      if isDeltaTemporality temporality then
        forEach (ingestCodexDurationPoint service) g dataPoints
      else (g, 0)
  | _ => (g, 0)

end OtelLogger
