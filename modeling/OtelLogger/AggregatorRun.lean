import OtelLogger.AggregatorCore

/-!
The three ingest entry points and runs of them. A request is worth the messages it contains,
one after another: ingesting calls is processing the messages of the calls in order.
-/

namespace OtelLogger

/-! ### Entry points -/

def ingestConversationStarts (service : String) (g : AggregatorInner) (log : LogRecord) :
    AggregatorInner × ℕ :=
  match extractCodexConversationStarts log with
  | none => (g, 0)
  | some session =>
      let (updated, moved) := updateCodexSession g service session
      (updated, if moved then 1 else 0)

def addPending (g : AggregatorInner) (id : Option String) (bucket : Bucket) (stats : ModelStats) :
    AggregatorInner :=
  match id with
  | none => g
  | some id =>
      let perBucket := g.codexPendingSse[id]?.getD ∅
      { g with
        codexPendingSse := g.codexPendingSse.insert id (addAmount perBucket bucket stats) }

def ingestSseCompletion (service : String) (g : AggregatorInner) (log : LogRecord) :
    AggregatorInner × ℕ :=
  match extractCodexSseResponseCompleted g service log with
  | none => (g, 0)
  | some parsed =>
      let sourceKey := codexTokenSourceKey parsed.bucket.model
      if g.codexTokenSources[sourceKey]? = some .metrics then (g, 0)
      else
        let recorded := recordInto g agentCodex parsed.bucket parsed.stats
        let pending := addPending recorded parsed.pendingConversationId parsed.bucket parsed.stats
        ({ pending with
            codexTokenSources := pending.codexTokenSources.insert sourceKey .logs }, 1)

def ingestClaudeLog (g : AggregatorInner) (bucket : Bucket) (requestStats usageStats : ModelStats) :
    AggregatorInner :=
  recordClaudeLogUsage (recordInto g agentClaude bucket requestStats) bucket usageStats

def ingestCodexLog (service : String) (g : AggregatorInner) (log : LogRecord) :
    AggregatorInner × ℕ :=
  if isCodexService service then
    let started := ingestConversationStarts service g log
    let completed := ingestSseCompletion service started.1 log
    (completed.1, started.2 + completed.2)
  else (g, 0)

def ingestLogRecord (service : String) (g : AggregatorInner) (log : LogRecord) :
    AggregatorInner × ℕ :=
  if service = serviceClaude then
    match extractClaudeApiRequestMeta g log with
    | some (bucket, requestStats, usageStats) =>
        (ingestClaudeLog g bucket requestStats usageStats, 1)
    | none => ingestCodexLog service g log
  else ingestCodexLog service g log

def ingestLogs (g : AggregatorInner) (req : ExportLogsServiceRequest) : AggregatorInner × ℕ :=
  forEach (fun g (resourceLogs : ResourceLogs) =>
    let service := serviceName resourceLogs.resource
    forEach (fun g (scopeLogs : ScopeLogs) =>
      forEach (ingestLogRecord service) g scopeLogs.logRecords) g resourceLogs.scopeLogs)
    g req.resourceLogs

def ingestSpanEvent (service : String) (g : AggregatorInner) (event : SpanEvent) :
    AggregatorInner × ℕ :=
  if otelEventMatches event.name event.attributes conversationStarts then
    match extractSessionFromAttrs event.attributes with
    | none => (g, 0)
    | some session =>
        let (updated, moved) := updateCodexSession g service session
        (updated, if moved then 1 else 0)
  else (g, 0)

def ingestRequestSpan (service : String) (g : AggregatorInner) (name : String)
    (attrs : List KeyValue) : AggregatorInner × ℕ :=
  if name = "handle_responses" then
    let (updated, moved) := updateCodexEffortFromRequestAttrs g service attrs
    (updated, if moved then 1 else 0)
  else (g, 0)

def ingestSpan (service : String) (g : AggregatorInner) (span : Span) : AggregatorInner × ℕ :=
  let afterEvents := forEach (ingestSpanEvent service) g span.events
  let afterSpan := ingestRequestSpan service afterEvents.1 span.name span.attributes
  (afterSpan.1, afterEvents.2 + afterSpan.2)

def ingestTraces (g : AggregatorInner) (req : ExportTraceServiceRequest) : AggregatorInner × ℕ :=
  if req.resourceSpans.any fun rs => isCodexService (serviceName rs.resource) then
    forEach (fun g (resourceSpans : ResourceSpans) =>
      let service := serviceName resourceSpans.resource
      if isCodexService service then
        forEach (fun g (scopeSpans : ScopeSpans) =>
          forEach (ingestSpan service) g scopeSpans.spans) g resourceSpans.scopeSpans
      else (g, 0)) g req.resourceSpans
  else (g, 0)

def ingestMetric (service : String) (g : AggregatorInner) (metric : Metric) : AggregatorInner × ℕ :=
  if service = serviceClaude then
    match metric.name with
    | "claude_code.token.usage" => ingestClaudeToken g metric
    | "claude_code.cost.usage" => ingestClaudeCost g metric
    | _ => (g, 0)
  else if isCodexService service then
    match metric.name with
    | "codex.turn.token_usage" => ingestCodexToken g service metric
    | "codex.conversation.turn.count" => ingestCodexTurnCount g service metric
    | "codex.turn.e2e_duration_ms" => ingestCodexDuration g service metric
    | _ => (g, 0)
  else (g, 0)

def ingestMetrics (g : AggregatorInner) (req : ExportMetricsServiceRequest) :
    AggregatorInner × ℕ :=
  forEach (fun g (resourceMetrics : ResourceMetrics) =>
    let service := serviceName resourceMetrics.resource
    forEach (fun g (scopeMetrics : ScopeMetrics) =>
      forEach (ingestMetric service) g scopeMetrics.metrics) g resourceMetrics.scopeMetrics)
    g req.resourceMetrics

inductive Call where
  | logs (req : ExportLogsServiceRequest)
  | traces (req : ExportTraceServiceRequest)
  | metrics (req : ExportMetricsServiceRequest)

namespace Aggregator

def ingest (g : AggregatorInner) : Call → AggregatorInner × ℕ
  | .logs req => ingestLogs g req
  | .traces req => ingestTraces g req
  | .metrics req => ingestMetrics g req

def run (calls : List Call) : AggregatorInner :=
  calls.foldl (fun g call => (ingest g call).1) new

end Aggregator

/-! ### Messages -/

/-- The smallest parts of a request that are processed on their own. A number or histogram
point stands for one data point of a metric of that name and temporality. -/
inductive Message where
  | log (service : String) (log : LogRecord)
  | spanEvent (service : String) (event : SpanEvent)
  | requestSpan (service name : String) (attrs : List KeyValue)
  | numberPoint (service metric : String) (temporality : ℤ) (dp : NumberDataPoint)
  | histogramPoint (service metric : String) (temporality : ℤ) (dp : HistogramDataPoint)

namespace Message

def process (g : AggregatorInner) : Message → AggregatorInner × ℕ
  | .log service record => ingestLogRecord service g record
  | .spanEvent service event =>
      if isCodexService service then ingestSpanEvent service g event else (g, 0)
  | .requestSpan service name attrs =>
      if isCodexService service then ingestRequestSpan service g name attrs else (g, 0)
  | .numberPoint service metric temporality dp =>
      ingestMetric service g { name := metric, data := some (.sum [dp] temporality) }
  | .histogramPoint service metric temporality dp =>
      ingestMetric service g { name := metric, data := some (.histogram [dp] temporality) }

end Message

def Span.messages (service : String) (span : Span) : List Message :=
  span.events.map (Message.spanEvent service) ++
    [Message.requestSpan service span.name span.attributes]

def Metric.messages (service : String) (metric : Metric) : List Message :=
  match metric.data with
  | some (.sum dataPoints temporality) =>
      dataPoints.map (Message.numberPoint service metric.name temporality)
  | some (.histogram dataPoints temporality) =>
      dataPoints.map (Message.histogramPoint service metric.name temporality)
  | _ => []

def Call.messages : Call → List Message
  | .logs req => req.resourceLogs.flatMap fun resourceLogs =>
      resourceLogs.scopeLogs.flatMap fun scopeLogs =>
        scopeLogs.logRecords.map (Message.log (serviceName resourceLogs.resource))
  | .traces req => req.resourceSpans.flatMap fun resourceSpans =>
      resourceSpans.scopeSpans.flatMap fun scopeSpans =>
        scopeSpans.spans.flatMap (Span.messages (serviceName resourceSpans.resource))
  | .metrics req => req.resourceMetrics.flatMap fun resourceMetrics =>
      resourceMetrics.scopeMetrics.flatMap fun scopeMetrics =>
        scopeMetrics.metrics.flatMap (Metric.messages (serviceName resourceMetrics.resource))

def processAll (g : AggregatorInner) (messages : List Message) : AggregatorInner × ℕ :=
  forEach Message.process g messages

section ForEach

variable {σ α β : Type*}

@[simp] theorem forEach_nil (body : σ → α → σ × ℕ) (g : σ) : forEach body g [] = (g, 0) := rfl

theorem forEach_cons (body : σ → α → σ × ℕ) (g : σ) (item : α) (rest : List α) :
    forEach body g (item :: rest) =
      ((forEach body (body g item).1 rest).1,
        (body g item).2 + (forEach body (body g item).1 rest).2) := by
  have shift (items : List α) : ∀ (start : σ) (count extra : ℕ),
      items.foldl (fun (reached : σ × ℕ) item =>
          ((body reached.1 item).1, reached.2 + (body reached.1 item).2)) (start, extra + count) =
        ((items.foldl (fun (reached : σ × ℕ) item =>
          ((body reached.1 item).1, reached.2 + (body reached.1 item).2)) (start, count)).1,
          extra + (items.foldl (fun (reached : σ × ℕ) item =>
          ((body reached.1 item).1, reached.2 + (body reached.1 item).2)) (start, count)).2) := by
    induction items with
    | nil => intro start count extra; rfl
    | cons first others ih =>
        intro start count extra
        simp only [List.foldl_cons, Nat.add_assoc]
        exact ih _ _ _
  have moved := shift rest (body g item).1 0 (body g item).2
  simpa [forEach] using moved

theorem forEach_append (body : σ → α → σ × ℕ) (g : σ) (first second : List α) :
    forEach body g (first ++ second) =
      ((forEach body (forEach body g first).1 second).1,
        (forEach body g first).2 + (forEach body (forEach body g first).1 second).2) := by
  induction first generalizing g with
  | nil => simp
  | cons item rest ih =>
      simp only [List.cons_append, forEach_cons, ih, Nat.add_assoc]

theorem forEach_flatMap (inner : σ → β → σ × ℕ) (items : α → List β) (body : σ → α → σ × ℕ)
    (unfolds : ∀ g item, body g item = forEach inner g (items item)) (g : σ) (outer : List α) :
    forEach body g outer = forEach inner g (outer.flatMap items) := by
  induction outer generalizing g with
  | nil => rfl
  | cons item rest ih =>
      rw [forEach_cons, List.flatMap_cons, forEach_append, unfolds, ih]

theorem forEach_map (inner : σ → β → σ × ℕ) (item : α → β) (body : σ → α → σ × ℕ)
    (unfolds : ∀ g a, body g a = inner g (item a)) (g : σ) (outer : List α) :
    forEach body g outer = forEach inner g (outer.map item) := by
  induction outer generalizing g with
  | nil => rfl
  | cons first rest ih =>
      rw [forEach_cons, List.map_cons, forEach_cons, unfolds, ih]

theorem forEach_singleton (body : σ → α → σ × ℕ) (g : σ) (item : α) :
    forEach body g [item] = body g item := by
  simp [forEach_cons]

theorem forEach_invariant {body : σ → α → σ × ℕ} {invariant : σ → Prop} {items : List α}
    (kept : ∀ g item, item ∈ items → invariant g → invariant (body g item).1) (g : σ)
    (initial : invariant g) : invariant (forEach body g items).1 := by
  induction items generalizing g with
  | nil => exact initial
  | cons item rest ih =>
      rw [forEach_cons]
      exact ih (fun state other member => kept state other (List.mem_cons_of_mem _ member))
        _ (kept g item List.mem_cons_self initial)

theorem forEach_inert {body : σ → α → σ × ℕ} {items : List α}
    (quiet : ∀ item ∈ items, ∀ g, body g item = (g, 0)) (g : σ) :
    forEach body g items = (g, 0) := by
  induction items with
  | nil => rfl
  | cons item rest ih =>
      have later := ih fun next member => quiet next (List.mem_cons_of_mem _ member)
      simp [forEach_cons, quiet item List.mem_cons_self, later]

end ForEach

/-! ### A call is worth its messages -/

theorem ingestLogs_eq (g : AggregatorInner) (req : ExportLogsServiceRequest) :
    ingestLogs g req = processAll g (Call.logs req).messages := by
  apply forEach_flatMap
  intro g resourceLogs
  apply forEach_flatMap
  intro g scopeLogs
  exact forEach_map Message.process (Message.log _) _ (fun _ _ => rfl) g scopeLogs.logRecords

theorem ingestSpan_eq (service : String) (codex : isCodexService service = true)
    (g : AggregatorInner) (span : Span) :
    ingestSpan service g span = processAll g (span.messages service) := by
  have events : forEach (ingestSpanEvent service) g span.events =
      processAll g (span.events.map (Message.spanEvent service)) :=
    forEach_map _ _ _ (fun _ _ => by simp [Message.process, codex]) g span.events
  simp only [ingestSpan, events, Span.messages, processAll, forEach_append, forEach_singleton,
    Message.process, codex, if_true]

theorem processAll_other_service {service : String} (other : isCodexService service = false)
    (g : AggregatorInner) (spans : List Span) :
    processAll g (spans.flatMap (Span.messages service)) = (g, 0) := by
  apply forEach_inert
  intro message member g
  simp only [List.mem_flatMap, Span.messages, List.mem_append, List.mem_map,
    List.mem_singleton] at member
  obtain ⟨span, _, ⟨event, _, rfl⟩ | rfl⟩ := member <;> simp [Message.process, other]

theorem ingestTraces_eq (g : AggregatorInner) (req : ExportTraceServiceRequest) :
    ingestTraces g req = processAll g (Call.traces req).messages := by
  have loop : forEach (fun g (resourceSpans : ResourceSpans) =>
      let service := serviceName resourceSpans.resource
      if isCodexService service then
        forEach (fun g (scopeSpans : ScopeSpans) =>
          forEach (ingestSpan service) g scopeSpans.spans) g resourceSpans.scopeSpans
      else (g, 0)) g req.resourceSpans = processAll g (Call.traces req).messages := by
    apply forEach_flatMap
    intro g resourceSpans
    dsimp only
    split
    · rename_i codex
      apply forEach_flatMap
      intro g scopeSpans
      exact forEach_flatMap _ _ _ (ingestSpan_eq _ codex) g scopeSpans.spans
    · rename_i other
      rw [← List.flatMap_assoc]
      exact (processAll_other_service (by simpa using other) g _).symm
  unfold ingestTraces
  split
  · exact loop
  · rename_i quiet
    rw [← loop]
    symm
    apply forEach_inert
    intro resourceSpans member g
    have other : ¬isCodexService (serviceName resourceSpans.resource) = true := fun codex =>
      quiet (List.any_eq_true.mpr ⟨resourceSpans, member, codex⟩)
    exact if_neg other

theorem exists_pointwise_inert {σ α : Type*} :
    ∃ pointwise : σ → α → σ × ℕ, ∀ g items, (g, 0) = forEach pointwise g items :=
  ⟨fun g _ => (g, 0), fun g _ => (forEach_inert (fun _ _ _ => rfl) g).symm⟩

theorem exists_pointwise {σ α : Type*} (enabled : Bool) (body : σ → α → σ × ℕ) :
    ∃ pointwise : σ → α → σ × ℕ, ∀ g items,
      (if enabled then forEach body g items else (g, 0)) = forEach pointwise g items := by
  cases enabled with
  | true => exact ⟨body, fun _ _ => rfl⟩
  | false => exact exists_pointwise_inert

theorem ingestMetric_sum (service name : String) (temporality : ℤ) :
    ∃ pointwise : AggregatorInner → NumberDataPoint → AggregatorInner × ℕ, ∀ g dataPoints,
      ingestMetric service g { name := name, data := some (.sum dataPoints temporality) } =
        forEach pointwise g dataPoints := by
  simp only [ingestMetric]
  split
  · split
    · exact exists_pointwise (isDeltaTemporality temporality) ingestClaudeTokenPoint
    · exact exists_pointwise (isDeltaTemporality temporality) ingestClaudeCostPoint
    · exact exists_pointwise_inert
  · split
    · split
      · exact exists_pointwise_inert
      · exact exists_pointwise (isDeltaTemporality temporality) (ingestCodexTurnCountPoint service)
      · exact exists_pointwise_inert
      · exact exists_pointwise_inert
    · exact exists_pointwise_inert

theorem ingestMetric_histogram (service name : String) (temporality : ℤ) :
    ∃ pointwise : AggregatorInner → HistogramDataPoint → AggregatorInner × ℕ, ∀ g dataPoints,
      ingestMetric service g { name := name, data := some (.histogram dataPoints temporality) } =
        forEach pointwise g dataPoints := by
  simp only [ingestMetric]
  split
  · split <;> exact exists_pointwise_inert
  · split
    · split
      · exact exists_pointwise (isDeltaTemporality temporality) (ingestCodexTokenPoint service)
      · exact exists_pointwise_inert
      · exact exists_pointwise (isDeltaTemporality temporality) (ingestCodexDurationPoint service)
      · exact exists_pointwise_inert
    · exact exists_pointwise_inert

theorem ingestMetric_without_points (service : String) (g : AggregatorInner) (name : String)
    (data : Option MetricData) (empty : data = none ∨ data = some .other) :
    ingestMetric service g { name := name, data := data } = (g, 0) := by
  simp only [ingestMetric]
  rcases empty with rfl | rfl
  all_goals
    split
    · split <;> rfl
    · split
      · split <;> rfl
      · rfl

theorem ingestMetric_eq (service : String) (g : AggregatorInner) (metric : Metric) :
    ingestMetric service g metric = processAll g (metric.messages service) := by
  obtain ⟨name, data⟩ := metric
  rcases data with _ | ⟨dataPoints, temporality⟩ | ⟨dataPoints, temporality⟩ | _
  · exact ingestMetric_without_points service g name none (Or.inl rfl)
  · obtain ⟨body, pointwise⟩ := ingestMetric_sum service name temporality
    rw [pointwise]
    refine forEach_map Message.process _ body (fun g dp => ?_) g dataPoints
    rw [Message.process, pointwise, forEach_singleton]
  · obtain ⟨body, pointwise⟩ := ingestMetric_histogram service name temporality
    rw [pointwise]
    refine forEach_map Message.process _ body (fun g dp => ?_) g dataPoints
    rw [Message.process, pointwise, forEach_singleton]
  · exact ingestMetric_without_points service g name (some .other) (Or.inr rfl)

theorem ingestMetrics_eq (g : AggregatorInner) (req : ExportMetricsServiceRequest) :
    ingestMetrics g req = processAll g (Call.metrics req).messages := by
  apply forEach_flatMap
  intro g resourceMetrics
  apply forEach_flatMap
  intro g scopeMetrics
  exact forEach_flatMap _ _ _ (ingestMetric_eq _) g scopeMetrics.metrics

theorem Aggregator.ingest_eq (g : AggregatorInner) (call : Call) :
    Aggregator.ingest g call = processAll g call.messages := by
  cases call with
  | logs req => exact ingestLogs_eq g req
  | traces req => exact ingestTraces_eq g req
  | metrics req => exact ingestMetrics_eq g req

namespace Aggregator

def runMessages (messages : List Message) : AggregatorInner :=
  (processAll new messages).1

theorem runMessages_append (first second : List Message) :
    runMessages (first ++ second) = (processAll (runMessages first) second).1 := by
  simp only [runMessages, processAll, forEach_append]

theorem runMessages_concat (messages : List Message) (message : Message) :
    runMessages (messages ++ [message]) = (message.process (runMessages messages)).1 := by
  rw [runMessages_append, processAll, forEach_singleton]

theorem run_eq_runMessages (calls : List Call) :
    run calls = runMessages (calls.flatMap Call.messages) := by
  induction calls using List.reverseRecOn with
  | nil => rfl
  | append_singleton calls call ih =>
      rw [run, List.foldl_append, List.flatMap_append, runMessages_append, ← ih]
      simp [run, ingest_eq]

end Aggregator

end OtelLogger
