import OtelLogger.AggregatorRun

/-!
Every message decodes to at most two steps, whatever the state is. The steps are the operations
that the theorems about runs go through one by one: a run is a sequence of steps, and each kind
of step offers the samples that its message carries.
-/

namespace OtelLogger

inductive Step where
  | claudeLog (log : LogRecord)
  | claudeTokens (dp : NumberDataPoint)
  | claudeCost (dp : NumberDataPoint)
  | session (service : String) (session : CodexSession)
  | completion (service : String) (log : LogRecord)
  | requestSpan (service : String) (attrs : List KeyValue)
  | codexTokens (service : String) (dp : HistogramDataPoint)
  | turnCount (service : String) (dp : NumberDataPoint)
  | duration (service : String) (dp : HistogramDataPoint)

namespace Step

def ingestClaudeApiRequest (g : AggregatorInner) (log : LogRecord) : AggregatorInner × ℕ :=
  match extractClaudeApiRequestMeta g log with
  | some (bucket, requestStats, usageStats) =>
      (ingestClaudeLog g bucket requestStats usageStats, 1)
  | none => (g, 0)

def ingestSession (service : String) (g : AggregatorInner) (session : CodexSession) :
    AggregatorInner × ℕ :=
  let (updated, moved) := updateCodexSession g service session
  (updated, if moved then 1 else 0)

def apply (g : AggregatorInner) : Step → AggregatorInner × ℕ
  | claudeLog log => ingestClaudeApiRequest g log
  | claudeTokens dp => ingestClaudeTokenPoint g dp
  | claudeCost dp => ingestClaudeCostPoint g dp
  | .session service started => ingestSession service g started
  | completion service log => ingestSseCompletion service g log
  | requestSpan service attrs => ingestRequestSpan service g "handle_responses" attrs
  | codexTokens service dp => ingestCodexTokenPoint service g dp
  | turnCount service dp => ingestCodexTurnCountPoint service g dp
  | duration service dp => ingestCodexDurationPoint service g dp

/-- What a step may count at most. -/
def sample : Step → ModelStats
  | claudeLog log =>
      match claudeApiRequestStats log with
      | some (requestStats, usageStats) => requestStats + usageStats
      | none => 0
  | claudeTokens dp => (claudeTokenStats dp).getD 0
  | claudeCost dp => claudeCostStats dp
  | session _ _ => 0
  | completion _ log => (codexSseStats log.attributes).getD 0
  | requestSpan _ _ => 0
  | codexTokens _ dp => (codexTokenStats dp).getD 0
  | turnCount _ dp => { requestCount := numberValueAsU64 dp }
  | duration _ dp => { durationMs := histogramSumAsU64 dp }

end Step

def Message.steps : Message → List Step
  | .log service record =>
      if service = serviceClaude then [.claudeLog record]
      else if isCodexService service then
        (extractCodexConversationStarts record).toList.map (.session service) ++
          [.completion service record]
      else []
  | .spanEvent service event =>
      if isCodexService service &&
          otelEventMatches event.name event.attributes conversationStarts then
        (extractSessionFromAttrs event.attributes).toList.map (.session service)
      else []
  | .requestSpan service name attrs =>
      if isCodexService service && name = "handle_responses" then [.requestSpan service attrs]
      else []
  | .numberPoint service metric temporality dp =>
      if service = serviceClaude then
        match metric with
        | "claude_code.token.usage" =>
            if isDeltaTemporality temporality then [.claudeTokens dp] else []
        | "claude_code.cost.usage" =>
            if isDeltaTemporality temporality then [.claudeCost dp] else []
        | _ => []
      else if isCodexService service then
        match metric with
        | "codex.conversation.turn.count" =>
            if isDeltaTemporality temporality then [.turnCount service dp] else []
        | _ => []
      else []
  | .histogramPoint service metric temporality dp =>
      if service ≠ serviceClaude ∧ isCodexService service then
        match metric with
        | "codex.turn.token_usage" =>
            if isDeltaTemporality temporality then [.codexTokens service dp] else []
        | "codex.turn.e2e_duration_ms" =>
            if isDeltaTemporality temporality then [.duration service dp] else []
        | _ => []
      else []

def Call.steps (call : Call) : List Step :=
  call.messages.flatMap Message.steps

theorem Call.steps_flatMap (calls : List Call) :
    calls.flatMap Call.steps = (calls.flatMap Call.messages).flatMap Message.steps := by
  rw [List.flatMap_assoc]
  rfl

def applyAll (g : AggregatorInner) (steps : List Step) : AggregatorInner × ℕ :=
  forEach Step.apply g steps

theorem isCodexService_serviceClaude : isCodexService serviceClaude = false := by decide

theorem ne_serviceClaude {service : String} (codex : isCodexService service = true) :
    service ≠ serviceClaude := by
  rintro rfl
  rw [isCodexService_serviceClaude] at codex
  exact absurd codex Bool.false_ne_true

theorem Message.log_steps {service : String} (codex : isCodexService service = true)
    (record : LogRecord) : (Message.log service record).steps =
      (extractCodexConversationStarts record).toList.map (.session service) ++
        [.completion service record] := by
  simp only [Message.steps, if_neg (ne_serviceClaude codex), codex, if_true]

theorem Message.numberPoint_steps {service metric : String} {temporality : ℤ}
    {dp : NumberDataPoint} {step : Step}
    (member : step ∈ (Message.numberPoint service metric temporality dp).steps) :
    step = .claudeTokens dp ∨ step = .claudeCost dp ∨ step = .turnCount service dp := by
  simp only [Message.steps] at member
  split at member
  · split at member
    · rw [List.mem_ite_nil_right, List.mem_singleton] at member
      exact Or.inl member.2
    · rw [List.mem_ite_nil_right, List.mem_singleton] at member
      exact Or.inr (Or.inl member.2)
    · simp at member
  · split at member
    · split at member
      · rw [List.mem_ite_nil_right, List.mem_singleton] at member
        exact Or.inr (Or.inr member.2)
      · simp at member
    · simp at member

theorem Message.histogramPoint_steps {service metric : String} {temporality : ℤ}
    {dp : HistogramDataPoint} {step : Step}
    (member : step ∈ (Message.histogramPoint service metric temporality dp).steps) :
    step = .codexTokens service dp ∨ step = .duration service dp := by
  simp only [Message.steps] at member
  split at member
  · split at member
    · rw [List.mem_ite_nil_right, List.mem_singleton] at member
      exact Or.inl member.2
    · rw [List.mem_ite_nil_right, List.mem_singleton] at member
      exact Or.inr member.2
    · simp at member
  · simp at member

theorem applyAll_singleton (g : AggregatorInner) (step : Step) :
    applyAll g [step] = step.apply g :=
  forEach_singleton _ _ _

theorem applyAll_sessions (g : AggregatorInner) (service : String)
    (session : Option CodexSession) :
    applyAll g (session.toList.map (.session service)) =
      match session with
      | none => (g, 0)
      | some session => Step.ingestSession service g session := by
  cases session with
  | none => rfl
  | some started => exact applyAll_singleton g (.session service started)

theorem applyAll_if (g : AggregatorInner) (enabled : Bool) (step : Step) :
    applyAll g (if enabled then [step] else []) = if enabled then step.apply g else (g, 0) := by
  cases enabled with
  | true => exact applyAll_singleton g step
  | false => rfl

theorem ingestMetric_number (service metric : String) (temporality : ℤ) (dp : NumberDataPoint)
    (g : AggregatorInner) :
    ingestMetric service g { name := metric, data := some (.sum [dp] temporality) } =
      applyAll g (Message.numberPoint service metric temporality dp).steps := by
  simp only [ingestMetric, Message.steps]
  split
  · split
    · simp only [applyAll_if, ingestClaudeToken, forEach_singleton, Step.apply]
    · simp only [applyAll_if, ingestClaudeCost, forEach_singleton, Step.apply]
    · simp [applyAll, *]
  · split
    · split
      · simp [ingestCodexToken, applyAll]
      · simp only [applyAll_if, ingestCodexTurnCount, forEach_singleton, Step.apply]
      · simp [ingestCodexDuration, applyAll]
      · simp [applyAll, *]
    · rfl

theorem ingestMetric_histogramPoint (service metric : String) (temporality : ℤ)
    (dp : HistogramDataPoint) (g : AggregatorInner) :
    ingestMetric service g { name := metric, data := some (.histogram [dp] temporality) } =
      applyAll g (Message.histogramPoint service metric temporality dp).steps := by
  simp only [ingestMetric, Message.steps]
  split
  · rename_i claude
    simp only [claude, ne_eq, not_true_eq_false, false_and, if_false]
    split <;> rfl
  · rename_i other
    simp only [other, ne_eq, not_false_eq_true, true_and]
    split
    · split
      · simp only [applyAll_if, ingestCodexToken, forEach_singleton, Step.apply]
      · simp [ingestCodexTurnCount, applyAll]
      · simp only [applyAll_if, ingestCodexDuration, forEach_singleton, Step.apply]
      · simp [applyAll, *]
    · rfl

theorem ingestLogRecord_eq (service : String) (g : AggregatorInner) (record : LogRecord) :
    ingestLogRecord service g record = applyAll g (Message.log service record).steps := by
  simp only [ingestLogRecord, Message.steps]
  split
  · rename_i claude
    rw [applyAll_singleton]
    simp only [Step.apply, Step.ingestClaudeApiRequest]
    cases extractClaudeApiRequestMeta g record with
    | none => simp [ingestCodexLog, claude, isCodexService_serviceClaude]
    | some parsed => rfl
  · unfold ingestCodexLog
    split
    · rw [applyAll, forEach_append, forEach_singleton, ← applyAll, applyAll_sessions]
      simp only [ingestConversationStarts, Step.apply]
      cases extractCodexConversationStarts record <;> rfl
    · rfl

theorem Message.process_eq (g : AggregatorInner) (message : Message) :
    message.process g = applyAll g message.steps := by
  cases message with
  | log service record => exact ingestLogRecord_eq service g record
  | spanEvent service event =>
      simp only [Message.process, Message.steps, ingestSpanEvent]
      by_cases codex : isCodexService service = true
      · by_cases starts :
          otelEventMatches event.name event.attributes conversationStarts = true
        · simp only [codex, starts, if_true, Bool.and_self]
          rw [applyAll_sessions]
          cases extractSessionFromAttrs event.attributes <;> rfl
        · simp [codex, starts, applyAll]
      · simp [codex, applyAll]
  | requestSpan service name attrs =>
      simp only [Message.process, Message.steps]
      by_cases codex : isCodexService service = true
      · by_cases request : name = "handle_responses"
        · simp only [codex, request, if_true, decide_true, Bool.and_self, applyAll_singleton]
          rfl
        · simp [codex, request, ingestRequestSpan, applyAll]
      · simp [codex, applyAll]
  | numberPoint service metric temporality dp =>
      exact ingestMetric_number service metric temporality dp g
  | histogramPoint service metric temporality dp =>
      exact ingestMetric_histogramPoint service metric temporality dp g

theorem processAll_eq (g : AggregatorInner) (messages : List Message) :
    processAll g messages = applyAll g (messages.flatMap Message.steps) :=
  forEach_flatMap _ _ _ Message.process_eq g messages

theorem Aggregator.ingest_eq_steps (g : AggregatorInner) (call : Call) :
    Aggregator.ingest g call = applyAll g call.steps := by
  rw [Aggregator.ingest_eq, processAll_eq]
  rfl

namespace Aggregator

def runSteps (steps : List Step) : AggregatorInner :=
  (applyAll new steps).1

@[simp] theorem runSteps_nil : runSteps [] = new := rfl

theorem runSteps_concat (steps : List Step) (step : Step) :
    runSteps (steps ++ [step]) = (step.apply (runSteps steps)).1 := by
  simp only [runSteps, applyAll, forEach_append, forEach_singleton]

theorem runMessages_eq (messages : List Message) :
    runMessages messages = runSteps (messages.flatMap Message.steps) := by
  rw [runMessages, processAll_eq]
  rfl

theorem run_eq (calls : List Call) : run calls = runSteps (calls.flatMap Call.steps) := by
  rw [run_eq_runMessages, runMessages_eq, Call.steps_flatMap]

end Aggregator

/-! ### Requests of one message -/

def textAttr (key text : String) : KeyValue :=
  { key := key, value := some { value := some (.stringValue text) } }

def resourceOf (service : String) : Option Resource :=
  some { attributes := [textAttr "service.name" service] }

def integerAttr (key : String) (value : ℤ) : KeyValue :=
  { key := key, value := some { value := some (.intValue value) } }

def completionMessage (id model : String) (inputTokens : ℤ) : Message :=
  .log serviceCodexTui
    { body := none
      eventName := ""
      attributes :=
        [textAttr "event.name" "codex.sse_event", textAttr "event.kind" "response.completed",
          textAttr "conversation.id" id, textAttr "model" model,
          integerAttr "input_token_count" inputTokens] }

def startsMessage (id provider effort : String) : Message :=
  .log serviceCodexTui
    { body := none
      eventName := conversationStarts
      attributes :=
        [textAttr "conversation.id" id, textAttr "provider_name" provider,
          textAttr "reasoning_effort" effort] }

def apiRequestMessage (model : String) (inputTokens : ℤ) : Message :=
  .log serviceClaude
    { body := some { value := some (.stringValue "claude_code.api_request") }
      eventName := ""
      attributes := [textAttr "model" model, integerAttr "input_tokens" inputTokens] }

def claudeTokenMessage (model : String) (inputTokens : ℤ) : Message :=
  .numberPoint serviceClaude "claude_code.token.usage" deltaTemporality
    { attributes := [textAttr "type" "input", textAttr "model" model]
      flags := 0
      value := some (.asInt inputTokens) }

def codexTokenMessage (model : String) (inputTokens : ℚ) : Message :=
  .histogramPoint serviceCodexTui "codex.turn.token_usage" deltaTemporality
    { attributes := [textAttr "token_type" "input", textAttr "model" model]
      flags := 0
      sum := some (.finite inputTokens) }

def Message.call : Message → Call
  | .log service record => .logs
      { resourceLogs :=
          [{ resource := resourceOf service, scopeLogs := [{ logRecords := [record] }] }] }
  | .spanEvent service event => .traces
      { resourceSpans :=
          [{ resource := resourceOf service
             scopeSpans := [{ spans := [{ name := "", attributes := [], events := [event] }] }] }] }
  | .requestSpan service name attrs => .traces
      { resourceSpans :=
          [{ resource := resourceOf service
             scopeSpans := [{ spans := [{ name := name, attributes := attrs, events := [] }] }] }] }
  | .numberPoint service metric temporality dp => .metrics
      { resourceMetrics :=
          [{ resource := resourceOf service
             scopeMetrics :=
               [{ metrics := [{ name := metric, data := some (.sum [dp] temporality) }] }] }] }
  | .histogramPoint service metric temporality dp => .metrics
      { resourceMetrics :=
          [{ resource := resourceOf service
             scopeMetrics :=
               [{ metrics := [{ name := metric, data := some (.histogram [dp] temporality) }] }] }] }

theorem serviceName_resourceOf (service : String) : serviceName (resourceOf service) = service := by
  simp [serviceName, resourceOf, stringAttr, attrValue, textAttr]

theorem Message.log_call_messages (service : String) (record : LogRecord) :
    (Message.log service record).call.messages = [.log service record] := by
  simp [Message.call, Call.messages, serviceName_resourceOf]

theorem Message.call_steps (message : Message) : message.call.steps = message.steps := by
  have named (service : String) : (Message.requestSpan service "" []).steps = [] := by
    simp [Message.steps]
  cases message with
  | spanEvent service event =>
      simp only [Call.steps, Message.call, Call.messages, Span.messages, serviceName_resourceOf,
        List.flatMap_cons, List.flatMap_nil, List.append_nil, List.map_cons, List.map_nil,
        List.cons_append, List.nil_append, named]
  | _ =>
      simp [Call.steps, Message.call, Call.messages, Span.messages, Metric.messages,
        serviceName_resourceOf]

/-! ### Offered samples -/

def offered (steps : List Step) : ModelStats :=
  (steps.map Step.sample).sum

@[simp] theorem offered_nil : offered [] = 0 := rfl

theorem offered_append (first second : List Step) :
    offered (first ++ second) = offered first + offered second := by
  simp [offered]

@[simp] theorem offered_concat (steps : List Step) (step : Step) :
    offered (steps ++ [step]) = offered steps + step.sample := by
  simp [offered]

/-- No counter can saturate: the sum of all samples offered in the run is counted exactly. -/
def NonSaturating (calls : List Call) : Prop :=
  (offered (calls.flatMap Call.steps)).Fits

theorem NonSaturating.of_append {first second : List Call}
    (exact_run : NonSaturating (first ++ second)) : NonSaturating first := by
  unfold NonSaturating at exact_run
  rw [List.flatMap_append, offered_append] at exact_run
  exact exact_run.of_add

theorem NonSaturating.perm {calls other : List Call} (exact_run : NonSaturating calls)
    (reordered : (other.flatMap Call.messages).Perm (calls.flatMap Call.messages)) :
    NonSaturating other := by
  unfold NonSaturating at exact_run ⊢
  rw [Call.steps_flatMap] at exact_run ⊢
  have same := ((reordered.flatMap_right Message.steps).map Step.sample).sum_eq
  rwa [offered, same]

end OtelLogger
