import OtelLogger.Number

/-!
The parts of the OTLP messages that the usage aggregator reads, and its attribute accessors.
Every accessor looks at the first attribute of a key and at no other.
-/

namespace OtelLogger

mutual

structure AnyValue where
  value : Option OtlpValue

inductive OtlpValue where
  | stringValue (value : String)
  | boolValue (value : Bool)
  | intValue (value : ℤ)
  | doubleValue (value : F64)
  | arrayValue (values : List AnyValue)
  | kvlistValue (values : List KeyValue)
  | bytesValue (value : List UInt8)
  | stringValueStrindex (index : ℤ)

structure KeyValue where
  key : String
  value : Option AnyValue

end

structure Resource where
  attributes : List KeyValue

structure LogRecord where
  body : Option AnyValue
  attributes : List KeyValue
  eventName : String

structure ScopeLogs where
  logRecords : List LogRecord

structure ResourceLogs where
  resource : Option Resource
  scopeLogs : List ScopeLogs

structure ExportLogsServiceRequest where
  resourceLogs : List ResourceLogs

structure SpanEvent where
  name : String
  attributes : List KeyValue

structure Span where
  name : String
  attributes : List KeyValue
  events : List SpanEvent

structure ScopeSpans where
  spans : List Span

structure ResourceSpans where
  resource : Option Resource
  scopeSpans : List ScopeSpans

structure ExportTraceServiceRequest where
  resourceSpans : List ResourceSpans

inductive NumberValue where
  | asDouble (value : F64)
  | asInt (value : ℤ)

structure NumberDataPoint where
  attributes : List KeyValue
  flags : UInt32
  value : Option NumberValue

structure HistogramDataPoint where
  attributes : List KeyValue
  flags : UInt32
  sum : Option F64

/-- Gauges, exponential histograms and summaries carry nothing the aggregator reads. -/
inductive MetricData where
  | sum (dataPoints : List NumberDataPoint) (aggregationTemporality : ℤ)
  | histogram (dataPoints : List HistogramDataPoint) (aggregationTemporality : ℤ)
  | other

structure Metric where
  name : String
  data : Option MetricData

structure ScopeMetrics where
  metrics : List Metric

structure ResourceMetrics where
  resource : Option Resource
  scopeMetrics : List ScopeMetrics

structure ExportMetricsServiceRequest where
  resourceMetrics : List ResourceMetrics

def attrValue (attrs : List KeyValue) (key : String) : Option OtlpValue :=
  (attrs.find? fun kv => kv.key = key).bind fun kv => kv.value.bind AnyValue.value

def stringAttr (attrs : List KeyValue) (key : String) : Option String :=
  match attrValue attrs key with
  | some (.stringValue text) => some text
  | _ => none

def serviceName (resource : Option Resource) : String :=
  match resource with
  | none => ""
  | some r => (stringAttr r.attributes "service.name").getD ""

/-- Doubles count only when finite and inside the range of `i64`; `i64::MAX as f64` is
`2 ^ 63`, so the upper bound is strict. -/
def intAttr (attrs : List KeyValue) (key : String) : Option ℤ :=
  match attrValue attrs key with
  | some (.intValue value) => some value
  | some (.doubleValue (.finite value)) =>
      if -2 ^ 63 ≤ value ∧ value < 2 ^ 63 then some (truncate value) else none
  | some (.stringValue text) => parseI64 text
  | _ => none

/-- The exact value of the finite double an attribute stands for. -/
def f64Attr (attrs : List KeyValue) (key : String) : Option ℚ :=
  match attrValue attrs key with
  | some (.doubleValue value) => value.finite?
  | some (.intValue value) => (F64.ofRat value).finite?
  | some (.stringValue text) => (parseF64 text).bind F64.finite?
  | _ => none

def u64Attr (attrs : List KeyValue) (key : String) : ℕ :=
  ((intAttr attrs key).getD 0).toNat

def noRecordedValue (flags : UInt32) : Bool :=
  flags &&& 1 ≠ 0

/-- Only non-negative values below `u64::MAX as f64`, which is `2 ^ 64`, are taken. -/
def finiteU64FromF64 (value : F64) : ℕ :=
  match value with
  | .finite exact => if 0 ≤ exact ∧ exact < 2 ^ 64 then (truncate exact).toNat else 0
  | _ => 0

def numberValueAsU64 (dp : NumberDataPoint) : ℕ :=
  if noRecordedValue dp.flags then 0
  else
    match dp.value with
    | some (.asInt value) => value.toNat
    | some (.asDouble value) => finiteU64FromF64 value
    | none => 0

/-- The non-negative cost of a data point, as an exact number. -/
def numberValueAsF64 (dp : NumberDataPoint) : ℚ≥0 :=
  if noRecordedValue dp.flags then 0
  else
    match dp.value with
    | some (.asDouble (.finite value)) => value.toNNRat
    | some (.asInt value) => (((F64.ofRat (max value 0)).finite?).getD 0).toNNRat
    | _ => 0

def histogramSumAsU64 (dp : HistogramDataPoint) : ℕ :=
  if noRecordedValue dp.flags then 0
  else
    match dp.sum with
    | some value => finiteU64FromF64 value
    | none => 0

end OtelLogger
