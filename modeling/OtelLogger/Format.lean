import OtelLogger.Otlp
import OtelLogger.UsageStats
import Std.Data.ExtTreeMap

/-!
The human-readable output: records and usage summaries as lines of text, in color or without.
The messages here have the fields that the output shows.
-/

namespace OtelLogger.Format

open Std (ExtTreeMap)

/-! ### Messages -/

structure InstrumentationScope where
  name : String

structure SpanEvent where
  timeUnixNano : ℕ
  name : String
  attributes : List KeyValue

structure Status where
  code : ℤ

structure Span where
  traceId : List UInt8
  spanId : List UInt8
  name : String
  startTimeUnixNano : ℕ
  endTimeUnixNano : ℕ
  attributes : List KeyValue
  events : List SpanEvent
  status : Option Status

structure ScopeSpans where
  scope : Option InstrumentationScope
  spans : List Span

structure ResourceSpans where
  resource : Option Resource
  scopeSpans : List ScopeSpans

structure NumberDataPoint where
  attributes : List KeyValue
  value : Option NumberValue

structure HistogramDataPoint where
  count : ℕ
  sum : Option F64

/-- Exponential histograms and summaries are shown by the number of their points. -/
inductive MetricData where
  | sum (dataPoints : List NumberDataPoint)
  | gauge (dataPoints : List NumberDataPoint)
  | histogram (dataPoints : List HistogramDataPoint)
  | exponentialHistogram (dataPoints : ℕ)
  | summary (dataPoints : ℕ)

structure Metric where
  name : String
  description : String
  unit : String
  data : Option MetricData

structure ScopeMetrics where
  scope : Option InstrumentationScope
  metrics : List Metric

structure ResourceMetrics where
  resource : Option Resource
  scopeMetrics : List ScopeMetrics

structure LogRecord where
  timeUnixNano : ℕ
  severityNumber : ℤ
  severityText : String
  body : Option AnyValue
  attributes : List KeyValue

structure ScopeLogs where
  scope : Option InstrumentationScope
  logRecords : List LogRecord

structure ResourceLogs where
  resource : Option Resource
  scopeLogs : List ScopeLogs

inductive TelemetryRecord where
  | traces (resourceSpans : List ResourceSpans)
  | metrics (resourceMetrics : List ResourceMetrics)
  | logs (resourceLogs : List ResourceLogs)

structure ModelStats where
  requestCount : ℕ
  inputTokens : ℕ
  outputTokens : ℕ
  cacheReadTokens : ℕ
  cacheCreationTokens : ℕ
  reasoningOutputTokens : ℕ
  costUsd : F64
  durationMs : ℕ

structure BucketStats where
  provider : String
  model : String
  effort : String
  stats : ModelStats

structure AgentStats where
  total : ModelStats
  buckets : ExtTreeMap String BucketStats

structure UsageSnapshot where
  startedAt : String
  agents : ExtTreeMap String AgentStats

/-! ### Escaping -/

def needsEscape (c : Char) : Bool :=
  let code := c.toNat
  code < 0x20 || code = 0x7f || (0x80 ≤ code && code ≤ 0x9f) ||
    (code = 0x061c || code = 0x200e || code = 0x200f || (0x202a ≤ code && code ≤ 0x202e) ||
      (0x2066 ≤ code && code ≤ 0x2069))

/-- `{:x}` of a number, with zeros in front up to the width. -/
def lowerHex (width number : ℕ) : List Char :=
  let digits := Nat.toDigits 16 number
  List.replicate (width - digits.length) '0' ++ digits

def escapeForPretty (c : Char) : List Char :=
  if c = '\\' then ['\\', '\\']
  else if c = '"' then ['\\', '"']
  else if c = '\n' then ['\\', 'n']
  else if c = '\r' then ['\\', 'r']
  else if c = '\t' then ['\\', 't']
  else if needsEscape c then ['\\', 'u', '\x7b'] ++ lowerHex 4 c.toNat ++ ['\x7d']
  else [c]

def needsQuote (s : String) : Bool :=
  s.isEmpty || s.toList.any fun c => c = ' ' || c = '"' || c = '=' || needsEscape c

def quoteForPretty (s : String) : String :=
  if needsQuote s then String.ofList ('"' :: s.toList.flatMap escapeForPretty ++ ['"']) else s

def Clean (text : String) : Prop :=
  ∀ c ∈ text.toList, needsEscape c = false

/-- How the standard library and the `time` crate print numbers and timestamps: `fixed` has a
number of decimals, and `timestamp` is RFC 3339 for seconds and nanoseconds, within its range. -/
structure Display where
  unsigned : ℕ → String
  signed : ℤ → String
  double : F64 → String
  fixed : ℕ → F64 → String
  timestamp : ℤ → ℕ → Option String
  uppercase : String → String
  unsigned_clean : ∀ number, Clean (unsigned number)
  signed_clean : ∀ number, Clean (signed number)
  double_clean : ∀ number, Clean (double number)
  fixed_clean : ∀ decimals number, Clean (fixed decimals number)
  timestamp_clean : ∀ seconds nanos text, timestamp seconds nanos = some text → Clean text

/-! ### Values -/

def join (separator : String) : List String → String
  | [] => ""
  | [part] => part
  | part :: rest => part ++ separator ++ join separator rest

def concat : List String → String
  | [] => ""
  | part :: rest => part ++ concat rest

def writeln (parts : List String) : String :=
  concat parts ++ "\n"

def hex (bytes : List UInt8) : String :=
  String.ofList (bytes.flatMap fun byte => lowerHex 2 byte.toNat)

def hexId (bytes : List UInt8) : String :=
  if bytes.isEmpty then "-" else hex bytes

section Values

variable (display : Display)

def boolText (value : Bool) : String :=
  if value then "true" else "false"

mutual

def prettyAnyValue : AnyValue → String
  | ⟨some value⟩ => prettyValue value
  | ⟨none⟩ => quoteForPretty ""

def prettyValue : OtlpValue → String
  | .stringValue text => quoteForPretty text
  | .arrayValue values => "[" ++ join ", " (prettyAnyValues values) ++ "]"
  | .kvlistValue values => "\x7b" ++ join ", " (formatParts values) ++ "\x7d"
  | .boolValue value => boolText value
  | .intValue value => display.signed value
  | .doubleValue value => display.double value
  | .bytesValue value => "0x" ++ hex value
  | .stringValueStrindex _ => quoteForPretty ""

def prettyAnyValues : List AnyValue → List String
  | [] => []
  | value :: rest => prettyAnyValue value :: prettyAnyValues rest

def formatPart : KeyValue → String
  | ⟨key, some value⟩ => quoteForPretty key ++ "=" ++ prettyAnyValue value
  | ⟨key, none⟩ => quoteForPretty key ++ "=" ++ quoteForPretty ""

def formatParts : List KeyValue → List String
  | [] => []
  | kv :: rest => formatPart kv :: formatParts rest

end

def formatAttrs (attrs : List KeyValue) : String :=
  "\x7b" ++ join ", " (formatParts display attrs) ++ "\x7d"

mutual

def anyValueToString : AnyValue → String
  | ⟨some value⟩ => valueToString value
  | ⟨none⟩ => ""

def valueToString : OtlpValue → String
  | .stringValue text => text
  | .boolValue value => boolText value
  | .intValue value => display.signed value
  | .doubleValue value => display.double value
  | .bytesValue value => "0x" ++ hex value
  | .arrayValue values => "[" ++ join ", " (anyValuesToString values) ++ "]"
  | .kvlistValue values => formatAttrs display values
  | .stringValueStrindex _ => ""

def anyValuesToString : List AnyValue → List String
  | [] => []
  | value :: rest => anyValueToString value :: anyValuesToString rest

end

def serviceName (attrs : Option (List KeyValue)) : String :=
  ((attrs.bind fun kvs => (kvs.find? fun kv => kv.key = "service.name").bind KeyValue.value).map
    (anyValueToString display)).getD "unknown"

def numberText : Option NumberValue → String
  | some (.asDouble value) => display.double value
  | some (.asInt value) => display.signed value
  | none => "?"

def formatNumberPoint (point : NumberDataPoint) : String :=
  let value := numberText display point.value
  if point.attributes.isEmpty then value
  else value ++ " " ++ formatAttrs display point.attributes

def formatUnixNanos (nanos : ℕ) : String :=
  if nanos = 0 then "-"
  else
    let secs : ℤ := (nanos / 1000000000 : ℕ)
    let sub := nanos % 1000000000
    (display.timestamp secs sub).getD (display.unsigned nanos)

/-- `ns as f64` over the nanoseconds of a unit: both steps round. -/
def inUnit (nanos unit : ℕ) : F64 :=
  match F64.ofRat nanos with
  | .finite value => F64.ofRat (value / unit)
  | other => other

def formatDurationNs (ns : ℕ) : String :=
  if ns = 0 then "0ns"
  else if ns < 1000 then display.unsigned ns ++ "ns"
  else if ns < 999995 then display.fixed 2 (inUnit ns 1000) ++ "µs"
  else if ns < 999995000 then display.fixed 2 (inUnit ns 1000000) ++ "ms"
  else display.fixed 3 (inUnit ns 1000000000) ++ "s"

/-- `<` on doubles: nothing is below or above NaN. -/
def lessThan : F64 → F64 → Bool
  | .nan, _ => false
  | _, .nan => false
  | .infinite negative, .infinite other => negative && !other
  | .infinite negative, .finite _ => negative
  | .finite _, .infinite negative => !negative
  | .finite left, .finite right => left < right

def formatCost (cost : F64) : String :=
  if cost = .finite 0 then "$0"
  else if lessThan cost (F64.ofRat (1 / 100)) then "$" ++ display.fixed 6 cost
  else "$" ++ display.fixed 4 cost

def severityLabel (number : ℤ) (text : String) : String :=
  if text.isEmpty = false then display.uppercase text
  else if 1 ≤ number ∧ number ≤ 4 then "TRACE"
  else if 5 ≤ number ∧ number ≤ 8 then "DEBUG"
  else if 9 ≤ number ∧ number ≤ 12 then "INFO"
  else if 13 ≤ number ∧ number ≤ 16 then "WARN"
  else if 17 ≤ number ∧ number ≤ 20 then "ERROR"
  else if 21 ≤ number ∧ number ≤ 24 then "FATAL"
  else "UNSPECIFIED"

end Values

/-! ### Color -/

def reset : String := "\x1b[0m"
def dimCode : String := "\x1b[2m"
def boldCode : String := "\x1b[1m"
def red : String := "\x1b[31m"
def green : String := "\x1b[32m"
def yellow : String := "\x1b[33m"
def blue : String := "\x1b[34m"
def magenta : String := "\x1b[35m"
def cyan : String := "\x1b[36m"

structure Painter where
  color : Bool

namespace Painter

variable (p : Painter)

def paint (code text : String) : String :=
  if p.color then code ++ text ++ reset else text

def dim (text : String) : String :=
  p.paint dimCode text

def bold (text : String) : String :=
  p.paint boldCode text

end Painter

/-! ### Records -/

section Records

variable (display : Display) (p : Painter)

def scopeName (scope : Option InstrumentationScope) : String :=
  (scope.map InstrumentationScope.name).getD ""

def statusPainted (status : Option Status) : String :=
  match (status.map Status.code).getD 0 with
  | 1 => p.paint green "OK"
  | 2 => p.paint red "ERROR"
  | _ => p.dim "UNSET"

def renderAttrs (attributes : List KeyValue) : String :=
  if attributes.isEmpty then ""
  else writeln ["        ", p.dim "attrs:", " ", formatAttrs display attributes]

def renderEvent (ev : SpanEvent) : String :=
  writeln ["        ", p.dim ("event @" ++ formatUnixNanos display ev.timeUnixNano), " ",
    p.bold (quoteForPretty ev.name), " ", formatAttrs display ev.attributes]

def renderSpan (service scope : String) (span : Span) : String :=
  let durNs := span.endTimeUnixNano - span.startTimeUnixNano
  writeln [p.paint magenta "[trace]", " ",
      p.dim (formatUnixNanos display span.startTimeUnixNano),
      " service=", p.bold (quoteForPretty service), " scope=", quoteForPretty scope,
      " span=", p.bold (quoteForPretty span.name), " dur=", formatDurationNs display durNs,
      " status=", statusPainted p span.status, " trace=", hexId span.traceId,
      " span_id=", hexId span.spanId] ++
    renderAttrs display p span.attributes ++
    concat (span.events.map (renderEvent display p))

def renderTraces (resourceSpans : List ResourceSpans) : String :=
  concat (resourceSpans.map fun group =>
    let service := serviceName display (group.resource.map Resource.attributes)
    concat (group.scopeSpans.map fun scopeSpans =>
      concat (scopeSpans.spans.map (renderSpan display p service (scopeName scopeSpans.scope)))))

def histogramPoint (point : HistogramDataPoint) : String :=
  "count=" ++ display.unsigned point.count ++ " sum=" ++ (point.sum.map display.double).getD ""

def metricSummary : Option MetricData → String
  | some (.sum points) => "sum=[" ++ join ", " (points.map (formatNumberPoint display)) ++ "]"
  | some (.gauge points) => "gauge=[" ++ join ", " (points.map (formatNumberPoint display)) ++ "]"
  | some (.histogram points) => "hist=[" ++ join ", " (points.map (histogramPoint display)) ++ "]"
  | some (.exponentialHistogram points) => "exp_hist=points=" ++ display.unsigned points
  | some (.summary points) => "summary=points=" ++ display.unsigned points
  | none => "no_data"

def renderMetric (service scope : String) (metric : Metric) : String :=
  let unit := if metric.unit.isEmpty then "" else " unit=" ++ quoteForPretty metric.unit
  let desc := if metric.description.isEmpty then ""
    else p.dim ("(" ++ quoteForPretty metric.description ++ ")")
  writeln [p.paint cyan "[metric]", " service=", p.bold (quoteForPretty service),
    " scope=", quoteForPretty scope, " name=", p.bold (quoteForPretty metric.name), unit, " ",
    metricSummary display metric.data, " ", desc]

def renderMetrics (resourceMetrics : List ResourceMetrics) : String :=
  concat (resourceMetrics.map fun group =>
    let service := serviceName display (group.resource.map Resource.attributes)
    concat (group.scopeMetrics.map fun scopeMetrics =>
      concat (scopeMetrics.metrics.map (renderMetric display p service (scopeName scopeMetrics.scope)))))

def paintSeverity (severity : String) : String :=
  let escaped := quoteForPretty severity
  match severity with
  | "ERROR" | "FATAL" => p.paint red escaped
  | "WARN" => p.paint yellow escaped
  | "INFO" => p.paint green escaped
  | "DEBUG" => p.paint blue escaped
  | "TRACE" => p.paint magenta escaped
  | _ => escaped

def logBody (body : Option AnyValue) : String :=
  (body.map (prettyAnyValue display)).getD (quoteForPretty "")

def renderLog (service scope : String) (log : LogRecord) : String :=
  let severity := severityLabel display log.severityNumber log.severityText
  writeln [p.paint yellow "[log]", " ", p.dim (formatUnixNanos display log.timeUnixNano),
      " service=", p.bold (quoteForPretty service), " scope=", quoteForPretty scope,
      " severity=", paintSeverity p severity, " body=", logBody display log.body] ++
    renderAttrs display p log.attributes

def renderLogs (resourceLogs : List ResourceLogs) : String :=
  concat (resourceLogs.map fun group =>
    let service := serviceName display (group.resource.map Resource.attributes)
    concat (group.scopeLogs.map fun scopeLogs =>
      concat (scopeLogs.logRecords.map (renderLog display p service (scopeName scopeLogs.scope)))))

end Records

def render (display : Display) (record : TelemetryRecord) (color : Bool) : String :=
  let p : Painter := { color }
  match record with
  | .traces resourceSpans => renderTraces display p resourceSpans
  | .metrics resourceMetrics => renderMetrics display p resourceMetrics
  | .logs resourceLogs => renderLogs display p resourceLogs

/-! ### Usage summaries -/

section Summary

variable (display : Display) (p : Painter)

/-- `duration_ms.saturating_mul(1_000_000)` -/
def durationNs (stats : ModelStats) : ℕ :=
  min (stats.durationMs * 1000000) u64Max

/-- The counters that a line about an agent and one about a bucket share. -/
def statsParts (requests : String) (stats : ModelStats) : List String :=
  ["requests=", requests, " input=", display.unsigned stats.inputTokens,
    " output=", display.unsigned stats.outputTokens,
    " cache_read=", display.unsigned stats.cacheReadTokens,
    " cache_create=", display.unsigned stats.cacheCreationTokens,
    " reasoning=", display.unsigned stats.reasoningOutputTokens,
    " cost=", formatCost display stats.costUsd,
    " duration=", formatDurationNs display (durationNs stats)]

def renderBucket (bucket : BucketStats) : String :=
  writeln (["        ", p.dim "breakdown", " provider=", p.bold (quoteForPretty bucket.provider),
      " model=", p.bold (quoteForPretty bucket.model),
      " effort=", p.bold (quoteForPretty bucket.effort), ": "] ++
    statsParts display (display.unsigned bucket.stats.requestCount) bucket.stats)

def renderAgent (startedAt agent : String) (stats : AgentStats) : String :=
  writeln ([p.paint cyan ("[stats:" ++ quoteForPretty agent ++ "]"), " "] ++
      statsParts display (p.bold (display.unsigned stats.total.requestCount)) stats.total ++
      [" since=", p.dim startedAt]) ++
    concat (stats.buckets.toList.map fun (_, bucket) => renderBucket display p bucket)

def renderSummary (snapshot : UsageSnapshot) (color : Bool) : String :=
  let p : Painter := { color }
  if snapshot.agents.isEmpty then ""
  else concat (snapshot.agents.toList.map fun (agent, stats) =>
    renderAgent display p snapshot.startedAt agent stats)

end Summary

end OtelLogger.Format
