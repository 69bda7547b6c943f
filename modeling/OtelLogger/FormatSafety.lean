import OtelLogger.Library.Markup
import OtelLogger.Format

/-!
What the human-readable output can contain. Every foreign text passes through `quoteForPretty`
once, so that the only control characters of an uncolored output are the ends of its lines, and
the colored output differs from it by the sequences of `Painter` alone.
-/

namespace OtelLogger.Format

/-! ### Clean texts -/

theorem listed_clean {chars : List Char} (plain : chars.all (fun c => !needsEscape c) = true)
    {c : Char} (member : c ∈ chars) : needsEscape c = false := by
  simpa using List.all_eq_true.mp plain c member

/-- For the fixed texts of the output, by evaluation. -/
theorem label_clean {chars : List Char} (plain : chars.all (fun c => !needsEscape c) = true) :
    Clean (String.ofList chars) := by
  intro c member
  rw [String.toList_ofList] at member
  exact listed_clean plain member

theorem Clean.append {first second : String} (left : Clean first) (right : Clean second) :
    Clean (first ++ second) := by
  intro c member
  rw [String.toList_append, List.mem_append] at member
  rcases member with inFirst | inSecond
  · exact left c inFirst
  · exact right c inSecond

theorem join_clean {separator : String} (between : Clean separator) {parts : List String}
    (clean : ∀ part ∈ parts, Clean part) : Clean (join separator parts) := by
  induction parts with
  | nil => exact label_clean rfl
  | cons part rest ih =>
      have first := clean part List.mem_cons_self
      have later := ih fun other member => clean other (List.mem_cons_of_mem part member)
      cases rest with
      | nil => exact first
      | cons next rest => exact (first.append between).append later

theorem digitChar_clean : ∀ digit < 16, needsEscape (Nat.digitChar digit) = false := by
  decide

/-- What holds of every digit holds of a number written in digits. -/
theorem toDigits_forall (property : Char → Prop) {base : ℕ} (atLeast : 1 < base)
    (holds : ∀ digit < base, property (Nat.digitChar digit)) (number : ℕ) :
    ∀ c ∈ Nat.toDigits base number, property c := by
  induction number using Nat.strongRecOn with
  | ind number ih =>
      intro c member
      rw [Nat.toDigits_eq_if atLeast] at member
      split at member
      · rename_i small
        rw [List.mem_singleton.mp member]
        exact holds number small
      · rename_i large
        rcases List.mem_append.mp member with high | low
        · exact ih (number / base) (Nat.div_lt_self (by omega) atLeast) c high
        · rw [List.mem_singleton.mp low]
          exact holds (number % base) (Nat.mod_lt number (by omega))

theorem lowerHex_forall (property : Char → Prop)
    (holds : ∀ digit < 16, property (Nat.digitChar digit)) (width number : ℕ) :
    ∀ c ∈ lowerHex width number, property c := by
  intro c member
  rcases List.mem_append.mp member with zero | digit
  · rw [List.eq_of_mem_replicate zero]
    exact holds 0 (by decide)
  · exact toDigits_forall property (by decide) holds number c digit

theorem escapeForPretty_clean (c : Char) :
    ∀ written ∈ escapeForPretty c, needsEscape written = false := by
  intro written member
  unfold escapeForPretty at member
  split_ifs at member with backslash quote newline carriage tab control
  · exact listed_clean rfl member
  · exact listed_clean rfl member
  · exact listed_clean rfl member
  · exact listed_clean rfl member
  · exact listed_clean rfl member
  · simp only [List.mem_append] at member
    rcases member with (opening | digits) | closing
    · exact listed_clean rfl opening
    · exact lowerHex_forall (needsEscape · = false) digitChar_clean 4 c.toNat written digits
    · exact listed_clean rfl closing
  · rw [List.mem_singleton.mp member]
    simpa using control

theorem quoteForPretty_clean (s : String) : Clean (quoteForPretty s) := by
  intro c member
  unfold quoteForPretty at member
  split at member
  · rw [String.toList_ofList, List.mem_append, List.mem_cons, List.mem_flatMap] at member
    rcases member with (opening | ⟨source, _, written⟩) | closing
    · rw [opening]
      rfl
    · exact escapeForPretty_clean source c written
    · rw [List.mem_singleton.mp closing]
      rfl
  · rename_i bare
    simp only [needsQuote, Bool.or_eq_true, not_or, List.any_eq_true] at bare
    have plain := bare.2
    cases escaped : needsEscape c with
    | false => rfl
    | true => exact absurd ⟨c, member, by simp [escaped]⟩ plain

theorem hex_clean (bytes : List UInt8) : Clean (hex bytes) := by
  intro c member
  rw [hex, String.toList_ofList, List.mem_flatMap] at member
  obtain ⟨byte, _, digit⟩ := member
  exact lowerHex_forall (needsEscape · = false) digitChar_clean 2 byte.toNat c digit

theorem hexId_clean (bytes : List UInt8) : Clean (hexId bytes) := by
  unfold hexId
  split
  · exact label_clean rfl
  · exact hex_clean bytes

theorem boolText_clean (value : Bool) : Clean (boolText value) := by
  cases value
  · exact label_clean rfl
  · exact label_clean rfl

section Values

variable (display : Display)

mutual

theorem prettyAnyValue_clean : ∀ value, Clean (prettyAnyValue display value)
  | ⟨some value⟩ => prettyValue_clean value
  | ⟨none⟩ => quoteForPretty_clean ""

theorem prettyValue_clean : ∀ value, Clean (prettyValue display value)
  | .stringValue text => quoteForPretty_clean text
  | .arrayValue values =>
      ((label_clean rfl).append (join_clean (label_clean rfl) (prettyAnyValues_clean values))).append
        (label_clean rfl)
  | .kvlistValue values =>
      ((label_clean rfl).append (join_clean (label_clean rfl) (formatParts_clean values))).append
        (label_clean rfl)
  | .boolValue value => boolText_clean value
  | .intValue value => display.signed_clean value
  | .doubleValue value => display.double_clean value
  | .bytesValue value => (label_clean rfl).append (hex_clean value)
  | .stringValueStrindex _ => quoteForPretty_clean ""

theorem prettyAnyValues_clean : ∀ values, ∀ part ∈ prettyAnyValues display values, Clean part
  | [] => by simp [prettyAnyValues]
  | value :: rest => by
      rw [prettyAnyValues, List.forall_mem_cons]
      exact ⟨prettyAnyValue_clean value, prettyAnyValues_clean rest⟩

theorem formatPart_clean : ∀ kv, Clean (formatPart display kv)
  | ⟨key, some value⟩ =>
      ((quoteForPretty_clean key).append (label_clean rfl)).append (prettyAnyValue_clean value)
  | ⟨key, none⟩ =>
      ((quoteForPretty_clean key).append (label_clean rfl)).append (quoteForPretty_clean "")

theorem formatParts_clean : ∀ attrs, ∀ part ∈ formatParts display attrs, Clean part
  | [] => by simp [formatParts]
  | kv :: rest => by
      rw [formatParts, List.forall_mem_cons]
      exact ⟨formatPart_clean kv, formatParts_clean rest⟩

end

theorem formatAttrs_clean (attrs : List KeyValue) : Clean (formatAttrs display attrs) :=
  ((label_clean rfl).append (join_clean (label_clean rfl) (formatParts_clean display attrs))).append
    (label_clean rfl)

theorem numberText_clean (value : Option NumberValue) : Clean (numberText display value) := by
  rcases value with _ | value | value
  · exact label_clean rfl
  · exact display.double_clean value
  · exact display.signed_clean value

theorem formatNumberPoint_clean (point : NumberDataPoint) :
    Clean (formatNumberPoint display point) := by
  have value := numberText_clean display point.value
  unfold formatNumberPoint
  split
  · exact value
  · exact (value.append (label_clean rfl)).append (formatAttrs_clean display point.attributes)

theorem formatUnixNanos_clean (nanos : ℕ) : Clean (formatUnixNanos display nanos) := by
  simp only [formatUnixNanos]
  split
  · exact label_clean rfl
  · cases formatted : display.timestamp ((nanos / 1000000000 : ℕ) : ℤ) (nanos % 1000000000) with
    | none => exact display.unsigned_clean nanos
    | some text => exact display.timestamp_clean _ _ text formatted

theorem formatDurationNs_clean (ns : ℕ) : Clean (formatDurationNs display ns) := by
  unfold formatDurationNs
  split_ifs with zero nanos micros millis
  · exact label_clean rfl
  · exact (display.unsigned_clean ns).append (label_clean rfl)
  · exact (display.fixed_clean 2 _).append (label_clean rfl)
  · exact (display.fixed_clean 2 _).append (label_clean rfl)
  · exact (display.fixed_clean 3 _).append (label_clean rfl)

theorem formatCost_clean (cost : F64) : Clean (formatCost display cost) := by
  unfold formatCost
  split_ifs with zero cheap
  · exact label_clean rfl
  · exact (label_clean rfl).append (display.fixed_clean 6 cost)
  · exact (label_clean rfl).append (display.fixed_clean 4 cost)

theorem histogramPoint_clean (point : HistogramDataPoint) :
    Clean (histogramPoint display point) := by
  have sum : Clean ((point.sum.map display.double).getD "") := by
    cases point.sum with
    | none => exact label_clean rfl
    | some value => exact display.double_clean value
  exact (((label_clean rfl).append (display.unsigned_clean point.count)).append
    (label_clean rfl)).append sum

theorem metricSummary_clean (data : Option MetricData) : Clean (metricSummary display data) := by
  have listed {α : Type} (text : α → String) (clean : ∀ point, Clean (text point))
      (points : List α) : Clean (join ", " (points.map text)) := by
    apply join_clean (label_clean rfl)
    intro part member
    obtain ⟨point, _, rfl⟩ := List.mem_map.mp member
    exact clean point
  match data with
  | some (.sum points) =>
      exact ((label_clean rfl).append (listed _ (formatNumberPoint_clean display) points)).append
        (label_clean rfl)
  | some (.gauge points) =>
      exact ((label_clean rfl).append (listed _ (formatNumberPoint_clean display) points)).append
        (label_clean rfl)
  | some (.histogram points) =>
      exact ((label_clean rfl).append (listed _ (histogramPoint_clean display) points)).append
        (label_clean rfl)
  | some (.exponentialHistogram points) =>
      exact (label_clean rfl).append (display.unsigned_clean points)
  | some (.summary points) => exact (label_clean rfl).append (display.unsigned_clean points)
  | none => exact label_clean rfl

end Values

/-! ### Lines -/

def codes : List String :=
  [reset, dimCode, boldCode, red, green, yellow, blue, magenta, cyan]

def sgr : Markup Char where
  lead := '\x1b'
  marks := codes.map String.toList
  led := by decide
  prefixFree := by decide

def stripSgr (text : String) : String :=
  String.ofList (sgr.erase text.toList)

/-- A colored text and the same text without color: whole lines, up to the last one. -/
structure Output (lines : ℕ) (colored plain : String) : Prop where
  reads : sgr.Reads colored.toList plain.toList
  clean : ∀ c ∈ plain.toList, needsEscape c = true → c = '\n'
  newlines : plain.toList.count '\n' = lines

namespace Output

theorem ne_lead_of_clean {c : Char} (clean : needsEscape c = false) : c ≠ sgr.lead := by
  rintro rfl
  exact absurd clean (by decide)

theorem text {written : String} (clean : Clean written) : Output 0 written written where
  reads := .text fun c member => ne_lead_of_clean (clean c member)
  clean c member escaped := absurd (clean c member) (by simp [escaped])
  newlines := by
    apply List.count_eq_zero_of_not_mem
    intro member
    exact absurd (clean '\n' member) (by decide)

theorem label {chars : List Char} (plain : chars.all (fun c => !needsEscape c) = true) :
    Output 0 (String.ofList chars) (String.ofList chars) :=
  text (label_clean plain)

theorem newline : Output 1 "\n" "\n" := by
  have chars : "\n".toList = ['\n'] := String.toList_ofList
  constructor
  · rw [chars]
    exact .text (List.forall_mem_singleton.mpr (by decide))
  · rw [chars]
    exact List.forall_mem_singleton.mpr fun _ => rfl
  · rw [chars]
    rfl

theorem append {first second : ℕ} {left leftPlain right rightPlain : String}
    (head : Output first left leftPlain) (tail : Output second right rightPlain) :
    Output (first + second) (left ++ right) (leftPlain ++ rightPlain) where
  reads := by
    simpa only [String.toList_append] using head.reads.append tail.reads
  clean c member escaped := by
    rw [String.toList_append, List.mem_append] at member
    rcases member with inHead | inTail
    · exact head.clean c inHead escaped
    · exact tail.clean c inTail escaped
  newlines := by
    rw [String.toList_append, List.count_append, head.newlines, tail.newlines]

theorem mark {code : String} (known : code ∈ codes) : Output 0 code "" where
  reads := .mark (List.mem_map_of_mem known)
  clean := by simp
  newlines := rfl

theorem paint {code written : String} (known : code ∈ codes) (clean : Clean written) :
    Output 0 (Painter.paint ⟨true⟩ code written) (Painter.paint ⟨false⟩ code written) := by
  have resets : reset ∈ codes := by simp [codes]
  have closed := ((mark known).append (text clean)).append (mark resets)
  simpa [Painter.paint] using closed

theorem dim {written : String} (clean : Clean written) :
    Output 0 (Painter.dim ⟨true⟩ written) (Painter.dim ⟨false⟩ written) :=
  paint (by simp [codes]) clean

theorem bold {written : String} (clean : Clean written) :
    Output 0 (Painter.bold ⟨true⟩ written) (Painter.bold ⟨false⟩ written) :=
  paint (by simp [codes]) clean

theorem concat_parts {colored plain : List String}
    (parts : List.Forall₂ (Output 0) colored plain) : Output 0 (concat colored) (concat plain) := by
  induction parts with
  | nil => exact label rfl
  | cons part _ ih => exact part.append ih

theorem line {colored plain : List String} (parts : List.Forall₂ (Output 0) colored plain) :
    Output 1 (writeln colored) (writeln plain) :=
  (concat_parts parts).append newline

theorem concat_map {α : Type} {lines : α → ℕ} {colored plain : α → String}
    (shown : ∀ item, Output (lines item) (colored item) (plain item)) (items : List α) :
    Output (items.map lines).sum (concat (items.map colored)) (concat (items.map plain)) := by
  induction items with
  | nil => exact label rfl
  | cons item items ih => exact (shown item).append ih

theorem stripSgr_eq {lines : ℕ} {colored plain : String} (output : Output lines colored plain) :
    stripSgr colored = plain := by
  rw [stripSgr, output.reads.erase_eq, String.ofList_toList]

end Output

/-! ### Records -/

section Records

variable (display : Display)

theorem statusPainted_output (status : Option Status) :
    Output 0 (statusPainted ⟨true⟩ status) (statusPainted ⟨false⟩ status) := by
  unfold statusPainted
  split
  · exact .paint (by simp [codes]) (label_clean rfl)
  · exact .paint (by simp [codes]) (label_clean rfl)
  · exact .dim (label_clean rfl)

def attrLines (attributes : List KeyValue) : ℕ :=
  if attributes.isEmpty then 0 else 1

theorem renderAttrs_output (attributes : List KeyValue) :
    Output (attrLines attributes) (renderAttrs display ⟨true⟩ attributes)
      (renderAttrs display ⟨false⟩ attributes) := by
  unfold attrLines renderAttrs
  split
  · exact .label rfl
  · apply Output.line
    simp only [List.forall₂_cons, List.forall₂_nil_left_iff, and_true]
    exact ⟨.label rfl, .dim (label_clean rfl), .label rfl,
      .text (formatAttrs_clean display attributes)⟩

theorem renderEvent_output (ev : SpanEvent) :
    Output 1 (renderEvent display ⟨true⟩ ev) (renderEvent display ⟨false⟩ ev) := by
  apply Output.line
  simp only [List.forall₂_cons, List.forall₂_nil_left_iff, and_true]
  exact ⟨.label rfl, .dim ((label_clean rfl).append (formatUnixNanos_clean display _)), .label rfl,
    .bold (quoteForPretty_clean ev.name), .label rfl, .text (formatAttrs_clean display _)⟩

def spanLines (span : Span) : ℕ :=
  1 + attrLines span.attributes + span.events.length

theorem renderSpan_output (service scope : String) (span : Span) :
    Output (spanLines span) (renderSpan display ⟨true⟩ service scope span)
      (renderSpan display ⟨false⟩ service scope span) := by
  have events := Output.concat_map (renderEvent_output display) span.events
  simp only [List.map_const', List.sum_replicate, smul_eq_mul, mul_one] at events
  refine (Output.append (.line ?_) (renderAttrs_output display span.attributes)).append events
  simp only [List.forall₂_cons, List.forall₂_nil_left_iff, and_true]
  exact ⟨.paint (by simp [codes]) (label_clean rfl), .label rfl,
    .dim (formatUnixNanos_clean display _), .label rfl, .bold (quoteForPretty_clean service),
    .label rfl, .text (quoteForPretty_clean scope), .label rfl,
    .bold (quoteForPretty_clean span.name), .label rfl, .text (formatDurationNs_clean display _),
    .label rfl, statusPainted_output span.status, .label rfl, .text (hexId_clean span.traceId),
    .label rfl, .text (hexId_clean span.spanId)⟩

theorem renderMetric_output (service scope : String) (metric : Metric) :
    Output 1 (renderMetric display ⟨true⟩ service scope metric)
      (renderMetric display ⟨false⟩ service scope metric) := by
  have unit : Clean (if metric.unit.isEmpty then "" else " unit=" ++ quoteForPretty metric.unit) := by
    split
    · exact label_clean rfl
    · exact (label_clean rfl).append (quoteForPretty_clean metric.unit)
  have desc : Output 0
      (if metric.description.isEmpty then ""
        else Painter.dim ⟨true⟩ ("(" ++ quoteForPretty metric.description ++ ")"))
      (if metric.description.isEmpty then ""
        else Painter.dim ⟨false⟩ ("(" ++ quoteForPretty metric.description ++ ")")) := by
    split
    · exact .label rfl
    · exact .dim (((label_clean rfl).append (quoteForPretty_clean _)).append (label_clean rfl))
  apply Output.line
  simp only [List.forall₂_cons, List.forall₂_nil_left_iff, and_true]
  exact ⟨.paint (by simp [codes]) (label_clean rfl), .label rfl,
    .bold (quoteForPretty_clean service), .label rfl, .text (quoteForPretty_clean scope),
    .label rfl, .bold (quoteForPretty_clean metric.name), .text unit, .label rfl,
    .text (metricSummary_clean display metric.data), .label rfl, desc⟩

theorem paintSeverity_output (severity : String) :
    Output 0 (paintSeverity ⟨true⟩ severity) (paintSeverity ⟨false⟩ severity) := by
  have escaped := quoteForPretty_clean severity
  unfold paintSeverity
  split
  · exact .paint (by simp [codes]) escaped
  · exact .paint (by simp [codes]) escaped
  · exact .paint (by simp [codes]) escaped
  · exact .paint (by simp [codes]) escaped
  · exact .paint (by simp [codes]) escaped
  · exact .paint (by simp [codes]) escaped
  · exact .text escaped

theorem logBody_clean (body : Option AnyValue) : Clean (logBody display body) := by
  cases body with
  | none => exact quoteForPretty_clean ""
  | some value => exact prettyAnyValue_clean display value

def logLines (log : LogRecord) : ℕ :=
  1 + attrLines log.attributes

theorem renderLog_output (service scope : String) (log : LogRecord) :
    Output (logLines log) (renderLog display ⟨true⟩ service scope log)
      (renderLog display ⟨false⟩ service scope log) := by
  refine Output.append (.line ?_) (renderAttrs_output display log.attributes)
  simp only [List.forall₂_cons, List.forall₂_nil_left_iff, and_true]
  exact ⟨.paint (by simp [codes]) (label_clean rfl), .label rfl,
    .dim (formatUnixNanos_clean display _), .label rfl, .bold (quoteForPretty_clean service),
    .label rfl, .text (quoteForPretty_clean scope), .label rfl, paintSeverity_output _, .label rfl,
    .text (logBody_clean display log.body)⟩

theorem lines_flatMap {α β γ : Type} (inner : α → List β) (items : β → List γ) (lines : γ → ℕ)
    (groups : List α) :
    (groups.map fun group => ((inner group).map fun scope => ((items scope).map lines).sum).sum).sum
      = (((groups.flatMap inner).flatMap items).map lines).sum := by
  have flat {δ ε : Type} (part : δ → List ε) (weight : ε → ℕ) (whole : List δ) :
      ((whole.flatMap part).map weight).sum
        = (whole.map fun item => ((part item).map weight).sum).sum := by
    induction whole with
    | nil => rfl
    | cons item whole ih => simp [ih]
  rw [flat items lines, flat inner]

theorem sum_attrLines {α : Type} (attributes : α → List KeyValue) (items : List α) :
    (items.map fun item => attrLines (attributes item)).sum
      = items.countP fun item => !(attributes item).isEmpty := by
  induction items with
  | nil => rfl
  | cons item items ih =>
      rw [List.map_cons, List.sum_cons, ih, List.countP_cons]
      cases empty : (attributes item).isEmpty with
      | true => simp [attrLines, empty]
      | false => simp [attrLines, empty, Nat.add_comm]

/-- One line for each span, each span with attributes and each event of a span, for each metric,
and for each log record and each log record with attributes. -/
def recordLines : TelemetryRecord → ℕ
  | .traces resourceSpans =>
      let spans := (resourceSpans.flatMap ResourceSpans.scopeSpans).flatMap ScopeSpans.spans
      spans.length + (spans.countP fun span => !span.attributes.isEmpty) +
        (spans.map fun span => span.events.length).sum
  | .metrics resourceMetrics =>
      ((resourceMetrics.flatMap ResourceMetrics.scopeMetrics).flatMap ScopeMetrics.metrics).length
  | .logs resourceLogs =>
      let logs := (resourceLogs.flatMap ResourceLogs.scopeLogs).flatMap ScopeLogs.logRecords
      logs.length + logs.countP fun log => !log.attributes.isEmpty

theorem render_output (record : TelemetryRecord) :
    Output (recordLines record) (render display record true) (render display record false) := by
  cases record with
  | traces resourceSpans =>
      have shown := Output.concat_map (fun group : ResourceSpans =>
        Output.concat_map (fun scopeSpans : ScopeSpans =>
          Output.concat_map (renderSpan_output display
            (serviceName display (group.resource.map Resource.attributes))
            (scopeName scopeSpans.scope)) scopeSpans.spans) group.scopeSpans) resourceSpans
      rw [lines_flatMap] at shown
      have counted (spans : List Span) : (spans.map spanLines).sum
          = spans.length + (spans.countP fun span => !span.attributes.isEmpty) +
            (spans.map fun span => span.events.length).sum := by
        rw [← sum_attrLines Span.attributes]
        unfold spanLines
        simp [List.sum_map_add]
      rw [counted] at shown
      exact shown
  | metrics resourceMetrics =>
      have shown := Output.concat_map (fun group : ResourceMetrics =>
        Output.concat_map (fun scopeMetrics : ScopeMetrics =>
          Output.concat_map (renderMetric_output display
            (serviceName display (group.resource.map Resource.attributes))
            (scopeName scopeMetrics.scope)) scopeMetrics.metrics) group.scopeMetrics)
        resourceMetrics
      rw [lines_flatMap, List.map_const', List.sum_replicate, smul_eq_mul, mul_one] at shown
      exact shown
  | logs resourceLogs =>
      have shown := Output.concat_map (fun group : ResourceLogs =>
        Output.concat_map (fun scopeLogs : ScopeLogs =>
          Output.concat_map (renderLog_output display
            (serviceName display (group.resource.map Resource.attributes))
            (scopeName scopeLogs.scope)) scopeLogs.logRecords) group.scopeLogs) resourceLogs
      rw [lines_flatMap] at shown
      have counted (logs : List LogRecord) : (logs.map logLines).sum
          = logs.length + logs.countP fun log => !log.attributes.isEmpty := by
        rw [← sum_attrLines LogRecord.attributes]
        unfold logLines
        simp [List.sum_map_add]
      rw [counted] at shown
      exact shown

end Records

/-! ### Usage summaries -/

section Summary

variable (display : Display)

theorem statsParts_output {requests plainRequests : String}
    (counted : Output 0 requests plainRequests) (stats : ModelStats) :
    List.Forall₂ (Output 0) (statsParts display requests stats)
      (statsParts display plainRequests stats) := by
  unfold statsParts
  simp only [List.forall₂_cons, List.forall₂_nil_left_iff, and_true]
  exact ⟨.label rfl, counted, .label rfl, .text (display.unsigned_clean _), .label rfl,
    .text (display.unsigned_clean _), .label rfl, .text (display.unsigned_clean _), .label rfl,
    .text (display.unsigned_clean _), .label rfl, .text (display.unsigned_clean _), .label rfl,
    .text (formatCost_clean display _), .label rfl, .text (formatDurationNs_clean display _)⟩

theorem renderBucket_output (bucket : BucketStats) :
    Output 1 (renderBucket display ⟨true⟩ bucket) (renderBucket display ⟨false⟩ bucket) := by
  apply Output.line
  refine List.rel_append ?_ (statsParts_output display (.text (display.unsigned_clean _)) _)
  simp only [List.forall₂_cons, List.forall₂_nil_left_iff, and_true]
  exact ⟨.label rfl, .dim (label_clean rfl), .label rfl, .bold (quoteForPretty_clean _),
    .label rfl, .bold (quoteForPretty_clean _), .label rfl, .bold (quoteForPretty_clean _),
    .label rfl⟩

theorem renderAgent_output {startedAt : String} (clean : Clean startedAt) (agent : String)
    (stats : AgentStats) :
    Output (1 + stats.buckets.size) (renderAgent display ⟨true⟩ startedAt agent stats)
      (renderAgent display ⟨false⟩ startedAt agent stats) := by
  have buckets := Output.concat_map (fun entry : String × BucketStats =>
    renderBucket_output display entry.2) stats.buckets.toList
  simp only [List.map_const', List.sum_replicate, smul_eq_mul, mul_one,
    Std.ExtTreeMap.length_toList] at buckets
  refine Output.append (.line ?_) buckets
  refine List.rel_append (List.rel_append ?_
    (statsParts_output display (.bold (display.unsigned_clean _)) stats.total)) ?_
  · simp only [List.forall₂_cons, List.forall₂_nil_left_iff, and_true]
    exact ⟨.paint (by simp [codes]) (((label_clean rfl).append (quoteForPretty_clean agent)).append
      (label_clean rfl)), .label rfl⟩
  · simp only [List.forall₂_cons, List.forall₂_nil_left_iff, and_true]
    exact ⟨.label rfl, .dim clean⟩

def summaryLines (snapshot : UsageSnapshot) : ℕ :=
  snapshot.agents.size + (snapshot.agents.toList.map fun (_, stats) => stats.buckets.size).sum

theorem renderSummary_output {snapshot : UsageSnapshot} (clean : Clean snapshot.startedAt) :
    Output (summaryLines snapshot) (renderSummary display snapshot true)
      (renderSummary display snapshot false) := by
  have agents := Output.concat_map (fun entry : String × AgentStats =>
    renderAgent_output display clean entry.1 entry.2) snapshot.agents.toList
  have counted : (snapshot.agents.toList.map fun entry => 1 + entry.2.buckets.size).sum
      = summaryLines snapshot := by
    simp [List.sum_map_add, summaryLines]
  rw [counted] at agents
  unfold renderSummary
  split
  · rename_i empty
    have none : snapshot.agents.toList = [] := by simpa using empty
    rw [none] at agents
    exact agents
  · exact agents

end Summary

/-- Nothing to escape but the ends of a known number of lines, and color only by SGR sequences. -/
structure Safe (lines : ℕ) (text : Bool → String) : Prop where
  clean : ∀ c ∈ (text false).toList, needsEscape c = true → c = '\n'
  newlines : (text false).toList.count '\n' = lines
  stripped : stripSgr (text true) = text false

theorem Output.safe {lines : ℕ} {text : Bool → String}
    (output : Output lines (text true) (text false)) : Safe lines text :=
  ⟨output.clean, output.newlines, output.stripSgr_eq⟩

theorem no_injection (display : Display) :
    (∀ record, Safe (recordLines record) (render display record)) ∧
      ∀ snapshot seconds nanos, display.timestamp seconds nanos = some snapshot.startedAt →
        Safe (summaryLines snapshot) (renderSummary display snapshot) := by
  constructor
  · intro record
    exact (render_output display record).safe
  · intro snapshot seconds nanos started
    exact (renderSummary_output display (display.timestamp_clean _ _ _ started)).safe

def decimal (number : ℕ) : String :=
  String.ofList (Nat.toDigits 10 number)

theorem decimal_clean (number : ℕ) : Clean (decimal number) := by
  intro c member
  rw [decimal, String.toList_ofList] at member
  exact toDigits_forall (needsEscape · = false) (by decide)
    (fun digit below => digitChar_clean digit (by omega)) number c member

/-- Whole numbers, and the first moment of the epoch. -/
def epochDisplay : Display where
  unsigned := decimal
  signed number := (if number < 0 then "-" else "") ++ decimal number.natAbs
  double _ := "NaN"
  fixed _ _ := "NaN"
  timestamp seconds nanos :=
    if seconds = 0 ∧ nanos = 0 then some "1970-01-01T00:00:00Z" else none
  uppercase text := String.ofList (text.toList.map Char.toUpper)
  unsigned_clean := decimal_clean
  signed_clean number := by
    refine Clean.append ?_ (decimal_clean _)
    split
    · exact label_clean rfl
    · exact label_clean rfl
  double_clean _ := label_clean rfl
  fixed_clean _ _ := label_clean rfl
  timestamp_clean seconds nanos text formatted := by
    split at formatted
    · rw [← Option.some.inj formatted]
      exact label_clean rfl
    · simp at formatted

/-- A log whose texts would clear the screen, set a title and start lines of their own. -/
def hostileLog : TelemetryRecord :=
  let text (value : String) : Option AnyValue := some ⟨some (.stringValue value)⟩
  .logs [{
    resource := some { attributes := [⟨"service.name", text "codex\x1b[2J"⟩] }
    scopeLogs := [{
      scope := none
      logRecords := [{
        timeUnixNano := 0
        severityNumber := 9
        severityText := "INFO\x07"
        body := text "done\n[INFO] forged"
        attributes := [⟨"key\n", text "\x1b]0;title\x07"⟩] }] }] }]

def hostileUsage : UsageSnapshot :=
  let stats : ModelStats := ⟨1, 2, 3, 0, 0, 0, .finite 0, 0⟩
  let bucket : BucketStats := ⟨"anthropic", "claude\x1b[2J", "high\n", stats⟩
  let agent : AgentStats := ⟨stats, .ofList [("anthropic|claude|high", bucket)]⟩
  ⟨"1970-01-01T00:00:00Z", .ofList [("claude-code", agent)]⟩

theorem no_injection_epoch :
    Safe 2 (render epochDisplay hostileLog) ∧
      Safe (summaryLines hostileUsage) (renderSummary epochDisplay hostileUsage) :=
  ⟨(no_injection epochDisplay).1 hostileLog, (no_injection epochDisplay).2 hostileUsage 0 0 rfl⟩

end OtelLogger.Format
