import OtelLogger.Retention

/-!
The names of daily files are recognised exactly. What retention takes for a daily file has the name
that the writer gives to a file of its kind for some date, and every such name is recognised, so no
other file is ever deleted and no daily file is kept for ever.
-/

namespace OtelLogger

/-! ### Texts as bytes -/

theorem utf8_injective : Function.Injective utf8 := by
  intro first second same
  have bytes : first.toByteArray = second.toByteArray := by
    ext1
    exact Array.toList_inj.mp same
  exact String.toByteArray_inj.mp bytes

theorem length_utf8 (text : String) : (utf8 text).length = text.utf8ByteSize := by
  simp [utf8]

theorem utf8_ascii {chars : List Char} (ascii : ∀ c ∈ chars, c.toNat < 128) :
    utf8 (String.ofList chars) = chars.map fun c => UInt8.ofNat c.toNat := by
  have one : ∀ code < 128, utf8 (String.ofList [Char.ofNat code]) = [UInt8.ofNat code] := by
    decide
  induction chars with
  | nil => rfl
  | cons c chars ih =>
      obtain ⟨first, rest⟩ := List.forall_mem_cons.mp ascii
      have head := one c.toNat first
      rw [Char.ofNat_toNat] at head
      have split : String.ofList ([c] ++ chars) = String.ofList [c] ++ String.ofList chars :=
        String.ofList_append
      rw [List.singleton_append] at split
      rw [split, utf8_append, head, ih rest]
      rfl

/-! ### Digits -/

theorem isDigit_bounds {c : Char} (digit : c.isDigit = true) : 48 ≤ c.toNat ∧ c.toNat ≤ 57 :=
  Char.isDigit_iff_toNat.mp digit

theorem digit_byte {c : Char} (digit : c.isDigit = true) :
    isAsciiDigit (UInt8.ofNat c.toNat) = true ∧ Char.ofNat (UInt8.ofNat c.toNat).toNat = c := by
  have all : ∀ code < 58, 48 ≤ code → isAsciiDigit (UInt8.ofNat code) = true ∧
      (UInt8.ofNat code).toNat = code := by
    decide
  have bounds := isDigit_bounds digit
  obtain ⟨byte, code⟩ := all c.toNat (by omega) (by omega)
  rw [code, Char.ofNat_toNat]
  exact ⟨byte, rfl⟩

theorem byte_digit {byte : UInt8} (digit : isAsciiDigit byte = true) :
    (Char.ofNat byte.toNat).isDigit = true ∧ UInt8.ofNat (Char.ofNat byte.toNat).toNat = byte := by
  have all : ∀ code < 58, 48 ≤ code → (Char.ofNat code).isDigit = true ∧
      (Char.ofNat code).toNat = code := by
    decide
  simp only [isAsciiDigit, Bool.and_eq_true, decide_eq_true_eq, UInt8.le_iff_toNat_le] at digit
  obtain ⟨char, code⟩ := all byte.toNat (by simpa using Nat.lt_succ_of_le digit.2)
    (by simpa using digit.1)
  rw [code]
  exact ⟨char, UInt8.ofNat_toNat⟩

theorem paddedDecimal_digitsValue {digits : List Char}
    (all : ∀ digit ∈ digits, digit.isDigit = true) :
    paddedDecimal digits.length (digitsValue digits) = digits := by
  induction digits using List.reverseRecOn with
  | nil => rfl
  | append_singleton digits digit ih =>
      have earlier := fun other member => all other (List.mem_append_left [digit] member)
      have last := all digit List.mem_concat_self
      have shape : ∀ code < 58, 48 ≤ code → Nat.digitChar (code - 48) = Char.ofNat code := by
        decide
      have bounds := isDigit_bounds last
      have written := shape digit.toNat (by omega) (by omega)
      rw [Char.ofNat_toNat] at written
      have high : (10 * digitsValue digits + (digit.toNat - 48)) / 10 = digitsValue digits := by
        omega
      have low : (10 * digitsValue digits + (digit.toNat - 48)) % 10 = digit.toNat - 48 := by
        omega
      have zero : '0'.toNat = 48 := rfl
      rw [List.length_append, List.length_singleton, digitsValue_concat, zero, paddedDecimal, high,
        low, written, ih earlier]

theorem digitsValue_lt {digits : List Char} (all : ∀ digit ∈ digits, digit.isDigit = true) :
    digitsValue digits < 10 ^ digits.length := by
  have value := digitsValue_paddedDecimal digits.length (digitsValue digits)
  rw [paddedDecimal_digitsValue all] at value
  rw [value]
  exact Nat.mod_lt _ (Nat.pow_pos (by decide))

theorem decimal_bytes (width value : ℕ) :
    let written := utf8 (String.ofList (paddedDecimal width value))
    written.length = width ∧ written.all isAsciiDigit = true ∧
      parseDigits written = value % 10 ^ width := by
  have digits := paddedDecimal_digits width value
  have bytes := utf8_ascii fun c member => (isDigit_bounds (digits c member)).2.trans_lt (by decide)
  intro written
  have shown : written = (paddedDecimal width value).map fun c => UInt8.ofNat c.toNat := bytes
  rw [shown]
  refine ⟨?_, ?_, ?_⟩
  · rw [List.length_map, length_paddedDecimal]
  · rw [List.all_map, List.all_eq_true]
    exact fun c member => (digit_byte (digits c member)).1
  · have read : ((paddedDecimal width value).map fun c => UInt8.ofNat c.toNat).map
        (fun byte => Char.ofNat byte.toNat) = paddedDecimal width value := by
      rw [List.map_map]
      exact (List.map_congr_left fun c member => (digit_byte (digits c member)).2).trans
        (List.map_id _)
    rw [parseDigits, read, digitsValue_paddedDecimal]

theorem decimal_of_bytes {digits : Bytes} (all : digits.all isAsciiDigit = true) :
    utf8 (String.ofList (paddedDecimal digits.length (parseDigits digits))) = digits ∧
      parseDigits digits < 10 ^ digits.length := by
  have digit := List.all_eq_true.mp all
  have chars : ∀ c ∈ digits.map (fun byte => Char.ofNat byte.toNat), c.isDigit = true :=
    List.forall_mem_map.mpr fun byte member => (byte_digit (digit byte member)).1
  have written := paddedDecimal_digitsValue chars
  have below := digitsValue_lt chars
  rw [List.length_map] at written below
  refine ⟨?_, below⟩
  rw [parseDigits, written, utf8_ascii fun c member =>
    (isDigit_bounds (chars c member)).2.trans_lt (by decide), List.map_map]
  exact (List.map_congr_left fun byte member => (byte_digit (digit byte member)).2).trans
    (List.map_id _)

/-! ### The form of a date -/

theorem isCalendarDate_iff {date : Bytes} :
    isCalendarDate date = some true ↔ hasDateShape date = some true ∧
      (1 ≤ parseDigits (slice date 5 7) ∧ parseDigits (slice date 5 7) ≤ 12) ∧
      1 ≤ parseDigits (slice date 8 10) ∧
      parseDigits (slice date 8 10) ≤
        daysInMonth (parseDigits (slice date 0 4)) (parseDigits (slice date 5 7)) := by
  rw [isCalendarDate_eq]
  simp only [Option.some.injEq, Bool.and_eq_true, decide_eq_true_eq]
  tauto

theorem get_isCalendarDate {date : Bytes} :
    (isCalendarDate date).get (isCalendarDate_returns date) = true ↔
      isCalendarDate date = some true := by
  rw [Option.eq_some_iff_get_eq]
  exact ⟨fun valid => ⟨isCalendarDate_returns date, valid⟩, fun ⟨_, valid⟩ => valid⟩

def dashed (year month day : Bytes) : Bytes :=
  year ++ dash :: (month ++ dash :: day)

theorem slice_dashed {year month day : Bytes} (four : year.length = 4) (two : month.length = 2)
    (last : day.length = 2) :
    (dashed year month day).length = 10 ∧ slice (dashed year month day) 0 4 = year ∧
      (dashed year month day)[4]? = some dash ∧ slice (dashed year month day) 5 7 = month ∧
      (dashed year month day)[7]? = some dash ∧ slice (dashed year month day) 8 10 = day := by
  match year, four, month, two, day, last with
  | [_, _, _, _], _, [_, _], _, [_, _], _ => exact ⟨rfl, rfl, rfl, rfl, rfl, rfl⟩

theorem dashed_slices {date : Bytes} (ten : date.length = 10) (fourth : date[4]? = some dash)
    (seventh : date[7]? = some dash) :
    dashed (slice date 0 4) (slice date 5 7) (slice date 8 10) = date := by
  match date, ten with
  | [_, _, _, _, first, _, _, second, _, _], _ =>
      obtain rfl : first = dash := Option.some.inj fourth
      obtain rfl : second = dash := Option.some.inj seventh
      rfl

theorem utf8_dashed (year month day : List Char) :
    utf8 (String.ofList (year ++ '-' :: (month ++ '-' :: day))) =
      dashed (utf8 (String.ofList year)) (utf8 (String.ofList month)) (utf8 (String.ofList day)) := by
  have sign (before after : List Char) :
      utf8 (String.ofList (before ++ '-' :: after)) =
        utf8 (String.ofList before) ++ dash :: utf8 (String.ofList after) := by
    have split : String.ofList (before ++ (['-'] ++ after)) =
        String.ofList before ++ (String.ofList ['-'] ++ String.ofList after) := by
      rw [String.ofList_append, String.ofList_append]
    have mark : utf8 (String.ofList ['-']) = [dash] := by decide
    rw [List.singleton_append] at split
    rw [split, utf8_append, utf8_append, mark]
    rfl
  rw [sign, sign]
  rfl

def decimal (width value : ℕ) : Bytes :=
  utf8 (String.ofList (paddedDecimal width value))

theorem text_of_shape {date : Bytes} (shape : hasDateShape date = some true) :
    dashed (decimal 4 (parseDigits (slice date 0 4))) (decimal 2 (parseDigits (slice date 5 7)))
        (decimal 2 (parseDigits (slice date 8 10))) = date ∧
      parseDigits (slice date 0 4) < 10 ^ 4 := by
  rw [hasDateShape_eq] at shape
  simp only [Option.some.injEq, Bool.and_eq_true, decide_eq_true_eq] at shape
  obtain ⟨⟨⟨⟨⟨ten, yearDigits⟩, fourth⟩, monthDigits⟩, seventh⟩, dayDigits⟩ := shape
  obtain ⟨year, bound⟩ := decimal_of_bytes yearDigits
  obtain ⟨month, _⟩ := decimal_of_bytes monthDigits
  obtain ⟨day, _⟩ := decimal_of_bytes dayDigits
  have yearLength : (slice date 0 4).length = 4 := by simp [slice, ten]
  have monthLength : (slice date 5 7).length = 2 := by simp [slice, ten]
  have dayLength : (slice date 8 10).length = 2 := by simp [slice, ten]
  rw [yearLength] at year bound
  rw [monthLength] at month
  rw [dayLength] at day
  refine ⟨?_, bound⟩
  rw [decimal, decimal, decimal, year, month, day]
  exact dashed_slices ten fourth seventh

/-- In a text of ASCII characters every index is where a character begins, or the end. -/
theorem boundary_of_ascii {chars : List Char} (ascii : ∀ c ∈ chars, c.toNat < 128) {index : ℕ}
    (inside : index ≤ chars.length) : (String.Pos.Raw.mk index).IsValid (String.ofList chars) := by
  have bytes := utf8_ascii fun c (member : c ∈ chars.take index) =>
    ascii c (List.mem_of_mem_take member)
  have size := congrArg List.length bytes
  rw [length_utf8, List.length_map, List.length_take, Nat.min_eq_left inside] at size
  exact String.Pos.Raw.isValid_ofList.mpr ⟨index, size.symm⟩

/-! ### Dates -/

/-- The years that are written with four digits and without a sign. -/
def NaiveDate.Plain (date : NaiveDate) : Prop :=
  0 ≤ date.year ∧ date.year ≤ 9999

theorem utf8_text {date : NaiveDate} (plain : date.Plain) :
    utf8 (String.ofList date.text) =
      dashed (decimal 4 date.year.toNat) (decimal 2 date.month) (decimal 2 date.day) := by
  have range : 0 ≤ date.year ∧ date.year ≤ 9999 := plain
  rw [NaiveDate.text, NaiveDate.yearText, if_pos range]
  exact utf8_dashed _ _ _

theorem isCalendarDate_text {date : NaiveDate} (plain : date.Plain) :
    isCalendarDate (utf8 (String.ofList date.text)) = some true := by
  obtain ⟨yearLength, yearDigits, yearValue⟩ := decimal_bytes 4 date.year.toNat
  obtain ⟨monthLength, monthDigits, monthValue⟩ := decimal_bytes 2 date.month
  obtain ⟨dayLength, dayDigits, dayValue⟩ := decimal_bytes 2 date.day
  obtain ⟨ten, first, fourth, second, seventh, last⟩ :=
    slice_dashed yearLength monthLength dayLength
  have months := date.month_range
  have days := date.day_range
  have atMost := daysInMonth_le date.year date.month
  have year : (date.year.toNat % 10 ^ 4 : ℕ) = date.year := by
    have bounds := plain
    unfold NaiveDate.Plain at bounds
    omega
  have month : date.month % 10 ^ 2 = date.month := by omega
  have day : date.day % 10 ^ 2 = date.day := by omega
  rw [utf8_text plain, isCalendarDate_iff, hasDateShape_eq]
  simp only [decimal, ten, first, fourth, second, seventh, last, yearDigits, monthDigits, dayDigits,
    yearValue, monthValue, dayValue, year, month, day]
  exact ⟨by decide, months, days⟩

theorem exists_date {date : Bytes} (valid : isCalendarDate date = some true) :
    ∃ found : NaiveDate, found.Plain ∧ date = utf8 (String.ofList found.text) := by
  obtain ⟨shape, months, days⟩ := isCalendarDate_iff.mp valid
  obtain ⟨written, bound⟩ := text_of_shape shape
  let found : NaiveDate := ⟨parseDigits (slice date 0 4), parseDigits (slice date 5 7),
    parseDigits (slice date 8 10), months, days⟩
  have plain : found.Plain := by
    change 0 ≤ (parseDigits (slice date 0 4) : ℤ) ∧ (parseDigits (slice date 0 4) : ℤ) ≤ 9999
    omega
  refine ⟨found, plain, ?_⟩
  rw [utf8_text plain]
  exact written.symm

/-! ### Names -/

def dailyName : DailyLogKind → NaiveDate → String
  | .jsonl => dailyPath rotationPrefix none
  | .pretty => dailyPath prettyLogPrefix (some prettyLogSuffix)

theorem prettyDate_eq_some_iff {filename date : Bytes} :
    prettyDate filename = some date ↔
      filename = utf8 prettyLogPrefix ++ utf8 "." ++ date ++ utf8 "." ++ utf8 prettyLogSuffix := by
  simp only [prettyDate, bind, Option.bind_eq_some_iff, List.dropPrefix?_eq_some_iff,
    List.dropSuffix?_eq_some_iff, beq_iff_eq]
  constructor
  · rintro ⟨first, ⟨_, rfl, rfl⟩, second, ⟨_, rfl, rfl⟩, third, ⟨_, rfl, rfl⟩, _, rfl, rfl⟩
    simp
  · rintro rfl
    exact ⟨utf8 "." ++ (date ++ (utf8 "." ++ utf8 prettyLogSuffix)),
      ⟨_, by simp only [List.append_assoc], rfl⟩, date ++ (utf8 "." ++ utf8 prettyLogSuffix),
      ⟨_, rfl, rfl⟩, date ++ utf8 ".", ⟨_, by simp only [List.append_assoc], rfl⟩, _, rfl, rfl⟩

theorem jsonlDate_eq_some_iff {filename date : Bytes} :
    jsonlDate filename = some date ↔ filename = utf8 rotationPrefix ++ utf8 "." ++ date := by
  simp only [jsonlDate, bind, Option.bind_eq_some_iff, List.dropPrefix?_eq_some_iff, beq_iff_eq]
  constructor
  · rintro ⟨first, ⟨_, rfl, rfl⟩, _, rfl, rfl⟩
    simp
  · rintro rfl
    exact ⟨utf8 "." ++ date, ⟨_, by simp only [List.append_assoc], rfl⟩, _, rfl, rfl⟩

theorem utf8_jsonlName (date : NaiveDate) :
    utf8 (dailyName .jsonl date) =
      utf8 rotationPrefix ++ utf8 "." ++ utf8 (String.ofList date.text) := by
  change utf8 (rotationPrefix ++ "." ++ String.ofList date.text) = _
  rw [utf8_append, utf8_append]

theorem utf8_prettyName (date : NaiveDate) :
    utf8 (dailyName .pretty date) =
      utf8 prettyLogPrefix ++ utf8 "." ++ utf8 (String.ofList date.text) ++ utf8 "." ++
        utf8 prettyLogSuffix := by
  change utf8 (prettyLogPrefix ++ "." ++ String.ofList date.text ++ "." ++ prettyLogSuffix) = _
  rw [utf8_append, utf8_append, utf8_append, utf8_append]

/-- After the shorter prefix a date begins with a digit, and the longer prefix goes on otherwise. -/
theorem prettyDate_jsonlName {date : NaiveDate} (plain : date.Plain) :
    prettyDate (utf8 (dailyName .jsonl date)) = none := by
  apply Option.eq_none_iff_forall_ne_some.mpr
  intro other found
  rw [prettyDate_eq_some_iff, utf8_jsonlName, utf8_text plain] at found
  have longer : utf8 prettyLogPrefix = utf8 rotationPrefix ++ utf8 "." ++ utf8 "pretty" := by
    decide
  have letter : utf8 "pretty" = 112 :: utf8 "retty" := by decide
  simp only [longer, List.append_assoc, List.append_cancel_left_eq] at found
  obtain ⟨length, digits, _⟩ := decimal_bytes 4 date.year.toNat
  rw [dashed, decimal, letter] at found
  cases written : utf8 (String.ofList (paddedDecimal 4 date.year.toNat)) with
  | nil => simp [written] at length
  | cons first rest =>
      rw [written] at found digits
      obtain ⟨rfl, _⟩ := List.cons.inj found
      exact absurd (List.all_cons.symm.trans digits) (by simp [isAsciiDigit])

theorem dailyLogKind_eq_some_iff {filename : String} {kind : DailyLogKind} :
    dailyLogKind filename = some kind ↔
      ∃ date : NaiveDate, date.Plain ∧ filename = dailyName kind date := by
  constructor
  · intro recognised
    unfold dailyLogKind at recognised
    cases pretty : prettyDate (utf8 filename) with
    | some date =>
        simp only [pretty, Option.ite_none_right_eq_some, Option.some.injEq, get_isCalendarDate]
          at recognised
        obtain ⟨valid, rfl⟩ := recognised
        obtain ⟨found, plain, rfl⟩ := exists_date valid
        refine ⟨found, plain, utf8_injective ?_⟩
        rw [utf8_prettyName]
        exact prettyDate_eq_some_iff.mp pretty
    | none =>
        cases jsonl : jsonlDate (utf8 filename) with
        | none => simp [pretty, jsonl] at recognised
        | some date =>
            simp only [pretty, jsonl, Option.ite_none_right_eq_some, Option.some.injEq,
              get_isCalendarDate] at recognised
            obtain ⟨valid, rfl⟩ := recognised
            obtain ⟨found, plain, rfl⟩ := exists_date valid
            refine ⟨found, plain, utf8_injective ?_⟩
            rw [utf8_jsonlName]
            exact jsonlDate_eq_some_iff.mp jsonl
  · rintro ⟨date, plain, rfl⟩
    have valid := isCalendarDate_text plain
    unfold dailyLogKind
    cases kind with
    | jsonl =>
        have jsonl := jsonlDate_eq_some_iff.mpr (utf8_jsonlName date)
        simp only [prettyDate_jsonlName plain, jsonl, valid, Option.get_some, if_true]
    | pretty =>
        have pretty := prettyDate_eq_some_iff.mpr (utf8_prettyName date)
        simp only [pretty, valid, Option.get_some, if_true]

theorem dailyLogKind_eq_none_iff {filename : String} :
    dailyLogKind filename = none ↔
      ∀ kind (date : NaiveDate), date.Plain → filename ≠ dailyName kind date := by
  constructor
  · intro unknown kind date plain named
    have known := dailyLogKind_eq_some_iff.mpr ⟨date, plain, named⟩
    rw [unknown] at known
    cases known
  · intro other
    apply Option.eq_none_iff_forall_ne_some.mpr
    intro kind known
    obtain ⟨date, plain, named⟩ := dailyLogKind_eq_some_iff.mp known
    exact other kind date plain named

/-- A cleanup takes no file that is not named like a daily file. -/
theorem cleanupOldRotatedLogs_spares (listing : Disk → List String) (disk : Disk) (keepDays : ℕ)
    {filename : String} {inode : ℕ} (found : disk.names[filename]? = some inode)
    (other : ∀ kind (date : NaiveDate), date.Plain → filename ≠ dailyName kind date) :
    (cleanupOldRotatedLogs listing disk keepDays).2.names[filename]? = some inode :=
  (cleanupOldRotatedLogs_cleans listing disk keepDays).spares filename inode found
    (Or.inl (dailyLogKind_eq_none_iff.mpr other))

theorem dailyName_injective (kind : DailyLogKind) : Function.Injective (dailyName kind) := by
  cases kind with
  | jsonl => exact dailyPath_injective rotationPrefix none
  | pretty => exact dailyPath_injective prettyLogPrefix (some prettyLogSuffix)

/-- Where `is_calendar_date` cuts its text. -/
def cuts : List ℕ := [0, 4, 5, 7, 8, 10]

theorem cuts_valid {date : String} (shape : hasDateShape (utf8 date) = some true) :
    ∀ index ∈ cuts, (String.Pos.Raw.mk index).IsValid date := by
  obtain ⟨written, _⟩ := text_of_shape shape
  rw [decimal, decimal, decimal, ← utf8_dashed] at written
  have digit {width value : ℕ} {c : Char} (member : c ∈ paddedDecimal width value) :
      c.toNat < 128 :=
    (isDigit_bounds (paddedDecimal_digits width value c member)).2.trans_lt (by decide)
  intro index member
  rw [← utf8_injective written]
  apply boundary_of_ascii
  · intro c inside
    simp only [List.mem_append, List.mem_cons] at inside
    rcases inside with year | rfl | month | rfl | day
    · exact digit year
    · decide
    · exact digit month
    · decide
    · exact digit day
  · have ten : ∀ cut ∈ cuts, cut ≤ 10 := by decide
    simpa using ten index member

theorem dailyLogKind_exact (filename : String) :
    (∀ kind, dailyLogKind filename = some kind ↔
      ∃ date : NaiveDate, date.Plain ∧ filename = dailyName kind date) ∧
    (dailyLogKind filename = none ↔
      ∀ kind (date : NaiveDate), date.Plain → filename ≠ dailyName kind date) ∧
    (∀ kind date other, filename = dailyName kind date → filename = dailyName kind other →
      date = other) ∧
    (∀ date : Bytes, (isCalendarDate date).isSome = true) ∧
    ∀ date : String, hasDateShape (utf8 date) = some true →
      ∀ index ∈ cuts, (String.Pos.Raw.mk index).IsValid date := by
  refine ⟨fun kind => dailyLogKind_eq_some_iff, dailyLogKind_eq_none_iff, ?_,
    isCalendarDate_returns, fun date => cuts_valid⟩
  intro kind date other first second
  exact dailyName_injective kind (first.symm.trans second)

end OtelLogger
