import OtelLogger.Number
import OtelLogger.Disk

/-!
Calendar dates of the proleptic Gregorian calendar, the date of an instant in a time zone, and
the names of daily files. Two dates never share a name.
-/

namespace OtelLogger

/-! ### The calendar -/

def leap (year : ℤ) : Bool :=
  year % 4 = 0 && (year % 100 ≠ 0 || year % 400 = 0)

def daysInYear (year : ℤ) : ℕ :=
  if leap year then 366 else 365

def daysInMonth (year : ℤ) (month : ℕ) : ℕ :=
  if month = 2 then (if leap year then 29 else 28)
  else if month = 4 ∨ month = 6 ∨ month = 9 ∨ month = 11 then 30
  else 31

structure NaiveDate where
  year : ℤ
  month : ℕ
  day : ℕ
  month_range : 1 ≤ month ∧ month ≤ 12
  day_range : 1 ≤ day ∧ day ≤ daysInMonth year month
  deriving DecidableEq

theorem daysInMonth_le (year : ℤ) (month : ℕ) : daysInMonth year month ≤ 31 := by
  unfold daysInMonth
  split_ifs <;> omega

/-- Where an offset falls in consecutive blocks of the given lengths. -/
def locate {α : Type*} (length : α → ℕ) : (blocks : List α) → (offset : ℕ) →
    offset < (blocks.map length).sum → {found : α × ℕ // found.1 ∈ blocks ∧ found.2 < length found.1}
  | [], _, inside => absurd inside (Nat.not_lt_zero _)
  | block :: rest, offset, inside =>
      if here : offset < length block then ⟨(block, offset), List.mem_cons_self, here⟩
      else
        let later := locate length rest (offset - length block) (by
          rw [List.map_cons, List.sum_cons] at inside
          omega)
        ⟨later.1, List.mem_cons_of_mem _ later.2.1, later.2.2⟩

def months : List ℕ := List.range' 1 12

theorem sum_daysInMonth (year : ℤ) : (months.map (daysInMonth year)).sum = daysInYear year := by
  cases long : leap year with
  | true => simp [months, List.range', daysInMonth, daysInYear, long]
  | false => simp [months, List.range', daysInMonth, daysInYear, long]

/-- The Gregorian calendar repeats every 400 years. -/
def yearsOf (era : ℤ) : List ℤ :=
  (List.range 400).map fun year => 400 * era + (year : ℤ)

theorem leap_periodic (era year : ℤ) : leap (400 * era + year) = leap year := by
  have four : (400 * era + year) % 4 = year % 4 := by omega
  have hundred : (400 * era + year) % 100 = year % 100 := by omega
  have all : (400 * era + year) % 400 = year % 400 := by omega
  rw [leap, leap, four, hundred, all]

theorem sum_daysInYear (era : ℤ) : ((yearsOf era).map daysInYear).sum = 146097 := by
  have same : (yearsOf era).map daysInYear =
      (List.range 400).map fun year => daysInYear (year : ℤ) := by
    rw [yearsOf, List.map_map]
    refine List.map_congr_left fun year _ => ?_
    rw [Function.comp_apply, daysInYear, daysInYear, leap_periodic]
  rw [same]
  decide +kernel

/-- The date that many days after the first of January 1970, which is day 719528 of year 0. -/
def NaiveDate.ofDays (days : ℤ) : NaiveDate :=
  let era := (days + 719528) / 146097
  let year := locate daysInYear (yearsOf era) ((days + 719528) % 146097).toNat (by
    rw [sum_daysInYear]
    omega)
  let month := locate (daysInMonth year.1.1) months year.1.2 (by
    rw [sum_daysInMonth]
    exact year.2.2)
  { year := year.1.1
    month := month.1.1
    day := month.1.2 + 1
    month_range := by
      have member := List.mem_range'_1.mp month.2.1
      omega
    day_range := ⟨Nat.succ_pos _, month.2.2⟩ }

/-- Nanoseconds of a day. -/
def day : ℤ := 24 * 60 * 60 * 1000000000

/-- The date that clocks show which are `offset` seconds ahead of UTC. -/
def localDate (now : Instant) (offset : ℤ) : NaiveDate :=
  NaiveDate.ofDays ((now + offset * 1000000000) / day)

def julianDay (now : Instant) : ℤ :=
  now / day + 2440588

example : localDate 1793506200000000000 (-4 * 3600) =
    ⟨2026, 11, 1, by decide, by decide⟩ := by
  decide +kernel

/-! ### Dates tell days apart -/

/-- Blocks that differ tell two offsets apart. -/
theorem locate_injective {α : Type*} {length : α → ℕ} {blocks : List α} (distinct : blocks.Nodup)
    {first second : ℕ} (inFirst : first < (blocks.map length).sum)
    (inSecond : second < (blocks.map length).sum)
    (same : (locate length blocks first inFirst).1 = (locate length blocks second inSecond).1) :
    first = second := by
  induction blocks generalizing first second with
  | nil => simp at inFirst
  | cons block rest ih =>
      obtain ⟨absent, others⟩ := List.nodup_cons.mp distinct
      by_cases firstHere : first < length block
      · by_cases secondHere : second < length block
        · simp only [locate, dif_pos firstHere, dif_pos secondHere] at same
          exact congrArg Prod.snd same
        · simp only [locate, dif_pos firstHere, dif_neg secondHere] at same
          have listed := (locate length rest (second - length block) (by
            rw [List.map_cons, List.sum_cons] at inSecond
            omega)).2.1
          rw [← same] at listed
          exact absurd listed absent
      · by_cases secondHere : second < length block
        · simp only [locate, dif_neg firstHere, dif_pos secondHere] at same
          have listed := (locate length rest (first - length block) (by
            rw [List.map_cons, List.sum_cons] at inFirst
            omega)).2.1
          rw [same] at listed
          exact absurd listed absent
        · simp only [locate, dif_neg firstHere, dif_neg secondHere] at same
          have later := ih others _ _ same
          omega

theorem months_nodup : months.Nodup :=
  List.nodup_range'

theorem yearsOf_eq (era : ℤ) :
    yearsOf era = (List.range 400).map fun year => 400 * era + ((year : ℕ) : ℤ) := by
  simp [yearsOf, ← List.map_eq_flatMap]

theorem yearsOf_nodup (era : ℤ) : (yearsOf era).Nodup := by
  rw [yearsOf_eq]
  refine List.Nodup.map (fun first second same => ?_) List.nodup_range
  have equal : 400 * era + (first : ℤ) = 400 * era + second := same
  omega

theorem mem_yearsOf {era year : ℤ} (listed : year ∈ yearsOf era) :
    400 * era ≤ year ∧ year < 400 * era + 400 := by
  rw [yearsOf_eq] at listed
  obtain ⟨offset, below, rfl⟩ := List.mem_map.mp listed
  rw [List.mem_range] at below
  omega

namespace NaiveDate

/-- A date is located in its year, and its year in its era. -/
theorem ofDays_located (days : ℤ) : ∃ (era : ℤ) (offset rest : ℕ) (inYear : _) (inMonth : _),
    days + 719528 = 146097 * era + offset ∧
    (locate daysInYear (yearsOf era) offset inYear).1 = ((ofDays days).year, rest) ∧
    (locate (daysInMonth (ofDays days).year) months rest inMonth).1 =
      ((ofDays days).month, (ofDays days).day - 1) ∧
    (ofDays days).year ∈ yearsOf era := by
  refine ⟨(days + 719528) / 146097, ((days + 719528) % 146097).toNat, _, _, _, ?_, rfl, rfl,
    (locate daysInYear (yearsOf ((days + 719528) / 146097)) _ _).2.1⟩
  omega

/-- Two days have two dates. -/
theorem ofDays_injective : Function.Injective ofDays := by
  intro first second same
  obtain ⟨era, offset, rest, inYear, inMonth, days, year, month, listed⟩ := ofDays_located first
  obtain ⟨otherEra, otherOffset, otherRest, inOtherYear, inOtherMonth, otherDays, otherYear,
    otherMonth, otherListed⟩ := ofDays_located second
  generalize ofDays first = date at same inMonth year month listed
  subst date
  obtain rfl : era = otherEra := by
    have below := mem_yearsOf listed
    have above := mem_yearsOf otherListed
    omega
  obtain rfl : rest = otherRest :=
    locate_injective months_nodup inMonth inOtherMonth (month.trans otherMonth.symm)
  obtain rfl : offset = otherOffset :=
    locate_injective (yearsOf_nodup era) inYear inOtherYear (year.trans otherYear.symm)
  omega

end NaiveDate

/-- Two clocks that show one date are less than a day and what their offsets differ by apart. -/
theorem localDate_near {first second offset other : ℤ}
    (same : localDate first offset = localDate second other) :
    second + other * 1000000000 < first + offset * 1000000000 + day := by
  have days := NaiveDate.ofDays_injective same
  unfold day at days ⊢
  omega

/-! ### Names of daily files -/

def paddedDecimal : ℕ → ℕ → List Char
  | 0, _ => []
  | width + 1, value => paddedDecimal width (value / 10) ++ [Nat.digitChar (value % 10)]

@[simp] theorem length_paddedDecimal (width value : ℕ) :
    (paddedDecimal width value).length = width := by
  induction width generalizing value with
  | zero => rfl
  | succ width ih => rw [paddedDecimal, List.length_append, ih, List.length_singleton]

theorem digitsValue_concat (digits : List Char) (digit : Char) :
    digitsValue (digits ++ [digit]) = 10 * digitsValue digits + (digit.toNat - '0'.toNat) := by
  rw [digitsValue, List.foldl_append]
  rfl

theorem digitChar_spec {digit : ℕ} (bound : digit < 10) :
    (Nat.digitChar digit).isDigit = true ∧ (Nat.digitChar digit).toNat - '0'.toNat = digit := by
  interval_cases digit <;> decide

theorem digitsValue_paddedDecimal (width value : ℕ) :
    digitsValue (paddedDecimal width value) = value % 10 ^ width := by
  induction width generalizing value with
  | zero => rw [pow_zero, Nat.mod_one, paddedDecimal, digitsValue, List.foldl_nil]
  | succ width ih =>
      have digit := digitChar_spec (Nat.mod_lt value (by decide : 0 < 10))
      rw [paddedDecimal, digitsValue_concat, ih, digit.2, pow_succ', Nat.mod_mul, Nat.add_comm]

theorem paddedDecimal_digits (width value : ℕ) :
    ∀ character ∈ paddedDecimal width value, character.isDigit = true := by
  induction width generalizing value with
  | zero => simp [paddedDecimal]
  | succ width ih =>
      intro character member
      rcases List.mem_append.mp member with earlier | last
      · exact ih _ character earlier
      · rw [List.mem_singleton.mp last]
        exact (digitChar_spec (Nat.mod_lt value (by decide))).1

namespace NaiveDate

/-- Four digits, and a sign outside of the years 0 to 9999. -/
def yearText (year : ℤ) : List Char :=
  if 0 ≤ year ∧ year ≤ 9999 then paddedDecimal 4 year.toNat
  else
    let width := max 4 (Nat.log 10 year.natAbs + 1)
    (if year < 0 then '-' else '+') :: paddedDecimal width year.natAbs

def text (date : NaiveDate) : List Char :=
  yearText date.year ++ ('-' :: paddedDecimal 2 date.month ++ '-' :: paddedDecimal 2 date.day)

theorem yearText_injective : Function.Injective yearText := by
  have wide (year : ℤ) :
      digitsValue (paddedDecimal (max 4 (Nat.log 10 year.natAbs + 1)) year.natAbs) =
        year.natAbs := by
    rw [digitsValue_paddedDecimal]
    refine Nat.mod_eq_of_lt ((Nat.lt_pow_succ_log_self (b := 10) (by decide) _).trans_le ?_)
    exact Nat.pow_le_pow_right (by decide) (le_max_right _ _)
  have unsigned (year other : ℤ) :
      paddedDecimal 4 year.toNat ≠ (if other < 0 then '-' else '+') ::
        paddedDecimal (max 4 (Nat.log 10 other.natAbs + 1)) other.natAbs := by
    intro same
    have digit := paddedDecimal_digits 4 year.toNat
    rw [same] at digit
    have sign := digit _ List.mem_cons_self
    split at sign
    · exact absurd sign (by decide)
    · exact absurd sign (by decide)
  intro first second same
  by_cases firstShort : 0 ≤ first ∧ first ≤ 9999
  · by_cases secondShort : 0 ≤ second ∧ second ≤ 9999
    · rw [yearText, yearText, if_pos firstShort, if_pos secondShort] at same
      have value := congrArg digitsValue same
      rw [digitsValue_paddedDecimal, digitsValue_paddedDecimal] at value
      omega
    · rw [yearText, yearText, if_pos firstShort, if_neg secondShort] at same
      exact absurd same (unsigned first second)
  · by_cases secondShort : 0 ≤ second ∧ second ≤ 9999
    · rw [yearText, yearText, if_neg firstShort, if_pos secondShort] at same
      exact absurd same.symm (unsigned second first)
    · rw [yearText, yearText, if_neg firstShort, if_neg secondShort] at same
      obtain ⟨sign, digits⟩ := List.cons.inj same
      have value := congrArg digitsValue digits
      rw [wide, wide] at value
      have signs : first < 0 ↔ second < 0 := by
        by_cases firstNegative : first < 0 <;> by_cases secondNegative : second < 0 <;>
          simp [firstNegative, secondNegative] at sign ⊢
      omega

theorem text_injective : Function.Injective text := by
  intro first second same
  obtain ⟨years, days⟩ := List.append_inj' same (by simp)
  obtain ⟨monthText, rest⟩ := List.append_inj (List.cons.inj days).2 (by simp)
  have months := congrArg digitsValue monthText
  have dayText := congrArg digitsValue (List.cons.inj rest).2
  rw [digitsValue_paddedDecimal, digitsValue_paddedDecimal] at months dayText
  have firstBound := daysInMonth_le first.year first.month
  have secondBound := daysInMonth_le second.year second.month
  have year := yearText_injective years
  obtain ⟨firstYear, firstMonth, firstDay, firstMonths, firstDays⟩ := first
  obtain ⟨secondYear, secondMonth, secondDay, secondMonths, secondDays⟩ := second
  dsimp only at months dayText firstBound secondBound year
  obtain rfl := year
  obtain rfl : firstMonth = secondMonth := by omega
  obtain rfl : firstDay = secondDay := by omega
  rfl

end NaiveDate

def dailyPath (namePrefix : String) (nameSuffix : Option String) (date : NaiveDate) : String :=
  let name := namePrefix ++ "." ++ String.ofList date.text
  match nameSuffix with
  | some nameSuffix => name ++ "." ++ nameSuffix
  | none => name

theorem dailyPath_injective (namePrefix : String) (nameSuffix : Option String) :
    Function.Injective (dailyPath namePrefix nameSuffix) := by
  intro first second same
  apply NaiveDate.text_injective
  have characters := congrArg String.toList same
  cases nameSuffix with
  | none =>
      simp only [dailyPath, String.toList_append, String.toList_ofList] at characters
      exact List.append_cancel_left characters
  | some nameSuffix =>
      simp only [dailyPath, String.toList_append, String.toList_ofList] at characters
      exact List.append_cancel_left
        (List.append_cancel_right (List.append_cancel_right characters))

end OtelLogger
