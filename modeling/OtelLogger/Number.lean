import Mathlib

/-!
The numbers of the program: machine counters, and the numeric values a telemetry payload can
carry. A finite double is the rational number it stands for; conversions to and from doubles
round as the source language documents them.
-/

namespace OtelLogger

def usizeMax : ℕ := 2 ^ 64 - 1

def u64Max : ℕ := 2 ^ 64 - 1

def saturatingAdd (left right : ℕ) : ℕ :=
  min (left + right) u64Max

/-- `fetch_add` of a 64-bit counter. -/
def fetchAdd (counter amount : ℕ) : ℕ :=
  (counter + amount) % 2 ^ 64

/-- `fetch_sub` of a 64-bit counter. -/
def fetchSub (counter amount : ℕ) : ℕ :=
  (counter + 2 ^ 64 - amount) % 2 ^ 64

theorem fetchAdd_of_fits {counter amount : ℕ} (fits : counter + amount ≤ u64Max) :
    fetchAdd counter amount = counter + amount :=
  Nat.mod_eq_of_lt (by unfold u64Max at fits; omega)

theorem fetchAdd_mod (count amount : ℕ) :
    fetchAdd (count % 2 ^ 64) amount = (count + amount) % 2 ^ 64 :=
  Nat.mod_add_mod count (2 ^ 64) amount

theorem fetchSub_of_fits {counter amount : ℕ} (fits : counter ≤ u64Max)
    (enough : amount ≤ counter) : fetchSub counter amount = counter - amount := by
  unfold u64Max at fits
  have split : counter + 2 ^ 64 - amount = counter - amount + 2 ^ 64 := by omega
  rw [fetchSub, split, Nat.add_mod_right]
  exact Nat.mod_eq_of_lt (by omega)

inductive F64 where
  | nan
  | infinite (negative : Bool)
  | finite (value : ℚ)
  deriving DecidableEq

namespace F64

/-- The exact value of a double for which `is_finite` holds. -/
def finite? : F64 → Option ℚ
  | .finite value => some value
  | _ => none

def roundTiesEven (value : ℚ) : ℤ :=
  let low := ⌊value⌋
  if value - low < 1 / 2 then low
  else if 1 / 2 < value - low then low + 1
  else if low % 2 = 0 then low else low + 1

/-- The double nearest to an exact number: 53 significant bits, subnormals from `2 ^ -1074`,
and infinity from `2 ^ 1024` on. -/
def ofRat (value : ℚ) : F64 :=
  if value = 0 then .finite 0
  else
    let exponent := max (Int.log 2 |value| - 52) (-1074)
    let rounded := (roundTiesEven (value / 2 ^ exponent) : ℚ) * 2 ^ exponent
    if |rounded| < 2 ^ 1024 then .finite rounded else .infinite (value < 0)

end F64

/-- A double truncated towards zero, as `as i64` and `as u64` do inside their range. -/
def truncate (value : ℚ) : ℤ :=
  if 0 ≤ value then ⌊value⌋ else ⌈value⌉

def digitsValue (digits : List Char) : ℕ :=
  digits.foldl (fun value digit => 10 * value + (digit.toNat - '0'.toNat)) 0

def splitSign : List Char → Bool × List Char
  | '-' :: rest => (true, rest)
  | '+' :: rest => (false, rest)
  | rest => (false, rest)

/-- `str::parse::<i64>`: an optional sign and at least one decimal digit, within range. -/
def parseI64 (text : String) : Option ℤ :=
  let (negative, digits) := splitSign text.toList
  if digits ≠ [] ∧ digits.all Char.isDigit = true then
    let value : ℤ := if negative then -digitsValue digits else digitsValue digits
    if -2 ^ 63 ≤ value ∧ value < 2 ^ 63 then some value else none
  else none

def parseExponent : List Char → Option ℤ
  | [] => some 0
  | marker :: rest =>
      let (negative, digits) := splitSign rest
      if (marker = 'e' ∨ marker = 'E') ∧ digits ≠ [] ∧ digits.all Char.isDigit = true then
        some (if negative then -digitsValue digits else digitsValue digits)
      else none

def parseDecimal (text : List Char) : Option ℚ :=
  let (whole, afterWhole) := text.span Char.isDigit
  let (fraction, afterFraction) :=
    match afterWhole with
    | '.' :: rest => rest.span Char.isDigit
    | rest => ([], rest)
  if whole = [] ∧ fraction = [] then none
  else
    (parseExponent afterFraction).map fun exponent : ℤ =>
      (digitsValue (whole ++ fraction) : ℚ) * 10 ^ (exponent - fraction.length)

/-- `str::parse::<f64>`: a decimal number with an optional exponent, or one of the words for
infinity and NaN in any letter case. -/
def parseF64 (text : String) : Option F64 :=
  let (negative, body) := splitSign text.toList
  let word := body.map Char.toLower
  if word = "inf".toList ∨ word = "infinity".toList then some (.infinite negative)
  else if word = "nan".toList then some .nan
  else (parseDecimal body).map fun value => F64.ofRat (if negative then -value else value)

end OtelLogger
