import OtelLogger.Library.PrefixCode
import OtelLogger.FormatSafety

/-!
Escaping loses nothing. A quoted text begins with a quotation mark, which a bare text does not
contain, and between the marks every character is one word of a prefix code.
-/

namespace OtelLogger.Format

/-! ### Digits -/

def hexDigit (digit : Char) : ℕ :=
  if digit.isDigit then digit.toNat - '0'.toNat else digit.toNat - 'a'.toNat + 10

def hexValue (digits : List Char) : ℕ :=
  digits.foldl (fun value digit => 16 * value + hexDigit digit) 0

theorem hexDigit_digitChar : ∀ digit < 16, hexDigit (Nat.digitChar digit) = digit := by
  decide

theorem hexValue_concat (digits : List Char) (digit : Char) :
    hexValue (digits ++ [digit]) = 16 * hexValue digits + hexDigit digit := by
  rw [hexValue, List.foldl_append]
  rfl

theorem hexValue_toDigits (number : ℕ) : hexValue (Nat.toDigits 16 number) = number := by
  induction number using Nat.strongRecOn with
  | ind number ih =>
      rw [Nat.toDigits_eq_if (by decide)]
      split
      · rename_i small
        exact (Nat.zero_add _).trans (hexDigit_digitChar number small)
      · rename_i large
        have high := ih (number / 16) (by omega)
        have low := hexDigit_digitChar (number % 16) (by omega)
        rw [hexValue_concat, high, low]
        omega

theorem hexValue_lowerHex (width number : ℕ) : hexValue (lowerHex width number) = number := by
  have zeros (count : ℕ) (digits : List Char) :
      hexValue (List.replicate count '0' ++ digits) = hexValue digits := by
    induction count with
    | zero => rfl
    | succ count ih => exact ih
  exact (zeros _ _).trans (hexValue_toDigits number)

/-! ### Reading one escape -/

def readEscape : List Char → Option (Char × List Char)
  | '\\' :: '\\' :: rest => some ('\\', rest)
  | '\\' :: '"' :: rest => some ('"', rest)
  | '\\' :: 'n' :: rest => some ('\n', rest)
  | '\\' :: 'r' :: rest => some ('\r', rest)
  | '\\' :: 't' :: rest => some ('\t', rest)
  | '\\' :: 'u' :: '\x7b' :: rest =>
      some (Char.ofNat (hexValue (rest.takeWhile (· ≠ '\x7d'))),
        (rest.dropWhile (· ≠ '\x7d')).tail)
  | '\\' :: _ => none
  | c :: rest => some (c, rest)
  | [] => none

theorem readEscape_plain {c : Char} (plain : c ≠ '\\') (rest : List Char) :
    readEscape (c :: rest) = some (c, rest) := by
  unfold readEscape
  split <;> simp_all

/-- The digits end at the closing brace, which is none of them. -/
theorem readEscape_code (c : Char) (rest : List Char) :
    readEscape (['\\', 'u', '\x7b'] ++ lowerHex 4 c.toNat ++ ['\x7d'] ++ rest) = some (c, rest) := by
  have digits : ∀ digit ∈ lowerHex 4 c.toNat, decide (digit ≠ '\x7d') = true :=
    lowerHex_forall _ (by decide) 4 c.toNat
  have taken : (lowerHex 4 c.toNat ++ '\x7d' :: rest).takeWhile (· ≠ '\x7d') =
      lowerHex 4 c.toNat := by
    rw [List.takeWhile_append_of_pos digits, List.takeWhile_cons_of_neg (by decide),
      List.append_nil]
  have dropped : (lowerHex 4 c.toNat ++ '\x7d' :: rest).dropWhile (· ≠ '\x7d') =
      '\x7d' :: rest := by
    rw [List.dropWhile_append_of_pos digits, List.dropWhile_cons_of_neg (by decide)]
  have read : readEscape (['\\', 'u', '\x7b'] ++ lowerHex 4 c.toNat ++ ['\x7d'] ++ rest) =
      some (Char.ofNat (hexValue ((lowerHex 4 c.toNat ++ '\x7d' :: rest).takeWhile (· ≠ '\x7d'))),
        ((lowerHex 4 c.toNat ++ '\x7d' :: rest).dropWhile (· ≠ '\x7d')).tail) := by
    rw [List.append_assoc, List.append_assoc]
    rfl
  rw [read, taken, dropped, hexValue_lowerHex, Char.ofNat_toNat, List.tail_cons]

def escapes : PrefixCode Char Char where
  word := escapeForPretty
  readOne := readEscape
  reads c rest := by
    unfold escapeForPretty
    split_ifs with backslash quote newline carriage tab control
    · rw [backslash]
      rfl
    · rw [quote]
      rfl
    · rw [newline]
      rfl
    · rw [carriage]
      rfl
    · rw [tab]
      rfl
    · exact readEscape_code c rest
    · exact readEscape_plain backslash rest
  word_ne_nil c := by
    unfold escapeForPretty
    split_ifs <;> simp

/-! ### Reading a text -/

def unquotePretty (text : String) : Option String :=
  match text.toList with
  | '"' :: quoted =>
      if quoted.getLast? = some '"' then (escapes.decode quoted.dropLast).map String.ofList
      else none
  | _ => some text

theorem toList_quoteForPretty {s : String} (quoted : needsQuote s = true) :
    (quoteForPretty s).toList = '"' :: (escapes.encode s.toList ++ ['"']) := by
  rw [quoteForPretty, if_pos quoted, String.toList_ofList]
  rfl

theorem mark_not_mem_of_bare {s : String} (bare : needsQuote s = false) : '"' ∉ s.toList := by
  intro member
  have quoted : needsQuote s = true := by
    rw [needsQuote, Bool.or_eq_true, List.any_eq_true]
    exact .inr ⟨'"', member, by decide⟩
  exact absurd (bare.symm.trans quoted) Bool.false_ne_true

theorem unquotePretty_bare {s : String} (bare : needsQuote s = false) :
    unquotePretty s = some s := by
  unfold unquotePretty
  split
  · rename_i quoted chars
    have member : '"' ∈ s.toList := by simp [chars]
    exact absurd member (mark_not_mem_of_bare bare)
  · rfl

theorem unquotePretty_quoteForPretty (s : String) : unquotePretty (quoteForPretty s) = some s := by
  cases quoted : needsQuote s with
  | true =>
      have read := escapes.decode_encode s.toList
      simp only [unquotePretty, toList_quoteForPretty quoted, List.getLast?_concat,
        List.dropLast_concat, read, if_true, Option.map_some, String.ofList_toList]
  | false =>
      rw [quoteForPretty, quoted]
      exact unquotePretty_bare quoted

theorem quoteForPretty_lossless :
    (∀ s, unquotePretty (quoteForPretty s) = some s) ∧ Function.Injective quoteForPretty ∧
      ∀ s other, needsQuote s = true → needsQuote other = false → quoteForPretty s ≠ other := by
  refine ⟨unquotePretty_quoteForPretty, ?_, ?_⟩
  · intro s other same
    have read := congrArg unquotePretty same
    rw [unquotePretty_quoteForPretty, unquotePretty_quoteForPretty] at read
    exact Option.some.inj read
  · intro s other quoted bare same
    have marked : '"' ∈ (quoteForPretty s).toList := by simp [toList_quoteForPretty quoted]
    rw [same] at marked
    exact mark_not_mem_of_bare bare marked

end OtelLogger.Format
