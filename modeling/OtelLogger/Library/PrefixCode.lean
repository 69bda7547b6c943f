import Mathlib

/-!
Codes whose words can be read from the left, one after another, whatever follows them. A text of
such words stands for one list of symbols only.
-/

structure PrefixCode (α β : Type*) where
  word : α → List β
  readOne : List β → Option (α × List β)
  reads : ∀ symbol rest, readOne (word symbol ++ rest) = some (symbol, rest)
  word_ne_nil : ∀ symbol, word symbol ≠ []

namespace PrefixCode

variable {α β : Type*} (code : PrefixCode α β)

def encode (symbols : List α) : List β :=
  symbols.flatMap code.word

/-- At most as many symbols as the first argument. -/
def readAll : ℕ → List β → Option (List α)
  | _, [] => some []
  | 0, _ :: _ => none
  | most + 1, text =>
      (code.readOne text).bind fun (symbol, rest) => (readAll most rest).map (symbol :: ·)

def decode (text : List β) : Option (List α) :=
  code.readAll text.length text

theorem encode_cons (symbol : α) (symbols : List α) :
    code.encode (symbol :: symbols) = code.word symbol ++ code.encode symbols :=
  List.flatMap_cons

theorem length_le_encode (symbols : List α) : symbols.length ≤ (code.encode symbols).length := by
  induction symbols with
  | nil => exact Nat.zero_le _
  | cons symbol symbols ih =>
      have written := List.length_pos_iff.mpr (code.word_ne_nil symbol)
      rw [encode_cons, List.length_append, List.length_cons]
      omega

theorem readAll_encode (symbols : List α) :
    ∀ most, symbols.length ≤ most → code.readAll most (code.encode symbols) = some symbols := by
  induction symbols with
  | nil =>
      intro most _
      cases most <;> rfl
  | cons symbol symbols ih =>
      intro most enough
      cases most with
      | zero => simp at enough
      | succ most =>
          have later := ih most (Nat.le_of_succ_le_succ enough)
          have read := code.reads symbol (code.encode symbols)
          rw [encode_cons]
          cases text : code.word symbol ++ code.encode symbols with
          | nil => exact absurd (List.append_eq_nil_iff.mp text).1 (code.word_ne_nil symbol)
          | cons head tail =>
              rw [text] at read
              simp [readAll, read, later]

theorem decode_encode (symbols : List α) : code.decode (code.encode symbols) = some symbols :=
  code.readAll_encode symbols _ (code.length_le_encode symbols)

end PrefixCode
