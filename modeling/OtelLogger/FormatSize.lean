import OtelLogger.FormatSafety

/-!
The size of a rendered value. Every text, number and byte string in the value is written once, with
brackets and separators between, whatever the nesting, so that the output grows with the payload
and not with the depth.
-/

namespace OtelLogger.Format

/-! ### What a value is made of -/

/-- An absent value is shown as the empty text. -/
inductive Leaf where
  | string (text : String)
  | key (text : String)
  | bool (value : Bool)
  | int (value : ℤ)
  | double (value : F64)
  | bytes (value : List UInt8)
  | absent

namespace Leaf

def text (display : Display) : Leaf → String
  | string text => quoteForPretty text
  | key text => quoteForPretty text
  | bool value => boolText value
  | int value => display.signed value
  | double value => display.double value
  | bytes value => "0x" ++ hex value
  | absent => quoteForPretty ""

def isScalar : Leaf → Bool
  | bool _ => true
  | int _ => true
  | double _ => true
  | _ => false

def chars : Leaf → ℕ
  | string text => text.length
  | key text => text.length
  | _ => 0

def byteCount : Leaf → ℕ
  | bytes value => value.length
  | _ => 0

end Leaf

mutual

def leaves : AnyValue → List Leaf
  | ⟨some value⟩ => valueLeaves value
  | ⟨none⟩ => [.absent]

def valueLeaves : OtlpValue → List Leaf
  | .stringValue text => [.string text]
  | .boolValue value => [.bool value]
  | .intValue value => [.int value]
  | .doubleValue value => [.double value]
  | .arrayValue values => arrayLeaves values
  | .kvlistValue values => attrsLeaves values
  | .bytesValue value => [.bytes value]
  | .stringValueStrindex _ => [.absent]

def arrayLeaves : List AnyValue → List Leaf
  | [] => []
  | value :: rest => leaves value ++ arrayLeaves rest

def attrLeaves : KeyValue → List Leaf
  | ⟨key, some value⟩ => .key key :: leaves value
  | ⟨key, none⟩ => [.key key, .absent]

def attrsLeaves : List KeyValue → List Leaf
  | [] => []
  | kv :: rest => attrLeaves kv ++ attrsLeaves rest

end

mutual

/-- Values and pairs of a key and a value. -/
def nodes : AnyValue → ℕ
  | ⟨some value⟩ => 1 + innerNodes value
  | ⟨none⟩ => 1

def innerNodes : OtlpValue → ℕ
  | .arrayValue values => arrayNodes values
  | .kvlistValue values => attrsNodes values
  | _ => 0

def arrayNodes : List AnyValue → ℕ
  | [] => 0
  | value :: rest => nodes value + arrayNodes rest

def attrNodes : KeyValue → ℕ
  | ⟨_, some value⟩ => 1 + nodes value
  | ⟨_, none⟩ => 1

def attrsNodes : List KeyValue → ℕ
  | [] => 0
  | kv :: rest => attrNodes kv + attrsNodes rest

end

def chars (leaves : List Leaf) : ℕ :=
  (leaves.map Leaf.chars).sum

def byteCount (leaves : List Leaf) : ℕ :=
  (leaves.map Leaf.byteCount).sum

def ScalarsWithin (display : Display) (most : ℕ) (leaves : List Leaf) : Prop :=
  ∀ leaf ∈ leaves, leaf.isScalar = true → (leaf.text display).length ≤ most

def marks : List String :=
  ["[", "]", "\x7b", "\x7d", ", ", "="]

/-- The leaves in their order, each once, and nothing else but brackets and separators. -/
inductive Written (display : Display) : List Leaf → String → Prop where
  | nil : Written display [] ""
  | leaf (first : Leaf) {leaves : List Leaf} {text : String} (rest : Written display leaves text) :
      Written display (first :: leaves) (first.text display ++ text)
  | mark {mark : String} (known : mark ∈ marks) {leaves : List Leaf} {text : String}
      (rest : Written display leaves text) : Written display leaves (mark ++ text)

/-! ### The order of the leaves -/

section Order

variable {display : Display}

theorem Written.append {first second : List Leaf} {head tail : String}
    (left : Written display first head) (right : Written display second tail) :
    Written display (first ++ second) (head ++ tail) := by
  induction left with
  | nil => simpa using right
  | leaf first _ ih =>
      rw [String.append_assoc]
      exact .leaf first ih
  | mark known _ ih =>
      rw [String.append_assoc]
      exact .mark known ih

theorem Written.one (leaf : Leaf) : Written display [leaf] (leaf.text display) := by
  have alone := Written.leaf leaf (.nil : Written display [] "")
  rwa [String.append_empty] at alone

theorem Written.closed {leaves : List Leaf} {opening inner closing : String}
    (opens : opening ∈ marks) (closes : closing ∈ marks) (written : Written display leaves inner) :
    Written display leaves (opening ++ inner ++ closing) := by
  have last := Written.mark closes (.nil : Written display [] "")
  rw [String.append_empty] at last
  have whole := (Written.mark opens written).append last
  rwa [List.append_nil] at whole

theorem join_cons_cons (separator part next : String) (rest : List String) :
    join separator (part :: next :: rest) = part ++ separator ++ join separator (next :: rest) :=
  rfl

theorem Written.join_cons {first second : List Leaf} {part : String} {rest : List String}
    (head : Written display first part) (tail : Written display second (join ", " rest)) :
    Written display (first ++ second) (join ", " (part :: rest)) := by
  cases rest with
  | nil =>
      have whole := head.append tail
      rwa [join, String.append_empty] at whole
  | cons next rest =>
      rw [join_cons_cons, String.append_assoc]
      exact head.append (.mark (by decide) tail)

mutual

theorem prettyAnyValue_written : ∀ value,
    Written display (leaves value) (prettyAnyValue display value)
  | ⟨some value⟩ => prettyValue_written value
  | ⟨none⟩ => .one .absent

theorem prettyValue_written : ∀ value,
    Written display (valueLeaves value) (prettyValue display value)
  | .stringValue text => .one (.string text)
  | .boolValue value => .one (.bool value)
  | .intValue value => .one (.int value)
  | .doubleValue value => .one (.double value)
  | .arrayValue values => .closed (by decide) (by decide) (prettyAnyValues_written values)
  | .kvlistValue values => .closed (by decide) (by decide) (formatParts_written values)
  | .bytesValue value => .one (.bytes value)
  | .stringValueStrindex _ => .one .absent

theorem prettyAnyValues_written : ∀ values,
    Written display (arrayLeaves values) (join ", " (prettyAnyValues display values))
  | [] => .nil
  | value :: rest => (prettyAnyValue_written value).join_cons (prettyAnyValues_written rest)

theorem formatPart_written : ∀ kv, Written display (attrLeaves kv) (formatPart display kv)
  | ⟨key, some value⟩ => by
      rw [attrLeaves, formatPart, String.append_assoc]
      exact .leaf (.key key) (.mark (by decide) (prettyAnyValue_written value))
  | ⟨key, none⟩ => by
      rw [attrLeaves, formatPart, String.append_assoc]
      exact .leaf (.key key) (.mark (by decide) (.one .absent))

theorem formatParts_written : ∀ attrs,
    Written display (attrsLeaves attrs) (join ", " (formatParts display attrs))
  | [] => .nil
  | kv :: rest => (formatPart_written kv).join_cons (formatParts_written rest)

end

end Order

/-! ### The size of a text -/

theorem length_lowerHex {width number : ℕ} (wide : 0 < width) (bound : number < 16 ^ width) :
    (lowerHex width number).length = width := by
  have digits := Nat.toDigits_length 16 number width wide bound
  rw [lowerHex, List.length_append, List.length_replicate]
  omega

theorem length_hex (bytes : List UInt8) : (hex bytes).length = 2 * bytes.length := by
  rw [hex, String.length_ofList]
  induction bytes with
  | nil => rfl
  | cons byte bytes ih =>
      have pair : (lowerHex 2 byte.toNat).length = 2 :=
        length_lowerHex (by decide) byte.toNat_lt
      rw [List.flatMap_cons, List.length_append, ih, pair, List.length_cons]
      omega

/-- `\u` and four digits in braces, as no escaped character is beyond `2069`. -/
theorem length_escapeForPretty (c : Char) : (escapeForPretty c).length ≤ 8 := by
  unfold escapeForPretty
  split_ifs with backslash quote newline carriage tab control
  · decide
  · decide
  · decide
  · decide
  · decide
  · have bound : c.toNat < 16 ^ 4 := by
      simp only [needsEscape, Bool.or_eq_true, Bool.and_eq_true, decide_eq_true_eq] at control
      omega
    have digits := length_lowerHex (by decide) bound
    simp [digits]
  · simp

theorem length_quoteForPretty (s : String) : (quoteForPretty s).length ≤ 8 * s.length + 2 := by
  have inner (characters : List Char) :
      (characters.flatMap escapeForPretty).length ≤ 8 * characters.length := by
    induction characters with
    | nil => exact Nat.zero_le _
    | cons c characters ih =>
        have one := length_escapeForPretty c
        rw [List.flatMap_cons, List.length_append, List.length_cons]
        omega
  have whole := inner s.toList
  rw [String.length_toList] at whole
  unfold quoteForPretty
  split
  · rw [String.length_ofList, List.length_append, List.length_cons, List.length_singleton]
    omega
  · omega

theorem length_join_cons (part : String) (rest : List String) :
    (join ", " (part :: rest)).length ≤ part.length + 2 + (join ", " rest).length := by
  cases rest with
  | nil => exact Nat.le_add_right_of_le (Nat.le_add_right _ _)
  | cons next rest =>
      have separator : ", ".length = 2 := by decide
      rw [join_cons_cons, String.length_append, String.length_append, separator]

/-! ### The size of a value -/

def allowance (most : ℕ) (leaves : List Leaf) (nodes : ℕ) : ℕ :=
  8 * chars leaves + 2 * byteCount leaves + (most + 8) * nodes

theorem allowance_append (most : ℕ) (first second : List Leaf) (head tail : ℕ) :
    allowance most (first ++ second) (head + tail) =
      allowance most first head + allowance most second tail := by
  simp only [allowance, chars, byteCount, List.map_append, List.sum_append, Nat.mul_add]
  omega

theorem allowance_node (most : ℕ) (leaves : List Leaf) (inner : ℕ) :
    allowance most leaves (1 + inner) = most + 8 + allowance most leaves inner := by
  have split := allowance_append most [] leaves 1 inner
  have one : allowance most [] 1 = most + 8 := by simp [allowance, chars, byteCount]
  rw [List.nil_append, one] at split
  exact split

theorem allowance_key (most : ℕ) (key : String) (leaves : List Leaf) (nodes : ℕ) :
    allowance most (.key key :: leaves) nodes = 8 * key.length + allowance most leaves nodes := by
  simp only [allowance, chars, byteCount, List.map_cons, List.sum_cons, Leaf.chars, Leaf.byteCount]
  omega

section Size

variable {display : Display} {most : ℕ}

theorem ScalarsWithin.of_append {first second : List Leaf}
    (within : ScalarsWithin display most (first ++ second)) :
    ScalarsWithin display most first ∧ ScalarsWithin display most second :=
  List.forall_mem_append.mp within

theorem ScalarsWithin.of_cons {leaf : Leaf} {rest : List Leaf}
    (within : ScalarsWithin display most (leaf :: rest)) : ScalarsWithin display most rest :=
  (List.forall_mem_cons.mp within).2

theorem length_leaf (leaf : Leaf) (within : ScalarsWithin display most [leaf]) :
    (leaf.text display).length + 2 ≤ allowance most [leaf] 1 := by
  have scalar := within leaf (List.mem_singleton_self leaf)
  have allowed : allowance most [leaf] 1 = 8 * leaf.chars + 2 * leaf.byteCount + (most + 8) := by
    simp [allowance, chars, byteCount]
  rw [allowed]
  cases leaf with
  | string text =>
      have quoted := length_quoteForPretty text
      simp only [Leaf.text, Leaf.chars]
      omega
  | key text =>
      have quoted := length_quoteForPretty text
      simp only [Leaf.text, Leaf.chars]
      omega
  | bool value =>
      have short := scalar rfl
      omega
  | int value =>
      have short := scalar rfl
      omega
  | double value =>
      have short := scalar rfl
      omega
  | bytes value =>
      have lead : "0x".length = 2 := by decide
      simp only [Leaf.text, Leaf.byteCount, String.length_append, length_hex, lead]
      omega
  | absent =>
      have quoted := length_quoteForPretty ""
      rw [String.length_empty] at quoted
      simp only [Leaf.text]
      omega

/-- The brackets are paid for by the node itself. -/
theorem length_closed {opening inner closing : String} {leaves : List Leaf} {count : ℕ}
    (opens : opening.length = 1) (closes : closing.length = 1)
    (within : inner.length ≤ allowance most leaves count) :
    (opening ++ inner ++ closing).length + 2 ≤ allowance most leaves (1 + count) := by
  rw [allowance_node, String.length_append, String.length_append, opens, closes]
  omega

theorem length_parts {part : String} {rest : List String} {first second : List Leaf}
    {head tail : ℕ} (one : part.length + 2 ≤ allowance most first head)
    (others : (join ", " rest).length ≤ allowance most second tail) :
    (join ", " (part :: rest)).length ≤ allowance most (first ++ second) (head + tail) := by
  have joined := length_join_cons part rest
  rw [allowance_append]
  omega

mutual

theorem length_prettyAnyValue : ∀ value, ScalarsWithin display most (leaves value) →
    (prettyAnyValue display value).length + 2 ≤ allowance most (leaves value) (nodes value)
  | ⟨some value⟩, within => length_prettyValue value within
  | ⟨none⟩, within => length_leaf .absent within

theorem length_prettyValue : ∀ value, ScalarsWithin display most (valueLeaves value) →
    (prettyValue display value).length + 2 ≤
      allowance most (valueLeaves value) (1 + innerNodes value)
  | .stringValue text, within => length_leaf (.string text) within
  | .boolValue value, within => length_leaf (.bool value) within
  | .intValue value, within => length_leaf (.int value) within
  | .doubleValue value, within => length_leaf (.double value) within
  | .arrayValue values, within => by
      rw [prettyValue, valueLeaves, innerNodes]
      exact length_closed (by decide) (by decide) (length_prettyAnyValues values within)
  | .kvlistValue values, within => by
      rw [prettyValue, valueLeaves, innerNodes]
      exact length_closed (by decide) (by decide) (length_formatParts values within)
  | .bytesValue value, within => length_leaf (.bytes value) within
  | .stringValueStrindex _, within => length_leaf .absent within

theorem length_prettyAnyValues : ∀ values, ScalarsWithin display most (arrayLeaves values) →
    (join ", " (prettyAnyValues display values)).length ≤
      allowance most (arrayLeaves values) (arrayNodes values)
  | [], _ => Nat.zero_le _
  | value :: rest, within =>
      length_parts (length_prettyAnyValue value within.of_append.1)
        (length_prettyAnyValues rest within.of_append.2)

theorem length_formatPart : ∀ kv, ScalarsWithin display most (attrLeaves kv) →
    (formatPart display kv).length + 2 ≤ allowance most (attrLeaves kv) (attrNodes kv)
  | ⟨key, some value⟩, within => by
      have quoted := length_quoteForPretty key
      have inner := length_prettyAnyValue value within.of_cons
      have sign : "=".length = 1 := by decide
      rw [attrLeaves, attrNodes, allowance_key, allowance_node, formatPart, String.length_append,
        String.length_append, sign]
      omega
  | ⟨key, none⟩, within => by
      have quoted := length_quoteForPretty key
      have absent : (quoteForPretty "").length = 2 := by decide
      have sign : "=".length = 1 := by decide
      have node : most + 8 + allowance most [.absent] 0 = allowance most [.absent] 1 :=
        (allowance_node most [.absent] 0).symm
      rw [attrLeaves, attrNodes, allowance_key, formatPart, String.length_append,
        String.length_append, sign, absent]
      omega

theorem length_formatParts : ∀ attrs, ScalarsWithin display most (attrsLeaves attrs) →
    (join ", " (formatParts display attrs)).length ≤
      allowance most (attrsLeaves attrs) (attrsNodes attrs)
  | [], _ => Nat.zero_le _
  | kv :: rest, within =>
      length_parts (length_formatPart kv within.of_append.1)
        (length_formatParts rest within.of_append.2)

end

theorem prettyAnyValue_linear (value : AnyValue)
    (within : ScalarsWithin display most (leaves value)) :
    (prettyAnyValue display value).length ≤
        8 * chars (leaves value) + 2 * byteCount (leaves value) + (most + 8) * nodes value ∧
      Written display (leaves value) (prettyAnyValue display value) := by
  constructor
  · have short := length_prettyAnyValue value within
    unfold allowance at short
    omega
  · exact prettyAnyValue_written value

end Size

/-- A list in a list in a pair: the quoted text is escaped once, at any depth. -/
theorem prettyAnyValue_linear_nested :
    let inner : AnyValue := ⟨some (.arrayValue [⟨some (.stringValue "a\"\x1b")⟩,
      ⟨some (.intValue 7)⟩, ⟨none⟩])⟩
    let value : AnyValue := ⟨some (.kvlistValue [⟨"k", some ⟨some (.arrayValue [inner])⟩⟩,
      ⟨"b", some ⟨some (.bytesValue [0, 255])⟩⟩])⟩
    ScalarsWithin epochDisplay 1 (leaves value) ∧
      (prettyAnyValue epochDisplay value).length ≤
        8 * chars (leaves value) + 2 * byteCount (leaves value) + (1 + 8) * nodes value ∧
      Written epochDisplay (leaves value) (prettyAnyValue epochDisplay value) := by
  intro inner value
  have within : ScalarsWithin epochDisplay 1 (leaves value) := by
    intro leaf member scalar
    simp only [value, inner, leaves, valueLeaves, attrsLeaves, attrLeaves, arrayLeaves,
      List.append_nil, List.cons_append, List.nil_append, List.mem_cons, List.not_mem_nil,
      or_false] at member
    rcases member with rfl | rfl | rfl | rfl | rfl | rfl
    · cases scalar
    · cases scalar
    · decide
    · cases scalar
    · cases scalar
    · cases scalar
  exact ⟨within, prettyAnyValue_linear value within⟩

end OtelLogger.Format
