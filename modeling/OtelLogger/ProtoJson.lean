import OtelLogger.Library.DataModel

/-!
The serializer that keeps non-finite floats: it writes them as the strings of the proto3 JSON
mapping and passes everything else on, wrapping each nested value so that the same holds inside.
-/

namespace OtelLogger

open DataModel

variable {m : Type → Type} [Monad m] {N : Type 1}

namespace NonFinite

def serializeF64 (S : Serializer m N) : Ieee → ExceptT S.Error m S.Ok
  | .nan _ => S.serializeScalar (.str "NaN")
  | .infinite negative => S.serializeScalar (.str (if negative then "-Infinity" else "Infinity"))
  | .finite negative magnitude => S.serializeF64 (.finite negative magnitude)

def serializeF32 (S : Serializer m N) (value : Ieee) : ExceptT S.Error m S.Ok :=
  if value.isFinite then S.serializeF32 value else serializeF64 S value

/-- `SerializeSeq`, `SerializeTuple`, `SerializeTupleStruct` and `SerializeTupleVariant`. -/
def compoundElements (wrap : N → N) {Ok Error : Type} (inner : Elements m N Ok Error) :
    Elements m N Ok Error where
  State := inner.State
  element state value := inner.element state (wrap value)
  finish := inner.finish

/-- `SerializeMap`, with the entry of the trait. -/
def compoundEntries (wrap : N → N) {Ok Error : Type} (inner : Entries m N Ok Error) :
    Entries m N Ok Error where
  State := inner.State
  key state first := inner.key state (wrap first)
  value state second := inner.value state (wrap second)
  entry state first second :=
    inner.key state (wrap first) >>= fun next => inner.value next (wrap second)
  finish := inner.finish

/-- `SerializeStruct` and `SerializeStructVariant`. -/
def compoundFields (wrap : N → N) {Ok Error : Type} (inner : Fields m N Ok Error) :
    Fields m N Ok Error where
  State := inner.State
  field state key value := inner.field state key (wrap value)
  skip := inner.skip
  finish := inner.finish

end NonFinite

open NonFinite in
/-- `NonFinite` around a serializer, where `wrap` puts a nested value into `ProtoJson`. The methods
that it does not define are those of the trait. -/
def nonFinite (wrap : N → N) (S : Serializer m N) : Serializer m N where
  Ok := S.Ok
  Error := S.Error
  isHumanReadable := S.isHumanReadable
  serializeScalar := S.serializeScalar
  collectStr text := S.serializeScalar (.str text)
  serializeF32 := serializeF32 S
  serializeF64 := serializeF64 S
  serializeNone := S.serializeNone
  serializeUnit := S.serializeUnit
  serializeSome value := S.serializeSome (wrap value)
  serializeUnitVariant := S.serializeUnitVariant
  serializeNewtypeStruct name value := S.serializeNewtypeStruct name (wrap value)
  serializeNewtypeVariant name index variant value :=
    S.serializeNewtypeVariant name index variant (wrap value)
  Seq := compoundElements wrap S.Seq
  serializeSeq := S.serializeSeq
  Tuple := compoundElements wrap S.Tuple
  serializeTuple := S.serializeTuple
  TupleStruct := compoundElements wrap S.TupleStruct
  serializeTupleStruct := S.serializeTupleStruct
  TupleVariant := compoundElements wrap S.TupleVariant
  serializeTupleVariant := S.serializeTupleVariant
  Map := compoundEntries wrap S.Map
  serializeMap := S.serializeMap
  collectSeq len items :=
    S.serializeSeq len >>= fun state => (compoundElements wrap S.Seq).collect state items
  collectMap len pairs :=
    S.serializeMap len >>= fun state => (compoundEntries wrap S.Map).collect state pairs
  Struct := compoundFields wrap S.Struct
  serializeStruct := S.serializeStruct
  StructVariant := compoundFields wrap S.StructVariant
  serializeStructVariant := S.serializeStructVariant

/-- `ProtoJson` around a nested value: it serializes the value through `NonFinite`. -/
def protoJson : (level : ℕ) → Nested m level → Nested m level
  | 0, nested => nested
  | level + 1, nested => fun S => nested (nonFinite (protoJson level) S)

/-- `to_vec`, given `serde_json::to_vec`. -/
def toVec {level : ℕ} {α : Type} (serdeJson : Nested m level → α) (value : Value) : α :=
  serdeJson (protoJson level (value.present level))

/-! ### What the serializer behind sees -/

/-- The string for a float that is not finite. -/
def named (keep : Ieee → Value) : Ieee → Value
  | .nan _ => .scalar (.str "NaN")
  | .infinite true => .scalar (.str "-Infinity")
  | .infinite false => .scalar (.str "Infinity")
  | .finite negative magnitude => keep (.finite negative magnitude)

/-- The value with every float that is not finite replaced by its string. -/
def nameNonFinite (value : Value) : Value :=
  value.replaceFloats (named .f32) (named .f64)

theorem named_eq_iff {keep : Ieee → Value} (keeps : ∀ float text, keep float ≠ .scalar (.str text))
    (float : Ieee) : named keep float = keep float ↔ float.isFinite = true := by
  cases float with
  | nan negative => simpa [named, Ieee.isFinite] using (keeps (.nan negative) _).symm
  | infinite negative =>
      cases negative <;>
        simpa [named, Ieee.isFinite] using (keeps (.infinite _) _).symm
  | finite negative magnitude => simp [named, Ieee.isFinite]

theorem nameNonFinite_eq_iff (value : Value) :
    nameNonFinite value = value ↔ ∀ float ∈ value.floats, float.isFinite = true :=
  Value.replaceFloats_eq_iff
    ⟨named_eq_iff fun _ _ => nofun, named_eq_iff fun _ _ => nofun⟩ value

section Drive

variable {wrap : N → N} {child : Value → N} {Ok Error : Type} {relied : Provided → Prop}
  {same : N → N → Prop}

/-- What `wrap` makes of a child is the child with its floats named. -/
def Wraps (relied : Provided → Prop) (same : N → N → Prop) (wrap : N → N) (child : Value → N) :
    Prop :=
  ∀ value : Value, value.Uses relied →
    same (wrap (child value)) (child (nameNonFinite value))

theorem writeAll_elements (wraps : Wraps relied same wrap child)
    (inner : Elements m N Ok Error)
    (lawful : ∀ state first second, same first second →
      inner.element state first = inner.element state second)
    (state : inner.State) (items : List Value) (uses : Value.UsesItems relied items) :
    (NonFinite.compoundElements wrap inner).writeAll child state items =
      inner.writeAll child state (items.map nameNonFinite) := by
  have one (item : Value) (uses : item.Uses relied) (state : inner.State) :
      (NonFinite.compoundElements wrap inner).step child state item =
        inner.step child state (nameNonFinite item) :=
    lawful state _ _ (wraps item uses)
  have written := foldlM_map_congr fun item member => one item (Value.uses_of_mem uses item member)
  exact congrArg (· >>= inner.finish) (written state)

theorem writeAll_entries (wraps : Wraps relied same wrap child)
    (inner : Entries m N Ok Error)
    (key : ∀ state first second, same first second → inner.key state first = inner.key state second)
    (value : ∀ state first second, same first second →
      inner.value state first = inner.value state second)
    (entry : relied .entry → ∀ state first second, inner.entry state first second =
      inner.key state first >>= fun next => inner.value next second)
    (state : inner.State) (steps : List MapStep)
    (uses : Value.UsesEntries relied steps) :
    (NonFinite.compoundEntries wrap inner).writeAll child state steps =
      inner.writeAll child state
        (steps.map (MapStep.replaceFloats (named .f32) (named .f64))) := by
  have one (step : MapStep) (uses : step.Uses relied) (state : inner.State) :
      (NonFinite.compoundEntries wrap inner).step child state step =
        inner.step child state (step.replaceFloats (named .f32) (named .f64)) := by
    cases step with
    | key first => exact key state _ _ (wraps first uses)
    | value second => exact value state _ _ (wraps second uses)
    | entry first second =>
        have apart := entry uses.1 state (child (nameNonFinite first)) (child (nameNonFinite second))
        refine Eq.trans ?_ apart.symm
        change (inner.key state (wrap (child first)) >>= fun next =>
          inner.value next (wrap (child second))) = _
        rw [key state _ _ (wraps first uses.2.1)]
        exact congrArg _ (funext fun next => value next _ _ (wraps second uses.2.2))
  have written := foldlM_map_congr fun step member =>
    one step (MapStep.uses_of_mem uses step member)
  exact congrArg (· >>= inner.finish) (written state)

theorem writeAll_fields (wraps : Wraps relied same wrap child)
    (inner : Fields m N Ok Error)
    (lawful : ∀ state key first second, same first second →
      inner.field state key first = inner.field state key second)
    (state : inner.State) (fields : List Field)
    (uses : Value.UsesFields relied fields) :
    (NonFinite.compoundFields wrap inner).writeAll child state fields =
      inner.writeAll child state
        (fields.map (Field.replaceFloats (named .f32) (named .f64))) := by
  have one (field : Field) (uses : field.Uses relied) (state : inner.State) :
      (NonFinite.compoundFields wrap inner).step child state field =
        inner.step child state (field.replaceFloats (named .f32) (named .f64)) := by
    cases field with
    | field key value => exact lawful state key _ _ (wraps value uses)
    | skip key => rfl
  have written := foldlM_map_congr fun field member =>
    one field (Field.uses_of_mem uses field member)
  exact congrArg (· >>= inner.finish) (written state)

theorem nameNonFinite_items (items : List Value) :
    Value.replaceItems (named .f32) (named .f64) items = items.map nameNonFinite :=
  Value.replaceItems_eq _ _ items

theorem drive_nonFinite (wraps : Wraps relied same wrap child)
    {S : Serializer m N} (lawful : S.Lawful relied same) :
    (value : Value) → value.Uses relied →
      value.drive child (nonFinite wrap S) = (nameNonFinite value).drive child S
  | .scalar _, _ | .none, _ | .unit, _ | .unitVariant _ _ _, _ => rfl
  | .display text, uses => (lawful.collectStr uses text).symm
  | .collectSeq len items, uses => by
      rw [nameNonFinite, Value.replaceFloats, nameNonFinite_items, Value.drive, Value.drive,
        lawful.collectSeq uses.1]
      refine congrArg (S.serializeSeq len >>= ·) (funext fun state => ?_)
      have inner := Elements.collect_map S.Seq child state (items.map nameNonFinite)
      have outer := Elements.collect_map (NonFinite.compoundElements wrap S.Seq) child state items
      exact outer.trans ((writeAll_elements wraps S.Seq lawful.seq state items uses.2).trans
        inner.symm)
  | .collectMap len pairs, uses => by
      rw [nameNonFinite, Value.replaceFloats, Value.replacePairs_eq, Value.drive, Value.drive,
        lawful.collectMap uses.1]
      refine congrArg (S.serializeMap len >>= ·) (funext fun state => ?_)
      have steps : (pairs.map (Pair.replaceFloats (named .f32) (named .f64))).map Pair.step =
          (pairs.map Pair.step).map (MapStep.replaceFloats (named .f32) (named .f64)) := by
        simp only [List.map_map]
        exact List.map_congr_left fun pair _ => Pair.step_replaceFloats _ _ pair
      have inner := Entries.collect_map S.Map child state
        (pairs.map (Pair.replaceFloats (named .f32) (named .f64)))
      rw [steps] at inner
      have outer := Entries.collect_map (NonFinite.compoundEntries wrap S.Map) child state pairs
      exact outer.trans ((writeAll_entries wraps S.Map lawful.key lawful.value lawful.entry state _
        (Pair.uses_steps uses.2.1 uses.2.2)).trans inner.symm)
  | .f32 (.nan _), _ | .f32 (.infinite true), _ | .f32 (.infinite false), _
  | .f32 (.finite _ _), _ => rfl
  | .f64 (.nan _), _ | .f64 (.infinite true), _ | .f64 (.infinite false), _
  | .f64 (.finite _ _), _ => rfl
  | .some value, uses => lawful.some _ _ (wraps value uses)
  | .newtypeStruct name value, uses => lawful.newtypeStruct name _ _ (wraps value uses)
  | .newtypeVariant name index variant value, uses =>
      lawful.newtypeVariant name index variant _ _ (wraps value uses)
  | .seq len items, uses => by
      rw [nameNonFinite, Value.replaceFloats, nameNonFinite_items]
      exact congrArg (S.serializeSeq len >>= ·)
        (funext fun state => writeAll_elements wraps S.Seq lawful.seq state items uses)
  | .tuple len items, uses => by
      rw [nameNonFinite, Value.replaceFloats, nameNonFinite_items]
      exact congrArg (S.serializeTuple len >>= ·)
        (funext fun state => writeAll_elements wraps S.Tuple lawful.tuple state items uses)
  | .tupleStruct name len items, uses => by
      rw [nameNonFinite, Value.replaceFloats, nameNonFinite_items]
      exact congrArg (S.serializeTupleStruct name len >>= ·)
        (funext fun state =>
          writeAll_elements wraps S.TupleStruct lawful.tupleStruct state items uses)
  | .tupleVariant name index variant len items, uses => by
      rw [nameNonFinite, Value.replaceFloats, nameNonFinite_items]
      exact congrArg (S.serializeTupleVariant name index variant len >>= ·)
        (funext fun state =>
          writeAll_elements wraps S.TupleVariant lawful.tupleVariant state items uses)
  | .map len entries, uses => by
      rw [nameNonFinite, Value.replaceFloats, Value.replaceEntries_eq]
      exact congrArg (S.serializeMap len >>= ·)
        (funext fun state =>
          writeAll_entries wraps S.Map lawful.key lawful.value lawful.entry state entries uses)
  | .struct name len fields, uses => by
      rw [nameNonFinite, Value.replaceFloats, Value.replaceFields_eq]
      exact congrArg (S.serializeStruct name len >>= ·)
        (funext fun state => writeAll_fields wraps S.Struct lawful.struct state fields uses)
  | .structVariant name index variant len fields, uses => by
      rw [nameNonFinite, Value.replaceFloats, Value.replaceFields_eq]
      exact congrArg (S.serializeStructVariant name index variant len >>= ·)
        (funext fun state =>
          writeAll_fields wraps S.StructVariant lawful.structVariant state fields uses)
  | .readable human compact, uses => by
      have first := drive_nonFinite wraps lawful human uses.1
      have second := drive_nonFinite wraps lawful compact uses.2
      rw [nameNonFinite, Value.replaceFloats, Value.drive, Value.drive]
      exact if_congr Iff.rfl first second

end Drive

/-- A value wrapped for a nested serializer is its replacement, at every level. -/
theorem protoJson_present {relied : Provided → Prop} : (level : ℕ) →
    Wraps relied (Nested.Same relied level) (protoJson level)
      (Value.present level : Value → Nested m level)
  | 0, _, _ => trivial
  | level + 1, value, uses => fun _ lawful =>
      drive_nonFinite (protoJson_present level) lawful value uses

/-- Through `NonFinite` a value makes on the serializer behind exactly the calls of the value with
every float that is not finite replaced by its string: on any serializer, when the value calls no
method that is defined by others; else on one for which those that it calls do what they are
defined to do. -/
theorem nonFinite_exact {level : ℕ} (value : Value) :
    (∀ relied : Provided → Prop, value.Uses relied →
      ∀ S : Serializer m (Nested m level),
        S.Lawful relied (Nested.Same relied level) →
        value.serialize (nonFinite (protoJson level) S) = (nameNonFinite value).serialize S ∧
        toVec (fun nested : Nested m (level + 1) => nested S) value =
          (nameNonFinite value).serialize S ∧
        ((∀ float ∈ value.floats, float.isFinite = true) →
          toVec (fun nested : Nested m (level + 1) => nested S) value = value.serialize S)) ∧
    (value.Uses (fun _ => False) →
      (∀ S : Serializer m (Nested m level),
        value.serialize (nonFinite (protoJson level) S) = (nameNonFinite value).serialize S) ∧
      (∀ (α : Type) (serdeJson : Nested m level → α),
        toVec serdeJson value = serdeJson ((nameNonFinite value).present level)) ∧
      ((∀ float ∈ value.floats, float.isFinite = true) →
        ∀ (α : Type) (serdeJson : Nested m level → α),
          toVec serdeJson value = serdeJson (value.present level))) ∧
    (nameNonFinite value = value ↔ ∀ float ∈ value.floats, float.isFinite = true) := by
  have unchanged := nameNonFinite_eq_iff value
  refine ⟨?_, ?_, unchanged⟩
  · intro relied uses S lawful
    have written : value.serialize (nonFinite (protoJson level) S) =
        (nameNonFinite value).serialize S :=
      drive_nonFinite (protoJson_present level) lawful value uses
    refine ⟨written, written, ?_⟩
    intro finite
    exact written.trans (congrArg (Value.serialize · S) (unchanged.mpr finite))
  · intro uses
    have written (α : Type) (serdeJson : Nested m level → α) :
        toVec serdeJson value = serdeJson ((nameNonFinite value).present level) :=
      congrArg serdeJson (Nested.eq_of_same level _ _ (protoJson_present level value uses))
    refine ⟨?_, written, ?_⟩
    · intro S
      exact drive_nonFinite (protoJson_present level) (.of_eq (Nested.eq_of_same level) S) value uses
    · intro finite α serdeJson
      rw [written, unchanged.mpr finite]

/-! ### A writer of compact JSON

For texts without a character to escape, and floats that are whole. -/

namespace Json

def quoted (text : String) : String :=
  "\"" ++ text ++ "\""

def joinedBy (first last : String) (items : List String) : String :=
  first ++ String.intercalate "," items ++ last

def tagged (variant text : String) : String :=
  "\x7b" ++ quoted variant ++ ":" ++ text ++ "\x7d"

def scalar : Scalar → String
  | .bool value => if value then "true" else "false"
  | .i8 value => toString value.toInt
  | .i16 value => toString value.toInt
  | .i32 value => toString value.toInt
  | .i64 value => toString value.toInt
  | .i128 value => toString value.toInt
  | .u8 value => toString value.toNat
  | .u16 value => toString value.toNat
  | .u32 value => toString value.toNat
  | .u64 value => toString value.toNat
  | .u128 value => toString value.toNat
  | .char value => quoted (String.singleton value)
  | .str value => quoted value
  | .bytes value => joinedBy "[" "]" (value.map fun byte => toString byte.toNat)
  | .unitStruct _ => "null"

def float : Ieee → String
  | .finite negative magnitude => (if negative then "-" else "") ++ toString magnitude.num ++ ".0"
  | _ => "null"

abbrev Written : Type → Type := ExceptT String Id

variable (write : N → Written String)

def elements (close : String → String) : Elements Id N String String where
  State := List String
  element items nested := (fun text => items ++ [text]) <$> write nested
  finish items := pure (close (joinedBy "[" "]" items))

def entries : Entries Id N String String where
  State := List String × String
  key state nested := (fun text => (state.1, text)) <$> write nested
  value state nested := (fun text => (state.1 ++ [state.2 ++ ":" ++ text], "")) <$> write nested
  entry state first second := do
    let next ← (fun text => (state.1, text)) <$> write first
    (fun text => (next.1 ++ [next.2 ++ ":" ++ text], "")) <$> write second
  finish state := pure (joinedBy "\x7b" "\x7d" state.1)

def fields (close : String → String) : Fields Id N String String where
  State := List String
  field items key nested := (fun text => items ++ [quoted key ++ ":" ++ text]) <$> write nested
  skip items _ := pure items
  finish items := pure (close (joinedBy "\x7b" "\x7d" items))

/-- The state of a variant keeps its name. -/
def variantElements : Elements Id N String String where
  State := String × List String
  element state nested := (fun text => (state.1, state.2 ++ [text])) <$> write nested
  finish state := pure (tagged state.1 (joinedBy "[" "]" state.2))

def variantFields : Fields Id N String String where
  State := String × List String
  field state key nested :=
    (fun text => (state.1, state.2 ++ [quoted key ++ ":" ++ text])) <$> write nested
  skip state _ := pure state
  finish state := pure (tagged state.1 (joinedBy "\x7b" "\x7d" state.2))

def serializer : Serializer Id N where
  Ok := String
  Error := String
  isHumanReadable := true
  serializeScalar value := pure (scalar value)
  collectStr text := pure (quoted text)
  serializeF32 value := pure (float value)
  serializeF64 value := pure (float value)
  serializeNone := pure "null"
  serializeUnit := pure "null"
  serializeSome := write
  serializeUnitVariant _ _ variant := pure (quoted variant)
  serializeNewtypeStruct _ := write
  serializeNewtypeVariant _ _ variant nested := tagged variant <$> write nested
  Seq := elements write id
  serializeSeq _ := pure []
  Tuple := elements write id
  serializeTuple _ := pure []
  TupleStruct := elements write id
  serializeTupleStruct _ _ := pure []
  TupleVariant := variantElements write
  serializeTupleVariant _ _ variant _ := pure (variant, [])
  Map := entries write
  serializeMap _ := pure ([], "")
  collectSeq _ items := (elements write id).collect [] items
  collectMap _ pairs := (entries write).collect ([], "") pairs
  Struct := fields write id
  serializeStruct _ _ := pure []
  StructVariant := variantFields write
  serializeStructVariant _ _ variant _ := pure (variant, [])

/-- What lies deeper than the levels is not written. -/
def nested : (level : ℕ) → Nested Id level → Written String
  | 0, _ => throw "recursion limit exceeded"
  | level + 1, value => value (serializer (nested level))

theorem serializer_lawful {same : N → N → Prop}
    (respects : ∀ first second, same first second → write first = write second) :
    (serializer write).Lawful (fun _ => True) same := by
  constructor
  case collectStr => exact fun _ _ => rfl
  case collectSeq => exact fun _ _ _ => rfl
  case collectMap => exact fun _ _ _ => rfl
  case entry => exact fun _ _ _ _ => rfl
  all_goals
    intros
    rename_i related
    simp only [serializer, elements, entries, fields, variantElements, variantFields,
      respects _ _ related]

theorem nested_same : (level : ℕ) → (first second : Nested Id level) →
    Nested.Same (fun _ => True) level first second → nested level first = nested level second
  | 0, _, _, _ => rfl
  | level + 1, _, _, same => same _ (serializer_lawful _ (nested_same level))

end Json

def measured (bound : Ieee) : Value :=
  .struct "Point" 2 [.field "sum" (.some (.f64 bound)),
    .field "bounds" (.collectMap (some 1) [.pair (.display "p99")
      (.collectSeq (some 3) [.f64 (.finite false (NNRat.divNat 1 1)), .f64 (.nan false),
        .f32 (.infinite true)])])]

theorem nonFinite_exact_json :
    toVec (Json.nested 5) (measured (.infinite false)) =
      pure "\x7b\"sum\":\"Infinity\",\"bounds\":\x7b\"p99\":[1.0,\"NaN\",\"-Infinity\"]\x7d\x7d" := by
  have lawful := Json.serializer_lawful (Json.nested 4) (Json.nested_same 4)
  have uses : (measured (.infinite false)).Uses fun _ => True := by
    simp [measured, Value.Uses, Value.UsesItems, Value.UsesPairs, Pair.Uses, Value.UsesFields,
      Field.Uses]
  obtain ⟨_, written, _⟩ := (nonFinite_exact (measured (.infinite false))).1 _ uses
    (Json.serializer (Json.nested 4)) lawful
  exact written.trans rfl

end OtelLogger
