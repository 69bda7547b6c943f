import Mathlib.Control.Basic
import Mathlib.Data.NNRat.Defs

/-!
A data model for serialization and the serializers that values are handed to. A serializer gets a
nested value as something it can serialize again, with a serializer of its choice; levels bound
how deep this goes, so that a serializer of one level may use any of the level below.
-/

namespace DataModel

/-- A float of either width; widening keeps the description. -/
inductive Ieee where
  | nan (negative : Bool)
  | infinite (negative : Bool)
  | finite (negative : Bool) (magnitude : ℚ≥0)
  deriving DecidableEq

def Ieee.isFinite : Ieee → Bool
  | finite _ _ => true
  | _ => false

inductive Scalar where
  | bool (value : Bool)
  | i8 (value : Int8)
  | i16 (value : Int16)
  | i32 (value : Int32)
  | i64 (value : Int64)
  | i128 (value : BitVec 128)
  | u8 (value : UInt8)
  | u16 (value : UInt16)
  | u32 (value : UInt32)
  | u64 (value : UInt64)
  | u128 (value : BitVec 128)
  | char (value : Char)
  | str (value : String)
  | bytes (value : List UInt8)
  | unitStruct (name : String)

mutual

/-- `display` is a text that is formatted on the way, `collectSeq` and `collectMap` hand over an
iterator, and `readable` has a form for people and a form for machines. -/
inductive Value where
  | scalar (value : Scalar)
  | display (text : String)
  | f32 (value : Ieee)
  | f64 (value : Ieee)
  | none
  | unit
  | some (value : Value)
  | unitVariant (name : String) (index : UInt32) (variant : String)
  | newtypeStruct (name : String) (value : Value)
  | newtypeVariant (name : String) (index : UInt32) (variant : String) (value : Value)
  | seq (len : Option ℕ) (items : List Value)
  | tuple (len : ℕ) (items : List Value)
  | tupleStruct (name : String) (len : ℕ) (items : List Value)
  | tupleVariant (name : String) (index : UInt32) (variant : String) (len : ℕ)
      (items : List Value)
  | map (len : Option ℕ) (entries : List MapStep)
  | collectSeq (len : Option ℕ) (items : List Value)
  | collectMap (len : Option ℕ) (pairs : List Pair)
  | struct (name : String) (len : ℕ) (fields : List Field)
  | structVariant (name : String) (index : UInt32) (variant : String) (len : ℕ)
      (fields : List Field)
  | readable (human compact : Value)

inductive Pair where
  | pair (key value : Value)

inductive MapStep where
  | key (key : Value)
  | value (value : Value)
  | entry (key value : Value)

inductive Field where
  | field (key : String) (value : Value)
  | skip (key : String)

end

section Serializers

variable (m : Type → Type) [Monad m] (Nested : Type 1)

/-- The state of a sequence or tuple that is being written. -/
structure Elements (Ok Error : Type) : Type 1 where
  State : Type
  element : State → Nested → ExceptT Error m State
  finish : State → ExceptT Error m Ok

/-- The state of a map; an entry may be written at once. -/
structure Entries (Ok Error : Type) : Type 1 where
  State : Type
  key : State → Nested → ExceptT Error m State
  value : State → Nested → ExceptT Error m State
  entry : State → Nested → Nested → ExceptT Error m State
  finish : State → ExceptT Error m Ok

/-- The state of a struct. -/
structure Fields (Ok Error : Type) : Type 1 where
  State : Type
  field : State → String → Nested → ExceptT Error m State
  skip : State → String → ExceptT Error m State
  finish : State → ExceptT Error m Ok

/-- What a value can call; a text may be formatted straight into the output, and an iterator may
be handed over whole. -/
structure Serializer : Type 1 where
  Ok : Type
  Error : Type
  isHumanReadable : Bool
  serializeScalar : Scalar → ExceptT Error m Ok
  collectStr : String → ExceptT Error m Ok
  serializeF32 : Ieee → ExceptT Error m Ok
  serializeF64 : Ieee → ExceptT Error m Ok
  serializeNone : ExceptT Error m Ok
  serializeUnit : ExceptT Error m Ok
  serializeSome : Nested → ExceptT Error m Ok
  serializeUnitVariant : String → UInt32 → String → ExceptT Error m Ok
  serializeNewtypeStruct : String → Nested → ExceptT Error m Ok
  serializeNewtypeVariant : String → UInt32 → String → Nested → ExceptT Error m Ok
  Seq : Elements m Nested Ok Error
  serializeSeq : Option ℕ → ExceptT Error m Seq.State
  Tuple : Elements m Nested Ok Error
  serializeTuple : ℕ → ExceptT Error m Tuple.State
  TupleStruct : Elements m Nested Ok Error
  serializeTupleStruct : String → ℕ → ExceptT Error m TupleStruct.State
  TupleVariant : Elements m Nested Ok Error
  serializeTupleVariant : String → UInt32 → String → ℕ → ExceptT Error m TupleVariant.State
  Map : Entries m Nested Ok Error
  serializeMap : Option ℕ → ExceptT Error m Map.State
  collectSeq : Option ℕ → List Nested → ExceptT Error m Ok
  collectMap : Option ℕ → List (Nested × Nested) → ExceptT Error m Ok
  Struct : Fields m Nested Ok Error
  serializeStruct : String → ℕ → ExceptT Error m Struct.State
  StructVariant : Fields m Nested Ok Error
  serializeStructVariant : String → UInt32 → String → ℕ → ExceptT Error m StructVariant.State

variable {m Nested}

def Elements.collect {Ok Error : Type} (elements : Elements m Nested Ok Error)
    (state : elements.State) (items : List Nested) : ExceptT Error m Ok :=
  items.foldlM elements.element state >>= elements.finish

def Entries.collect {Ok Error : Type} (entries : Entries m Nested Ok Error)
    (state : entries.State) (pairs : List (Nested × Nested)) : ExceptT Error m Ok :=
  pairs.foldlM (fun state pair => entries.entry state pair.1 pair.2) state >>= entries.finish

/-- The provided methods: they are defined by others, and a serializer may define them anew. -/
inductive Provided where
  | collectStr
  | collectSeq
  | collectMap
  | entry

/-- What a serializer may be relied on for: each method that is `relied` on does what it is defined
to do, and a nested value is looked at only up to a relation. -/
structure Serializer.Lawful (relied : Provided → Prop) (same : Nested → Nested → Prop)
    (S : Serializer m Nested) : Prop where
  collectStr : relied .collectStr → ∀ text, S.collectStr text = S.serializeScalar (.str text)
  collectSeq : relied .collectSeq → ∀ len items, S.collectSeq len items =
    S.serializeSeq len >>= fun state => S.Seq.collect state items
  collectMap : relied .collectMap → ∀ len pairs, S.collectMap len pairs =
    S.serializeMap len >>= fun state => S.Map.collect state pairs
  entry : relied .entry → ∀ state first second, S.Map.entry state first second =
    S.Map.key state first >>= fun next => S.Map.value next second
  some : ∀ first second, same first second → S.serializeSome first = S.serializeSome second
  newtypeStruct : ∀ name first second, same first second →
    S.serializeNewtypeStruct name first = S.serializeNewtypeStruct name second
  newtypeVariant : ∀ name index variant first second, same first second →
    S.serializeNewtypeVariant name index variant first =
      S.serializeNewtypeVariant name index variant second
  seq : ∀ state first second, same first second →
    S.Seq.element state first = S.Seq.element state second
  tuple : ∀ state first second, same first second →
    S.Tuple.element state first = S.Tuple.element state second
  tupleStruct : ∀ state first second, same first second →
    S.TupleStruct.element state first = S.TupleStruct.element state second
  tupleVariant : ∀ state first second, same first second →
    S.TupleVariant.element state first = S.TupleVariant.element state second
  key : ∀ state first second, same first second → S.Map.key state first = S.Map.key state second
  value : ∀ state first second, same first second →
    S.Map.value state first = S.Map.value state second
  struct : ∀ state key first second, same first second →
    S.Struct.field state key first = S.Struct.field state key second
  structVariant : ∀ state key first second, same first second →
    S.StructVariant.field state key first = S.StructVariant.field state key second

/-- Every serializer is lawful where nothing is relied on. -/
theorem Serializer.Lawful.of_eq {same : Nested → Nested → Prop}
    (equal : ∀ first second, same first second → first = second) (S : Serializer m Nested) :
    S.Lawful (fun _ => False) same := by
  constructor
  iterate 4 exact False.elim
  all_goals
    intros
    rename_i related
    rw [equal _ _ related]

namespace Elements

variable {Ok Error : Type}

def step (elements : Elements m Nested Ok Error) (child : Value → Nested) (state : elements.State)
    (item : Value) : ExceptT Error m elements.State :=
  elements.element state (child item)

def writeAll (elements : Elements m Nested Ok Error) (child : Value → Nested)
    (state : elements.State) (items : List Value) : ExceptT Error m Ok :=
  items.foldlM (elements.step child) state >>= elements.finish

theorem collect_map (elements : Elements m Nested Ok Error) (child : Value → Nested)
    (state : elements.State) (items : List Value) :
    elements.collect state (items.map child) = elements.writeAll child state items := by
  rw [collect, List.foldlM_map]
  rfl

end Elements

namespace Entries

variable {Ok Error : Type}

def step (entries : Entries m Nested Ok Error) (child : Value → Nested) (state : entries.State) :
    MapStep → ExceptT Error m entries.State
  | .key first => entries.key state (child first)
  | .value second => entries.value state (child second)
  | .entry first second => entries.entry state (child first) (child second)

def writeAll (entries : Entries m Nested Ok Error) (child : Value → Nested)
    (state : entries.State) (steps : List MapStep) : ExceptT Error m Ok :=
  steps.foldlM (entries.step child) state >>= entries.finish

end Entries

def Pair.present (child : Value → Nested) : Pair → Nested × Nested
  | .pair key value => (child key, child value)

def Pair.step : Pair → MapStep
  | .pair key value => .entry key value

theorem Entries.collect_map {Ok Error : Type} (entries : Entries m Nested Ok Error)
    (child : Value → Nested) (state : entries.State) (pairs : List Pair) :
    entries.collect state (pairs.map (Pair.present child)) =
      entries.writeAll child state (pairs.map Pair.step) := by
  have one (state : entries.State) (pair : Pair) :
      entries.entry state (pair.present child).1 (pair.present child).2 =
        entries.step child state pair.step := by
    cases pair
    rfl
  rw [collect, writeAll, List.foldlM_map, List.foldlM_map]
  simp only [one]

namespace Fields

variable {Ok Error : Type}

def step (fields : Fields m Nested Ok Error) (child : Value → Nested) (state : fields.State) :
    Field → ExceptT Error m fields.State
  | .field key value => fields.field state key (child value)
  | .skip key => fields.skip state key

def writeAll (fields : Fields m Nested Ok Error) (child : Value → Nested)
    (state : fields.State) (steps : List Field) : ExceptT Error m Ok :=
  steps.foldlM (fields.step child) state >>= fields.finish

end Fields

/-- The calls a value makes, with its children presented as `child` has them. -/
def Value.drive (child : Value → Nested) (S : Serializer m Nested) :
    Value → ExceptT S.Error m S.Ok
  | .scalar value => S.serializeScalar value
  | .display text => S.collectStr text
  | .f32 value => S.serializeF32 value
  | .f64 value => S.serializeF64 value
  | .none => S.serializeNone
  | .unit => S.serializeUnit
  | .some value => S.serializeSome (child value)
  | .unitVariant name index variant => S.serializeUnitVariant name index variant
  | .newtypeStruct name value => S.serializeNewtypeStruct name (child value)
  | .newtypeVariant name index variant value =>
      S.serializeNewtypeVariant name index variant (child value)
  | .seq len items => S.serializeSeq len >>= fun state => S.Seq.writeAll child state items
  | .tuple len items => S.serializeTuple len >>= fun state => S.Tuple.writeAll child state items
  | .tupleStruct name len items =>
      S.serializeTupleStruct name len >>= fun state => S.TupleStruct.writeAll child state items
  | .tupleVariant name index variant len items =>
      S.serializeTupleVariant name index variant len >>= fun state =>
        S.TupleVariant.writeAll child state items
  | .map len entries => S.serializeMap len >>= fun state => S.Map.writeAll child state entries
  | .collectSeq len items => S.collectSeq len (items.map child)
  | .collectMap len pairs => S.collectMap len (pairs.map (Pair.present child))
  | .struct name len fields =>
      S.serializeStruct name len >>= fun state => S.Struct.writeAll child state fields
  | .structVariant name index variant len fields =>
      S.serializeStructVariant name index variant len >>= fun state =>
        S.StructVariant.writeAll child state fields
  | .readable human compact =>
      if S.isHumanReadable then human.drive child S else compact.drive child S

end Serializers

/-! ### Levels -/

/-- A nested value, for a serializer that looks at most `level` deep into what it is handed. -/
def Nested (m : Type → Type) [Monad m] : ℕ → Type 1
  | 0 => PUnit
  | level + 1 => ∀ S : Serializer m (Nested m level), ExceptT S.Error m S.Ok

/-- How a value is handed to a serializer. -/
def Value.present {m : Type → Type} [Monad m] : (level : ℕ) → Value → Nested m level
  | 0, _ => PUnit.unit
  | level + 1, value => fun S => value.drive (Value.present level) S

def Value.serialize {m : Type → Type} [Monad m] {level : ℕ} (value : Value)
    (S : Serializer m (Nested m level)) : ExceptT S.Error m S.Ok :=
  value.drive (Value.present level) S

/-- No serializer that may be relied on tells the two apart. -/
def Nested.Same {m : Type → Type} [Monad m] (relied : Provided → Prop) :
    (level : ℕ) → Nested m level → Nested m level → Prop
  | 0, _, _ => True
  | level + 1, first, second => ∀ S : Serializer m (Nested m level),
      S.Lawful relied (Nested.Same relied level) → first S = second S

theorem Nested.eq_of_same {m : Type → Type} [Monad m] :
    (level : ℕ) → (first second : Nested m level) →
      Nested.Same (fun _ => False) level first second → first = second
  | 0, _, _, _ => rfl
  | level + 1, _, _, same => funext fun S => same S (.of_eq (Nested.eq_of_same level) S)

/-! ### What a value relies on -/

section Uses

variable (relied : Provided → Prop)

mutual

/-- Of the methods that are defined by others, the value calls only those that are `relied` on. -/
def Value.Uses : Value → Prop
  | .display _ => relied .collectStr
  | .some value | .newtypeStruct _ value | .newtypeVariant _ _ _ value => value.Uses
  | .seq _ items | .tuple _ items | .tupleStruct _ _ items | .tupleVariant _ _ _ _ items =>
      Value.UsesItems items
  | .map _ entries => Value.UsesEntries entries
  | .collectSeq _ items => relied .collectSeq ∧ Value.UsesItems items
  | .collectMap _ pairs => relied .collectMap ∧ relied .entry ∧ Value.UsesPairs pairs
  | .struct _ _ fields | .structVariant _ _ _ _ fields => Value.UsesFields fields
  | .readable human compact => human.Uses ∧ compact.Uses
  | _ => True

def Value.UsesItems : List Value → Prop
  | [] => True
  | item :: rest => item.Uses ∧ Value.UsesItems rest

def Pair.Uses : Pair → Prop
  | .pair key value => key.Uses ∧ value.Uses

def Value.UsesPairs : List Pair → Prop
  | [] => True
  | pair :: rest => pair.Uses ∧ Value.UsesPairs rest

def MapStep.Uses : MapStep → Prop
  | .key first => first.Uses
  | .value second => second.Uses
  | .entry first second => relied .entry ∧ first.Uses ∧ second.Uses

def Value.UsesEntries : List MapStep → Prop
  | [] => True
  | step :: rest => step.Uses ∧ Value.UsesEntries rest

def Field.Uses : Field → Prop
  | .field _ value => value.Uses
  | .skip _ => True

def Value.UsesFields : List Field → Prop
  | [] => True
  | field :: rest => field.Uses ∧ Value.UsesFields rest

end

variable {relied}

theorem Value.uses_of_mem {items : List Value} (uses : Value.UsesItems relied items) :
    ∀ item ∈ items, item.Uses relied := by
  induction items with
  | nil => exact List.forall_mem_nil _
  | cons item rest ih => exact List.forall_mem_cons.mpr ⟨uses.1, ih uses.2⟩

theorem Pair.uses_steps {pairs : List Pair} (entry : relied .entry)
    (uses : Value.UsesPairs relied pairs) : Value.UsesEntries relied (pairs.map Pair.step) := by
  induction pairs with
  | nil => trivial
  | cons pair rest ih =>
      obtain ⟨key, value⟩ := pair
      exact ⟨⟨entry, uses.1⟩, ih uses.2⟩

theorem MapStep.uses_of_mem {steps : List MapStep} (uses : Value.UsesEntries relied steps) :
    ∀ step ∈ steps, step.Uses relied := by
  induction steps with
  | nil => exact List.forall_mem_nil _
  | cons step rest ih => exact List.forall_mem_cons.mpr ⟨uses.1, ih uses.2⟩

theorem Field.uses_of_mem {fields : List Field} (uses : Value.UsesFields relied fields) :
    ∀ field ∈ fields, field.Uses relied := by
  induction fields with
  | nil => exact List.forall_mem_nil _
  | cons field rest ih => exact List.forall_mem_cons.mpr ⟨uses.1, ih uses.2⟩

end Uses

/-- Two loops that agree on what they are given write the same. -/
theorem foldlM_map_congr {M : Type → Type} [Monad M] {State : Type} {α β : Type*}
    {first : State → α → M State} {second : State → β → M State} {change : α → β} {items : List α}
    (agree : ∀ item ∈ items, ∀ state, first state item = second state (change item)) :
    ∀ state, items.foldlM first state = (items.map change).foldlM second state := by
  induction items with
  | nil => exact fun _ => rfl
  | cons item rest ih =>
      obtain ⟨head, tail⟩ := List.forall_mem_cons.mp agree
      intro state
      rw [List.map_cons, List.foldlM_cons, List.foldlM_cons, head]
      exact congrArg _ (funext (ih tail))

/-! ### Replacing floats -/

section Replace

variable (f32 f64 : Ieee → Value)

mutual

def Value.replaceFloats : Value → Value
  | .f32 value => f32 value
  | .f64 value => f64 value
  | .some value => .some value.replaceFloats
  | .newtypeStruct name value => .newtypeStruct name value.replaceFloats
  | .newtypeVariant name index variant value =>
      .newtypeVariant name index variant value.replaceFloats
  | .seq len items => .seq len (Value.replaceItems items)
  | .tuple len items => .tuple len (Value.replaceItems items)
  | .tupleStruct name len items => .tupleStruct name len (Value.replaceItems items)
  | .tupleVariant name index variant len items =>
      .tupleVariant name index variant len (Value.replaceItems items)
  | .map len entries => .map len (Value.replaceEntries entries)
  | .collectSeq len items => .collectSeq len (Value.replaceItems items)
  | .collectMap len pairs => .collectMap len (Value.replacePairs pairs)
  | .struct name len fields => .struct name len (Value.replaceFields fields)
  | .structVariant name index variant len fields =>
      .structVariant name index variant len (Value.replaceFields fields)
  | .readable human compact => .readable human.replaceFloats compact.replaceFloats
  | other => other

def Value.replaceItems : List Value → List Value
  | [] => []
  | item :: rest => item.replaceFloats :: Value.replaceItems rest

def Pair.replaceFloats : Pair → Pair
  | .pair key value => .pair key.replaceFloats value.replaceFloats

def Value.replacePairs : List Pair → List Pair
  | [] => []
  | pair :: rest => pair.replaceFloats :: Value.replacePairs rest

def MapStep.replaceFloats : MapStep → MapStep
  | .key first => .key first.replaceFloats
  | .value second => .value second.replaceFloats
  | .entry first second => .entry first.replaceFloats second.replaceFloats

def Value.replaceEntries : List MapStep → List MapStep
  | [] => []
  | step :: rest => step.replaceFloats :: Value.replaceEntries rest

def Field.replaceFloats : Field → Field
  | .field key value => .field key value.replaceFloats
  | .skip key => .skip key

def Value.replaceFields : List Field → List Field
  | [] => []
  | field :: rest => field.replaceFloats :: Value.replaceFields rest

end

@[simp] theorem Value.replaceItems_eq (items : List Value) :
    Value.replaceItems f32 f64 items = items.map (Value.replaceFloats f32 f64) := by
  induction items with
  | nil => rfl
  | cons item rest ih => rw [Value.replaceItems, ih, List.map_cons]

@[simp] theorem Value.replacePairs_eq (pairs : List Pair) :
    Value.replacePairs f32 f64 pairs = pairs.map (Pair.replaceFloats f32 f64) := by
  induction pairs with
  | nil => rfl
  | cons pair rest ih => rw [Value.replacePairs, ih, List.map_cons]

theorem Pair.step_replaceFloats (pair : Pair) :
    (pair.replaceFloats f32 f64).step = pair.step.replaceFloats f32 f64 := by
  cases pair
  rfl

@[simp] theorem Value.replaceEntries_eq (steps : List MapStep) :
    Value.replaceEntries f32 f64 steps = steps.map (MapStep.replaceFloats f32 f64) := by
  induction steps with
  | nil => rfl
  | cons step rest ih => rw [Value.replaceEntries, ih, List.map_cons]

@[simp] theorem Value.replaceFields_eq (fields : List Field) :
    Value.replaceFields f32 f64 fields = fields.map (Field.replaceFloats f32 f64) := by
  induction fields with
  | nil => rfl
  | cons field rest ih => rw [Value.replaceFields, ih, List.map_cons]

end Replace

mutual

def Value.floats : Value → List Ieee
  | .f32 value | .f64 value => [value]
  | .some value | .newtypeStruct _ value | .newtypeVariant _ _ _ value => value.floats
  | .seq _ items | .tuple _ items | .tupleStruct _ _ items | .tupleVariant _ _ _ _ items =>
      Value.floatsOfItems items
  | .map _ entries => Value.floatsOfEntries entries
  | .collectSeq _ items => Value.floatsOfItems items
  | .collectMap _ pairs => Value.floatsOfPairs pairs
  | .struct _ _ fields | .structVariant _ _ _ _ fields => Value.floatsOfFields fields
  | .readable human compact => human.floats ++ compact.floats
  | _ => []

def Value.floatsOfItems : List Value → List Ieee
  | [] => []
  | item :: rest => item.floats ++ Value.floatsOfItems rest

def Pair.floats : Pair → List Ieee
  | .pair key value => key.floats ++ value.floats

def Value.floatsOfPairs : List Pair → List Ieee
  | [] => []
  | pair :: rest => pair.floats ++ Value.floatsOfPairs rest

def MapStep.floats : MapStep → List Ieee
  | .key first => first.floats
  | .value second => second.floats
  | .entry first second => first.floats ++ second.floats

def Value.floatsOfEntries : List MapStep → List Ieee
  | [] => []
  | step :: rest => step.floats ++ Value.floatsOfEntries rest

def Field.floats : Field → List Ieee
  | .field _ value => value.floats
  | .skip _ => []

def Value.floatsOfFields : List Field → List Ieee
  | [] => []
  | field :: rest => field.floats ++ Value.floatsOfFields rest

end

/-- The replacements leave the floats of one kind alone, and no others. -/
structure Keeps (f32 f64 : Ieee → Value) (kept : Ieee → Prop) : Prop where
  f32 : ∀ value, f32 value = .f32 value ↔ kept value
  f64 : ∀ value, f64 value = .f64 value ↔ kept value

section Unchanged

variable {f32 f64 : Ieee → Value} {kept : Ieee → Prop}

mutual

theorem Value.replaceFloats_eq_iff (keeps : Keeps f32 f64 kept) :
    (value : Value) → (value.replaceFloats f32 f64 = value ↔ ∀ float ∈ value.floats, kept float)
  | .f32 value => by simp [Value.replaceFloats, Value.floats, keeps.f32]
  | .f64 value => by simp [Value.replaceFloats, Value.floats, keeps.f64]
  | .some value | .newtypeStruct _ value | .newtypeVariant _ _ _ value => by
      simp [Value.replaceFloats, Value.floats, Value.replaceFloats_eq_iff keeps value]
  | .seq _ items | .tuple _ items | .tupleStruct _ _ items | .tupleVariant _ _ _ _ items
  | .collectSeq _ items => by
      simpa [Value.replaceFloats, Value.floats] using Value.replaceItems_eq_iff keeps items
  | .collectMap _ pairs => by
      simpa [Value.replaceFloats, Value.floats] using Value.replacePairs_eq_iff keeps pairs
  | .map _ entries => by
      simpa [Value.replaceFloats, Value.floats] using Value.replaceEntries_eq_iff keeps entries
  | .struct _ _ fields | .structVariant _ _ _ _ fields => by
      simpa [Value.replaceFloats, Value.floats] using Value.replaceFields_eq_iff keeps fields
  | .readable human compact => by
      simp [Value.replaceFloats, Value.floats, Value.replaceFloats_eq_iff keeps human,
        Value.replaceFloats_eq_iff keeps compact, or_imp, forall_and]
  | .scalar _ | .display _ | .none | .unit | .unitVariant _ _ _ => by
      simp [Value.replaceFloats, Value.floats]

theorem Value.replaceItems_eq_iff (keeps : Keeps f32 f64 kept) :
    (items : List Value) → (items.map (Value.replaceFloats f32 f64) = items ↔
      ∀ float ∈ Value.floatsOfItems items, kept float)
  | [] => by simp [Value.floatsOfItems]
  | item :: rest => by
      simp [Value.floatsOfItems, Value.replaceFloats_eq_iff keeps item,
        Value.replaceItems_eq_iff keeps rest, or_imp, forall_and]

theorem Pair.replaceFloats_eq_iff (keeps : Keeps f32 f64 kept) :
    (pair : Pair) → (pair.replaceFloats f32 f64 = pair ↔ ∀ float ∈ pair.floats, kept float)
  | .pair key value => by
      simp [Pair.replaceFloats, Pair.floats, Value.replaceFloats_eq_iff keeps key,
        Value.replaceFloats_eq_iff keeps value, or_imp, forall_and]

theorem Value.replacePairs_eq_iff (keeps : Keeps f32 f64 kept) :
    (pairs : List Pair) → (pairs.map (Pair.replaceFloats f32 f64) = pairs ↔
      ∀ float ∈ Value.floatsOfPairs pairs, kept float)
  | [] => by simp [Value.floatsOfPairs]
  | pair :: rest => by
      simp [Value.floatsOfPairs, Pair.replaceFloats_eq_iff keeps pair,
        Value.replacePairs_eq_iff keeps rest, or_imp, forall_and]

theorem MapStep.replaceFloats_eq_iff (keeps : Keeps f32 f64 kept) :
    (step : MapStep) → (step.replaceFloats f32 f64 = step ↔ ∀ float ∈ step.floats, kept float)
  | .key first | .value first => by
      simp [MapStep.replaceFloats, MapStep.floats, Value.replaceFloats_eq_iff keeps first]
  | .entry first second => by
      simp [MapStep.replaceFloats, MapStep.floats, Value.replaceFloats_eq_iff keeps first,
        Value.replaceFloats_eq_iff keeps second, or_imp, forall_and]

theorem Value.replaceEntries_eq_iff (keeps : Keeps f32 f64 kept) :
    (steps : List MapStep) → (steps.map (MapStep.replaceFloats f32 f64) = steps ↔
      ∀ float ∈ Value.floatsOfEntries steps, kept float)
  | [] => by simp [Value.floatsOfEntries]
  | step :: rest => by
      simp [Value.floatsOfEntries, MapStep.replaceFloats_eq_iff keeps step,
        Value.replaceEntries_eq_iff keeps rest, or_imp, forall_and]

theorem Field.replaceFloats_eq_iff (keeps : Keeps f32 f64 kept) :
    (field : Field) → (field.replaceFloats f32 f64 = field ↔ ∀ float ∈ field.floats, kept float)
  | .field _ value => by
      simp [Field.replaceFloats, Field.floats, Value.replaceFloats_eq_iff keeps value]
  | .skip _ => by simp [Field.replaceFloats, Field.floats]

theorem Value.replaceFields_eq_iff (keeps : Keeps f32 f64 kept) :
    (fields : List Field) → (fields.map (Field.replaceFloats f32 f64) = fields ↔
      ∀ float ∈ Value.floatsOfFields fields, kept float)
  | [] => by simp [Value.floatsOfFields]
  | field :: rest => by
      simp [Value.floatsOfFields, Field.replaceFloats_eq_iff keeps field,
        Value.replaceFields_eq_iff keeps rest, or_imp, forall_and]

end

end Unchanged

end DataModel
