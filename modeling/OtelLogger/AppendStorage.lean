import OtelLogger.Library.Delimited

/-!
Files that are only appended to and cut back. An operation may fail at any call; what it did to
the file until then is a list of effects, so every content that the file passes through, also in
the middle of a call, is the replay of some of them.
-/

namespace OtelLogger

abbrev Bytes := List UInt8

def newline : UInt8 := 10

def utf8 (text : String) : Bytes :=
  text.toUTF8.data.toList

theorem utf8_append (first second : String) : utf8 (first ++ second) = utf8 first ++ utf8 second := by
  simp [utf8]

inductive IoError where
  | writeZero
  | os (code : ℤ)
  deriving DecidableEq

inductive Effect where
  | extend (bytes : Bytes)
  | cut (len : ℕ)
  deriving DecidableEq

/-- A file that is too short is filled up with zeros. -/
def setLen (content : Bytes) (len : ℕ) : Bytes :=
  content.take len ++ List.replicate (len - content.length) 0

def Effect.on (content : Bytes) : Effect → Bytes
  | extend bytes => content ++ bytes
  | cut len => setLen content len

def replay (content : Bytes) (effects : List Effect) : Bytes :=
  effects.foldl Effect.on content

@[simp] theorem replay_nil (content : Bytes) : replay content [] = content := rfl

@[simp] theorem replay_append (content : Bytes) (first second : List Effect) :
    replay content (first ++ second) = replay (replay content first) second :=
  List.foldl_append

theorem setLen_append (base rest : Bytes) : setLen (base ++ rest) base.length = base := by
  have enough : base.length - (base ++ rest).length = 0 := by
    rw [List.length_append]
    omega
  rw [setLen, enough, List.take_left, List.replicate_zero, List.append_nil]

@[simp] theorem replay_cut (base rest : Bytes) :
    replay (base ++ rest) [.cut base.length] = base :=
  setLen_append base rest

theorem replay_extend (content : Bytes) (chunks : List Bytes) :
    replay content (chunks.map .extend) = content ++ chunks.flatten := by
  induction chunks generalizing content with
  | nil => simp
  | cons chunk chunks ih =>
      rw [List.map_cons, replay, List.foldl_cons, ← replay, ih, List.flatten_cons,
        ← List.append_assoc]
      rfl

/-- Appending to a file and cutting it back. Every operation returns the storage it leaves
behind, also when it fails. -/
class AppendStorage (F : Type*) where
  write : F → Bytes → Except IoError ℕ × F
  flush : F → Except IoError Unit × F
  appendStart : F → Except IoError ℕ × F
  truncate : F → ℕ → Except IoError Unit × F

/-- A storage whose content, and what was done to it, can be observed. -/
class ObservedStorage (F : Type*) where
  content : F → Bytes
  effects : F → List Effect

export ObservedStorage (content effects)

/-- From one state of a storage to another, exactly these effects happened. -/
structure Passes {F : Type*} [ObservedStorage F] (file next : F) (new : List Effect) : Prop where
  effects : effects next = effects file ++ new
  content : content next = replay (content file) new

theorem Passes.refl {F : Type*} [ObservedStorage F] (file : F) : Passes file file [] :=
  ⟨(List.append_nil _).symm, rfl⟩

theorem Passes.trans {F : Type*} [ObservedStorage F] {first second third : F}
    {before after : List Effect} (left : Passes first second before)
    (right : Passes second third after) : Passes first third (before ++ after) where
  effects := by rw [right.effects, left.effects, List.append_assoc]
  content := by rw [right.content, left.content, replay_append]

/-- Only this process writes to the storage. A write takes some of the bytes and nothing when it
fails; a failing truncation may have cut the file all the same. -/
class LawfulAppendStorage (F : Type*) [AppendStorage F] [ObservedStorage F] : Prop where
  write_ok : ∀ (file : F) (bytes : Bytes) (count : ℕ) (next : F),
    AppendStorage.write file bytes = (.ok count, next) →
      count ≤ bytes.length ∧ Passes file next [.extend (bytes.take count)]
  write_error : ∀ (file : F) (bytes : Bytes) (error : IoError) (next : F),
    AppendStorage.write file bytes = (.error error, next) → Passes file next []
  flush_passes : ∀ file : F, Passes file (AppendStorage.flush file).2 []
  appendStart_passes : ∀ file : F, Passes file (AppendStorage.appendStart file).2 []
  appendStart_ok : ∀ (file : F) (start : ℕ),
    (AppendStorage.appendStart file).1 = .ok start → start = (content file).length
  truncate_ok : ∀ (file : F) (len : ℕ), (AppendStorage.truncate file len).1 = .ok () →
    Passes file (AppendStorage.truncate file len).2 [.cut len]
  truncate_error : ∀ (file : F) (len : ℕ) (error : IoError),
    (AppendStorage.truncate file len).1 = .error error →
      Passes file (AppendStorage.truncate file len).2 [] ∨
        Passes file (AppendStorage.truncate file len).2 [.cut len]

/-! ### Writing everything -/

section WriteAll

variable {F : Type*} [AppendStorage F]

/-- Every round writes at least one byte, so there are at most `bytes.length` of them. The
standard library retries interrupted calls by itself. -/
def writeRounds (rounds : ℕ) (file : F) (bytes : Bytes) : Except IoError Unit × F :=
  if bytes = [] then (.ok (), file)
  else
    match rounds with
    | 0 => (.error .writeZero, file)
    | rounds + 1 =>
        match AppendStorage.write file bytes with
        | (.error error, next) => (.error error, next)
        | (.ok count, next) =>
            if count = 0 then (.error .writeZero, next)
            else writeRounds rounds next (bytes.drop count)

def writeAll (file : F) (bytes : Bytes) : Except IoError Unit × F :=
  writeRounds bytes.length file bytes

variable [ObservedStorage F] [LawfulAppendStorage F]

theorem writeRounds_passes (rounds : ℕ) (file : F) (bytes : Bytes) :
    ∃ chunks : List Bytes, Passes file (writeRounds rounds file bytes).2 (chunks.map .extend) ∧
      chunks.flatten <+: bytes ∧
      ((writeRounds rounds file bytes).1 = .ok () → chunks.flatten = bytes) := by
  induction rounds generalizing file bytes with
  | zero =>
      refine ⟨[], ?_⟩
      by_cases empty : bytes = []
      · subst bytes
        exact ⟨Passes.refl file, List.prefix_rfl, fun _ => rfl⟩
      · simp only [writeRounds, if_neg empty]
        exact ⟨Passes.refl file, List.nil_prefix, fun done => by simp at done⟩
  | succ rounds ih =>
      by_cases empty : bytes = []
      · subst bytes
        exact ⟨[], Passes.refl file, List.prefix_rfl, fun _ => rfl⟩
      · simp only [writeRounds, if_neg empty]
        rcases written : AppendStorage.write file bytes with ⟨error | count, next⟩
        · exact ⟨[], LawfulAppendStorage.write_error file bytes error next written,
            List.nil_prefix, fun done => by simp at done⟩
        · obtain ⟨_, passes⟩ := LawfulAppendStorage.write_ok file bytes count next written
          dsimp only
          split
          · rename_i nothing
            subst count
            refine ⟨[[]], ?_, List.nil_prefix, fun done => by simp at done⟩
            simpa using passes
          · obtain ⟨chunks, later, begun, all⟩ := ih next (bytes.drop count)
            refine ⟨bytes.take count :: chunks, passes.trans later, ?_, fun done => ?_⟩
            · rw [List.flatten_cons]
              conv_rhs => rw [← List.take_append_drop count bytes]
              exact (List.prefix_append_right_inj _).mpr begun
            · rw [List.flatten_cons, all done, List.take_append_drop]

theorem writeAll_passes (file : F) (bytes : Bytes) :
    ∃ chunks : List Bytes, Passes file (writeAll file bytes).2 (chunks.map .extend) ∧
      chunks.flatten <+: bytes ∧
      ((writeAll file bytes).1 = .ok () → chunks.flatten = bytes) :=
  writeRounds_passes bytes.length file bytes

end WriteAll

end OtelLogger
