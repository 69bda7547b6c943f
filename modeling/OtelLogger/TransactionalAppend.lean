import OtelLogger.Disk

/-!
Appends that are taken back when they fail. What one call can do is said once, in `AppendCase`;
from it, a run of calls leaves the acknowledged bytes in order and at most one residue, whose
start is remembered.
-/

namespace OtelLogger

structure TransactionalAppend (F : Type*) where
  file : F
  rollback : Option ℕ

namespace TransactionalAppend

variable {F : Type*}

section Operations

variable [AppendStorage F]

/-- Cuts off what a failed append left behind, if anything. -/
def repair (writer : TransactionalAppend F) : Except IoError Unit × TransactionalAppend F :=
  match writer.rollback with
  | none => (.ok (), writer)
  | some start =>
      match AppendStorage.truncate writer.file start with
      | (.error error, file) => (.error error, { writer with file := file })
      | (.ok _, file) => (.ok (), { file := file, rollback := none })

def writeAndFlush (file : F) (bytes : Bytes) : Except IoError Unit × F :=
  match writeAll file bytes with
  | (.error error, file) => (.error error, file)
  | (.ok _, file) => AppendStorage.flush file

def append (writer : TransactionalAppend F) (bytes : Bytes) :
    Except IoError Unit × TransactionalAppend F :=
  match writer.repair with
  | (.error error, writer) => (.error error, writer)
  | (.ok _, writer) =>
      match AppendStorage.appendStart writer.file with
      | (.error error, file) => (.error error, { writer with file := file })
      | (.ok start, file) =>
          match writeAndFlush file bytes with
          | (.ok _, file) => (.ok (), { writer with file := file })
          | (.error error, file) =>
              match AppendStorage.truncate file start with
              | (.ok _, file) => (.error error, { file := file, rollback := none })
              | (.error _, file) => (.error error, { file := file, rollback := some start })

theorem append_blocked (writer : TransactionalAppend F) {start : ℕ} {error : IoError} (pending : writer.rollback = some start)
    (failing : (AppendStorage.truncate writer.file start).1 = .error error) (bytes : Bytes) :
    writer.append bytes =
      (.error error, { writer with file := (AppendStorage.truncate writer.file start).2 }) := by
  have repairing : writer.repair =
      (.error error, { writer with file := (AppendStorage.truncate writer.file start).2 }) := by
    simp only [repair, pending]
    generalize AppendStorage.truncate writer.file start = truncated at failing ⊢
    obtain ⟨result, file⟩ := truncated
    obtain rfl : result = .error error := failing
    rfl
  simp only [append, repairing]

theorem append_respects {related : F → F → Prop} (refl : ∀ file, related file file)
    (trans : ∀ first second third, related first second → related second third →
      related first third)
    (write : ∀ file bytes, related file (AppendStorage.write file bytes).2)
    (flush : ∀ file : F, related file (AppendStorage.flush file).2)
    (appendStart : ∀ file : F, related file (AppendStorage.appendStart file).2)
    (truncate : ∀ (file : F) (len : ℕ), related file (AppendStorage.truncate file len).2)
    (writer : TransactionalAppend F) (bytes : Bytes) :
    related writer.file writer.repair.2.file ∧ related writer.file (writer.append bytes).2.file := by
  have rounds (count : ℕ) (file : F) (bytes : Bytes) :
      related file (writeRounds count file bytes).2 := by
    induction count generalizing file bytes with
    | zero =>
        rw [writeRounds]
        split <;> exact refl file
    | succ count ih =>
        have first := write file bytes
        rw [writeRounds]
        split
        · exact refl file
        · generalize AppendStorage.write file bytes = written at first ⊢
          rcases written with ⟨error | taken, next⟩
          · exact first
          · dsimp only
            split
            · exact first
            · exact trans _ _ _ first (ih next _)
  have everything (file : F) : related file (writeAndFlush file bytes).2 := by
    have first := rounds bytes.length file bytes
    rw [← writeAll] at first
    rw [writeAndFlush]
    generalize writeAll file bytes = written at first ⊢
    rcases written with ⟨error | done, next⟩
    · exact first
    · exact trans _ _ _ first (flush next)
  have repaired : related writer.file writer.repair.2.file := by
    unfold repair
    cases writer.rollback with
    | none => exact refl _
    | some start =>
        have cut := truncate writer.file start
        dsimp only
        generalize AppendStorage.truncate writer.file start = truncated at cut ⊢
        rcases truncated with ⟨error | done, file⟩
        · exact cut
        · exact cut
  refine ⟨repaired, ?_⟩
  unfold append
  generalize writer.repair = repair at repaired ⊢
  rcases repair with ⟨error | done, reached⟩
  · exact repaired
  · have started := appendStart reached.file
    dsimp only at repaired ⊢
    generalize AppendStorage.appendStart reached.file = started_at at started ⊢
    rcases started_at with ⟨error | start, file⟩
    · exact trans _ _ _ repaired started
    · have tried := everything file
      have before := trans _ _ _ repaired started
      dsimp only at before ⊢
      generalize writeAndFlush file bytes = written at tried ⊢
      rcases written with ⟨error | done, next⟩
      · have cut := truncate next start
        dsimp only at tried ⊢
        generalize AppendStorage.truncate next start = truncated at cut ⊢
        rcases truncated with ⟨failure | undone, last⟩
        · exact trans _ _ _ (trans _ _ _ before tried) cut
        · exact trans _ _ _ (trans _ _ _ before tried) cut
      · exact trans _ _ _ before tried

end Operations

/-! ### One call -/

def repairEffects : Option ℕ → List Effect
  | none => []
  | some start => [.cut start]

/-- Everything that a call can do: its result, the rollback point it leaves, and its effects on
the file, given the content that the file has once it is repaired. -/
inductive AppendCase (rollback : Option ℕ) (repaired bytes : Bytes) :
    Except IoError Unit → Option ℕ → List Effect → Prop where
  | blocked (error : IoError) (start : ℕ) (done : List Effect) (pending : rollback = some start)
      (cuts : done = [] ∨ done = [.cut start]) :
      AppendCase rollback repaired bytes (.error error) (some start) done
  | refused (error : IoError) :
      AppendCase rollback repaired bytes (.error error) none (repairEffects rollback)
  | written (chunks : List Bytes) (all : chunks.flatten = bytes) :
      AppendCase rollback repaired bytes (.ok ()) none
        (repairEffects rollback ++ chunks.map .extend)
  | undone (error : IoError) (chunks : List Bytes) (begun : chunks.flatten <+: bytes) :
      AppendCase rollback repaired bytes (.error error) none
        (repairEffects rollback ++ (chunks.map .extend ++ [.cut repaired.length]))
  | stuck (error : IoError) (chunks : List Bytes) (done : List Effect)
      (begun : chunks.flatten <+: bytes) (cuts : done = [] ∨ done = [.cut repaired.length]) :
      AppendCase rollback repaired bytes (.error error) (some repaired.length)
        (repairEffects rollback ++ (chunks.map .extend ++ done))

section Spec

variable [AppendStorage F] [ObservedStorage F] [LawfulAppendStorage F]

theorem writeAndFlush_passes (file : F) (bytes : Bytes) :
    ∃ chunks : List Bytes, Passes file (writeAndFlush file bytes).2 (chunks.map .extend) ∧
      chunks.flatten <+: bytes ∧
      ((writeAndFlush file bytes).1 = .ok () → chunks.flatten = bytes) := by
  obtain ⟨chunks, passes, begun, all⟩ := writeAll_passes file bytes
  refine ⟨chunks, ?_⟩
  unfold writeAndFlush
  generalize writeAll file bytes = written at passes all ⊢
  rcases written with ⟨error | done, next⟩
  · exact ⟨passes, begun, fun done => by simp at done⟩
  · refine ⟨?_, begun, fun _ => all rfl⟩
    have flushed := passes.trans (LawfulAppendStorage.flush_passes next)
    rwa [List.append_nil] at flushed

theorem repair_cases (writer : TransactionalAppend F) :
    (∃ repaired, writer.repair = (.ok (), repaired) ∧ repaired.rollback = none ∧
        Passes writer.file repaired.file (repairEffects writer.rollback)) ∨
      ∃ error blocked start done, writer.repair = (.error error, blocked) ∧
        writer.rollback = some start ∧ blocked.rollback = some start ∧
        (done = [] ∨ done = [Effect.cut start]) ∧ Passes writer.file blocked.file done := by
  cases pending : writer.rollback with
  | none =>
      refine Or.inl ⟨writer, ?_, pending, Passes.refl writer.file⟩
      simp only [repair, pending]
  | some start =>
      have failing := LawfulAppendStorage.truncate_error writer.file start
      have succeeding := LawfulAppendStorage.truncate_ok writer.file start
      rcases cut : AppendStorage.truncate writer.file start with ⟨error | done, file⟩
      · rw [cut] at failing
        refine Or.inr ⟨error, { writer with file := file }, start, ?_⟩
        have result : writer.repair = (.error error, { writer with file := file }) := by
          simp only [repair, pending, cut]
        rcases failing error rfl with passes | passes
        · exact ⟨[], result, rfl, pending, Or.inl rfl, passes⟩
        · exact ⟨[.cut start], result, rfl, pending, Or.inr rfl, passes⟩
      · rw [cut] at succeeding
        refine Or.inl ⟨{ file := file, rollback := none }, ?_, rfl, succeeding rfl⟩
        simp only [repair, pending, cut]

/-- The inversion of a call: it is one of the five cases, and the file passes through exactly
the effects of that case. -/
theorem append_cases (writer : TransactionalAppend F) (bytes : Bytes) :
    ∃ new, Passes writer.file (writer.append bytes).2.file new ∧
      AppendCase writer.rollback
        (replay (content writer.file) (repairEffects writer.rollback)) bytes
        (writer.append bytes).1 (writer.append bytes).2.rollback new := by
  rcases writer.repair_cases with ⟨repaired, result, unblocked, passes⟩ |
    ⟨error, blocked, start, done, result, pending, still, cuts, passes⟩
  · have started := LawfulAppendStorage.appendStart_passes repaired.file
    have length := LawfulAppendStorage.appendStart_ok repaired.file
    simp only [append, result]
    rw [← passes.content]
    generalize AppendStorage.appendStart repaired.file = started_at at started length ⊢
    rcases started_at with ⟨error | start, file⟩
    · refine ⟨_, passes.trans started, ?_⟩
      simp only [unblocked, List.append_nil]
      exact AppendCase.refused error
    · obtain rfl := length start rfl
      obtain ⟨chunks, tried, begun, all⟩ := writeAndFlush_passes file bytes
      have until_written := passes.trans (started.trans tried)
      dsimp only
      generalize writeAndFlush file bytes = attempted at tried all until_written ⊢
      rcases attempted with ⟨error | written, next⟩
      · have failing := LawfulAppendStorage.truncate_error next (content repaired.file).length
        have succeeding := LawfulAppendStorage.truncate_ok next (content repaired.file).length
        dsimp only
        generalize AppendStorage.truncate next (content repaired.file).length = truncated
          at failing succeeding ⊢
        rcases truncated with ⟨failure | undone, last⟩
        · rcases failing failure rfl with cut | cut
          · refine ⟨_, until_written.trans cut, ?_⟩
            rw [List.append_assoc]
            exact AppendCase.stuck error chunks [] begun (Or.inl rfl)
          · refine ⟨_, until_written.trans cut, ?_⟩
            rw [List.append_assoc]
            exact AppendCase.stuck error chunks _ begun (Or.inr rfl)
        · refine ⟨_, until_written.trans (succeeding rfl), ?_⟩
          rw [List.append_assoc]
          exact AppendCase.undone error chunks begun
      · refine ⟨_, until_written, ?_⟩
        simp only [unblocked]
        exact AppendCase.written chunks (all rfl)
  · refine ⟨done, ?_⟩
    simp only [append, result, still]
    exact ⟨passes, AppendCase.blocked error start done pending cuts⟩

theorem append_ok (writer : TransactionalAppend F) {bytes : Bytes}
    (done : (writer.append bytes).1 = .ok ()) :
    ∃ earlier, content (writer.append bytes).2.file = earlier ++ bytes := by
  obtain ⟨new, passes, call⟩ := writer.append_cases bytes
  have after := passes.content
  rw [done] at call
  generalize (writer.append bytes).2.rollback = left at call
  cases call with
  | written chunks all =>
      rw [replay_append, replay_extend, all] at after
      exact ⟨_, after⟩

end Spec

end TransactionalAppend

/-! ### Runs -/

/-- A call of `append` as far as it got, and whether it was acknowledged. -/
structure Attempt where
  bytes : Bytes
  acknowledged : Bool
  effects : List Effect

/-- Some byte of the call reached the kernel. -/
def Attempt.wrote (attempt : Attempt) : Bool :=
  attempt.effects.any fun effect =>
    match effect with
    | .extend chunk => chunk ≠ []
    | .cut _ => false

def acknowledged (attempts : List Attempt) : List Bytes :=
  (attempts.filter Attempt.acknowledged).map Attempt.bytes

def Attempt.failed (attempt : Attempt) : Bool :=
  !attempt.acknowledged && attempt.wrote

/-- The last call that wrote any byte and was not acknowledged. -/
def lastFailed (attempts : List Attempt) : Option Attempt :=
  (attempts.filter Attempt.failed).getLast?

theorem acknowledged_concat (attempts : List Attempt) (attempt : Attempt) :
    acknowledged (attempts ++ [attempt]) =
      acknowledged attempts ++ if attempt.acknowledged then [attempt.bytes] else [] := by
  simp only [acknowledged, List.filter_append, List.map_append]
  cases acked : attempt.acknowledged with
  | true => simp [acked]
  | false => simp [acked]

theorem lastFailed_concat (attempts : List Attempt) (attempt : Attempt) :
    lastFailed (attempts ++ [attempt]) =
      if attempt.failed then some attempt else lastFailed attempts := by
  rw [lastFailed, List.filter_append]
  by_cases failed : attempt.failed = true
  · rw [List.filter_cons_of_pos failed, if_pos failed, List.filter_nil, List.getLast?_concat]
  · rw [List.filter_cons_of_neg failed, if_neg failed, List.filter_nil, List.append_nil]
    rfl

theorem prefix_append_cases {α : Type*} {start first second : List α}
    (begins : start <+: first ++ second) :
    start <+: first ∨ ∃ later, later <+: second ∧ start = first ++ later := by
  obtain ⟨rest, whole⟩ := begins
  rcases List.append_eq_append_iff.mp whole with ⟨missing, rfl, _⟩ | ⟨later, rfl, rest⟩
  · exact Or.inl (List.prefix_append start missing)
  · exact Or.inr ⟨later, ⟨_, rest.symm⟩, rfl⟩

theorem prefix_singleton_cases {α : Type*} {start : List α} {item : α} (begins : start <+: [item]) :
    start = [] ∨ start = [item] := by
  have bound := begins.length_le
  rcases start with _ | ⟨first, rest⟩
  · exact Or.inl rfl
  · obtain ⟨rfl, later⟩ := List.cons_prefix_cons.mp begins
    rw [List.prefix_nil.mp later]
    exact Or.inr rfl

namespace TransactionalAppend

variable {F : Type*} [AppendStorage F] [ObservedStorage F]

def callEffects (writer : TransactionalAppend F) (bytes : Bytes) : List Effect :=
  (effects (writer.append bytes).2.file).drop (effects writer.file).length

def attempt (writer : TransactionalAppend F) (bytes : Bytes) : Attempt where
  bytes := bytes
  acknowledged := (writer.append bytes).1.isOk
  effects := writer.callEffects bytes

def runAppends (writer : TransactionalAppend F) (calls : List Bytes) :
    List Attempt × TransactionalAppend F :=
  calls.foldl (fun reached bytes =>
    (reached.1 ++ [reached.2.attempt bytes], (reached.2.append bytes).2)) ([], writer)

theorem runAppends_concat (writer : TransactionalAppend F) (calls : List Bytes) (bytes : Bytes) :
    writer.runAppends (calls ++ [bytes]) =
      ((writer.runAppends calls).1 ++ [(writer.runAppends calls).2.attempt bytes],
        ((writer.runAppends calls).2.append bytes).2) := by
  rw [runAppends, List.foldl_append]
  rfl

theorem callEffects_of_passes {writer : TransactionalAppend F} {bytes : Bytes}
    {new : List Effect} (passes : Passes writer.file (writer.append bytes).2.file new) :
    writer.callEffects bytes = new := by
  rw [callEffects, passes.effects, List.drop_left]

theorem wrote_of_chunks {effects : List Effect} {chunks : List Bytes}
    (passed : ∀ chunk ∈ chunks, Effect.extend chunk ∈ effects) (bytes : Bytes)
    (acked : Bool) (nonempty : chunks.flatten ≠ []) :
    (Attempt.mk bytes acked effects).wrote = true := by
  obtain ⟨chunk, member, filled⟩ : ∃ chunk ∈ chunks, chunk ≠ [] := by
    by_contra none
    push Not at none
    exact nonempty (List.flatten_eq_nil_iff.mpr none)
  rw [Attempt.wrote, List.any_eq_true]
  exact ⟨.extend chunk, passed chunk member, by simpa using filled⟩

section Consistent

variable {base bytes : Bytes} {attempts : List Attempt} {writer : TransactionalAppend F}

/-- What may follow the base: nothing, or the start of the last call that wrote and was not
acknowledged. -/
def Residual (base : Bytes) (attempts : List Attempt) (reached : Bytes) : Prop :=
  ∃ residue, reached = base ++ residue ∧
    (residue = [] ∨ ∃ failed, lastFailed attempts = some failed ∧ residue <+: failed.bytes)

theorem Residual.nothing (base : Bytes) (attempts : List Attempt) : Residual base attempts base :=
  ⟨[], (List.append_nil _).symm, Or.inl rfl⟩

theorem Residual.idle {reached : Bytes} (residual : Residual base attempts reached) :
    Residual base (attempts ++ [⟨bytes, false, []⟩]) reached := by
  obtain ⟨residue, whole, owned⟩ := residual
  refine ⟨residue, whole, ?_⟩
  rw [lastFailed_concat]
  exact owned

theorem Residual.begun {chunks : List Bytes} {done : List Effect}
    (begun : chunks.flatten <+: bytes)
    (passed : ∀ chunk ∈ chunks, Effect.extend chunk ∈ done) :
    Residual base (attempts ++ [⟨bytes, false, done⟩]) (base ++ chunks.flatten) := by
  refine ⟨chunks.flatten, rfl, ?_⟩
  by_cases nothing : chunks.flatten = []
  · exact Or.inl nothing
  · refine Or.inr ⟨⟨bytes, false, done⟩, ?_, begun⟩
    have failed : (Attempt.mk bytes false done).failed = true :=
      wrote_of_chunks passed bytes false nothing
    rw [lastFailed_concat, if_pos failed]

/-- The file holds the base and, while a rollback is pending, a residue behind it. -/
structure Consistent (base : Bytes) (attempts : List Attempt) (writer : TransactionalAppend F) :
    Prop where
  unblocked : writer.rollback = none → content writer.file = base
  blocked : ∀ start, writer.rollback = some start → start = base.length
  residual : Residual base attempts (content writer.file)

omit [AppendStorage F] in
theorem Consistent.repaired (consistent : Consistent base attempts writer) :
    replay (content writer.file) (repairEffects writer.rollback) = base := by
  cases pending : writer.rollback with
  | none => exact consistent.unblocked pending
  | some start =>
      obtain ⟨residue, whole, _⟩ := consistent.residual
      rw [consistent.blocked start pending, whole]
      exact setLen_append base residue

omit [AppendStorage F] in
theorem Consistent.repairing (consistent : Consistent base attempts writer)
    {done : List Effect} (happened : done <+: repairEffects writer.rollback) :
    Residual base (attempts ++ [⟨bytes, false, done⟩]) (replay (content writer.file) done) := by
  have repaired := consistent.repaired
  cases pending : writer.rollback with
  | none =>
      rw [pending] at happened
      rw [List.prefix_nil.mp happened]
      exact consistent.residual.idle
  | some start =>
      rw [pending] at happened repaired
      rcases prefix_singleton_cases happened with rfl | rfl
      · exact consistent.residual.idle
      · rw [repairEffects] at repaired
        rw [repaired]
        exact Residual.nothing base _

omit [AppendStorage F] in
theorem Consistent.writing (consistent : Consistent base attempts writer)
    {chunks : List Bytes} (begun : chunks.flatten <+: bytes) {cuts done : List Effect}
    (cut : cuts = [] ∨ cuts = [.cut base.length])
    (happened : done <+: repairEffects writer.rollback ++ (chunks.map .extend ++ cuts)) :
    Residual base (attempts ++ [⟨bytes, false, done⟩]) (replay (content writer.file) done) := by
  rcases prefix_append_cases happened with repairing | ⟨later, after, rfl⟩
  · exact consistent.repairing repairing
  · rw [replay_append, consistent.repaired]
    rcases prefix_append_cases after with writing | ⟨cutting, ending, rfl⟩
    · obtain ⟨written, start, rfl⟩ := List.prefix_map_iff.mp writing
      rw [replay_extend]
      refine Residual.begun (start.flatten.trans begun) fun chunk member => ?_
      exact List.mem_append_right _ (List.mem_map_of_mem member)
    · have ends : cutting = [] ∨ cutting = [.cut base.length] := by
        rcases cut with rfl | rfl
        · exact Or.inl (List.prefix_nil.mp ending)
        · exact prefix_singleton_cases ending
      rw [replay_append, replay_extend]
      rcases ends with rfl | rfl
      · refine Residual.begun begun fun chunk member => ?_
        simp only [List.append_nil]
        exact List.mem_append_right _ (List.mem_map_of_mem member)
      · rw [replay_cut]
        exact Residual.nothing base _

variable [LawfulAppendStorage F]

/-- Whatever part of an unacknowledged call has happened, the base is still there, and what is
behind it belongs to the last call that wrote and was not acknowledged. -/
theorem Consistent.moment (consistent : Consistent base attempts writer)
    {done : List Effect} (happened : done <+: writer.callEffects bytes) :
    Residual base (attempts ++ [⟨bytes, false, done⟩]) (replay (content writer.file) done) := by
  obtain ⟨new, passes, call⟩ := writer.append_cases bytes
  rw [callEffects_of_passes passes] at happened
  rw [consistent.repaired] at call
  generalize (writer.append bytes).1 = result at call
  generalize (writer.append bytes).2.rollback = left at call
  cases call with
  | blocked error start new pending cuts =>
      apply consistent.repairing
      rcases cuts with rfl | rfl
      · rw [List.prefix_nil.mp happened]
        exact List.nil_prefix
      · rwa [pending, repairEffects]
  | refused error => exact consistent.repairing happened
  | written chunks all =>
      rw [← List.append_nil (chunks.map Effect.extend)] at happened
      exact consistent.writing (all ▸ List.prefix_rfl) (Or.inl rfl) happened
  | undone error chunks begun => exact consistent.writing begun (Or.inr rfl) happened
  | stuck error chunks new begun cuts => exact consistent.writing begun cuts happened

theorem isOk_error (error : IoError) : (Except.error error : Except IoError Unit).isOk = false :=
  rfl

theorem isOk_ok : (Except.ok () : Except IoError Unit).isOk = true := rfl

theorem Consistent.append (consistent : Consistent base attempts writer) (bytes : Bytes) :
    Consistent (base ++ if (writer.attempt bytes).acknowledged then bytes else [])
      (attempts ++ [writer.attempt bytes]) (writer.append bytes).2 := by
  have moment := consistent.moment (List.prefix_refl (writer.callEffects bytes))
  obtain ⟨new, passes, call⟩ := writer.append_cases bytes
  have after := passes.content
  rw [consistent.repaired] at call
  rw [callEffects_of_passes passes, ← after] at moment
  simp only [attempt, callEffects_of_passes passes]
  generalize (writer.append bytes).2 = reached at call moment after ⊢
  generalize (writer.append bytes).1 = result at call ⊢
  generalize left : reached.rollback = rollback at call
  cases call with
  | blocked error start new pending cuts =>
      simp only [isOk_error, Bool.false_eq_true, if_false, List.append_nil]
      refine ⟨fun none => by simp [left] at none, fun other found => ?_, moment⟩
      rw [left] at found
      rw [← Option.some.inj found]
      exact consistent.blocked start pending
  | refused error =>
      simp only [isOk_error, Bool.false_eq_true, if_false, List.append_nil]
      refine ⟨fun _ => ?_, fun other found => by simp [left] at found, moment⟩
      rw [after, consistent.repaired]
  | written chunks all =>
      simp only [isOk_ok, if_true]
      have whole : content reached.file = base ++ bytes := by
        rw [after, replay_append, consistent.repaired, replay_extend, all]
      refine ⟨fun _ => whole, fun other found => by simp [left] at found, ?_⟩
      rw [whole]
      exact Residual.nothing _ _
  | undone error chunks begun =>
      simp only [isOk_error, Bool.false_eq_true, if_false, List.append_nil]
      refine ⟨fun _ => ?_, fun other found => by simp [left] at found, moment⟩
      rw [after, replay_append, consistent.repaired, replay_append, replay_extend, replay_cut]
  | stuck error chunks new begun cuts =>
      simp only [isOk_error, Bool.false_eq_true, if_false, List.append_nil]
      refine ⟨fun none => by simp [left] at none, fun other found => ?_, moment⟩
      rw [left] at found
      exact (Option.some.inj found).symm

end Consistent

/-! ### Atomicity -/

section Atomic

variable [LawfulAppendStorage F] (writer : TransactionalAppend F)

def base (calls : List Bytes) : Bytes :=
  content writer.file ++ (acknowledged (writer.runAppends calls).1).flatten

theorem consistent_run (unblocked : writer.rollback = none) (calls : List Bytes) :
    Consistent (writer.base calls) (writer.runAppends calls).1 (writer.runAppends calls).2 := by
  induction calls using List.reverseRecOn with
  | nil =>
      refine ⟨fun _ => (List.append_nil _).symm, fun start pending => ?_, ?_⟩
      · exact absurd (unblocked.symm.trans pending) (by simp)
      · exact ⟨[], by simp [base, runAppends, acknowledged], Or.inl rfl⟩
  | append_singleton calls bytes ih =>
      have next := ih.append bytes
      have grown : writer.base (calls ++ [bytes]) = writer.base calls ++
          if ((writer.runAppends calls).2.attempt bytes).acknowledged then bytes else [] := by
        rw [base, runAppends_concat, acknowledged_concat, List.flatten_append, ← List.append_assoc]
        split
        · rw [List.flatten_singleton]
          rfl
        · rfl
      rw [grown, runAppends_concat]
      exact next

/-- Appends are atomic over whole runs, whatever fails: the file holds the acknowledged bytes in
order and behind them a residue only while its start is remembered; during a call the same
bytes are there at every moment; and until that start is cut off again, nothing is written. -/
theorem append_atomic (unblocked : writer.rollback = none) (calls : List Bytes) :
    (∃ residue, content (writer.runAppends calls).2.file = writer.base calls ++ residue ∧
        ((writer.runAppends calls).2.rollback = none → residue = [])) ∧
      (∀ start, (writer.runAppends calls).2.rollback = some start →
        start = (writer.base calls).length) ∧
      (∀ bytes done, done <+: (writer.runAppends calls).2.callEffects bytes →
        writer.base calls <+: replay (content (writer.runAppends calls).2.file) done) ∧
      ∀ start error, (writer.runAppends calls).2.rollback = some start →
        (AppendStorage.truncate (writer.runAppends calls).2.file start).1 = .error error →
          ∀ bytes, ((writer.runAppends calls).2.append bytes).1 = .error error ∧
            ((writer.runAppends calls).2.append bytes).2.rollback = some start ∧
            ∀ chunk, Effect.extend chunk ∉ (writer.runAppends calls).2.callEffects bytes := by
  have consistent := writer.consistent_run unblocked calls
  generalize (writer.runAppends calls).2 = reached at consistent ⊢
  refine ⟨?_, consistent.blocked, ?_, ?_⟩
  · obtain ⟨residue, whole, _⟩ := consistent.residual
    refine ⟨residue, whole, fun settled => ?_⟩
    have exactly := consistent.unblocked settled
    rw [whole] at exactly
    exact List.append_right_eq_self.mp exactly
  · intro bytes done happened
    obtain ⟨residue, whole, _⟩ := consistent.moment happened
    exact ⟨residue, whole.symm⟩
  · intro start error pending failing bytes
    have stopped := reached.append_blocked pending failing bytes
    rw [stopped]
    refine ⟨rfl, pending, fun chunk => ?_⟩
    rcases LawfulAppendStorage.truncate_error reached.file start error failing with cut | cut
    · rw [callEffects_of_passes (by rw [stopped]; exact cut)]
      simp
    · rw [callEffects_of_passes (by rw [stopped]; exact cut)]
      simp

/-- The disk is full after one byte, and cutting back fails too. -/
theorem append_atomic_full_disk :
    let writer : TransactionalAppend OpenFile :=
      { file :=
          { disk := Disk.blank [.done, .short 1, .failed (.os 28), .failed (.os 5)], inode := 0 }
        rollback := none }
    ∃ residue, content (writer.runAppends [[123, 10], [125, 10]]).2.file =
        writer.base [[123, 10], [125, 10]] ++ residue ∧
      ((writer.runAppends [[123, 10], [125, 10]]).2.rollback = none → residue = []) := by
  intro writer
  exact (append_atomic writer rfl [[123, 10], [125, 10]]).1

end Atomic

end TransactionalAppend

end OtelLogger
