import OtelLogger.AppendStorage

/-!
One directory as names that point to files, and the files themselves: a file whose name is gone
stays for whoever holds it open. Each operation of the kernel takes its outcome from a script, so
that any of them can fail at any call.
-/

namespace OtelLogger

open Std (ExtTreeMap TransOrd LawfulEqOrd)

/-- Nanoseconds since the Unix epoch. -/
abbrev Instant := ℤ

inductive Outcome where
  | done
  | short (count : ℕ)
  | failed (error : IoError)

structure FileData where
  content : Bytes
  modified : Instant

/-- The components of a path: no empty one, and no `.` but at the start. The empty first
component is that of the root. -/
def pathComponents (path : String) : List (List Char) :=
  match path.toList.splitOn '/' with
  | [] => []
  | first :: rest =>
      if first = [] && rest = [] then []
      else first :: rest.filter fun piece => piece ≠ [] && piece ≠ ['.']

/-- The components of a directory, from the innermost one outwards. -/
abbrev Road := List (List Char)

def dirRoad (dir : String) : Road :=
  (pathComponents dir).reverse

/-- `Path::parent`; without components where there is none, or an empty one. -/
def parentRoad (path : String) : Road :=
  (pathComponents path).reverse.tail

/-- The names and files of the directory that is written to, and which directories are there. No
two names share a file, and no file is numbered ahead of its creation. -/
structure Disk where
  names : ExtTreeMap String ℕ := ∅
  files : ExtTreeMap ℕ FileData := ∅
  nextInode : ℕ := 0
  directories : List Road := []
  now : Instant := 0
  outcomes : List Outcome := []
  numbered : ∀ (name : String) (inode : ℕ), names[name]? = some inode → inode < nextInode
  unshared : ∀ (first second : String) (inode : ℕ), names[first]? = some inode →
    names[second]? = some inode → first = second

namespace Disk

def blank (outcomes : List Outcome) : Disk where
  outcomes := outcomes
  numbered name inode found := by simp at found
  unshared first second inode found := by simp at found

def fileData (disk : Disk) (inode : ℕ) : FileData :=
  disk.files[inode]?.getD { content := [], modified := disk.now }

def contentAt (disk : Disk) (name : String) : Option Bytes :=
  disk.names[name]?.map fun inode => (disk.fileData inode).content

def outcome (disk : Disk) : Outcome :=
  disk.outcomes.headD .done

def advance (disk : Disk) : Disk :=
  { disk with outcomes := disk.outcomes.tail }

def setContent (disk : Disk) (inode : ℕ) (content : Bytes) : Disk :=
  { disk with
    files := disk.files.insert inode { content := content, modified := disk.now } }

def attempt {α : Type*} (disk : Disk) (value : α) : Except IoError α × Disk :=
  match disk.outcome with
  | .failed error => (.error error, disk.advance)
  | _ => (.ok value, disk.advance)

def create (disk : Disk) (name : String) : Disk where
  names := disk.names.insert name disk.nextInode
  files := disk.files.insert disk.nextInode { content := [], modified := disk.now }
  nextInode := disk.nextInode + 1
  directories := disk.directories
  now := disk.now
  outcomes := disk.outcomes
  numbered other inode found := by
    rw [ExtTreeMap.getElem?_insert] at found
    split at found
    · obtain rfl := Option.some.inj found
      exact Nat.lt_succ_self _
    · exact Nat.lt_succ_of_lt (disk.numbered other inode found)
  unshared first second inode firstFound secondFound := by
    rw [ExtTreeMap.getElem?_insert] at firstFound secondFound
    simp only [Std.compare_eq_iff_eq] at firstFound secondFound
    split at firstFound
    · rename_i firstNew
      obtain rfl := Option.some.inj firstFound
      split at secondFound
      · rename_i secondNew
        exact firstNew.symm.trans secondNew
      · have bound := disk.numbered second _ secondFound
        omega
    · split at secondFound
      · obtain rfl := Option.some.inj secondFound
        have bound := disk.numbered first _ firstFound
        omega
      · exact disk.unshared first second inode firstFound secondFound

/-- Removes a name; the file itself stays for those who hold it open. -/
def unlink (disk : Disk) (name : String) : Disk :=
  { disk with
    names := disk.names.erase name
    numbered := by
      intro other inode found
      rw [ExtTreeMap.getElem?_erase] at found
      split at found
      · simp at found
      · exact disk.numbered other inode found
    unshared := by
      intro first second inode firstFound secondFound
      rw [ExtTreeMap.getElem?_erase] at firstFound secondFound
      split at firstFound
      · simp at firstFound
      · split at secondFound
        · simp at secondFound
        · exact disk.unshared first second inode firstFound secondFound }

/-- The working directory and the root are always there. -/
def isDir (disk : Disk) (road : Road) : Bool :=
  road ∈ [[], [['.']], [[]]] || road ∈ disk.directories

def makeDir (disk : Disk) (road : Road) : Disk :=
  { disk with directories := road :: disk.directories }

/-- Makes a directory, and before it those on the way to it that are missing. -/
def createPrivateDir (disk : Disk) : Road → Except IoError Unit × Disk
  | [] => (.ok (), disk)
  | name :: above =>
      match disk.attempt () with
      | (.error error, disk) => (.error error, disk)
      | (.ok _, disk) =>
          if disk.isDir (name :: above) then (.ok (), disk)
          else if disk.isDir above then (.ok (), disk.makeDir (name :: above))
          else
            match disk.createPrivateDir above with
            | (.error error, disk) => (.error error, disk)
            | (.ok _, disk) =>
                match disk.attempt () with
                | (.error error, disk) => (.error error, disk)
                | (.ok _, disk) => (.ok (), disk.makeDir (name :: above))

/-- The second disk is the first with some directories of the road made. -/
def Builds (road : Road) (before after : Disk) : Prop :=
  ∃ (outcomes : List Outcome) (made : List Road), (∀ dir ∈ made, dir <:+ road) ∧
    after = { before with outcomes := outcomes, directories := made ++ before.directories }

namespace Builds

variable {road wider : Road} {before after last : Disk}

theorem trans (left : Builds road before after) (right : Builds road after last) :
    Builds road before last := by
  obtain ⟨_, made, within, rfl⟩ := left
  obtain ⟨outcomes, more, inside, rfl⟩ := right
  refine ⟨outcomes, more ++ made, List.forall_mem_append.mpr ⟨inside, within⟩, ?_⟩
  simp only [List.append_assoc]

theorem now (builds : Builds road before after) : after.now = before.now := by
  obtain ⟨_, _, _, rfl⟩ := builds
  rfl

theorem mono (builds : Builds road before after) (within : road <:+ wider) :
    Builds wider before after := by
  obtain ⟨outcomes, made, inside, same⟩ := builds
  exact ⟨outcomes, made, fun dir member => (inside dir member).trans within, same⟩

theorem attempt {α : Type*} (road : Road) (disk : Disk) (value : α) :
    Builds road disk (disk.attempt value).2 := by
  refine ⟨disk.outcomes.tail, [], fun _ never => by simp at never, ?_⟩
  unfold Disk.attempt
  cases disk.outcome <;> rfl

theorem makeDir (disk : Disk) (road : Road) : Builds road disk (disk.makeDir road) :=
  ⟨disk.outcomes, [road], fun dir member => by rw [List.mem_singleton.mp member], rfl⟩

end Builds

theorem createPrivateDir_builds (disk : Disk) (road : Road) :
    Builds road disk (disk.createPrivateDir road).2 := by
  induction road generalizing disk with
  | nil => exact ⟨disk.outcomes, [], fun _ never => by simp at never, rfl⟩
  | cons name above ih =>
      have tried := Builds.attempt (name :: above) disk ()
      unfold createPrivateDir
      generalize disk.attempt () = trying at tried ⊢
      rcases trying with ⟨error | done, disk⟩
      · exact tried
      · dsimp only at tried ⊢
        split
        · exact tried
        · split
          · exact tried.trans (Builds.makeDir disk _)
          · have first := tried.trans ((ih disk).mono (List.suffix_cons name above))
            generalize disk.createPrivateDir above = making at first ⊢
            rcases making with ⟨error | done, disk⟩
            · exact first
            · have again := first.trans (Builds.attempt (name :: above) disk ())
              dsimp only at again ⊢
              generalize disk.attempt () = trying at again ⊢
              rcases trying with ⟨error | done, disk⟩
              · exact again
              · exact again.trans (Builds.makeDir disk _)

end Disk

/-- An open file: the disk it is on, its number there, and what was done through this handle. -/
structure OpenFile where
  disk : Disk
  inode : ℕ
  effects : List Effect := []

namespace OpenFile

def data (file : OpenFile) : FileData :=
  file.disk.fileData file.inode

def bytes (file : OpenFile) : Bytes :=
  file.data.content

def withDisk (file : OpenFile) (disk : Disk) : OpenFile :=
  { file with disk := disk }

/-- The kernel's part of an operation: the file changes as the effect says. -/
def perform (file : OpenFile) (effect : Effect) : OpenFile where
  disk := file.disk.setContent file.inode (effect.on file.bytes)
  inode := file.inode
  effects := file.effects ++ [effect]

def write (file : OpenFile) (bytes : Bytes) : Except IoError ℕ × OpenFile :=
  let advanced := file.withDisk file.disk.advance
  match file.disk.outcome with
  | .failed error => (.error error, advanced)
  | .short count =>
      (.ok (min count bytes.length), advanced.perform (.extend (bytes.take count)))
  | .done => (.ok bytes.length, advanced.perform (.extend bytes))

def attempt {α : Type*} (file : OpenFile) (value : α) : Except IoError α × OpenFile :=
  let tried := file.disk.attempt value
  (tried.1, file.withDisk tried.2)

def flush (file : OpenFile) : Except IoError Unit × OpenFile :=
  file.attempt ()

def syncAll (file : OpenFile) : Except IoError Unit × OpenFile :=
  file.attempt ()

def metadataLen (file : OpenFile) : Except IoError ℕ × OpenFile :=
  file.attempt file.bytes.length

def seek (file : OpenFile) : Except IoError Unit × OpenFile :=
  file.attempt ()

/-- `set_len` and then a seek: when only the seek fails, the file is cut already. -/
def truncate (file : OpenFile) (len : ℕ) : Except IoError Unit × OpenFile :=
  match file.disk.outcome with
  | .failed error => (.error error, file.withDisk file.disk.advance)
  | _ => ((file.withDisk file.disk.advance).perform (.cut len)).seek

section Observed

variable (file : OpenFile)

@[simp] theorem withDisk_advance_bytes : (file.withDisk file.disk.advance).bytes = file.bytes := rfl

@[simp] theorem perform_bytes (effect : Effect) :
    (file.perform effect).bytes = effect.on file.bytes := by
  simp [perform, bytes, data, Disk.fileData, Disk.setContent]

theorem attempt_snd {α : Type*} (value : α) :
    (file.attempt value).2 = file.withDisk file.disk.advance := by
  unfold attempt Disk.attempt
  cases file.disk.outcome <;> rfl

theorem attempt_ok {α : Type*} {value result : α} (done : (file.attempt value).1 = .ok result) :
    result = value := by
  unfold attempt Disk.attempt at done
  cases outcome : file.disk.outcome with
  | failed error => simp [outcome] at done
  | done =>
      rw [outcome] at done
      exact (Except.ok.inj done).symm
  | short count =>
      rw [outcome] at done
      exact (Except.ok.inj done).symm

end Observed

end OpenFile

instance : AppendStorage OpenFile where
  write := OpenFile.write
  flush := OpenFile.flush
  appendStart := OpenFile.metadataLen
  truncate := OpenFile.truncate

instance : ObservedStorage OpenFile where
  content := OpenFile.bytes
  effects := OpenFile.effects

namespace OpenFile

variable (file : OpenFile)

theorem passes_advance : Passes file (file.withDisk file.disk.advance) [] :=
  ⟨(List.append_nil _).symm, rfl⟩

theorem passes_perform (effect : Effect) : Passes file (file.perform effect) [effect] :=
  ⟨rfl, file.perform_bytes effect⟩

theorem passes_attempt {α : Type*} (value : α) : Passes file (file.attempt value).2 [] := by
  rw [attempt_snd]
  exact file.passes_advance

theorem truncate_passes (len : ℕ) :
    ((file.truncate len).1 = .ok () ∨ Passes file (file.truncate len).2 [] ∨
      Passes file (file.truncate len).2 [.cut len]) ∧
    ((file.truncate len).1 = .ok () → Passes file (file.truncate len).2 [.cut len]) := by
  have cut : Passes file ((file.withDisk file.disk.advance).perform (.cut len)).seek.2
      [.cut len] :=
    file.passes_advance.trans ((passes_perform _ _).trans (passes_attempt _ ()))
  unfold truncate
  cases file.disk.outcome with
  | failed error =>
      exact ⟨Or.inr (Or.inl file.passes_advance), fun done => by simp at done⟩
  | done => exact ⟨Or.inr (Or.inr cut), fun _ => cut⟩
  | short count => exact ⟨Or.inr (Or.inr cut), fun _ => cut⟩

end OpenFile

instance : LawfulAppendStorage OpenFile where
  write_ok file bytes count next written := by
    have advanced := file.passes_advance
    simp only [AppendStorage.write, OpenFile.write] at written
    cases outcome : file.disk.outcome with
    | failed error => simp [outcome] at written
    | done =>
        simp only [outcome, Prod.mk.injEq, Except.ok.injEq] at written
        obtain ⟨rfl, rfl⟩ := written
        refine ⟨le_rfl, ?_⟩
        rw [List.take_length]
        exact advanced.trans (OpenFile.passes_perform _ _)
    | short accepted =>
        simp only [outcome, Prod.mk.injEq, Except.ok.injEq] at written
        obtain ⟨rfl, rfl⟩ := written
        refine ⟨min_le_right _ _, ?_⟩
        rw [← List.take_eq_take_min]
        exact advanced.trans (OpenFile.passes_perform _ _)
  write_error file bytes error next written := by
    simp only [AppendStorage.write, OpenFile.write] at written
    cases outcome : file.disk.outcome with
    | failed other =>
        simp only [outcome, Prod.mk.injEq] at written
        rw [← written.2]
        exact file.passes_advance
    | done => simp [outcome] at written
    | short accepted => simp [outcome] at written
  flush_passes file := file.passes_attempt ()
  appendStart_passes file := file.passes_attempt file.bytes.length
  appendStart_ok file start done := file.attempt_ok done
  truncate_ok file len done := (file.truncate_passes len).2 done
  truncate_error file len error failing := by
    rcases (file.truncate_passes len).1 with done | passes
    · exact absurd (failing.symm.trans done) (by simp)
    · exact passes

end OtelLogger
