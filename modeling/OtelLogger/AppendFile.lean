import OtelLogger.TransactionalAppend

/-!
One log file over its life: it is opened, its unfinished tail is cut off, lines are appended, and
at any moment the process may die. What the next opening finds is every acknowledged line and at
most one line more.
-/

namespace OtelLogger

open Std (ExtTreeMap TransOrd LawfulEqOrd)
open Delimited

/-! ### Frames -/

/-- Nothing but one file differs. -/
structure Disk.SameBut (inode : ℕ) (before after : Disk) : Prop where
  names : after.names = before.names
  nextInode : after.nextInode = before.nextInode
  now : after.now = before.now
  files : ∀ other : ℕ, other ≠ inode → after.files[other]? = before.files[other]?

namespace Disk

theorem SameBut.refl (inode : ℕ) (disk : Disk) : SameBut inode disk disk :=
  ⟨rfl, rfl, rfl, fun _ _ => rfl⟩

theorem SameBut.trans {inode : ℕ} {first second third : Disk} (left : SameBut inode first second)
    (right : SameBut inode second third) : SameBut inode first third where
  names := right.names.trans left.names
  nextInode := right.nextInode.trans left.nextInode
  now := right.now.trans left.now
  files other different := (right.files other different).trans (left.files other different)

theorem SameBut.advance (inode : ℕ) (disk : Disk) : SameBut inode disk disk.advance :=
  ⟨rfl, rfl, rfl, fun _ _ => rfl⟩

theorem SameBut.setContent (inode : ℕ) (disk : Disk) (content : Bytes) :
    SameBut inode disk (disk.setContent inode content) := by
  refine ⟨rfl, rfl, rfl, fun other different => ?_⟩
  rw [Disk.setContent, ExtTreeMap.getElem?_insert, if_neg]
  rw [Std.compare_eq_iff_eq]
  exact Ne.symm different

theorem SameBut.fileData {inode other : ℕ} {before after : Disk} (same : SameBut inode before after)
    (different : other ≠ inode) : after.fileData other = before.fileData other := by
  rw [Disk.fileData, Disk.fileData, same.files other different, same.now]

end Disk

namespace OpenFile

/-- The handle stays on its file, and nothing else on the disk changes. -/
structure Stays (file next : OpenFile) : Prop where
  inode : next.inode = file.inode
  disk : Disk.SameBut file.inode file.disk next.disk

theorem Stays.refl (file : OpenFile) : Stays file file :=
  ⟨rfl, Disk.SameBut.refl _ _⟩

theorem Stays.trans {first second third : OpenFile} (left : Stays first second)
    (right : Stays second third) : Stays first third where
  inode := right.inode.trans left.inode
  disk := left.disk.trans (left.inode ▸ right.disk)

variable (file : OpenFile)

theorem stays_advance : Stays file (file.withDisk file.disk.advance) :=
  ⟨rfl, Disk.SameBut.advance _ _⟩

theorem stays_perform (effect : Effect) : Stays file (file.perform effect) :=
  ⟨rfl, Disk.SameBut.setContent _ _ _⟩

theorem stays_attempt {α : Type*} (value : α) : Stays file (file.attempt value).2 := by
  rw [attempt_snd]
  exact file.stays_advance

theorem stays_write (bytes : Bytes) : Stays file (file.write bytes).2 := by
  unfold write
  cases file.disk.outcome with
  | failed error => exact file.stays_advance
  | done => exact file.stays_advance.trans (stays_perform _ _)
  | short count => exact file.stays_advance.trans (stays_perform _ _)

theorem stays_truncate (len : ℕ) : Stays file (file.truncate len).2 := by
  have cut : Stays file ((file.withDisk file.disk.advance).perform (.cut len)).seek.2 :=
    file.stays_advance.trans ((stays_perform _ _).trans (stays_attempt _ ()))
  unfold truncate
  cases file.disk.outcome with
  | failed error => exact file.stays_advance
  | done => exact cut
  | short count => exact cut

end OpenFile

theorem TransactionalAppend.stays (writer : TransactionalAppend OpenFile) (bytes : Bytes) :
    OpenFile.Stays writer.file writer.repair.2.file ∧
      OpenFile.Stays writer.file (writer.append bytes).2.file :=
  writer.append_respects OpenFile.Stays.refl (fun _ _ _ => OpenFile.Stays.trans)
    OpenFile.stays_write (fun file => file.stays_attempt ())
    (fun file => file.stays_attempt file.bytes.length) OpenFile.stays_truncate bytes

/-! ### Recovery -/

namespace OpenFile

def readAt (file : OpenFile) (start stop : ℕ) : Except IoError Bytes × OpenFile :=
  match file.seek with
  | (.error error, file) => (.error error, file)
  | (.ok _, file) => file.attempt ((file.bytes.take stop).drop start)

/-- Looks for the end of the last line backwards, `chunk` bytes at a time. Every round moves
`stop`, so as many rounds as there are bytes are enough. -/
def lastLineEnd (chunk : ℕ) : ℕ → OpenFile → ℕ → Except IoError ℕ × OpenFile
  | 0, file, _ => (.ok 0, file)
  | rounds + 1, file, stop =>
      if stop = 0 then (.ok 0, file)
      else
        let start := stop - chunk
        match file.readAt start stop with
        | (.error error, file) => (.error error, file)
        | (.ok buffer, file) =>
            match rposition (· = newline) buffer with
            | some position => (.ok (start + position + 1), file)
            | none => lastLineEnd chunk rounds file start

def recoverTail (chunk : ℕ) (file : OpenFile) : Except IoError Unit × OpenFile :=
  match file.metadataLen with
  | (.error error, file) => (.error error, file)
  | (.ok originalLen, file) =>
      match lastLineEnd chunk originalLen file originalLen with
      | (.error error, file) => (.error error, file)
      | (.ok validLen, file) =>
          if validLen ≠ originalLen then file.truncate validLen else (.ok (), file)

/-- Only looking at the file leaves it as it is. -/
structure Looks (file next : OpenFile) : Prop extends Stays file next where
  bytes : next.bytes = file.bytes

theorem Looks.refl (file : OpenFile) : Looks file file :=
  ⟨Stays.refl file, rfl⟩

theorem Looks.trans {first second third : OpenFile} (left : Looks first second)
    (right : Looks second third) : Looks first third :=
  ⟨left.toStays.trans right.toStays, right.bytes.trans left.bytes⟩

variable (file : OpenFile)

theorem looks_attempt {α : Type*} (value : α) : Looks file (file.attempt value).2 := by
  refine ⟨file.stays_attempt value, ?_⟩
  rw [attempt_snd, withDisk_advance_bytes]

theorem readAt_looks (start stop : ℕ) : Looks file (file.readAt start stop).2 ∧
    ∀ buffer, (file.readAt start stop).1 = .ok buffer →
      buffer = (file.bytes.take stop).drop start := by
  have sought := file.looks_attempt ()
  rw [← seek] at sought
  unfold readAt
  generalize file.seek = seeking at sought ⊢
  rcases seeking with ⟨error | done, next⟩
  · exact ⟨sought, fun buffer found => by simp at found⟩
  · refine ⟨sought.trans (next.looks_attempt _), fun buffer found => ?_⟩
    rw [next.attempt_ok found, sought.bytes]

theorem completePart_take (text : Bytes) {start stop : ℕ} (order : start ≤ stop)
    (inside : stop ≤ text.length) :
    completePart newline (text.take stop) =
      match rposition (· = newline) ((text.take stop).drop start) with
      | some position => text.take (start + position + 1)
      | none => completePart newline (text.take start) := by
  have split : text.take stop = text.take start ++ (text.take stop).drop start := by
    conv_lhs => rw [← List.take_append_drop start (text.take stop)]
    rw [List.take_take, min_eq_left order]
  have length : (text.take start).length = start := by
    rw [List.length_take]
    omega
  conv_lhs => rw [split, completePart_append]
  cases found : rposition (· = newline) ((text.take stop).drop start) with
  | none => rw [if_neg (rposition_eq_none_iff.mp found)]
  | some position =>
      have bound := rposition_lt found
      have present : newline ∈ (text.take stop).drop start := by
        by_contra absent
        rw [rposition_eq_none_iff.mpr absent] at found
        cases found
      rw [List.length_drop, List.length_take] at bound
      rw [if_pos present, completePart, found]
      dsimp only
      have within : start + position + 1 ≤ stop := by omega
      have whole : (text.take start ++ (text.take stop).drop start).take
          ((text.take start).length + (position + 1)) =
          text.take start ++ ((text.take stop).drop start).take (position + 1) :=
        List.take_length_add_append _
      rw [length, ← split, List.take_take, ← Nat.add_assoc, min_eq_left within] at whole
      exact whole.symm

/-- However the file is cut into chunks, the search finds the end of its last line. -/
theorem lastLineEnd_looks {chunk : ℕ} (positive : 0 < chunk) (rounds : ℕ) (file : OpenFile)
    (stop : ℕ) (enough : stop ≤ rounds) (inside : stop ≤ file.bytes.length) :
    Looks file (lastLineEnd chunk rounds file stop).2 ∧
      ∀ validLen, (lastLineEnd chunk rounds file stop).1 = .ok validLen →
        validLen ≤ stop ∧
          file.bytes.take validLen = completePart newline (file.bytes.take stop) := by
  induction rounds generalizing file stop with
  | zero =>
      obtain rfl : stop = 0 := by omega
      refine ⟨Looks.refl file, fun validLen found => ?_⟩
      obtain rfl := Except.ok.inj found
      exact ⟨le_rfl, rfl⟩
  | succ rounds ih =>
      unfold lastLineEnd
      by_cases empty : stop = 0
      · rw [if_pos empty]
        refine ⟨Looks.refl file, fun validLen found => ?_⟩
        obtain rfl := Except.ok.inj found
        subst stop
        exact ⟨le_rfl, rfl⟩
      · rw [if_neg empty]
        obtain ⟨looks, buffered⟩ := file.readAt_looks (stop - chunk) stop
        have found := completePart_take file.bytes (Nat.sub_le stop chunk) inside
        dsimp only
        generalize file.readAt (stop - chunk) stop = reading at looks buffered ⊢
        rcases reading with ⟨error | buffer, next⟩
        · exact ⟨looks, fun validLen found => by simp at found⟩
        · obtain rfl := buffered buffer rfl
          dsimp only at looks ⊢
          cases position : rposition (· = newline)
              ((file.bytes.take stop).drop (stop - chunk)) with
          | some position =>
              have bound := rposition_lt position
              rw [List.length_drop, List.length_take] at bound
              rw [position] at found
              refine ⟨looks, fun validLen result => ?_⟩
              obtain rfl := Except.ok.inj result
              refine ⟨by omega, found.symm⟩
          | none =>
              rw [position] at found
              obtain ⟨later, ends⟩ := ih next (stop - chunk) (by omega)
                (by rw [looks.bytes]; omega)
              refine ⟨looks.trans later, fun validLen result => ?_⟩
              obtain ⟨bound, same⟩ := ends validLen result
              rw [looks.bytes] at same
              exact ⟨by omega, same.trans found.symm⟩

theorem setLen_take {text : Bytes} {len : ℕ} (inside : len ≤ text.length) :
    setLen text len = text.take len := by
  rw [setLen, Nat.sub_eq_zero_of_le inside, List.replicate_zero, List.append_nil]

/-- A recovery that succeeds leaves the complete lines; one that fails may have done so too. -/
theorem recoverTail_stays {chunk : ℕ} (positive : 0 < chunk) (file : OpenFile) :
    Stays file (file.recoverTail chunk).2 ∧
      ((file.recoverTail chunk).2.bytes = file.bytes ∨
        (file.recoverTail chunk).2.bytes = completePart newline file.bytes) ∧
      ((file.recoverTail chunk).1 = .ok () →
        (file.recoverTail chunk).2.bytes = completePart newline file.bytes) := by
  have measured := file.looks_attempt file.bytes.length
  have length (len : ℕ) (found : file.metadataLen.1 = .ok len) : len = file.bytes.length :=
    file.attempt_ok found
  rw [← metadataLen] at measured
  unfold recoverTail
  generalize file.metadataLen = measuring at measured length ⊢
  rcases measuring with ⟨error | originalLen, next⟩
  · exact ⟨measured.toStays, Or.inl measured.bytes, fun done => by simp at done⟩
  · obtain rfl := length originalLen rfl
    obtain ⟨looked, ends⟩ := lastLineEnd_looks positive file.bytes.length next file.bytes.length
      le_rfl (by rw [measured.bytes])
    rw [measured.bytes, List.take_length] at ends
    dsimp only at measured ⊢
    generalize lastLineEnd chunk file.bytes.length next file.bytes.length = search at looked ends ⊢
    have reached := measured.trans looked
    rcases search with ⟨error | validLen, found⟩
    · exact ⟨reached.toStays, Or.inl reached.bytes, fun done => by simp at done⟩
    · obtain ⟨inside, lines⟩ := ends validLen rfl
      dsimp only at reached ⊢
      split
      · have truncated := found.truncate_passes validLen
        have stays := found.stays_truncate validLen
        have cut (passes : Passes found (found.truncate validLen).2 [.cut validLen]) :
            (found.truncate validLen).2.bytes = completePart newline file.bytes := by
          have after : (found.truncate validLen).2.bytes = setLen found.bytes validLen :=
            passes.content
          rw [after, reached.bytes, setLen_take inside, lines]
        refine ⟨reached.toStays.trans stays, ?_, fun done => cut (truncated.2 done)⟩
        rcases truncated.1 with done | passes | passes
        · exact Or.inr (cut (truncated.2 done))
        · have after : (found.truncate validLen).2.bytes = found.bytes := passes.content
          exact Or.inl (after.trans reached.bytes)
        · exact Or.inr (cut passes)
      · rename_i same
        rw [not_not] at same
        rw [same, List.take_length] at lines
        exact ⟨reached.toStays, Or.inl reached.bytes, fun _ => reached.bytes.trans lines⟩

end OpenFile

structure AppendFile where
  writer : TransactionalAppend OpenFile

namespace AppendFile

def openFile (disk : Disk) (name : String) : Except (IoError × Disk) OpenFile :=
  match disk.outcome with
  | .failed error => .error (error, disk.advance)
  | _ =>
      match disk.names[name]? with
      | some inode => .ok { disk := disk.advance, inode := inode }
      | none => .ok { disk := disk.advance.create name, inode := disk.nextInode }

def openPath (disk : Disk) (name : String) : Except (IoError × Disk) AppendFile :=
  match openFile disk name with
  | .error failure => .error failure
  | .ok file =>
      match file.recoverTail 8192 with
      | (.error error, file) => .error (error, file.disk)
      | (.ok _, file) => .ok { writer := { file := file, rollback := none } }

def append (file : AppendFile) (bytes : Bytes) : Except IoError Unit × AppendFile :=
  let appended := file.writer.append bytes
  (appended.1, { writer := appended.2 })

def syncAll (file : AppendFile) : Except IoError Unit × AppendFile :=
  let synced := file.writer.file.syncAll
  (synced.1, { writer := { file.writer with file := synced.2 } })

end AppendFile

/-! ### Opening -/

/-- Nothing but one name and its file differs; the name itself may be new. -/
structure Disk.Elsewhere (name : String) (before after : Disk) : Prop where
  names : ∀ other : String, other ≠ name → after.names[other]? = before.names[other]?
  kept : ∀ inode : ℕ, before.names[name]? = some inode → after.names[name]? = some inode
  fresh : ∀ inode : ℕ, before.names[name]? = none → after.names[name]? = some inode →
    before.nextInode ≤ inode
  grows : before.nextInode ≤ after.nextInode
  now : after.now = before.now
  files : ∀ inode : ℕ, inode < before.nextInode → before.names[name]? ≠ some inode →
    after.files[inode]? = before.files[inode]?

namespace Disk

variable {name : String} {before after : Disk}

theorem Elsewhere.advance (name : String) (disk : Disk) : Elsewhere name disk disk.advance := by
  refine ⟨fun _ _ => rfl, fun _ found => found, ?_, le_rfl, rfl, fun _ _ _ => rfl⟩
  intro inode absent found
  exact absurd (absent.symm.trans found) (by simp)

theorem Elsewhere.create {disk : Disk} (absent : disk.names[name]? = none) :
    Elsewhere name disk (disk.create name) := by
  refine ⟨fun other different => ?_, fun inode found => ?_, fun inode _ found => ?_,
    Nat.le_succ _, rfl, fun inode old _ => ?_⟩
  · rw [Disk.create, ExtTreeMap.getElem?_insert, if_neg]
    rw [Std.compare_eq_iff_eq]
    exact Ne.symm different
  · rw [absent] at found
    simp at found
  · rw [Disk.create, ExtTreeMap.getElem?_insert, if_pos (Std.compare_eq_iff_eq.mpr rfl)] at found
    exact (Option.some.inj found).le
  · rw [Disk.create, ExtTreeMap.getElem?_insert, if_neg]
    rw [Std.compare_eq_iff_eq]
    omega

theorem Elsewhere.of_sameBut {inode : ℕ} (same : SameBut inode before after)
    (named : before.names[name]? = some inode ∨ before.nextInode ≤ inode) :
    Elsewhere name before after := by
  refine ⟨fun other _ => by rw [same.names], fun _ found => by rwa [same.names], ?_,
    same.nextInode.ge, same.now, fun other old unnamed => same.files other ?_⟩
  · intro inode absent found
    rw [same.names, absent] at found
    simp at found
  · rintro rfl
    rcases named with named | new
    · exact unnamed named
    · omega

theorem Elsewhere.trans_sameBut {middle : Disk} {inode : ℕ}
    (left : Elsewhere name before middle) (named : middle.names[name]? = some inode)
    (fresh : ∀ old : ℕ, before.names[name]? = some old → old = inode)
    (new : before.names[name]? = none → before.nextInode ≤ inode)
    (right : SameBut inode middle after) : Elsewhere name before after := by
  refine ⟨fun other different => ?_, fun old found => ?_, fun other absent found => ?_, ?_,
    right.now.trans left.now, fun other old unnamed => ?_⟩
  · rw [right.names, left.names other different]
  · rw [right.names, named, fresh old found]
  · rw [right.names] at found
    exact left.fresh other absent found
  · rw [right.nextInode]
    exact left.grows
  · rw [right.files other, left.files other old unnamed]
    rintro rfl
    cases existing : before.names[name]? with
    | none =>
        have bound := new existing
        omega
    | some first =>
        rw [fresh first existing] at existing
        exact unnamed existing

theorem Elsewhere.fileData (elsewhere : Elsewhere name before after) {inode : ℕ}
    (old : inode < before.nextInode) (unnamed : before.names[name]? ≠ some inode) :
    after.fileData inode = before.fileData inode := by
  rw [Disk.fileData, Disk.fileData, elsewhere.files inode old unnamed, elsewhere.now]

theorem Elsewhere.contentAt (elsewhere : Elsewhere name before after) {other : String}
    (different : other ≠ name) : after.contentAt other = before.contentAt other := by
  rw [Disk.contentAt, Disk.contentAt, elsewhere.names other different]
  cases found : before.names[other]? with
  | none => rfl
  | some inode =>
      have old := before.numbered other inode found
      have unnamed : before.names[name]? ≠ some inode := fun named =>
        different (before.unshared other name inode found named)
      rw [Option.map_some, Option.map_some, elsewhere.fileData old unnamed]

end Disk

namespace AppendFile

def completeLines (disk : Disk) (name : String) : Bytes :=
  completePart newline ((disk.contentAt name).getD [])

structure Opened (disk : Disk) (name : String) (opened : AppendFile) : Prop where
  unblocked : opened.writer.rollback = none
  named : opened.writer.file.disk.names[name]? = some opened.writer.file.inode
  elsewhere : Disk.Elsewhere name disk opened.writer.file.disk
  lines : opened.writer.file.bytes = completeLines disk name

structure OpenFailed (disk : Disk) (name : String) (left : Disk) : Prop where
  elsewhere : Disk.Elsewhere name disk left
  content : left.contentAt name = disk.contentAt name ∨
    left.contentAt name = some (completeLines disk name)

theorem contentAt_of_named {file : OpenFile} {name : String}
    (named : file.disk.names[name]? = some file.inode) :
    file.disk.contentAt name = some file.bytes := by
  rw [Disk.contentAt, named]
  rfl

theorem openFile_spec (disk : Disk) (name : String) :
    (∃ error, openFile disk name = .error (error, disk.advance)) ∨
      ∃ file, openFile disk name = .ok file ∧ file.disk.names[name]? = some file.inode ∧
        Disk.Elsewhere name disk file.disk ∧
        (∀ old : ℕ, disk.names[name]? = some old → old = file.inode) ∧
        (disk.names[name]? = none → disk.nextInode ≤ file.inode) ∧
        file.bytes = (disk.contentAt name).getD [] ∧
        (disk.contentAt name = some file.bytes ∨ file.bytes = []) := by
  have opens (failing : ∀ error, disk.outcome ≠ .failed error) :
      openFile disk name =
        match disk.names[name]? with
        | some inode => .ok { disk := disk.advance, inode := inode }
        | none => .ok { disk := disk.advance.create name, inode := disk.nextInode } := by
    unfold openFile
    cases outcome : disk.outcome with
    | failed error => exact absurd outcome (failing error)
    | done => rfl
    | short count => rfl
  by_cases failing : ∃ error, disk.outcome = .failed error
  · obtain ⟨error, outcome⟩ := failing
    refine Or.inl ⟨error, ?_⟩
    simp only [openFile, outcome]
  · push Not at failing
    rw [opens failing]
    refine Or.inr ?_
    cases found : disk.names[name]? with
    | some inode =>
        refine ⟨_, rfl, found, Disk.Elsewhere.advance name disk, ?_, ?_, ?_, ?_⟩
        · intro old same
          exact (Option.some.inj same).symm
        · intro none
          simp at none
        · rw [Disk.contentAt, found]
          rfl
        · rw [Disk.contentAt, found]
          exact Or.inl rfl
    | none =>
        have created : (disk.advance.create name).names[name]? = some disk.nextInode := by
          rw [Disk.create, ExtTreeMap.getElem?_insert, if_pos (Std.compare_eq_iff_eq.mpr rfl)]
          rfl
        have empty : (OpenFile.mk (disk.advance.create name) disk.nextInode []).bytes = [] := by
          simp [OpenFile.bytes, OpenFile.data, Disk.fileData, Disk.create, Disk.advance]
        refine ⟨_, rfl, created, ?_, ?_, ?_, ?_, Or.inr empty⟩
        · have made : Disk.Elsewhere name disk.advance (disk.advance.create name) :=
            Disk.Elsewhere.create found
          exact ⟨made.names, made.kept, made.fresh, made.grows, made.now, made.files⟩
        · intro old same
          simp at same
        · intro _
          exact le_rfl
        · rw [empty, Disk.contentAt, found]
          rfl

/-- Opening finds the complete lines of its file and leaves all others alone, also when it fails
half-way. -/
theorem openPath_spec (disk : Disk) (name : String) :
    (∃ opened, openPath disk name = .ok opened ∧ Opened disk name opened) ∨
      ∃ error left, openPath disk name = .error (error, left) ∧ OpenFailed disk name left := by
  rcases openFile_spec disk name with ⟨error, failed⟩ |
    ⟨file, opens, named, elsewhere, fresh, new, bytes, existing⟩
  · refine Or.inr ⟨error, disk.advance, ?_, Disk.Elsewhere.advance name disk, Or.inl rfl⟩
    rw [openPath, failed]
  · obtain ⟨stays, left, lines⟩ := OpenFile.recoverTail_stays (by decide : 0 < 8192) file
    simp only [openPath, opens]
    generalize file.recoverTail 8192 = recovery at stays left lines ⊢
    rcases recovery with ⟨error | done, recovered⟩
    · have still : recovered.disk.names[name]? = some recovered.inode := by
        rw [stays.disk.names, stays.inode, named]
      refine Or.inr ⟨error, recovered.disk, rfl,
        elsewhere.trans_sameBut named fresh new stays.disk, ?_⟩
      rw [contentAt_of_named still, completeLines, ← bytes]
      rcases left with same | cut
      · rcases existing with found | empty
        · exact Or.inl (by rw [found, ← same])
        · refine Or.inr (congrArg some ?_)
          rw [same, empty]
          rfl
      · exact Or.inr (congrArg some cut)
    · refine Or.inl ⟨_, rfl, rfl, ?_, elsewhere.trans_sameBut named fresh new stays.disk, ?_⟩
      · rw [stays.disk.names, named, stays.inode]
      · rw [completeLines, ← bytes]
        exact lines rfl

/-! ### Crashes -/

theorem runAppends_bytes {F : Type*} [AppendStorage F] [ObservedStorage F]
    (writer : TransactionalAppend F) (calls : List Bytes) :
    (writer.runAppends calls).1.map Attempt.bytes = calls := by
  induction calls using List.reverseRecOn with
  | nil => rfl
  | append_singleton calls bytes ih =>
      rw [TransactionalAppend.runAppends_concat, List.map_append, ih]
      rfl

theorem mem_of_lastFailed {attempts : List Attempt} {failed : Attempt}
    (last : lastFailed attempts = some failed) : failed ∈ attempts :=
  List.mem_of_mem_filter (List.mem_of_getLast? last)

theorem acknowledged_subset {attempts : List Attempt} {bytes : Bytes}
    (member : bytes ∈ acknowledged attempts) : bytes ∈ attempts.map Attempt.bytes := by
  obtain ⟨attempt, kept, rfl⟩ := List.mem_map.mp member
  exact List.mem_map_of_mem (List.mem_of_mem_filter kept)

/-- The process appends lines to a file that it opened, and dies at some moment of a last call.
Whatever failed on the way, the next opening that succeeds finds what the file held before, every
acknowledged line in order, and at most one line more: the last one that reached the file
without being acknowledged. -/
theorem crash_recovery (disk : Disk) (name : String) (opened : AppendFile)
    (opens : openPath disk name = .ok opened) (calls : List Bytes) (last : Bytes)
    (lines : ∀ bytes ∈ calls ++ [last], IsRecord newline bytes) (done : List Effect)
    (happened : done <+: (opened.writer.runAppends calls).2.callEffects last)
    (crashed : Disk)
    (held : crashed.contentAt name =
      some (replay (content (opened.writer.runAppends calls).2.file) done))
    (reopened : AppendFile) (reopens : openPath crashed name = .ok reopened) :
    ∃ extra, reopened.writer.file.disk.contentAt name = some
        (opened.writer.file.bytes ++
          (acknowledged (opened.writer.runAppends calls).1).flatten ++ extra) ∧
      (extra = [] ∨ ∃ failed,
        lastFailed ((opened.writer.runAppends calls).1 ++ [⟨last, false, done⟩]) = some failed ∧
          extra = failed.bytes) := by
  obtain ⟨unblocked, _, _, before⟩ : Opened disk name opened := by
    rcases openPath_spec disk name with ⟨found, same, spec⟩ | ⟨error, left, same, _⟩
    · rw [opens] at same
      rwa [Except.ok.inj same]
    · rw [opens] at same
      simp at same
  obtain ⟨_, named, _, after⟩ : Opened crashed name reopened := by
    rcases openPath_spec crashed name with ⟨found, same, spec⟩ | ⟨error, left, same, _⟩
    · rw [reopens] at same
      rwa [Except.ok.inj same]
    · rw [reopens] at same
      simp at same
  have complete : Complete newline (opened.writer.base calls) := by
    apply Complete.append
    · change Complete newline opened.writer.file.bytes
      rw [before]
      exact completePart_complete _
    · apply Complete.flatten
      intro bytes member
      have sent := acknowledged_subset member
      rw [runAppends_bytes] at sent
      exact (lines bytes (List.mem_append_left _ sent)).complete
  obtain ⟨residue, moment, owned⟩ :=
    (opened.writer.consistent_run unblocked calls).moment happened
  rw [contentAt_of_named named, after, completeLines, held, Option.getD_some, moment,
    complete.completePart_append]
  refine ⟨completePart newline residue, rfl, ?_⟩
  rcases owned with rfl | ⟨failed, found, begun⟩
  · exact Or.inl rfl
  · have sent : failed.bytes ∈ calls ++ [last] := by
      have member := mem_of_lastFailed found
      rcases List.mem_append.mp member with earlier | now
      · rw [← runAppends_bytes opened.writer calls]
        exact List.mem_append_left _ (List.mem_map_of_mem earlier)
      · rw [List.mem_singleton.mp now]
        exact List.mem_append_right _ List.mem_cons_self
    rcases (lines failed.bytes sent).completePart_of_start begun with nothing | ⟨_, whole⟩
    · exact Or.inl nothing
    · exact Or.inr ⟨failed, found, whole⟩

/-- The process dies after the whole second line is written, before it answers. -/
theorem crash_recovery_unanswered :
    let opened : AppendFile :=
      { writer :=
          { file := { disk := (Disk.blank []).create "log", inode := 0 }, rollback := none } }
    let reached := (opened.writer.runAppends [[49, 10]]).2
    ∃ reopened : AppendFile,
      openPath (reached.append [50, 10]).2.file.disk "log" = .ok reopened ∧
        ∃ extra, reopened.writer.file.disk.contentAt "log" = some
            (opened.writer.file.bytes ++
              (acknowledged (opened.writer.runAppends [[49, 10]]).1).flatten ++ extra) ∧
          (extra = [] ∨ ∃ failed,
            lastFailed ((opened.writer.runAppends [[49, 10]]).1 ++
                [⟨[50, 10], false, reached.callEffects [50, 10]⟩]) = some failed ∧
              extra = failed.bytes) := by
  intro opened reached
  have lines : ∀ bytes ∈ ([[49, 10]] ++ [[50, 10]] : List Bytes), IsRecord newline bytes := by
    intro bytes member
    rcases List.mem_pair.mp member with rfl | rfl
    · exact ⟨[49], rfl, by decide⟩
    · exact ⟨[50], rfl, by decide⟩
  have succeeds : (openPath (reached.append [50, 10]).2.file.disk "log").isOk = true := by
    decide +kernel
  cases reopens : openPath (reached.append [50, 10]).2.file.disk "log" with
  | error failure => simp [reopens, Except.isOk, Except.toBool] at succeeds
  | ok reopened =>
      exact ⟨reopened, rfl, crash_recovery (Disk.blank []) "log" opened rfl [[49, 10]] [50, 10]
        lines _ List.prefix_rfl (reached.append [50, 10]).2.file.disk (by decide) reopened reopens⟩

end AppendFile

end OtelLogger
