import OtelLogger.Startup

/-!
What calls of a daily writer do to the disk that they share with others: when files were written,
which names are new, and which texts stay. None of it needs the current file to have its name
still, and another process may look at the directory meanwhile.
-/

namespace OtelLogger

open Std (ExtTreeMap)
open Delimited

/-! ### When files were written -/

/-- No name is lost, and one alone may be new; every file was last written when it was before, or
now. -/
structure Disk.Ages (opened : String) (before after : Disk) : Prop where
  now : after.now = before.now
  names : ∀ (name : String) (inode : ℕ), before.names[name]? = some inode →
    after.names[name]? = some inode
  added : ∀ (name : String) (inode : ℕ), before.names[name]? = none →
    after.names[name]? = some inode → name = opened ∧
      ∃ data, after.files[inode]? = some data ∧ data.modified = before.now
  modified : ∀ (inode : ℕ) (data : FileData), before.files[inode]? = some data →
    ∃ last, after.files[inode]? = some last ∧
      (last.modified = data.modified ∨ last.modified = before.now)

namespace Disk.Ages

variable {opened : String} {before after last : Disk}

theorem of_modified (now : after.now = before.now) (names : after.names = before.names)
    (modified : ∀ (inode : ℕ) (data : FileData), before.files[inode]? = some data →
      ∃ last, after.files[inode]? = some last ∧
        (last.modified = data.modified ∨ last.modified = before.now)) :
    Ages opened before after := by
  refine ⟨now, fun name inode found => by rw [names, found], fun name inode absent found => ?_,
    modified⟩
  rw [names, absent] at found
  simp at found

theorem of_same (now : after.now = before.now) (names : after.names = before.names)
    (files : after.files = before.files) : Ages opened before after :=
  of_modified now names fun inode data found => ⟨data, by rw [files, found], Or.inl rfl⟩

theorem refl (disk : Disk) : Ages opened disk disk :=
  of_same rfl rfl rfl

theorem trans (left : Ages opened before after) (right : Ages opened after last) :
    Ages opened before last := by
  refine ⟨right.now.trans left.now,
    fun name inode found => right.names name inode (left.names name inode found),
    fun name inode absent found => ?_, fun inode data found => ?_⟩
  · cases middle : after.names[name]? with
    | none =>
        obtain ⟨same, data, file, modified⟩ := right.added name inode middle found
        exact ⟨same, data, file, modified.trans left.now⟩
    | some number =>
        obtain rfl : number = inode :=
          Option.some.inj ((right.names name number middle).symm.trans found)
        obtain ⟨same, data, file, modified⟩ := left.added name number absent middle
        obtain ⟨next, later, kept | new⟩ := right.modified number data file
        · exact ⟨same, next, later, kept.trans modified⟩
        · exact ⟨same, next, later, new.trans left.now⟩
  · obtain ⟨middle, file, first⟩ := left.modified inode data found
    obtain ⟨next, later, kept | new⟩ := right.modified inode middle file
    · refine ⟨next, later, ?_⟩
      rw [kept]
      exact first
    · exact ⟨next, later, Or.inr (new.trans left.now)⟩

theorem insert {disk : Disk} {inode : ℕ} {content : Bytes}
    (files : after.files = disk.files.insert inode { content := content, modified := disk.now })
    (other : ℕ) (data : FileData) (found : disk.files[other]? = some data) :
    ∃ last, after.files[other]? = some last ∧
      (last.modified = data.modified ∨ last.modified = disk.now) := by
  by_cases same : other = inode
  · subst other
    exact ⟨_, by rw [files, ExtTreeMap.getElem?_insert_self], Or.inr rfl⟩
  · refine ⟨data, ?_, Or.inl rfl⟩
    rw [files, ExtTreeMap.getElem?_insert, if_neg, found]
    rw [Std.compare_eq_iff_eq]
    exact Ne.symm same

theorem create {disk : Disk} {name : String} (absent : disk.names[name]? = none) :
    Ages name disk (disk.create name) := by
  have elsewhere := Disk.Elsewhere.create absent
  refine ⟨rfl, fun other inode found => ?_, fun other inode none found => ?_, insert rfl⟩
  · rwa [elsewhere.names]
    rintro rfl
    rw [absent] at found
    simp at found
  · by_cases same : other = name
    · subst other
      have new := elsewhere.fresh inode absent found
      have bound := (disk.create name).numbered name inode found
      obtain rfl : inode = disk.nextInode := by
        change inode < disk.nextInode + 1 at bound
        omega
      exact ⟨rfl, { content := [], modified := disk.now }, by simp [Disk.create], rfl⟩
    · rw [elsewhere.names other same, none] at found
      simp at found

theorem attempt {α : Type*} (disk : Disk) (value : α) :
    Ages opened disk (disk.attempt value).2 := by
  unfold Disk.attempt
  cases disk.outcome <;> exact of_same rfl rfl rfl

end Disk.Ages

open Disk (Ages)

namespace OpenFile

variable {opened : String} (file : OpenFile)

theorem ages_advance : Ages opened file.disk (file.withDisk file.disk.advance).disk :=
  Ages.of_same rfl rfl rfl

theorem ages_perform (effect : Effect) : Ages opened file.disk (file.perform effect).disk :=
  Ages.of_modified rfl rfl (Ages.insert rfl)

theorem ages_attempt {α : Type*} (value : α) : Ages opened file.disk (file.attempt value).2.disk :=
  Ages.attempt file.disk value

theorem ages_write (bytes : Bytes) : Ages opened file.disk (file.write bytes).2.disk := by
  unfold write
  cases file.disk.outcome with
  | failed error => exact file.ages_advance
  | done | short count => exact file.ages_advance.trans (ages_perform _ _)

theorem ages_truncate (len : ℕ) : Ages opened file.disk (file.truncate len).2.disk := by
  have cut : Ages opened file.disk ((file.withDisk file.disk.advance).perform (.cut len)).seek.2.disk :=
    file.ages_advance.trans ((ages_perform _ _).trans (ages_attempt _ ()))
  unfold truncate
  cases file.disk.outcome with
  | failed error => exact file.ages_advance
  | done | short count => exact cut

theorem ages_readAt (start stop : ℕ) : Ages opened file.disk (file.readAt start stop).2.disk := by
  have sought : Ages opened file.disk file.seek.2.disk := file.ages_attempt ()
  unfold readAt
  generalize file.seek = seeking at sought ⊢
  rcases seeking with ⟨error | done, next⟩
  · exact sought
  · exact sought.trans (next.ages_attempt _)

theorem ages_lastLineEnd (chunk rounds : ℕ) (file : OpenFile) (stop : ℕ) :
    Ages opened file.disk (lastLineEnd chunk rounds file stop).2.disk := by
  induction rounds generalizing file stop with
  | zero => exact Ages.refl _
  | succ rounds ih =>
      have read : Ages opened file.disk _ := file.ages_readAt (stop - chunk) stop
      unfold lastLineEnd
      split
      · exact Ages.refl _
      · dsimp only
        generalize file.readAt (stop - chunk) stop = reading at read ⊢
        rcases reading with ⟨error | buffer, next⟩
        · exact read
        · dsimp only
          split
          · exact read
          · exact read.trans (ih next _)

theorem ages_recoverTail (chunk : ℕ) : Ages opened file.disk (file.recoverTail chunk).2.disk := by
  have measured : Ages opened file.disk file.metadataLen.2.disk := file.ages_attempt file.bytes.length
  unfold recoverTail
  generalize file.metadataLen = measuring at measured ⊢
  rcases measuring with ⟨error | length, next⟩
  · exact measured
  · have searched : Ages opened next.disk _ := ages_lastLineEnd chunk length next length
    dsimp only
    generalize lastLineEnd chunk length next length = search at searched ⊢
    rcases search with ⟨error | valid, found⟩
    · exact measured.trans searched
    · dsimp only
      split
      · exact measured.trans (searched.trans (found.ages_truncate valid))
      · exact measured.trans searched

end OpenFile

theorem TransactionalAppend.ages {opened : String} (writer : TransactionalAppend OpenFile)
    (bytes : Bytes) : Ages opened writer.file.disk writer.repair.2.file.disk ∧
      Ages opened writer.file.disk (writer.append bytes).2.file.disk := by
  have all := @TransactionalAppend.append_respects OpenFile _
    (fun file next => Ages opened file.disk next.disk)
  exact all (fun file => Ages.refl file.disk) (fun _ _ _ => Ages.trans) OpenFile.ages_write
    (fun file => file.ages_attempt ()) (fun file => file.ages_attempt file.bytes.length)
    OpenFile.ages_truncate writer bytes

theorem AppendFile.openPath_ages (disk : Disk) (name : String) :
    Ages name disk (leftBy (fun file => file.writer.file.disk) (AppendFile.openPath disk name)) := by
  have waited : Ages name disk disk.advance := Ages.of_same rfl rfl rfl
  have opened : (∃ error, AppendFile.openFile disk name = .error (error, disk.advance)) ∨
      ∃ file, AppendFile.openFile disk name = .ok file ∧ Ages name disk file.disk := by
    unfold AppendFile.openFile
    cases disk.outcome with
    | failed error => exact Or.inl ⟨error, rfl⟩
    | done | short count =>
        refine Or.inr ?_
        cases absent : disk.names[name]? with
        | none => exact ⟨_, rfl, waited.trans (@Ages.create disk.advance name absent)⟩
        | some inode => exact ⟨_, rfl, waited⟩
  rcases opened with ⟨error, failed⟩ | ⟨file, opens, ages⟩
  · rw [AppendFile.openPath, failed]
    exact waited
  · have recovered := ages.trans (file.ages_recoverTail 8192)
    rw [AppendFile.openPath, opens]
    dsimp only
    generalize file.recoverTail 8192 = recovery at recovered ⊢
    rcases recovery with ⟨error | done, next⟩
    · exact recovered
    · exact recovered

namespace DailyWriter

variable {opened : String} (writer : DailyWriter)

theorem rotate_ages (date : NaiveDate) :
    Ages (writer.path date) writer.disk (writer.rotate date).2.disk := by
  have repaired : Ages (writer.path date) writer.disk writer.repair.2.disk :=
    (writer.file.writer.ages []).1
  have opening (reached : DailyWriter) (path : reached.path = writer.path) :
      Ages (writer.path date) reached.disk (reached.openDate date).2.disk := by
    rw [← path]
    have opens := AppendFile.openPath_ages reached.disk (reached.path date)
    unfold openDate
    generalize AppendFile.openPath reached.disk (reached.path date) = opened at opens ⊢
    rcases opened with ⟨error, left⟩ | file
    · exact opens
    · exact opens
  have path : writer.repair.2.path = writer.path := writer.repair_remains.path
  unfold rotate
  generalize writer.repair = repair at repaired path ⊢
  rcases repair with ⟨error | done, next⟩
  · exact repaired
  · dsimp only at path ⊢
    split
    · have synced : Ages (writer.path date) next.disk next.syncAll.2.disk :=
        next.handle.ages_attempt ()
      have still : next.syncAll.2.path = writer.path := next.syncAll_remains.path.trans path
      generalize next.syncAll = sync at synced still ⊢
      rcases sync with ⟨error | done, last⟩
      · exact repaired.trans synced
      · exact repaired.trans (synced.trans (opening last still))
    · exact repaired.trans (opening next path)

theorem append_ages (bytes : Bytes) : Ages opened writer.disk (writer.append bytes).2.disk :=
  (writer.file.writer.ages bytes).2

theorem appendAt_ages (bytes : Bytes) (date : NaiveDate) :
    Ages (writer.path date) writer.disk (writer.appendAt bytes date).2.disk := by
  unfold appendAt
  split
  · have rotated := writer.rotate_ages date
    generalize writer.rotate date = rotation at rotated ⊢
    rcases rotation with ⟨error | done, next⟩
    · exact rotated
    · exact rotated.trans (next.append_ages bytes)
  · exact writer.append_ages bytes

end DailyWriter

/-! A write that is answered was made now. -/

theorem OpenFile.write_modified {file next : OpenFile} {bytes : Bytes} {count : ℕ}
    (written : file.write bytes = (.ok count, next)) :
    next.data.modified = file.disk.now ∧ next.disk.now = file.disk.now := by
  have performed (effect : Effect) :
      (((file.withDisk file.disk.advance).perform effect).data.modified = file.disk.now) ∧
        ((file.withDisk file.disk.advance).perform effect).disk.now = file.disk.now := by
    refine ⟨?_, rfl⟩
    simp [OpenFile.data, Disk.fileData, OpenFile.perform, Disk.setContent, OpenFile.withDisk,
      Disk.advance]
  unfold OpenFile.write at written
  cases outcome : file.disk.outcome with
  | failed error => simp [outcome] at written
  | done | short accepted =>
      simp only [outcome, Prod.mk.injEq] at written
      rw [← written.2]
      exact performed _

theorem writeRounds_modified (rounds : ℕ) (file : OpenFile) {bytes : Bytes} (filled : bytes ≠ [])
    (done : (writeRounds rounds file bytes).1 = .ok ()) :
    (writeRounds rounds file bytes).2.data.modified = file.disk.now := by
  induction rounds generalizing file bytes with
  | zero => simp [writeRounds, filled] at done
  | succ rounds ih =>
      rw [writeRounds, if_neg filled] at done ⊢
      rcases written : AppendStorage.write file bytes with ⟨error | count, next⟩
      · simp [written] at done
      · obtain ⟨modified, now⟩ := OpenFile.write_modified written
        simp only [written] at done ⊢
        split at done
        · simp at done
        · rename_i some
          rw [if_neg some]
          by_cases last : bytes.drop count = []
          · rw [last, writeRounds.eq_def, if_pos rfl]
            exact modified
          · rw [ih next last done, now]

theorem TransactionalAppend.append_modified (writer : TransactionalAppend OpenFile)
    {bytes : Bytes} (filled : bytes ≠ []) (done : (writer.append bytes).1 = .ok ()) :
    (writer.append bytes).2.file.data.modified = writer.file.disk.now := by
  have repaired : Ages "" writer.file.disk writer.repair.2.file.disk := (writer.ages []).1
  unfold TransactionalAppend.append at done ⊢
  generalize writer.repair = repair at repaired done ⊢
  rcases repair with ⟨error | _, next⟩
  · simp at done
  · have started : Ages "" next.file.disk (AppendStorage.appendStart next.file).2.disk :=
      next.file.ages_attempt next.file.bytes.length
    have now := started.now.trans repaired.now
    dsimp only at now done ⊢
    generalize AppendStorage.appendStart next.file = starting at now done ⊢
    rcases starting with ⟨error | start, file⟩
    · simp at done
    · have wrote := writeRounds_modified bytes.length file filled
      dsimp only [writeAndFlush, writeAll] at now done ⊢
      generalize writeRounds bytes.length file bytes = written at wrote done ⊢
      rcases written with ⟨error | _, written⟩
      · dsimp only at done
        split at done <;> simp at done
      · have modified := (wrote rfl).trans now
        have same : (AppendStorage.flush written).2.data = written.data := by
          change (written.attempt ()).2.data = written.data
          rw [OpenFile.attempt_snd]
          rfl
        dsimp only at done ⊢
        generalize AppendStorage.flush written = flushed at same done ⊢
        rcases flushed with ⟨error | _, last⟩
        · dsimp only at done
          split at done <;> simp at done
        · exact (congrArg FileData.modified same).trans modified

theorem DailyWriter.appendAt_modified (writer : DailyWriter) {bytes : Bytes} (filled : bytes ≠ [])
    {date : NaiveDate} (done : (writer.appendAt bytes date).1 = .ok ()) :
    (writer.appendAt bytes date).2.handle.data.modified = writer.disk.now := by
  unfold DailyWriter.appendAt at done ⊢
  by_cases other : writer.date ≠ date
  · have rotated := writer.rotate_ages date
    rw [if_pos other] at done ⊢
    generalize writer.rotate date = rotation at rotated done ⊢
    rcases rotation with ⟨error | _, next⟩
    · simp at done
    · exact (next.file.writer.append_modified filled done).trans rotated.now
  · rw [if_neg other] at done ⊢
    exact writer.file.writer.append_modified filled done

/-! ### Texts that stay -/

/-- The file keeps its content and gets no other name. -/
structure Disk.LeavesFile (inode : ℕ) (before after : Disk) : Prop where
  file : after.files[inode]? = before.files[inode]?
  names : ∀ name : String, after.names[name]? = some inode → before.names[name]? = some inode
  grows : before.nextInode ≤ after.nextInode

theorem Disk.LeavesFile.trans {inode : ℕ} {before after last : Disk}
    (left : LeavesFile inode before after) (right : LeavesFile inode after last) :
    LeavesFile inode before last :=
  ⟨right.file.trans left.file, fun name found => left.names name (right.names name found),
    left.grows.trans right.grows⟩

theorem Disk.LeavesFile.content {inode : ℕ} {before after : Disk}
    (leaves : LeavesFile inode before after) :
    (after.fileData inode).content = (before.fileData inode).content := by
  rw [Disk.fileData, Disk.fileData, leaves.file]
  cases before.files[inode]? <;> rfl

theorem Disk.Elsewhere.keepsName {opened name : String} {inode : ℕ} {before after : Disk}
    (elsewhere : Disk.Elsewhere opened before after) (found : before.names[name]? = some inode) :
    after.names[name]? = some inode := by
  by_cases same : name = opened
  · subst name
    exact elsewhere.kept inode found
  · rwa [elsewhere.names name same]

theorem Disk.Elsewhere.leavesFile {opened : String} {inode : ℕ} {before after : Disk}
    (elsewhere : Disk.Elsewhere opened before after) (old : inode < before.nextInode)
    (unnamed : before.names[opened]? ≠ some inode) : LeavesFile inode before after := by
  refine ⟨elsewhere.files inode old unnamed, fun name found => ?_, elsewhere.grows⟩
  by_cases same : name = opened
  · subst name
    cases was : before.names[opened]? with
    | none =>
        have new := elsewhere.fresh inode was found
        omega
    | some number => rw [← elsewhere.kept number was, found]
  · rwa [elsewhere.names name same] at found

/-- The file of that name begins with the text. -/
structure Disk.Begins (name : String) (inode : ℕ) (text : Bytes) (disk : Disk) : Prop where
  named : disk.names[name]? = some inode
  begins : text <+: (disk.fileData inode).content

theorem Disk.Begins.kept {name : String} {inode : ℕ} {text : Bytes} {before after : Disk}
    (begins : Begins name inode text before) (named : after.names[name]? = some inode)
    (file : after.files[inode]? = before.files[inode]?) : Begins name inode text after := by
  refine ⟨named, ?_⟩
  have content := begins.begins
  rw [Disk.fileData] at content ⊢
  rw [file]
  cases found : before.files[inode]? with
  | none =>
      rw [found] at content
      exact content
  | some data =>
      rw [found] at content
      exact content

/-- Opening a file cuts no complete text. -/
theorem Disk.Begins.elsewhere {opened name : String} {inode : ℕ} {text : Bytes}
    {before after : Disk} (begins : Begins name inode text before)
    (elsewhere : Disk.Elsewhere opened before after)
    (content : text <+: (before.contentAt opened).getD [] →
      text <+: (after.contentAt opened).getD []) : Begins name inode text after := by
  have named := elsewhere.keepsName begins.named
  by_cases own : before.names[opened]? = some inode
  · have still := elsewhere.kept inode own
    rw [Disk.contentAt, Disk.contentAt, own, still] at content
    exact ⟨named, content begins.begins⟩
  · exact begins.kept named
      (elsewhere.files inode (before.numbered name inode begins.named) own)

namespace DailyWriter

open TransactionalAppend (Consistent)

/-- A repair that is due cuts behind the text. -/
def Spares (inode : ℕ) (text : Bytes) (writer : DailyWriter) : Prop :=
  writer.handle.inode = inode → ∀ start, writer.rollback = some start → text.length ≤ start

/-- The writer fits the disk that it is on. Its file may have lost its name. -/
structure Seated (writer : DailyWriter) : Prop where
  consistent : ∃ base past, Complete newline base ∧ Consistent base past writer.file.writer
  only : ∀ name : String, writer.disk.names[name]? = some writer.handle.inode →
    name = writer.path writer.date
  numbered : writer.handle.inode < writer.disk.nextInode

theorem Seated.withDisk {writer : DailyWriter} {disk : Disk} (seated : writer.Seated)
    (leaves : Disk.LeavesFile writer.handle.inode writer.disk disk) :
    (writer.withDisk disk).Seated := by
  obtain ⟨base, past, complete, consistent⟩ := seated.consistent
  exact ⟨⟨base, past, complete, consistent.of_same leaves.content rfl⟩,
    fun name found => seated.only name (leaves.names name found),
    seated.numbered.trans_le leaves.grows⟩

theorem path_injective (writer : DailyWriter) : Function.Injective writer.path :=
  dailyPath_injective writer.namePrefix writer.nameSuffix

/-- What calls of a writer do to the disk: names stay, no file is touched but its own and those
of its dates, and a text that is whole lines and not to be taken back stays. -/
structure Acts (writer next : DailyWriter) : Prop where
  seated : next.Seated
  path : next.path = writer.path
  handle : next.handle.inode = writer.handle.inode ∨
    ∃ date, next.disk.names[writer.path date]? = some next.handle.inode
  names : ∀ (name : String) (inode : ℕ), writer.disk.names[name]? = some inode →
    next.disk.names[name]? = some inode
  leaves : ∀ inode < writer.disk.nextInode, inode ≠ writer.handle.inode →
    (∀ date, writer.disk.names[writer.path date]? ≠ some inode) →
      Disk.LeavesFile inode writer.disk next.disk
  keeps : ∀ (name : String) (inode : ℕ) (text : Bytes), Complete newline text →
    Disk.Begins name inode text writer.disk → Spares inode text writer →
      Disk.Begins name inode text next.disk ∧ Spares inode text next

variable {writer next : DailyWriter}

theorem Acts.trans {last : DailyWriter} (left : Acts writer next) (right : Acts next last) :
    Acts writer last := by
  refine ⟨right.seated, right.path.trans left.path, ?_,
    fun name inode found => right.names name inode (left.names name inode found), ?_, ?_⟩
  · rcases right.handle with same | ⟨date, named⟩
    · rcases left.handle with first | ⟨date, named⟩
      · exact Or.inl (same.trans first)
      · exact Or.inr ⟨date, same ▸ right.names _ _ named⟩
    · exact Or.inr ⟨date, left.path ▸ named⟩
  · intro inode old other unnamed
    have first := left.leaves inode old other unnamed
    refine first.trans (right.leaves inode (old.trans_le first.grows) ?_ ?_)
    · rintro rfl
      rcases left.handle with same | ⟨date, named⟩
      · exact other same
      · exact unnamed date (first.names _ named)
    · intro date named
      rw [left.path] at named
      exact unnamed date (first.names _ named)
  · intro name inode text complete begins spares
    obtain ⟨first, spared⟩ := left.keeps name inode text complete begins spares
    exact right.keeps name inode text complete first spared

/-- A text in the file that is not to be taken back is part of what was settled. -/
theorem Spares.covered {base : Bytes} {past : List Attempt} {text : Bytes}
    (consistent : Consistent base past writer.file.writer)
    (spares : Spares writer.handle.inode text writer) (begins : text <+: writer.handle.bytes) :
    text <+: base := by
  cases pending : writer.rollback with
  | none =>
      have whole : writer.handle.bytes = base := consistent.unblocked pending
      rwa [whole] at begins
  | some start =>
      have long := spares rfl start pending
      rw [consistent.blocked start pending] at long
      obtain ⟨residue, whole, _⟩ := consistent.residual
      have begun : text <+: base ++ residue := whole ▸ begins
      exact List.prefix_of_prefix_length_le begun (List.prefix_append base residue) long

theorem acts_of_remains {base grown : Bytes} {past later : List Attempt} (seated : writer.Seated)
    (remains : Remains writer next) (before : Consistent base past writer.file.writer)
    (after : Consistent grown later next.file.writer) (complete : Complete newline grown)
    (grows : base <+: grown) : Acts writer next := by
  refine ⟨⟨⟨grown, later, complete, after⟩, ?_, ?_⟩, remains.path, Or.inl remains.inode, ?_, ?_, ?_⟩
  · intro name found
    rw [remains.path, remains.date]
    refine seated.only name ?_
    rw [← remains.inode]
    exact remains.disk.names ▸ found
  · rw [remains.inode]
    exact seated.numbered.trans_eq remains.disk.nextInode.symm
  · intro name inode found
    exact remains.disk.names.symm ▸ found
  · intro inode _ other _
    refine ⟨remains.disk.files inode other, fun name found => ?_, remains.disk.nextInode.ge⟩
    exact remains.disk.names ▸ found
  · intro name inode text _ begins spares
    have named : next.disk.names[name]? = some inode := remains.disk.names.symm ▸ begins.named
    by_cases own : writer.handle.inode = inode
    · subst inode
      have covered := (spares.covered before begins.begins).trans grows
      obtain ⟨residue, whole, _⟩ := after.residual
      refine ⟨⟨named, ?_⟩, fun _ start pending => ?_⟩
      · have content : (next.disk.fileData next.handle.inode).content = grown ++ residue := whole
        rw [← remains.inode, content]
        exact covered.trans (List.prefix_append grown residue)
      · rw [after.blocked start pending]
        exact covered.length_le
    · refine ⟨begins.kept named (remains.disk.files inode (Ne.symm own)), fun same => ?_⟩
      exact absurd (remains.inode.symm.trans same) own

theorem Settled.acts {base : Bytes} {past : List Attempt} {settled : DailyWriter}
    (seated : writer.Seated) (complete : Complete newline base)
    (before : Consistent base past writer.file.writer) (settles : Settled base writer settled) :
    Acts writer settled := by
  have after : Consistent base [] settled.file.writer := by
    refine ⟨fun _ => settles.bytes, fun start pending => ?_, [], ?_, Or.inl rfl⟩
    · exact absurd (settles.unblocked.symm.trans pending) (by simp)
    · rw [List.append_nil]
      exact settles.bytes
  exact acts_of_remains seated settles.toRemains before after complete List.prefix_rfl

/-- Opening another date's file, as far as it got. -/
theorem Seated.elsewhere {date : NaiveDate} {disk : Disk} (seated : writer.Seated)
    (other : date ≠ writer.date) (elsewhere : Disk.Elsewhere (writer.path date) writer.disk disk) :
    (∀ (name : String) (inode : ℕ), writer.disk.names[name]? = some inode →
        disk.names[name]? = some inode) ∧
      Disk.LeavesFile writer.handle.inode writer.disk disk ∧
      ∀ inode < writer.disk.nextInode, (∀ date, writer.disk.names[writer.path date]? ≠ some inode) →
        Disk.LeavesFile inode writer.disk disk := by
  refine ⟨fun name inode found => elsewhere.keepsName found,
    elsewhere.leavesFile seated.numbered fun named => ?_,
    fun inode old unnamed => elsewhere.leavesFile old (unnamed date)⟩
  exact other (writer.path_injective (seated.only _ named))

theorem acts_refused {date : NaiveDate} {left : Disk} (seated : writer.Seated)
    (other : date ≠ writer.date)
    (failed : AppendFile.OpenFailed writer.disk (writer.path date) left) :
    Acts writer (writer.withDisk left) := by
  obtain ⟨names, mine, leaves⟩ := seated.elsewhere other failed.elsewhere
  refine ⟨seated.withDisk mine, rfl, Or.inl rfl, names,
    fun inode old _ unnamed => leaves inode old unnamed, ?_⟩
  intro name inode text complete begins spares
  refine ⟨begins.elsewhere failed.elsewhere fun start => ?_, spares⟩
  change text <+: (left.contentAt (writer.path date)).getD []
  rcases failed.content with same | cut
  · rwa [same]
  · rw [cut]
    exact complete.prefix_completePart start

theorem acts_opened {date : NaiveDate} {file : AppendFile} (seated : writer.Seated)
    (other : date ≠ writer.date)
    (opens : AppendFile.Opened writer.disk (writer.path date) file) :
    Acts writer { writer with file := file, date := date } := by
  obtain ⟨names, mine, leaves⟩ := seated.elsewhere other opens.elsewhere
  refine ⟨⟨⟨file.writer.file.bytes, [], ?_, fun _ => rfl, ?_, ?_⟩, ?_, ?_⟩, rfl,
    Or.inr ⟨date, opens.named⟩, names, fun inode old _ unnamed => leaves inode old unnamed, ?_⟩
  · rw [opens.lines]
    exact completePart_complete _
  · intro start pending
    exact absurd (opens.unblocked.symm.trans pending) (by simp)
  · exact TransactionalAppend.Residual.nothing _ _
  · intro name found
    exact file.writer.file.disk.unshared name _ _ found opens.named
  · exact file.writer.file.disk.numbered _ _ opens.named
  · intro name inode text complete begins _
    refine ⟨begins.elsewhere opens.elsewhere fun start => ?_, fun _ start pending => ?_⟩
    · change text <+: (file.writer.file.disk.contentAt (writer.path date)).getD []
      rw [AppendFile.contentAt_of_named opens.named, Option.getD_some, opens.lines]
      exact complete.prefix_completePart start
    · exact absurd (opens.unblocked.symm.trans pending) (by simp)

theorem rotate_acts (seated : writer.Seated) {date : NaiveDate} (other : writer.date ≠ date) :
    Acts writer (writer.rotate date).2 ∧
      ((writer.rotate date).1 = .ok () → (writer.rotate date).2.date = date) := by
  obtain ⟨base, past, complete, consistent⟩ := seated.consistent
  have rotation := rotate_cases consistent date
  generalize writer.rotate date = result at rotation ⊢
  cases rotation with
  | stopped error next remains still =>
      obtain ⟨later, still⟩ := still
      exact ⟨acts_of_remains seated remains consistent still complete List.prefix_rfl,
        fun done => by simp at done⟩
  | refused error settled left settles failed =>
      have acts := settles.acts seated complete consistent
      have apart : date ≠ settled.date := by
        rw [settles.date]
        exact Ne.symm other
      rw [← settles.path] at failed
      exact ⟨acts.trans (acts_refused acts.seated apart failed), fun done => by simp at done⟩
  | opened settled file settles repaired synced opens =>
      have acts := settles.acts seated complete consistent
      have apart : date ≠ settled.date := by
        rw [settles.date]
        exact Ne.symm other
      rw [← settles.path] at opens
      exact ⟨acts.trans (acts_opened acts.seated apart opens), fun _ => rfl⟩

/-- The bytes are in the open file behind complete lines, and are not to be taken back. -/
def Stored (bytes : Bytes) (writer : DailyWriter) : Prop :=
  ∃ earlier, Complete newline earlier ∧ earlier ++ bytes <+: writer.handle.bytes ∧
    Spares writer.handle.inode (earlier ++ bytes) writer

theorem append_acts (seated : writer.Seated) {bytes : Bytes} (line : Complete newline bytes) :
    Acts writer (writer.append bytes).2 ∧
      ((writer.append bytes).1 = .ok () → Stored bytes (writer.append bytes).2) := by
  obtain ⟨base, past, complete, consistent⟩ := seated.consistent
  have after := consistent.append bytes
  have answered : (writer.file.writer.attempt bytes).acknowledged =
      (writer.append bytes).1.isOk := rfl
  rw [answered] at after
  have whole : Complete newline (base ++ if (writer.append bytes).1.isOk then bytes else []) := by
    split
    · exact complete.append line
    · rwa [List.append_nil]
  refine ⟨acts_of_remains seated (writer.append_remains bytes) consistent after whole
    (List.prefix_append _ _), fun done => ⟨base, complete, ?_, fun _ start pending => ?_⟩⟩
  · obtain ⟨residue, content, _⟩ := after.residual
    have written : (writer.append bytes).2.handle.bytes = base ++ bytes ++ residue := by
      rw [done] at content
      exact content
    rw [written]
    exact List.prefix_append _ _
  · have bound := after.blocked start pending
    rw [done] at bound
    exact bound.ge

theorem appendAt_acts (seated : writer.Seated) {bytes : Bytes} (line : Complete newline bytes)
    (date : NaiveDate) : Acts writer (writer.appendAt bytes date).2 ∧
      ((writer.appendAt bytes date).1 = .ok () →
        Stored bytes (writer.appendAt bytes date).2 ∧
          (writer.appendAt bytes date).2.date = date) := by
  unfold appendAt
  by_cases other : writer.date ≠ date
  · rw [if_pos other]
    obtain ⟨acts, reached⟩ := rotate_acts seated other
    generalize writer.rotate date = rotation at acts reached ⊢
    rcases rotation with ⟨error | done, next⟩
    · exact ⟨acts, fun done => by simp at done⟩
    · obtain ⟨appends, stored⟩ := append_acts acts.seated line
      refine ⟨acts.trans appends, fun done => ⟨stored done, ?_⟩⟩
      exact (next.append_remains bytes).date.trans (reached rfl)
  · rw [if_neg other]
    obtain ⟨appends, stored⟩ := append_acts seated line
    exact ⟨appends, fun done =>
      ⟨stored done, (writer.append_remains bytes).date.trans (not_not.mp other)⟩⟩

/-- A call that only looks at the file. -/
theorem acts_of_same (seated : writer.Seated) (remains : Remains writer next)
    (bytes : next.handle.bytes = writer.handle.bytes) (rollback : next.rollback = writer.rollback) :
    Acts writer next := by
  obtain ⟨base, past, complete, consistent⟩ := seated.consistent
  exact acts_of_remains seated remains consistent (consistent.of_same bytes rollback) complete
    List.prefix_rfl

theorem flush_acts (seated : writer.Seated) : Acts writer writer.flush.2 := by
  refine acts_of_same seated ⟨writer.handle.stays_attempt (), rfl, rfl, rfl⟩ ?_ rfl
  change (writer.handle.attempt ()).2.bytes = writer.handle.bytes
  rw [OpenFile.attempt_snd, OpenFile.withDisk_advance_bytes]

theorem Acts.refl (seated : writer.Seated) : Acts writer writer :=
  acts_of_same seated (Remains.refl writer) rfl rfl

end DailyWriter

end OtelLogger
