import OtelLogger.AppendFile
import OtelLogger.CalendarDate

/-!
One file a day. The writer changes its file and its date together, after the old file is repaired
and synced; whatever fails on the way, every acknowledged batch stays in the file of its date.
-/

namespace OtelLogger

open Delimited

/-- The directory is not a field of its own: it is the disk that the open file is on. -/
structure DailyWriter where
  namePrefix : String
  nameSuffix : Option String
  date : NaiveDate
  file : AppendFile
  syncOnRotate : Bool

namespace DailyWriter

def path (writer : DailyWriter) (date : NaiveDate) : String :=
  dailyPath writer.namePrefix writer.nameSuffix date

def handle (writer : DailyWriter) : OpenFile :=
  writer.file.writer.file

def disk (writer : DailyWriter) : Disk :=
  writer.handle.disk

def rollback (writer : DailyWriter) : Option ℕ :=
  writer.file.writer.rollback

def withFile (writer : DailyWriter) (file : AppendFile) : DailyWriter :=
  { writer with file := file }

def withDisk (writer : DailyWriter) (disk : Disk) : DailyWriter :=
  writer.withFile { writer := { writer.file.writer with file := writer.handle.withDisk disk } }

def atDate (disk : Disk) (namePrefix : String) (nameSuffix : Option String) (date : NaiveDate) :
    Except (IoError × Disk) DailyWriter :=
  match AppendFile.openPath disk (dailyPath namePrefix nameSuffix date) with
  | .error failure => .error failure
  | .ok file => .ok
      { namePrefix := namePrefix
        nameSuffix := nameSuffix
        date := date
        file := file
        syncOnRotate := false }

def withSyncOnRotate (writer : DailyWriter) : DailyWriter :=
  { writer with syncOnRotate := true }

def repair (writer : DailyWriter) : Except IoError Unit × DailyWriter :=
  let repaired := writer.file.writer.repair
  (repaired.1, writer.withFile { writer := repaired.2 })

def syncAll (writer : DailyWriter) : Except IoError Unit × DailyWriter :=
  let synced := writer.file.syncAll
  (synced.1, writer.withFile synced.2)

def openDate (writer : DailyWriter) (date : NaiveDate) : Except IoError Unit × DailyWriter :=
  match AppendFile.openPath writer.disk (writer.path date) with
  | .error (error, disk) => (.error error, writer.withDisk disk)
  | .ok file => (.ok (), { writer with file := file, date := date })

def rotate (writer : DailyWriter) (date : NaiveDate) : Except IoError Unit × DailyWriter :=
  match writer.repair with
  | (.error error, writer) => (.error error, writer)
  | (.ok _, writer) =>
      if writer.syncOnRotate then
        match writer.syncAll with
        | (.error error, writer) => (.error error, writer)
        | (.ok _, writer) => writer.openDate date
      else writer.openDate date

def append (writer : DailyWriter) (bytes : Bytes) : Except IoError Unit × DailyWriter :=
  let appended := writer.file.append bytes
  (appended.1, writer.withFile appended.2)

def appendAt (writer : DailyWriter) (bytes : Bytes) (date : NaiveDate) :
    Except IoError Unit × DailyWriter :=
  if writer.date ≠ date then
    match writer.rotate date with
    | (.error error, writer) => (.error error, writer)
    | (.ok _, writer) => writer.append bytes
  else writer.append bytes

/-! ### One step -/

/-- The writer is still on the file of the same date, and nothing else changed on the disk. -/
structure Remains (writer next : DailyWriter) : Prop extends
    OpenFile.Stays writer.handle next.handle where
  date : next.date = writer.date
  path : next.path = writer.path
  syncOnRotate : next.syncOnRotate = writer.syncOnRotate

theorem Remains.refl (writer : DailyWriter) : Remains writer writer :=
  ⟨OpenFile.Stays.refl _, rfl, rfl, rfl⟩

theorem Remains.trans {first second third : DailyWriter} (left : Remains first second)
    (right : Remains second third) : Remains first third :=
  ⟨left.toStays.trans right.toStays, right.date.trans left.date, right.path.trans left.path,
    right.syncOnRotate.trans left.syncOnRotate⟩

variable (writer : DailyWriter)

theorem repair_remains : Remains writer writer.repair.2 :=
  ⟨(writer.file.writer.stays []).1, rfl, rfl, rfl⟩

theorem syncAll_remains : Remains writer writer.syncAll.2 :=
  ⟨writer.handle.stays_attempt (), rfl, rfl, rfl⟩

theorem append_remains (bytes : Bytes) : Remains writer (writer.append bytes).2 :=
  ⟨(writer.file.writer.stays bytes).2, rfl, rfl, rfl⟩

end DailyWriter

/-! ### Rotation -/

namespace TransactionalAppend

variable {F : Type*} [AppendStorage F] [ObservedStorage F]

omit [AppendStorage F] in
theorem Consistent.of_same {base : Bytes} {past : List Attempt}
    {writer next : TransactionalAppend F} (consistent : Consistent base past writer)
    (bytes : content next.file = content writer.file) (rollback : next.rollback = writer.rollback) :
    Consistent base past next where
  unblocked := by
    rw [rollback, bytes]
    exact consistent.unblocked
  blocked := by
    rw [rollback]
    exact consistent.blocked
  residual := by
    rw [bytes]
    exact consistent.residual

theorem Consistent.repair [LawfulAppendStorage F] {base : Bytes} {past : List Attempt}
    {writer : TransactionalAppend F} (consistent : Consistent base past writer) :
    (∃ later, Consistent base later writer.repair.2) ∧
      (writer.repair.1 = .ok () →
        writer.repair.2.rollback = none ∧ content writer.repair.2.file = base) := by
  rcases writer.repair_cases with ⟨repaired, result, unblocked, passes⟩ |
    ⟨error, blocked, start, done, result, pending, still, cuts, passes⟩
  · have whole : content repaired.file = base := passes.content.trans consistent.repaired
    rw [result]
    refine ⟨⟨[], fun _ => whole, ?_, ?_⟩, fun _ => ⟨unblocked, whole⟩⟩
    · intro start pending
      dsimp only at pending
      rw [unblocked] at pending
      simp at pending
    · rw [whole]
      exact Residual.nothing base []
  · rw [result]
    refine ⟨⟨past ++ [⟨[], false, done⟩], ?_, ?_, ?_⟩, fun done => by simp at done⟩
    · intro none
      dsimp only at none
      rw [still] at none
      simp at none
    · intro other found
      dsimp only at found
      rw [still] at found
      rw [← Option.some.inj found]
      exact consistent.blocked start pending
    · rw [passes.content]
      apply consistent.repairing
      rw [pending, repairEffects]
      rcases cuts with rfl | rfl
      · exact List.nil_prefix
      · exact List.prefix_rfl

end TransactionalAppend

namespace DailyWriter

open TransactionalAppend (Consistent)

structure Settled (base : Bytes) (writer settled : DailyWriter) : Prop extends
    Remains writer settled where
  unblocked : settled.rollback = none
  bytes : settled.handle.bytes = base

/-- The old file does not settle, or it does and the new one cannot be opened, or both work. -/
inductive RotateCase (base : Bytes) (writer : DailyWriter) (date : NaiveDate) :
    Except IoError Unit × DailyWriter → Prop where
  | stopped (error : IoError) (next : DailyWriter) (remains : Remains writer next)
      (consistent : ∃ past, Consistent base past next.file.writer) :
      RotateCase base writer date (.error error, next)
  | refused (error : IoError) (settled : DailyWriter) (left : Disk)
      (settles : Settled base writer settled)
      (failed : AppendFile.OpenFailed settled.disk (writer.path date) left) :
      RotateCase base writer date (.error error, settled.withDisk left)
  | opened (settled : DailyWriter) (file : AppendFile) (settles : Settled base writer settled)
      (repaired : writer.repair.1 = .ok ())
      (synced : writer.syncOnRotate = true → writer.repair.2.syncAll.1 = .ok ())
      (opens : AppendFile.Opened settled.disk (writer.path date) file) :
      RotateCase base writer date (.ok (), { settled with file := file, date := date })

theorem openDate_cases {base : Bytes} {writer settled : DailyWriter}
    (settles : Settled base writer settled) (repaired : writer.repair.1 = .ok ())
    (synced : writer.syncOnRotate = true → writer.repair.2.syncAll.1 = .ok ())
    (date : NaiveDate) : RotateCase base writer date (settled.openDate date) := by
  have path : settled.path date = writer.path date := by rw [settles.path]
  unfold openDate
  rw [path]
  rcases AppendFile.openPath_spec settled.disk (writer.path date) with
    ⟨file, result, opens⟩ | ⟨error, left, result, failed⟩
  · rw [result]
    exact RotateCase.opened settled file settles repaired synced opens
  · rw [result]
    exact RotateCase.refused error settled left settles failed

theorem rotate_cases {base : Bytes} {past : List Attempt} {writer : DailyWriter}
    (consistent : Consistent base past writer.file.writer) (date : NaiveDate) :
    RotateCase base writer date (writer.rotate date) := by
  obtain ⟨still, settles⟩ := consistent.repair
  have remains := writer.repair_remains
  have repairing : writer.repair.1 = writer.file.writer.repair.1 := rfl
  have settled : writer.repair.1 = .ok () → Settled base writer writer.repair.2 := by
    intro done
    obtain ⟨unblocked, bytes⟩ := settles (repairing ▸ done)
    exact ⟨remains, unblocked, bytes⟩
  have opening : ∀ reached, Settled base writer reached → writer.repair.1 = .ok () →
      (writer.syncOnRotate = true → writer.repair.2.syncAll.1 = .ok ()) →
        RotateCase base writer date (reached.openDate date) := by
    intro reached settles repaired synced
    exact openDate_cases settles repaired synced date
  unfold rotate
  change ∃ later, Consistent base later writer.repair.2.file.writer at still
  generalize repairs : writer.repair = repair at still remains settled opening ⊢
  rcases repair with ⟨error | done, next⟩
  · exact RotateCase.stopped error next remains still
  · have first := settled rfl
    have always : next.syncOnRotate = writer.syncOnRotate := remains.syncOnRotate
    dsimp only
    cases syncing : next.syncOnRotate with
    | false =>
        refine opening next first rfl fun required => ?_
        rw [← always, syncing] at required
        exact absurd required (by decide)
    | true =>
        have after := next.syncAll_remains
        have bytes : next.syncAll.2.handle.bytes = next.handle.bytes := by
          change (next.handle.attempt ()).2.bytes = next.handle.bytes
          rw [OpenFile.attempt_snd, OpenFile.withDisk_advance_bytes]
        have rollback : next.syncAll.2.rollback = next.rollback := rfl
        have settledToo : Settled base writer next.syncAll.2 :=
          ⟨remains.trans after, rollback.trans first.unblocked, bytes.trans first.bytes⟩
        obtain ⟨later, kept⟩ := still
        have keptToo : Consistent base later next.syncAll.2.file.writer :=
          kept.of_same bytes rollback
        have opens := opening next.syncAll.2 settledToo rfl
        generalize next.syncAll = sync at settledToo keptToo opens ⊢
        rcases sync with ⟨error | synced, last⟩
        · exact RotateCase.stopped error last settledToo.toRemains ⟨later, keptToo⟩
        · exact opens fun _ => rfl

/-! ### What is kept where -/

/-- The files of the dates that were opened hold what they held before and what was acknowledged
since; behind it only the current one may hold a residue. -/
structure Kept (names : NaiveDate → String) (before : Disk) (opened : NaiveDate → Prop)
    (acked : NaiveDate → Bytes) (writer : DailyWriter) : Prop where
  paths : writer.path = names
  named : writer.disk.names[names writer.date]? = some writer.handle.inode
  current : opened writer.date
  consistent : ∃ past, Consistent
    (AppendFile.completeLines before (names writer.date) ++ acked writer.date) past
    writer.file.writer
  earlier : ∀ date, opened date → date ≠ writer.date → writer.disk.contentAt (names date) =
    some (AppendFile.completeLines before (names date) ++ acked date)
  unopened : ∀ date, ¬ opened date → acked date = [] ∧
    (writer.disk.contentAt (names date) = before.contentAt (names date) ∨
      writer.disk.contentAt (names date) = some (AppendFile.completeLines before (names date)))

section Kept

variable {names : NaiveDate → String} {before : Disk} {opened : NaiveDate → Prop}
  {acked : NaiveDate → Bytes} {writer next : DailyWriter}

theorem Kept.remains (kept : Kept names before opened acked writer)
    (distinct : Function.Injective names) (remains : Remains writer next)
    {grown : NaiveDate → Bytes} (same : ∀ date, date ≠ writer.date → grown date = acked date)
    (consistent : ∃ past, Consistent
      (AppendFile.completeLines before (names writer.date) ++ grown writer.date) past
      next.file.writer) : Kept names before opened grown next := by
  have elsewhere : Disk.Elsewhere (names writer.date) writer.disk next.disk :=
    Disk.Elsewhere.of_sameBut remains.disk (Or.inl kept.named)
  have content (date : NaiveDate) (other : date ≠ writer.date) :
      next.disk.contentAt (names date) = writer.disk.contentAt (names date) :=
    elsewhere.contentAt fun shared => other (distinct shared)
  refine ⟨remains.path.trans kept.paths, ?_, ?_, ?_, ?_, ?_⟩
  · rw [remains.date, remains.inode]
    exact elsewhere.kept _ kept.named
  · rw [remains.date]
    exact kept.current
  · rw [remains.date]
    exact consistent
  · intro date was other
    rw [remains.date] at other
    rw [content date other, same date other]
    exact kept.earlier date was other
  · intro date never
    have other : date ≠ writer.date := by
      rintro rfl
      exact never kept.current
    rw [content date other, same date other]
    exact kept.unopened date never

theorem Kept.lines (kept : Kept names before opened acked writer)
    (complete : ∀ date, Complete newline (acked date)) {date : NaiveDate}
    (other : date ≠ writer.date) : AppendFile.completeLines writer.disk (names date) =
      AppendFile.completeLines before (names date) ++ acked date := by
  have begun : Complete newline (AppendFile.completeLines before (names date)) :=
    completePart_complete _
  by_cases was : opened date
  · rw [AppendFile.completeLines, kept.earlier date was other, Option.getD_some]
    exact (begun.append (complete date)).completePart_eq
  · obtain ⟨nothing, same | cut⟩ := kept.unopened date was
    · rw [nothing, List.append_nil, AppendFile.completeLines, same]
      rfl
    · rw [nothing, List.append_nil, AppendFile.completeLines, cut, Option.getD_some]
      exact begun.completePart_eq

theorem Kept.refused {settled : DailyWriter} {left : Disk}
    (kept : Kept names before opened acked settled) (distinct : Function.Injective names)
    (complete : ∀ date, Complete newline (acked date))
    {date : NaiveDate} (other : date ≠ settled.date)
    (failed : AppendFile.OpenFailed settled.disk (names date) left) :
    Kept names before opened acked (settled.withDisk left) := by
  have content (another : NaiveDate) (different : another ≠ date) :
      left.contentAt (names another) = settled.disk.contentAt (names another) :=
    failed.elsewhere.contentAt fun shared => different (distinct shared)
  have named : left.names[names settled.date]? = some settled.handle.inode := by
    rw [failed.elsewhere.names _ fun shared => other (distinct shared).symm]
    exact kept.named
  have bytes : (settled.handle.withDisk left).bytes = settled.handle.bytes := by
    have here := content settled.date (Ne.symm other)
    have after : (settled.handle.withDisk left).disk.contentAt (names settled.date) =
        some (settled.handle.withDisk left).bytes := AppendFile.contentAt_of_named named
    have earlier : settled.handle.disk.contentAt (names settled.date) =
        some settled.handle.bytes := AppendFile.contentAt_of_named kept.named
    exact Option.some.inj (after.symm.trans (here.trans earlier))
  refine ⟨kept.paths, named, kept.current, ?_, ?_, ?_⟩
  · obtain ⟨past, consistent⟩ := kept.consistent
    exact ⟨past, consistent.of_same bytes rfl⟩
  · intro another was elsewhere
    change left.contentAt (names another) = _
    by_cases same : another = date
    · subst another
      rcases failed.content with left | cut
      · rw [left]
        exact kept.earlier date was elsewhere
      · rw [cut, kept.lines complete elsewhere]
    · rw [content another same]
      exact kept.earlier another was elsewhere
  · intro another never
    refine ⟨(kept.unopened another never).1, ?_⟩
    change left.contentAt (names another) = _ ∨ left.contentAt (names another) = _
    by_cases same : another = date
    · subst another
      obtain ⟨nothing, _⟩ := kept.unopened date never
      rcases failed.content with left | cut
      · rw [left]
        exact (kept.unopened date never).2
      · rw [cut, kept.lines complete other, nothing, List.append_nil]
        exact Or.inr rfl
    · rw [content another same]
      exact (kept.unopened another never).2

theorem Kept.reopened {settled : DailyWriter} {file : AppendFile}
    (kept : Kept names before opened acked settled) (distinct : Function.Injective names)
    (complete : ∀ date, Complete newline (acked date)) (unblocked : settled.rollback = none)
    {date : NaiveDate} (other : date ≠ settled.date)
    (opens : AppendFile.Opened settled.disk (names date) file) :
    Kept names before (fun another => opened another ∨ another = date) acked
      { settled with file := file, date := date } := by
  have content (another : NaiveDate) (different : another ≠ date) :
      file.writer.file.disk.contentAt (names another) =
        settled.disk.contentAt (names another) :=
    opens.elsewhere.contentAt fun shared => different (distinct shared)
  refine ⟨kept.paths, opens.named, Or.inr rfl, ?_, ?_, ?_⟩
  · have whole : file.writer.file.bytes =
        AppendFile.completeLines before (names date) ++ acked date := by
      rw [opens.lines, kept.lines complete other]
    refine ⟨[], fun _ => whole, ?_, ?_⟩
    · intro start pending
      dsimp only at pending
      rw [opens.unblocked] at pending
      simp at pending
    · change TransactionalAppend.Residual _ _ file.writer.file.bytes
      rw [whole]
      exact TransactionalAppend.Residual.nothing _ _
  · intro another was different
    have before : opened another := was.resolve_right different
    change file.writer.file.disk.contentAt (names another) = _
    rw [content another different]
    by_cases same : another = settled.date
    · subst another
      obtain ⟨past, consistent⟩ := kept.consistent
      rw [Disk.contentAt, kept.named, Option.map_some]
      exact congrArg some (consistent.unblocked unblocked)
    · exact kept.earlier another before same
  · intro another never
    push Not at never
    change _ ∧ (file.writer.file.disk.contentAt (names another) = _ ∨
      file.writer.file.disk.contentAt (names another) = _)
    rw [content another never.2]
    exact kept.unopened another never.1

theorem Kept.rotate (kept : Kept names before opened acked writer)
    (distinct : Function.Injective names) (complete : ∀ date, Complete newline (acked date))
    {date : NaiveDate} (other : writer.date ≠ date) :
    Kept names before (fun another => opened another ∨ another = (writer.rotate date).2.date)
        acked (writer.rotate date).2 ∧
      ((writer.rotate date).1 = .ok () → (writer.rotate date).2.date = date) := by
  obtain ⟨past, consistent⟩ := kept.consistent
  have known : ∀ {reached : DailyWriter}, Kept names before opened acked reached →
      Kept names before (fun another => opened another ∨ another = reached.date) acked
        reached := by
    intro reached keeps
    refine ⟨keeps.paths, keeps.named, Or.inr rfl, keeps.consistent, ?_, ?_⟩
    · intro another was different
      exact keeps.earlier another (was.resolve_right different) different
    · intro another never
      exact keeps.unopened another fun was => never (Or.inl was)
  have settles : ∀ {settled : DailyWriter}, Settled
      (AppendFile.completeLines before (names writer.date) ++ acked writer.date) writer settled →
      Kept names before opened acked settled := by
    intro settled reached
    refine kept.remains distinct reached.toRemains (fun _ _ => rfl) ⟨[], ?_, ?_, ?_⟩
    · exact fun _ => reached.bytes
    · intro start pending
      exact absurd (reached.unblocked.symm.trans pending) (by simp)
    · exact ⟨[], by rw [List.append_nil]; exact reached.bytes, Or.inl rfl⟩
  have rotation := rotate_cases consistent date
  generalize writer.rotate date = result at rotation ⊢
  cases rotation with
  | stopped error next remains still =>
      exact ⟨known (kept.remains distinct remains (fun _ _ => rfl) still),
        fun done => by simp at done⟩
  | refused error settled left settled_at failed =>
      rw [kept.paths] at failed
      have apart : date ≠ settled.date := by
        rw [settled_at.date]
        exact Ne.symm other
      exact ⟨known ((settles settled_at).refused distinct complete apart failed),
        fun done => by simp at done⟩
  | opened settled file settled_at repaired synced opens =>
      rw [kept.paths] at opens
      have apart : date ≠ settled.date := by
        rw [settled_at.date]
        exact Ne.symm other
      exact ⟨(settles settled_at).reopened distinct complete settled_at.unblocked apart opens,
        fun _ => rfl⟩

theorem Kept.append (kept : Kept names before opened acked writer)
    (distinct : Function.Injective names) (bytes : Bytes) :
    Kept names before opened
      (fun date => acked date ++
        if (writer.append bytes).1.isOk = true ∧ writer.date = date then bytes else [])
      (writer.append bytes).2 := by
  refine kept.remains distinct (writer.append_remains bytes) ?_ ?_
  · intro date other
    rw [if_neg fun both => other both.2.symm, List.append_nil]
  · obtain ⟨past, consistent⟩ := kept.consistent
    have next := consistent.append bytes
    refine ⟨past ++ [writer.file.writer.attempt bytes], ?_⟩
    simp only [and_true, ← List.append_assoc]
    exact next

/-- One call keeps every file, and what it acknowledges is added to the file of its date. -/
theorem Kept.appendAt (kept : Kept names before opened acked writer)
    (distinct : Function.Injective names) (complete : ∀ date, Complete newline (acked date))
    (bytes : Bytes) (date : NaiveDate) :
    Kept names before (fun another => opened another ∨ another = (writer.appendAt bytes date).2.date)
      (fun another => acked another ++
        if (writer.appendAt bytes date).1.isOk = true ∧ date = another then bytes else [])
      (writer.appendAt bytes date).2 := by
  unfold DailyWriter.appendAt
  by_cases other : writer.date ≠ date
  · rw [if_pos other]
    obtain ⟨rotated, reached⟩ := kept.rotate distinct complete other
    generalize writer.rotate date = rotation at rotated reached ⊢
    rcases rotation with ⟨error | done, next⟩
    · have nothing : (Except.error error : Except IoError Unit).isOk = false := rfl
      simpa only [nothing, Bool.false_eq_true, false_and, if_false, List.append_nil] using rotated
    · obtain rfl : next.date = date := reached rfl
      exact rotated.append distinct bytes
  · rw [if_neg other]
    obtain rfl : writer.date = date := not_not.mp other
    have appended := kept.append distinct bytes
    have same : (writer.append bytes).2.date = writer.date := (writer.append_remains bytes).date
    refine ⟨appended.paths, appended.named, Or.inr rfl, appended.consistent, ?_, ?_⟩
    · intro another was different
      exact appended.earlier another (was.resolve_right different) different
    · intro another never
      exact appended.unopened another fun was => never (Or.inl was)

end Kept

/-! ### Runs -/

structure DailyCall where
  bytes : Bytes
  date : NaiveDate

/-- A call that was made, its answer, and the date that the writer was on afterwards. -/
structure DailyAttempt extends DailyCall where
  acknowledged : Bool
  current : NaiveDate

def attemptAt (writer : DailyWriter) (call : DailyCall) : DailyAttempt where
  toDailyCall := call
  acknowledged := (writer.appendAt call.bytes call.date).1.isOk
  current := (writer.appendAt call.bytes call.date).2.date

def runAppendsAt (writer : DailyWriter) (calls : List DailyCall) :
    List DailyAttempt × DailyWriter :=
  calls.foldl (fun reached call =>
    (reached.1 ++ [reached.2.attemptAt call],
      (reached.2.appendAt call.bytes call.date).2)) ([], writer)

theorem runAppendsAt_concat (writer : DailyWriter) (calls : List DailyCall) (call : DailyCall) :
    writer.runAppendsAt (calls ++ [call]) =
      ((writer.runAppendsAt calls).1 ++ [(writer.runAppendsAt calls).2.attemptAt call],
        ((writer.runAppendsAt calls).2.appendAt call.bytes call.date).2) := by
  rw [runAppendsAt, List.foldl_append]
  rfl

def acknowledgedOn (attempts : List DailyAttempt) (date : NaiveDate) : Bytes :=
  ((attempts.filter fun attempt => attempt.acknowledged && attempt.date = date).map
    fun attempt => attempt.bytes).flatten

theorem acknowledgedOn_concat (attempts : List DailyAttempt) (attempt : DailyAttempt)
    (date : NaiveDate) : acknowledgedOn (attempts ++ [attempt]) date =
      acknowledgedOn attempts date ++
        if attempt.acknowledged = true ∧ attempt.date = date then attempt.bytes else [] := by
  simp only [acknowledgedOn, List.filter_append, List.map_append, List.flatten_append]
  by_cases counted : attempt.acknowledged = true ∧ attempt.date = date
  · simp [counted.1, counted.2]
  · rw [if_neg counted, List.filter_cons_of_neg]
    · simp
    · simpa using counted

def opened (writer : DailyWriter) (calls : List DailyCall) (date : NaiveDate) : Prop :=
  date = writer.date ∨ ∃ attempt ∈ (writer.runAppendsAt calls).1, attempt.current = date

theorem runAppendsAt_calls (writer : DailyWriter) (calls : List DailyCall) :
    (writer.runAppendsAt calls).1.map DailyAttempt.toDailyCall = calls := by
  induction calls using List.reverseRecOn with
  | nil => rfl
  | append_singleton calls call ih =>
      rw [runAppendsAt_concat, List.map_append, ih]
      rfl

theorem complete_acknowledgedOn (writer : DailyWriter) (calls : List DailyCall)
    (lines : ∀ call ∈ calls, Complete newline call.bytes) (date : NaiveDate) :
    Complete newline (acknowledgedOn (writer.runAppendsAt calls).1 date) := by
  apply Complete.flatten
  intro bytes member
  obtain ⟨attempt, kept, rfl⟩ := List.mem_map.mp member
  have sent : attempt.toDailyCall ∈ (writer.runAppendsAt calls).1.map DailyAttempt.toDailyCall :=
    List.mem_map_of_mem (List.mem_of_mem_filter kept)
  rw [runAppendsAt_calls] at sent
  exact lines _ sent

theorem kept_run {disk : Disk} {names : NaiveDate → String} {writer : DailyWriter}
    (distinct : Function.Injective names) (paths : writer.path = names)
    (opens : AppendFile.Opened disk (names writer.date) writer.file) (calls : List DailyCall)
    (lines : ∀ call ∈ calls, Complete newline call.bytes) :
    Kept names disk (writer.opened calls) (acknowledgedOn (writer.runAppendsAt calls).1)
      (writer.runAppendsAt calls).2 := by
  induction calls using List.reverseRecOn with
  | nil =>
      refine ⟨paths, opens.named, Or.inl rfl, ⟨[], ?_, ?_, ?_⟩, ?_, ?_⟩
      · intro _
        exact opens.lines.trans (List.append_nil _).symm
      · intro start pending
        exact absurd (opens.unblocked.symm.trans pending) (by simp)
      · refine ⟨[], opens.lines.trans ?_, Or.inl rfl⟩
        rw [List.append_nil]
        exact (List.append_nil _).symm
      · rintro date (first | ⟨attempt, member, _⟩) other
        · exact absurd first other
        · simp [runAppendsAt] at member
      · intro date never
        refine ⟨rfl, Or.inl (opens.elsewhere.contentAt fun same => never (Or.inl ?_))⟩
        exact distinct same
  | append_singleton calls call ih =>
      have earlier : ∀ call ∈ calls, Complete newline call.bytes := by
        intro before member
        exact lines before (List.mem_append_left _ member)
      have next := (ih earlier).appendAt distinct
        (writer.complete_acknowledgedOn calls earlier) call.bytes call.date
      have opening : writer.opened (calls ++ [call]) = fun date => writer.opened calls date ∨
          date = ((writer.runAppendsAt calls).2.appendAt call.bytes call.date).2.date := by
        funext date
        simp only [opened, runAppendsAt_concat, List.mem_append, List.mem_singleton, or_and_right,
          exists_or, exists_eq_left, attemptAt, or_assoc, eq_comm]
      have growing : acknowledgedOn (writer.runAppendsAt (calls ++ [call])).1 = fun date =>
          acknowledgedOn (writer.runAppendsAt calls).1 date ++
            if ((writer.runAppendsAt calls).2.appendAt call.bytes call.date).1.isOk = true ∧
              call.date = date then call.bytes else [] := by
        funext date
        rw [runAppendsAt_concat, acknowledgedOn_concat]
        rfl
      rw [opening, growing, runAppendsAt_concat]
      exact next

theorem appendAt_moves {base : Bytes} {past : List Attempt} {writer : DailyWriter}
    (consistent : Consistent base past writer.file.writer) (bytes : Bytes) (date : NaiveDate) :
    (writer.appendAt bytes date).2.syncOnRotate = writer.syncOnRotate ∧
      (((writer.appendAt bytes date).2.date = writer.date ∧
          (writer.appendAt bytes date).2.handle.inode = writer.handle.inode) ∨
        ((writer.appendAt bytes date).2.date = date ∧
          (writer.appendAt bytes date).2.disk.names[writer.path date]? =
            some (writer.appendAt bytes date).2.handle.inode ∧
          writer.repair.1 = .ok () ∧
          (writer.syncOnRotate = true → writer.repair.2.syncAll.1 = .ok ()))) := by
  unfold appendAt
  by_cases other : writer.date ≠ date
  · rw [if_pos other]
    have rotation := rotate_cases consistent date
    generalize writer.rotate date = result at rotation ⊢
    cases rotation with
    | stopped error next remains still =>
        exact ⟨remains.syncOnRotate, Or.inl ⟨remains.date, remains.inode⟩⟩
    | refused error settled left settles failed =>
        exact ⟨settles.syncOnRotate, Or.inl ⟨settles.date, settles.inode⟩⟩
    | opened settled file settles repaired synced opens =>
        have appended := append_remains { settled with file := file, date := date } bytes
        refine ⟨appended.syncOnRotate.trans settles.syncOnRotate, Or.inr ⟨appended.date, ?_, repaired,
          synced⟩⟩
        dsimp only at appended ⊢
        rw [appended.inode]
        exact (congrArg (fun names => names[writer.path date]?) appended.disk.names).trans opens.named
  · rw [if_neg other]
    have appended := writer.append_remains bytes
    exact ⟨appended.syncOnRotate, Or.inl ⟨appended.date, appended.inode⟩⟩

theorem appendAt_stopped {writer : DailyWriter} {date : NaiveDate} {error : IoError}
    (other : date ≠ writer.date)
    (fails : writer.repair.1 = .error error ∨ (writer.repair.1 = .ok () ∧
      writer.syncOnRotate = true ∧ writer.repair.2.syncAll.1 = .error error)) (bytes : Bytes) :
    (writer.appendAt bytes date).1 = .error error ∧
      Remains writer (writer.appendAt bytes date).2 := by
  have remains := writer.repair_remains
  have required : writer.repair.2.syncOnRotate = writer.syncOnRotate := remains.syncOnRotate
  have synced := writer.repair.2.syncAll_remains
  rw [appendAt, if_pos (Ne.symm other), rotate]
  generalize writer.repair = repair at fails remains required synced ⊢
  rcases repair with ⟨failure | done, next⟩
  · obtain failed | ⟨done, _⟩ := fails
    · exact ⟨failed, remains⟩
    · simp at done
  · obtain failed | ⟨_, syncing, failed⟩ := fails
    · simp at failed
    · dsimp only at required synced failed ⊢
      rw [required, if_pos syncing]
      generalize next.syncAll = sync at synced failed ⊢
      obtain ⟨result, last⟩ := sync
      obtain rfl : result = .error error := failed
      exact ⟨rfl, remains.trans synced⟩

theorem runAppendsAt_syncOnRotate {disk : Disk} {names : NaiveDate → String}
    (writer : DailyWriter) (distinct : Function.Injective names) (paths : writer.path = names)
    (opens : AppendFile.Opened disk (names writer.date) writer.file) (calls : List DailyCall)
    (lines : ∀ call ∈ calls, Complete newline call.bytes) :
    (writer.runAppendsAt calls).2.syncOnRotate = writer.syncOnRotate := by
  induction calls using List.reverseRecOn with
  | nil => rfl
  | append_singleton calls call ih =>
      have earlier : ∀ call ∈ calls, Complete newline call.bytes := by
        intro before member
        exact lines before (List.mem_append_left _ member)
      obtain ⟨past, consistent⟩ := (kept_run distinct paths opens calls earlier).consistent
      rw [runAppendsAt_concat, ← ih earlier]
      exact (appendAt_moves consistent call.bytes call.date).1

/-- Over every run of calls, whatever fails: the file of each date that was opened holds the
complete lines from before and the acknowledged batches of that date in order, and a residue
only on the current date while its rollback is pending. File and date change together, after
the old file is repaired and synced; when that fails, the new date's file is left alone. -/
theorem rotation_exact (disk : Disk) (namePrefix : String) (nameSuffix : Option String)
    (first : NaiveDate) (start writer : DailyWriter)
    (starts : atDate disk namePrefix nameSuffix first = .ok start)
    (chosen : writer = start ∨ writer = start.withSyncOnRotate) (calls : List DailyCall)
    (lines : ∀ call ∈ calls, Complete newline call.bytes) :
    let attempts := (writer.runAppendsAt calls).1
    let reached := (writer.runAppendsAt calls).2
    let name := dailyPath namePrefix nameSuffix
    (∀ date, writer.opened calls date → ∃ residue, reached.disk.contentAt (name date) =
        some (AppendFile.completeLines disk (name date) ++ acknowledgedOn attempts date ++
          residue) ∧
        (residue ≠ [] → date = reached.date ∧ reached.rollback ≠ none)) ∧
      (∀ date, ¬ writer.opened calls date → acknowledgedOn attempts date = [] ∧
        (reached.disk.contentAt (name date) = disk.contentAt (name date) ∨
          reached.disk.contentAt (name date) =
            some (AppendFile.completeLines disk (name date)))) ∧
      ∀ bytes date,
        let next := reached.appendAt bytes date
        ((next.2.date = reached.date ∧ next.2.handle.inode = reached.handle.inode) ∨
          (next.2.date = date ∧
            next.2.disk.names[name date]? = some next.2.handle.inode ∧
            reached.repair.1 = .ok () ∧
            (writer.syncOnRotate = true → reached.repair.2.syncAll.1 = .ok ()))) ∧
        ∀ error, date ≠ reached.date →
          (reached.repair.1 = .error error ∨ (reached.repair.1 = .ok () ∧
            writer.syncOnRotate = true ∧ reached.repair.2.syncAll.1 = .error error)) →
          next.1 = .error error ∧ next.2.date = reached.date ∧
            next.2.handle.inode = reached.handle.inode ∧
            next.2.disk.contentAt (name date) = reached.disk.contentAt (name date) := by
  have distinct := dailyPath_injective namePrefix nameSuffix
  obtain ⟨paths, date, opens⟩ : writer.path = dailyPath namePrefix nameSuffix ∧
      writer.date = first ∧
      AppendFile.Opened disk (dailyPath namePrefix nameSuffix first) writer.file := by
    unfold atDate at starts
    rcases AppendFile.openPath_spec disk (dailyPath namePrefix nameSuffix first) with
      ⟨file, result, opens⟩ | ⟨error, left, result, _⟩
    · rw [result] at starts
      obtain rfl := Except.ok.inj starts
      rcases chosen with rfl | rfl
      · exact ⟨rfl, rfl, opens⟩
      · exact ⟨rfl, rfl, opens⟩
    · rw [result] at starts
      simp at starts
  rw [← date] at opens
  have kept := kept_run distinct paths opens calls lines
  obtain ⟨past, consistent⟩ := kept.consistent
  have syncing := writer.runAppendsAt_syncOnRotate distinct paths opens calls lines
  intro attempts reached name
  refine ⟨?_, kept.unopened, ?_⟩
  · intro date was
    by_cases current : date = reached.date
    · obtain ⟨residue, whole, _⟩ := consistent.residual
      refine ⟨residue, ?_, fun some => ⟨current, fun settled => some ?_⟩⟩
      · rw [current]
        exact (AppendFile.contentAt_of_named kept.named).trans (congrArg _ whole)
      · have exactly := consistent.unblocked settled
        rw [whole] at exactly
        exact List.append_right_eq_self.mp exactly
    · refine ⟨[], ?_, fun some => absurd rfl some⟩
      rw [List.append_nil]
      exact kept.earlier date was current
  · intro bytes date
    have moves := (appendAt_moves consistent bytes date).2
    rw [syncing, kept.paths] at moves
    refine ⟨moves, fun error other fails => ?_⟩
    rw [← syncing] at fails
    obtain ⟨answer, remains⟩ := appendAt_stopped other fails bytes
    refine ⟨answer, remains.date, remains.inode, ?_⟩
    have elsewhere : Disk.Elsewhere (name reached.date) reached.disk
        (reached.appendAt bytes date).2.disk :=
      Disk.Elsewhere.of_sameBut remains.disk (Or.inl kept.named)
    exact elsewhere.contentAt fun same => other (distinct same)

/-- The sync of the first day fails once, then the clock goes on and back again. -/
theorem rotation_exact_back_again :
    let january : NaiveDate := ⟨2026, 1, 1, by decide, by decide⟩
    let february : NaiveDate := ⟨2026, 2, 1, by decide, by decide⟩
    let disk := Disk.blank [.done, .done, .done, .done, .done, .failed (.os 5)]
    let calls : List DailyCall :=
      [⟨[49, 10], january⟩, ⟨[50, 10], february⟩, ⟨[51, 10], february⟩, ⟨[52, 10], january⟩]
    ∃ start, atDate disk "otel-logger" none january = .ok start ∧
      let attempts := (start.withSyncOnRotate.runAppendsAt calls).1
      let reached := (start.withSyncOnRotate.runAppendsAt calls).2
      let name := dailyPath "otel-logger" none
      ∀ date, start.withSyncOnRotate.opened calls date →
        ∃ residue, reached.disk.contentAt (name date) =
          some (AppendFile.completeLines disk (name date) ++ acknowledgedOn attempts date ++
            residue) ∧
          (residue ≠ [] → date = reached.date ∧ reached.rollback ≠ none) := by
  intro january february disk calls
  have lines : ∀ call ∈ calls, Complete newline call.bytes := by
    intro call member
    simp only [calls, List.mem_cons, List.not_mem_nil, or_false] at member
    rcases member with rfl | rfl | rfl | rfl
    · exact Or.inr ⟨[49], rfl⟩
    · exact Or.inr ⟨[50], rfl⟩
    · exact Or.inr ⟨[51], rfl⟩
    · exact Or.inr ⟨[52], rfl⟩
  have succeeds : (atDate disk "otel-logger" none january).isOk = true := by
    decide +kernel
  cases starts : atDate disk "otel-logger" none january with
  | error failure => simp [starts, Except.isOk, Except.toBool] at succeeds
  | ok start =>
      exact ⟨start, rfl, (rotation_exact disk "otel-logger" none january start
        start.withSyncOnRotate starts (Or.inr rfl) calls lines).1⟩

end DailyWriter

end OtelLogger
