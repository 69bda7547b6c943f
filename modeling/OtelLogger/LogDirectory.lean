import OtelLogger.WriterEffects
import OtelLogger.Library.Interleaving

/-!
One log directory through the lives of the processes that use it. A process starts, writes its
daily JSONL and its human-readable files, cleans up, and dies; others make dry runs meanwhile; then
the next one starts. A call in which the process dies is one whose later operations all fail. A
line that was acknowledged is in the file of its date for as long as the retention says.
-/

namespace OtelLogger

open Std (ExtTreeMap)
open Delimited Interleaving
open Disk (Ages Begins LeavesFile)

/-! ### The directory and its process -/

/-- Settings with the daily JSONL in the directory. -/
structure DirectorySettings extends OutputSettings where
  dir : String
  keepDays : ℕ
  daily : logSink = some (.directory dir keepDays)

/-- A text of the human-readable output, which is whole lines. -/
structure TextCall where
  clock : LocalTime
  text : Bytes
  lines : Complete newline text

inductive DirectoryEvent where
  | start (settings : DirectorySettings) (clock later : LocalTime)
  | cleanup (clock : LocalTime)
  | line (call : LineCall)
  | text (call : TextCall)
  | flushText
  | sync
  | stop
  | dryRun (settings : DirectorySettings) (clock later : LocalTime)

/-- An event, and what becomes of its operations. -/
structure Occurrence where
  event : DirectoryEvent
  outcomes : List Outcome := []

/-- The disks that the writers were left with do not count: there is one. -/
structure LogDirectory where
  disk : Disk
  jsonl : Option RotatedWriter := none
  prettyLog : Option DailyWriter := none

def Disk.scripted (disk : Disk) (outcomes : List Outcome) : Disk :=
  { disk with outcomes := outcomes }

namespace RotatedWriter

def onDisk (writer : RotatedWriter) (disk : Disk) : RotatedWriter :=
  { writer with roller := writer.roller.withDisk disk }

/-- `write_line` after its cleanup, under the lock of the writer. -/
def writeLocked (writer : RotatedWriter) (call : LineCall) : Except IoError Unit × RotatedWriter :=
  match writer.roller.writeAll call.line call.date with
  | (.error error, roller) => (.error error, { writer with roller := roller })
  | (.ok _, roller) =>
      let flushed := roller.flush
      (flushed.1, { writer with roller := flushed.2 })

theorem writeLine_eq (listing : Disk → List String) (writer : RotatedWriter) (call : LineCall) :
    writer.writeLine listing call =
      ((writer.arrive call.now).cleanupIfDayChanged listing).writeLocked call :=
  rfl

/-- `JsonlWriter::flush`. -/
def flush (writer : RotatedWriter) : Except IoError Unit × RotatedWriter :=
  match writer.roller.flush with
  | (.error error, roller) => (.error error, { writer with roller := roller })
  | (.ok _, roller) =>
      let synced := roller.syncAll
      (synced.1, { writer with roller := synced.2 })

end RotatedWriter

namespace LogDirectory

/-- A process with what it opened. -/
def running (outputs : Outputs) : LogDirectory where
  disk := outputs.disk
  jsonl :=
    match outputs.file with
    | some (.roller writer) => some writer
    | _ => none
  prettyLog := outputs.prettyLog

section Step

variable (listing : Disk → List String)

/-- What an event answers, and what it leaves, if it can happen. -/
def answerTo (s : LogDirectory) (occurrence : Occurrence) :
    Option (Except IoError Unit × LogDirectory) :=
  let disk := s.disk.scripted occurrence.outcomes
  match occurrence.event with
  | .start settings clock later =>
      if s.jsonl.isSome || s.prettyLog.isSome then none
      else
        match fromSettings listing settings.toOutputSettings clock later disk with
        | .error (error, disk) => some (.error error, { disk := disk })
        | .ok outputs => some (.ok (), running outputs)
  | .cleanup clock =>
      s.jsonl.map fun writer =>
        let cleaned := (writer.onDisk (disk.atTime clock.now)).cleanupIfDayChanged listing
        (.ok (), { s with disk := cleaned.roller.disk, jsonl := some cleaned })
  | .line call =>
      s.jsonl.map fun writer =>
        let written := (writer.onDisk (disk.atTime call.now)).writeLocked call
        (written.1, { s with disk := written.2.roller.disk, jsonl := some written.2 })
  | .text call =>
      s.prettyLog.map fun writer =>
        let written :=
          (writer.withDisk (disk.atTime call.clock.now)).writeAll call.text call.clock.date
        (written.1, { s with disk := written.2.disk, prettyLog := some written.2 })
  | .flushText =>
      s.prettyLog.map fun writer =>
        let flushed := (writer.withDisk disk).flush
        (flushed.1, { s with disk := flushed.2.disk, prettyLog := some flushed.2 })
  | .sync =>
      s.jsonl.map fun writer =>
        let synced := (writer.onDisk disk).flush
        (synced.1, { s with disk := synced.2.roller.disk, jsonl := some synced.2 })
  | .stop => some (.ok (), { disk := s.disk })
  | .dryRun settings clock later =>
      let probed := probeSettings listing settings.toOutputSettings clock later disk
      some (probed.1, { s with disk := probed.2 })

def step (s : LogDirectory) (occurrence : Occurrence) : Option LogDirectory :=
  (s.answerTo listing occurrence).map Prod.snd

def run : LogDirectory → List Occurrence → Option LogDirectory :=
  runFrom (step listing)

end Step

end LogDirectory

/-! ### What the disk keeps -/

namespace Disk

variable {since : Instant} {before after last : Disk}

/-- The same names and files. -/
structure Alike (before after : Disk) : Prop where
  names : after.names = before.names
  files : after.files = before.files
  nextInode : after.nextInode = before.nextInode

theorem Alike.leaves (alike : Alike before after) (inode : ℕ) : LeavesFile inode before after :=
  ⟨by rw [alike.files], fun name found => alike.names ▸ found, alike.nextInode.ge⟩

theorem alike_attempt {α : Type*} (disk : Disk) (value : α) :
    Alike disk (disk.attempt value).2 := by
  unfold Disk.attempt
  cases disk.outcome <;> exact ⟨rfl, rfl, rfl⟩

theorem alike_builds {road : Road} (builds : Builds road before after) : Alike before after := by
  obtain ⟨_, _, _, rfl⟩ := builds
  exact ⟨rfl, rfl, rfl⟩

theorem leaves_of_cleans {cutoff : Instant} (cleans : Cleans cutoff before after) (inode : ℕ) :
    LeavesFile inode before after :=
  ⟨by rw [cleans.files], fun name found => cleans.removes name inode found, cleans.nextInode.ge⟩

theorem Untouched.leaves {planned : List (String × Instant)} {roads : List Road} {inode : ℕ}
    (untouched : Untouched planned roads before after) (old : inode < before.nextInode) :
    LeavesFile inode before after := by
  refine ⟨untouched.files inode old, fun name found => ?_, untouched.grows⟩
  cases was : before.names[name]? with
  | none =>
      have new := (untouched.added name inode was found).1
      omega
  | some number =>
      rw [untouched.names name number was] at found
      exact found

/-- The file was written since. -/
def WrittenSince (since : Instant) (inode : ℕ) (disk : Disk) : Prop :=
  ∃ data, disk.files[inode]? = some data ∧ since ≤ data.modified

/-- Whole lines at the start of a file that was written since stay there. -/
def Preserves (since : Instant) (before after : Disk) : Prop :=
  ∀ (name : String) (inode : ℕ) (text : Bytes), Complete newline text →
    Begins name inode text before → WrittenSince since inode before →
      Begins name inode text after ∧ WrittenSince since inode after

theorem Preserves.trans (left : Preserves since before after) (right : Preserves since after last) :
    Preserves since before last := by
  intro name inode text complete begins young
  obtain ⟨still, aged⟩ := left name inode text complete begins young
  exact right name inode text complete still aged

theorem preserves_kept (names : ∀ (name : String) (inode : ℕ), before.names[name]? = some inode →
      after.names[name]? = some inode)
    (files : ∀ inode < before.nextInode, after.files[inode]? = before.files[inode]?) :
    Preserves since before after := by
  intro name inode text _ begins young
  have same := files inode (before.numbered name inode begins.named)
  refine ⟨begins.kept (names name inode begins.named) same, ?_⟩
  rwa [WrittenSince, same]

theorem Alike.preserves (alike : Alike before after) : Preserves since before after :=
  preserves_kept (fun _ _ found => alike.names.symm ▸ found) fun _ _ => by rw [alike.files]

theorem preserves_of_cleans {cutoff : Instant} (cleans : Cleans cutoff before after)
    (recent : cutoff ≤ since) : Preserves since before after := by
  intro name inode text _ begins young
  obtain ⟨data, found, written⟩ := young
  have is : before.fileData inode = data := by rw [Disk.fileData, found, Option.getD_some]
  have still := cleans.spares name inode begins.named
    (Or.inr (is ▸ recent.trans written))
  exact ⟨begins.kept still (by rw [cleans.files]), data, by rw [cleans.files, found], written⟩

theorem Ages.young {opened : String} (ages : Ages opened before after) (begun : since ≤ before.now)
    {inode : ℕ} (young : WrittenSince since inode before) : WrittenSince since inode after := by
  obtain ⟨data, found, written⟩ := young
  obtain ⟨last, file, same | new⟩ := ages.modified inode data found
  · exact ⟨last, file, same ▸ written⟩
  · exact ⟨last, file, new ▸ begun⟩

def textAt (disk : Disk) (name : String) : Bytes :=
  (disk.contentAt name).getD []

/-- Nothing is written, texts are only cut. -/
def Shortens (before after : Disk) : Prop :=
  ∀ name, after.textAt name <+: before.textAt name

theorem Shortens.refl (disk : Disk) : Shortens disk disk :=
  fun _ => List.prefix_rfl

theorem Shortens.trans (left : Shortens before after) (right : Shortens after last) :
    Shortens before last :=
  fun name => (right name).trans (left name)

theorem textAt_of_named {disk : Disk} {name : String} {inode : ℕ}
    (named : disk.names[name]? = some inode) : disk.textAt name = (disk.fileData inode).content := by
  rw [textAt, contentAt, named]
  rfl

theorem textAt_of_unnamed {disk : Disk} {name : String} (unnamed : disk.names[name]? = none) :
    disk.textAt name = [] := by
  rw [textAt, contentAt, unnamed]
  rfl

theorem content_of_file {inode : ℕ} (file : after.files[inode]? = before.files[inode]?) :
    (after.fileData inode).content = (before.fileData inode).content := by
  rw [fileData, fileData, file]
  cases before.files[inode]? <;> rfl

theorem shortens_kept (names : ∀ (name : String) (inode : ℕ), after.names[name]? = some inode →
    before.names[name]? = some inode) (files : after.files = before.files) :
    Shortens before after := by
  intro name
  cases found : after.names[name]? with
  | none =>
      rw [textAt_of_unnamed found]
      exact List.nil_prefix
  | some inode =>
      have same : after.files[inode]? = before.files[inode]? := by rw [files]
      rw [textAt_of_named found, textAt_of_named (names name inode found), content_of_file same]

theorem Alike.shortens (alike : Alike before after) : Shortens before after :=
  shortens_kept (fun _ _ found => alike.names ▸ found) alike.files

theorem Elsewhere.shortens {name : String} (elsewhere : Elsewhere name before after)
    (own : after.textAt name <+: before.textAt name) : Shortens before after := by
  intro other
  by_cases same : other = name
  · rw [same]
    exact own
  · rw [textAt, textAt, elsewhere.contentAt same]

/-- What opening a file does to the others, and to its own. -/
structure Opens (name : String) (before after : Disk) : Prop where
  ages : Ages name before after
  preserves : ∀ since ≤ before.now, Preserves since before after
  shortens : Shortens before after

theorem Opens.refl (name : String) (disk : Disk) : Opens name disk disk :=
  ⟨Ages.refl disk, fun _ _ _ _ _ _ begins young => ⟨begins, young⟩, Shortens.refl disk⟩

theorem Opens.trans {name : String} (left : Opens name before after)
    (right : Opens name after last) : Opens name before last :=
  ⟨left.ages.trans right.ages, fun since begun =>
    (left.preserves since begun).trans (right.preserves since (left.ages.now.symm ▸ begun)),
    left.shortens.trans right.shortens⟩

theorem opens_builds {road : Road} (name : String) (builds : Builds road before after) :
    Opens name before after :=
  have alike := alike_builds builds
  ⟨Ages.of_same builds.now alike.names alike.files, fun _ _ => alike.preserves, alike.shortens⟩

theorem openPath_shortens (disk : Disk) (name : String) :
    Shortens disk (leftBy (fun file => file.writer.file.disk) (AppendFile.openPath disk name)) := by
  have recovered : AppendFile.completeLines disk name <+: disk.textAt name := completePart_prefix _
  rcases AppendFile.openPath_spec disk name with ⟨file, result, opens⟩ | ⟨error, left, result, failed⟩
  · rw [result]
    refine opens.elsewhere.shortens ?_
    rw [textAt_of_named opens.named]
    change file.writer.file.bytes <+: disk.textAt name
    rwa [opens.lines]
  · rw [result]
    refine failed.elsewhere.shortens ?_
    change (left.contentAt name).getD [] <+: disk.textAt name
    rcases failed.content with same | cut
    · rw [same]
      exact List.prefix_rfl
    · rwa [cut]

theorem opens_openPath (disk : Disk) (name : String) :
    Opens name disk
      (leftBy (fun file => file.writer.file.disk) (AppendFile.openPath disk name)) := by
  refine ⟨AppendFile.openPath_ages disk name, fun since begun => ?_, openPath_shortens disk name⟩
  intro other inode text complete begins young
  refine ⟨?_, (AppendFile.openPath_ages disk name).young begun young⟩
  rcases AppendFile.openPath_spec disk name with ⟨file, result, opens⟩ | ⟨error, left, result, failed⟩
  · rw [result]
    refine begins.elsewhere opens.elsewhere fun start => ?_
    dsimp only [leftBy]
    rw [AppendFile.contentAt_of_named opens.named, Option.getD_some, opens.lines]
    exact complete.prefix_completePart start
  · rw [result]
    refine begins.elsewhere failed.elsewhere fun start => ?_
    dsimp only [leftBy]
    rcases failed.content with same | cut
    · rwa [same]
    · rw [cut]
      exact complete.prefix_completePart start

end Disk

open Disk (Preserves Alike)

/-! ### Names of the two kinds -/

def jsonlName : NaiveDate → String :=
  dailyPath rotationPrefix none

def prettyName : NaiveDate → String :=
  dailyPath prettyLogPrefix (some prettyLogSuffix)

theorem NaiveDate.text_head (date : NaiveDate) :
    ∃ first rest, date.text = first :: rest ∧ first ≠ 'p' := by
  have digit (width value : ℕ) : ∃ first rest,
      paddedDecimal (width + 1) value = first :: rest ∧ first.isDigit = true := by
    cases written : paddedDecimal (width + 1) value with
    | nil => simpa using congrArg List.length written
    | cons first rest =>
        refine ⟨first, rest, rfl, paddedDecimal_digits (width + 1) value first ?_⟩
        rw [written]
        exact List.mem_cons_self
  unfold NaiveDate.text NaiveDate.yearText
  split
  · obtain ⟨first, rest, written, isDigit⟩ := digit 3 date.year.toNat
    rw [written]
    exact ⟨first, _, rfl, fun same => by simp [same] at isDigit⟩
  · refine ⟨_, _, rfl, ?_⟩
    split <;> decide

theorem jsonlName_ne_prettyName (date other : NaiveDate) : jsonlName date ≠ prettyName other := by
  intro same
  obtain ⟨first, rest, text, odd⟩ := date.text_head
  have characters := congrArg String.toList same
  simp only [jsonlName, prettyName, dailyPath, String.toList_append, String.toList_ofList, text]
    at characters
  have shape : "otel-logger".toList ++ ".".toList ++ (first :: rest) =
      "otel-logger".toList ++ ".".toList ++ ('p' :: ("retty.".toList ++ other.text ++
        ".".toList ++ prettyLogSuffix.toList)) := characters
  exact odd (List.cons.inj (List.append_cancel_left shape)).1

/-! ### Writers side by side -/

namespace DailyWriter

variable {own next other : DailyWriter}

/-- A writer with other names does not notice what another one does. -/
theorem Acts.beside (acts : Acts own next) (apart : own.handle.inode ≠ other.handle.inode)
    (beside : (other.withDisk own.disk).Seated)
    (distinct : ∀ date another, own.path date ≠ other.path another) :
    (other.withDisk next.disk).Seated ∧ next.handle.inode ≠ other.handle.inode := by
  have unnamed : ∀ date, own.disk.names[own.path date]? ≠ some other.handle.inode := by
    intro date named
    exact distinct date other.date (beside.only _ named)
  have leaves := acts.leaves other.handle.inode beside.numbered (Ne.symm apart) unnamed
  refine ⟨beside.withDisk leaves, fun same => ?_⟩
  rcases acts.handle with still | ⟨date, named⟩
  · exact apart (still.symm.trans same)
  · rw [same] at named
    exact unnamed date (leaves.names _ named)

/-- An opened writer: its file has its name, and nothing is to be taken back. -/
structure Fresh (writer : DailyWriter) (names : NaiveDate → String) (date : NaiveDate) : Prop where
  seated : writer.Seated
  path : writer.path = names
  current : writer.date = date
  named : writer.disk.names[names date]? = some writer.handle.inode
  unblocked : writer.rollback = none

theorem atDate_fresh {disk : Disk} {namePrefix : String} {nameSuffix : Option String}
    {date : NaiveDate} {writer : DailyWriter}
    (opens : atDate disk namePrefix nameSuffix date = .ok writer) :
    Fresh writer (dailyPath namePrefix nameSuffix) date ∧
      Disk.Elsewhere (dailyPath namePrefix nameSuffix date) disk writer.disk := by
  unfold atDate at opens
  rcases AppendFile.openPath_spec disk (dailyPath namePrefix nameSuffix date) with
    ⟨file, result, opened⟩ | ⟨error, left, result, _⟩
  · rw [result] at opens
    obtain rfl := Except.ok.inj opens
    refine ⟨⟨⟨⟨file.writer.file.bytes, [], ?_, fun _ => rfl, ?_, ?_⟩, ?_, ?_⟩, rfl, rfl,
      opened.named, opened.unblocked⟩, opened.elsewhere⟩
    · rw [opened.lines]
      exact completePart_complete _
    · intro start pending
      exact absurd (opened.unblocked.symm.trans pending) (by simp)
    · exact TransactionalAppend.Residual.nothing _ _
    · intro name found
      exact file.writer.file.disk.unshared name _ _ found opened.named
    · exact file.writer.file.disk.numbered _ _ opened.named
  · rw [result] at opens
    simp at opens

theorem spares_of_unblocked {writer : DailyWriter} (unblocked : writer.rollback = none)
    (inode : ℕ) (text : Bytes) : Spares inode text writer :=
  fun _ start pending => absurd (unblocked.symm.trans pending) (by simp)

end DailyWriter

/-! ### The invariant -/

namespace LogDirectory

/-- Each writer fits the disk, under names of its own, and keeps files for that many days. -/
structure Sound (keepDays : ℕ) (s : LogDirectory) : Prop where
  jsonl : ∀ writer, s.jsonl = some writer → (writer.roller.withDisk s.disk).Seated ∧
    writer.roller.path = jsonlName ∧ keepDays ≤ writer.keepDays
  prettyLog : ∀ writer, s.prettyLog = some writer →
    (writer.withDisk s.disk).Seated ∧ writer.path = prettyName
  apart : ∀ writer pretty, s.jsonl = some writer → s.prettyLog = some pretty →
    writer.roller.handle.inode ≠ pretty.handle.inode

/-- The file of that name begins with the text and was written since, and no writer is to cut
into it. -/
def Keeps (name : String) (text : Bytes) (since : Instant) (s : LogDirectory) : Prop :=
  ∃ inode, Begins name inode text s.disk ∧ Disk.WrittenSince since inode s.disk ∧
    (∀ writer, s.jsonl = some writer → writer.roller.Spares inode text) ∧
    ∀ writer, s.prettyLog = some writer → writer.Spares inode text

variable {keepDays : ℕ} {s : LogDirectory} {name : String} {text : Bytes} {since : Instant}
  {disk : Disk}

theorem sound_idle (keepDays : ℕ) (disk : Disk) : ({ disk := disk } : LogDirectory).Sound keepDays :=
  ⟨fun _ never => by simp at never, fun _ never => by simp at never,
    fun _ _ never => by simp at never⟩

theorem Sound.onDisk (sound : s.Sound keepDays) (leaves : ∀ inode, LeavesFile inode s.disk disk) :
    ({ s with disk := disk } : LogDirectory).Sound keepDays := by
  refine ⟨fun writer here => ?_, fun writer here => ?_, sound.apart⟩
  · obtain ⟨seated, rest⟩ := sound.jsonl writer here
    exact ⟨seated.withDisk (leaves writer.roller.handle.inode), rest⟩
  · obtain ⟨seated, path⟩ := sound.prettyLog writer here
    exact ⟨seated.withDisk (leaves writer.handle.inode), path⟩

theorem Keeps.onDisk (keeps : s.Keeps name text since) (complete : Complete newline text)
    (preserves : Preserves since s.disk disk) :
    ({ s with disk := disk } : LogDirectory).Keeps name text since := by
  obtain ⟨inode, begins, young, jsonl, pretty⟩ := keeps
  obtain ⟨still, aged⟩ := preserves name inode text complete begins young
  exact ⟨inode, still, aged, jsonl, pretty⟩

/-- The JSONL writer acts on the disk of the directory. -/
theorem Sound.acts_jsonl {writer : RotatedWriter} {next : DailyWriter} (sound : s.Sound keepDays)
    (here : s.jsonl = some writer) (acts : DailyWriter.Acts (writer.roller.withDisk s.disk) next) :
    ({ s with disk := next.disk, jsonl := some { writer with roller := next } } :
      LogDirectory).Sound keepDays := by
  obtain ⟨_, path, days⟩ := sound.jsonl writer here
  have beside (pretty : DailyWriter) (there : s.prettyLog = some pretty) :=
    acts.beside (sound.apart writer pretty here there) (sound.prettyLog pretty there).1
      fun date another same => jsonlName_ne_prettyName date another (by
        rw [← path, ← (sound.prettyLog pretty there).2]
        exact same)
  refine ⟨fun other same => ?_, fun pretty there => ?_, fun other pretty same there => ?_⟩
  · obtain rfl := Option.some.inj same
    exact ⟨acts.seated, acts.path.trans path, days⟩
  · exact ⟨(beside pretty there).1, (sound.prettyLog pretty there).2⟩
  · obtain rfl := Option.some.inj same
    exact (beside pretty there).2

theorem Keeps.acts_jsonl {writer : RotatedWriter} {next : DailyWriter} {opened : String}
    (keeps : s.Keeps name text since) (complete : Complete newline text)
    (here : s.jsonl = some writer) (acts : DailyWriter.Acts (writer.roller.withDisk s.disk) next)
    (ages : Ages opened s.disk next.disk) (begun : since ≤ s.disk.now) :
    ({ s with disk := next.disk, jsonl := some { writer with roller := next } } :
      LogDirectory).Keeps name text since := by
  obtain ⟨inode, begins, young, jsonl, pretty⟩ := keeps
  obtain ⟨still, spares⟩ := acts.keeps name inode text complete begins (jsonl writer here)
  refine ⟨inode, still, ages.young begun young, fun other same => ?_, pretty⟩
  obtain rfl := Option.some.inj same
  exact spares

/-- The writer of the human-readable files acts on the disk of the directory. -/
theorem Sound.acts_pretty {writer next : DailyWriter} (sound : s.Sound keepDays)
    (here : s.prettyLog = some writer) (acts : DailyWriter.Acts (writer.withDisk s.disk) next) :
    ({ s with disk := next.disk, prettyLog := some next } : LogDirectory).Sound keepDays := by
  obtain ⟨_, path⟩ := sound.prettyLog writer here
  have beside (jsonl : RotatedWriter) (there : s.jsonl = some jsonl) :=
    acts.beside (Ne.symm (sound.apart jsonl writer there here)) (sound.jsonl jsonl there).1
      fun date another same => jsonlName_ne_prettyName another date (by
        rw [← path, ← (sound.jsonl jsonl there).2.1]
        exact same.symm)
  refine ⟨fun jsonl there => ?_, fun other same => ?_, fun jsonl other there same => ?_⟩
  · exact ⟨(beside jsonl there).1, (sound.jsonl jsonl there).2⟩
  · obtain rfl := Option.some.inj same
    exact ⟨acts.seated, acts.path.trans path⟩
  · obtain rfl := Option.some.inj same
    exact Ne.symm (beside jsonl there).2

theorem Keeps.acts_pretty {writer next : DailyWriter} {opened : String}
    (keeps : s.Keeps name text since) (complete : Complete newline text)
    (here : s.prettyLog = some writer) (acts : DailyWriter.Acts (writer.withDisk s.disk) next)
    (ages : Ages opened s.disk next.disk) (begun : since ≤ s.disk.now) :
    ({ s with disk := next.disk, prettyLog := some next } : LogDirectory).Keeps name text
      since := by
  obtain ⟨inode, begins, young, jsonl, pretty⟩ := keeps
  obtain ⟨still, spares⟩ := acts.keeps name inode text complete begins (pretty writer here)
  refine ⟨inode, still, ages.young begun young, jsonl, fun other same => ?_⟩
  obtain rfl := Option.some.inj same
  exact spares

/-- The same writer, which was left with another disk. -/
theorem Sound.again_jsonl {writer again : RotatedWriter} (sound : s.Sound keepDays)
    (here : s.jsonl = some writer) (days : again.keepDays = writer.keepDays) {other : Disk}
    (same : again.roller = writer.roller.withDisk other) :
    ({ s with jsonl := some again } : LogDirectory).Sound keepDays := by
  obtain ⟨seated, path, kept⟩ := sound.jsonl writer here
  refine ⟨fun next is => ?_, sound.prettyLog, fun next pretty is there => ?_⟩
  · obtain rfl := Option.some.inj is
    rw [same, days]
    exact ⟨seated, path, kept⟩
  · obtain rfl := Option.some.inj is
    rw [same]
    exact sound.apart writer pretty here there

theorem Keeps.again_jsonl {writer again : RotatedWriter} (keeps : s.Keeps name text since)
    (here : s.jsonl = some writer) {other : Disk}
    (same : again.roller = writer.roller.withDisk other) :
    ({ s with jsonl := some again } : LogDirectory).Keeps name text since := by
  obtain ⟨inode, begins, young, jsonl, pretty⟩ := keeps
  refine ⟨inode, begins, young, fun next is => ?_, pretty⟩
  obtain rfl := Option.some.inj is
  rw [same]
  exact jsonl writer here

theorem Sound.again_pretty {writer : DailyWriter} (sound : s.Sound keepDays)
    (here : s.prettyLog = some writer) (other : Disk) :
    ({ s with prettyLog := some (writer.withDisk other) } : LogDirectory).Sound keepDays := by
  refine ⟨sound.jsonl, fun next is => ?_, fun jsonl next there is => ?_⟩
  · obtain rfl := Option.some.inj is
    exact sound.prettyLog writer here
  · obtain rfl := Option.some.inj is
    exact sound.apart jsonl writer there here

theorem Keeps.again_pretty {writer : DailyWriter} (keeps : s.Keeps name text since)
    (here : s.prettyLog = some writer) (other : Disk) :
    ({ s with prettyLog := some (writer.withDisk other) } : LogDirectory).Keeps name text
      since := by
  obtain ⟨inode, begins, young, jsonl, pretty⟩ := keeps
  refine ⟨inode, begins, young, jsonl, fun next is => ?_⟩
  obtain rfl := Option.some.inj is
  exact pretty writer here

end LogDirectory

namespace RotatedWriter

theorem flush_same (writer : RotatedWriter) (disk : Disk) : ∃ left, Alike disk left ∧
    (writer.onDisk disk).flush.2 = writer.onDisk left := by
  have flushed := Disk.alike_attempt disk ()
  have result : (writer.roller.withDisk disk).flush =
      ((disk.attempt ()).1, writer.roller.withDisk (disk.attempt ()).2) := rfl
  unfold RotatedWriter.flush onDisk
  rw [result]
  generalize disk.attempt () = flushing at flushed
  rcases flushing with ⟨error | done, left⟩
  · exact ⟨left, flushed, rfl⟩
  · have synced := Disk.alike_attempt left ()
    exact ⟨(left.attempt ()).2, ⟨synced.names.trans flushed.names,
      synced.files.trans flushed.files, synced.nextInode.trans flushed.nextInode⟩, rfl⟩

/-- A cleanup that is not due does nothing. -/
theorem cleanup_same (listing : Disk → List String) (writer : RotatedWriter) (disk : Disk) :
    ∃ left, Cleans (cutoffAt disk.now writer.keepDays) disk left ∧
      ((writer.onDisk disk).cleanupIfDayChanged listing).roller = writer.roller.withDisk left ∧
      ((writer.onDisk disk).cleanupIfDayChanged listing).keepDays = writer.keepDays := by
  unfold cleanupIfDayChanged
  dsimp only
  split
  · exact ⟨disk, Cleans.refl _ disk, rfl, rfl⟩
  · exact ⟨_, cleanupOldRotatedLogs_cleans listing disk writer.keepDays, rfl, rfl⟩

theorem writeLocked_acts {writer : RotatedWriter} (seated : writer.roller.Seated)
    (call : LineCall) : DailyWriter.Acts writer.roller (writer.writeLocked call).2.roller ∧
      Ages (writer.roller.path call.date) writer.roller.disk
        (writer.writeLocked call).2.roller.disk ∧
      ((writer.writeLocked call).1 = .ok () →
        DailyWriter.Stored call.line (writer.writeLocked call).2.roller ∧
        (writer.writeLocked call).2.roller.date = call.date ∧
        (writer.writeLocked call).2.roller.handle.data.modified = writer.roller.disk.now) ∧
      (writer.writeLocked call).2 =
        { writer with roller := (writer.writeLocked call).2.roller } ∧
      (((writer.writeLocked call).2.roller.date = writer.roller.date ∧
          (writer.writeLocked call).2.roller.handle.inode = writer.roller.handle.inode) ∨
        ((writer.writeLocked call).2.roller.date = call.date ∧
          (writer.writeLocked call).2.roller.disk.names[writer.roller.path call.date]? =
            some (writer.writeLocked call).2.roller.handle.inode)) := by
  obtain ⟨body, ended⟩ := call.ended
  have filled : call.line ≠ [] := by rw [ended]; simp
  obtain ⟨acts, stored⟩ := DailyWriter.appendAt_acts seated (Or.inr ⟨body, ended⟩) call.date
  have ages := writer.roller.appendAt_ages call.line call.date
  have modified (done : (writer.roller.appendAt call.line call.date).1 = .ok ()) :=
    writer.roller.appendAt_modified filled done
  obtain ⟨base, past, _, consistent⟩ := seated.consistent
  have moved := (DailyWriter.appendAt_moves consistent call.line call.date).2.imp_right
    fun there => And.intro there.1 there.2.1
  unfold writeLocked
  rw [DailyWriter.writeAll, if_neg filled]
  generalize writer.roller.appendAt call.line call.date = written
    at acts stored ages modified moved ⊢
  rcases written with ⟨error | done, roller⟩
  · exact ⟨acts, ages, fun done => by simp at done, rfl, moved⟩
  · have flushes := DailyWriter.flush_acts acts.seated
    have waits : Ages (writer.roller.path call.date) roller.disk roller.flush.2.disk :=
      roller.handle.ages_attempt ()
    have still : roller.flush.2.disk.names = roller.disk.names := by
      change (roller.handle.attempt ()).2.disk.names = roller.handle.disk.names
      rw [OpenFile.attempt_snd]
      rfl
    refine ⟨acts.trans flushes, ages.trans waits, fun _ => ?_, rfl,
      moved.imp_right fun there => ⟨there.1, still ▸ there.2⟩⟩
    have same : roller.flush.2.handle.data = roller.handle.data := by
      change (roller.handle.attempt ()).2.data = roller.handle.data
      rw [OpenFile.attempt_snd]
      rfl
    obtain ⟨⟨earlier, complete, begins, spares⟩, date⟩ := stored rfl
    refine ⟨⟨earlier, complete, ?_, spares⟩, date, ?_⟩
    · have bytes : roller.flush.2.handle.bytes = roller.handle.bytes :=
        congrArg FileData.content same
      change earlier ++ call.line <+: roller.flush.2.handle.bytes
      rwa [bytes]
    · exact (congrArg FileData.modified same).trans (modified rfl)

end RotatedWriter

/-! ### A start -/

namespace DailyWriter

theorem atDate_opens (disk : Disk) (namePrefix : String) (nameSuffix : Option String)
    (date : NaiveDate) : Disk.Opens (dailyPath namePrefix nameSuffix date) disk
      (leftBy DailyWriter.disk (atDate disk namePrefix nameSuffix date)) := by
  have opens := Disk.opens_openPath disk (dailyPath namePrefix nameSuffix date)
  unfold atDate
  generalize AppendFile.openPath disk (dailyPath namePrefix nameSuffix date) = opening at opens ⊢
  rcases opening with failure | file
  · exact opens
  · exact opens

end DailyWriter

theorem openRotated_opens (listing : Disk → List String) (disk : Disk) (dir : String)
    (keepDays : ℕ) (clock : LocalTime) :
    (∃ ready, Cleans (cutoffAt clock.now (max keepDays 1)) (disk.atTime clock.now) ready ∧
      Disk.Opens (jsonlName clock.date) ready (leftBy (fun writer => writer.roller.disk)
        (RotatedWriter.openRotated listing disk dir keepDays clock.now clock.offset))) ∧
    ∀ writer,
      RotatedWriter.openRotated listing disk dir keepDays clock.now clock.offset = .ok writer →
      writer.roller.Fresh jsonlName clock.date ∧ writer.keepDays = max keepDays 1 := by
  have made : Cleans (cutoffAt clock.now (max keepDays 1)) (disk.atTime clock.now)
      ((disk.atTime clock.now).createPrivateDir (dirRoad dir)).2 :=
    Cleans.builds _ ((disk.atTime clock.now).createPrivateDir_builds (dirRoad dir))
  rw [openRotated_eq]
  generalize (disk.atTime clock.now).createPrivateDir (dirRoad dir) = making at made ⊢
  rcases making with ⟨error | done, next⟩
  · exact ⟨⟨next, made, Disk.Opens.refl _ _⟩, fun writer opens => by simp at opens⟩
  · have cleaned := cleanupOldRotatedLogs_cleans listing next (max keepDays 1)
    have now : next.now = clock.now := made.now
    rw [now] at cleaned
    have both := made.trans cleaned
    dsimp only
    generalize cleanupOldRotatedLogs listing next (max keepDays 1) = cleaning at both ⊢
    rcases cleaning with ⟨error | done, ready⟩
    · exact ⟨⟨ready, both, Disk.Opens.refl _ _⟩, fun writer opens => by simp at opens⟩
    · have opens := DailyWriter.atDate_opens ready rotationPrefix none clock.date
      have fresh (appender : DailyWriter)
          (opened : DailyWriter.atDate ready rotationPrefix none clock.date = .ok appender) :=
        (DailyWriter.atDate_fresh opened).1
      dsimp only at both ⊢
      generalize DailyWriter.atDate ready rotationPrefix none clock.date = result at opens fresh ⊢
      rcases result with failure | appender
      · exact ⟨⟨ready, both, opens⟩, fun writer opens => by simp at opens⟩
      · refine ⟨⟨ready, both, opens⟩, fun writer same => ?_⟩
        obtain rfl := Except.ok.inj same
        obtain ⟨seated, path, current, named, unblocked⟩ := fresh appender rfl
        exact ⟨⟨⟨seated.consistent, seated.only, seated.numbered⟩, path, current, named,
          unblocked⟩, rfl⟩

theorem openPrettyLog_opens (clock : LocalTime) (disk : Disk) (dir : String) :
    Disk.Opens (prettyName clock.date) (disk.atTime clock.now)
      (leftBy DailyWriter.disk (openPrettyLog clock disk dir)) ∧
    ∀ writer, openPrettyLog clock disk dir = .ok writer → writer.Fresh prettyName clock.date ∧
      Disk.Elsewhere (prettyName clock.date) (disk.atTime clock.now) writer.disk := by
  have builds := (disk.atTime clock.now).createPrivateDir_builds (dirRoad dir)
  have made := Disk.opens_builds (prettyName clock.date) builds
  have alike := Disk.alike_builds builds
  unfold openPrettyLog
  generalize (disk.atTime clock.now).createPrivateDir (dirRoad dir) = making at made alike ⊢
  rcases making with ⟨error | done, next⟩
  · exact ⟨made, fun writer opens => by simp at opens⟩
  · have opens := DailyWriter.atDate_opens next prettyLogPrefix (some prettyLogSuffix) clock.date
    refine ⟨made.trans opens, fun writer opened => ?_⟩
    obtain ⟨fresh, elsewhere⟩ := DailyWriter.atDate_fresh opened
    have now : next.now = (disk.atTime clock.now).now := made.ages.now
    refine ⟨fresh, ?_⟩
    obtain ⟨names, kept, new, grows, same, files⟩ := elsewhere
    rw [alike.names] at names kept new files
    rw [alike.nextInode] at new grows files
    rw [alike.files] at files
    exact ⟨names, kept, new, grows, same.trans now, files⟩

/-- How a start goes: the cleanup, the JSONL, the other file, each as far as it gets. -/
inductive StartChain (days : ℕ) (clock later : LocalTime) (before : Disk) : Disk → Prop where
  | of (ready opened late left : Disk)
      (cleans : Cleans (cutoffAt clock.now days) (before.atTime clock.now) ready)
      (jsonl : Disk.Opens (jsonlName clock.date) ready opened) (alike : Alike opened late)
      (time : late.now = clock.now ∨ late.now = later.now)
      (pretty : Disk.Opens (prettyName later.date) late left) :
      StartChain days clock later before left

/-- A process right after its start: both files have their names, and nothing is to be taken
back. -/
structure Started (days : ℕ) (clock : LocalTime) (s : LogDirectory) : Prop where
  sound : s.Sound days
  jsonl : ∀ writer, s.jsonl = some writer → writer.roller.rollback = none ∧
    writer.roller.date = clock.date ∧
    s.disk.names[jsonlName clock.date]? = some writer.roller.handle.inode
  prettyLog : ∀ writer, s.prettyLog = some writer → writer.rollback = none

theorem started_jsonl {days : ℕ} {clock : LocalTime} {writer : RotatedWriter}
    (fresh : writer.roller.Fresh jsonlName clock.date) (kept : writer.keepDays = days) :
    Started days clock { disk := writer.roller.disk, jsonl := some writer } := by
  refine ⟨⟨fun other same => ?_, fun pretty never => by simp at never,
    fun other pretty _ never => by simp at never⟩, fun other same => ?_,
    fun pretty never => by simp at never⟩
  · obtain rfl := Option.some.inj same
    exact ⟨fresh.seated, fresh.path, kept.ge⟩
  · obtain rfl := Option.some.inj same
    exact ⟨fresh.unblocked, fresh.current, fresh.named⟩

/-- The second file is opened beside the first. -/
theorem Started.pretty {days : ℕ} {clock later : LocalTime} {writer : RotatedWriter} {disk : Disk}
    {pretty : DailyWriter} {now : Instant}
    (started : Started days clock { disk := disk, jsonl := some writer })
    (fresh : pretty.Fresh prettyName later.date)
    (elsewhere : Disk.Elsewhere (prettyName later.date) (disk.atTime now) pretty.disk) :
    Started days clock
      { disk := pretty.disk, jsonl := some writer, prettyLog := some pretty } := by
  obtain ⟨seated, path, kept⟩ := started.sound.jsonl writer rfl
  obtain ⟨unblocked, current, named⟩ := started.jsonl writer rfl
  have unnamed : disk.names[prettyName later.date]? ≠ some writer.roller.handle.inode := by
    intro same
    have own := seated.only _ same
    rw [show (writer.roller.withDisk disk).path = jsonlName from path] at own
    exact jsonlName_ne_prettyName _ _ own.symm
  have leaves : LeavesFile writer.roller.handle.inode disk pretty.disk := by
    obtain ⟨file, names, grows⟩ := elsewhere.leavesFile seated.numbered unnamed
    exact ⟨file, names, grows⟩
  refine ⟨⟨fun other same => ?_, fun other same => ?_, fun other another same is => ?_⟩,
    fun other same => ?_, fun other same => ?_⟩
  · obtain rfl := Option.some.inj same
    exact ⟨seated.withDisk leaves, path, kept⟩
  · obtain rfl := Option.some.inj same
    exact ⟨fresh.seated, fresh.path⟩
  · obtain rfl := Option.some.inj same
    obtain rfl := Option.some.inj is
    intro shared
    have opened := fresh.named
    rw [← shared] at opened
    exact unnamed (leaves.names _ opened)
  · obtain rfl := Option.some.inj same
    exact ⟨unblocked, current, elsewhere.keepsName named⟩
  · obtain rfl := Option.some.inj same
    exact fresh.unblocked

theorem start_chain (listing : Disk → List String) (settings : DirectorySettings)
    (clock later : LocalTime) (disk : Disk) :
    StartChain (max settings.keepDays 1) clock later disk (leftBy Outputs.disk
      (fromSettings listing settings.toOutputSettings clock later disk)) ∧
    ∀ outputs, fromSettings listing settings.toOutputSettings clock later disk = .ok outputs →
      Started (max settings.keepDays 1) clock (LogDirectory.running outputs) := by
  obtain ⟨⟨ready, cleans, opens⟩, fresh⟩ :=
    openRotated_opens listing disk settings.dir settings.keepDays clock
  have now : ready.now = clock.now := cleans.now
  have chain (opened late left : Disk) (jsonl : Disk.Opens (jsonlName clock.date) ready opened) :=
    @StartChain.of (max settings.keepDays 1) clock later disk ready opened late left cleans jsonl
  unfold fromSettings openSink
  rw [settings.daily]
  dsimp only
  generalize RotatedWriter.openRotated listing disk settings.dir settings.keepDays clock.now
    clock.offset = result at opens fresh ⊢
  rcases result with failure | writer
  · refine ⟨chain _ _ _ opens ⟨rfl, rfl, rfl⟩ (Or.inl (opens.ages.now.trans now))
      (Disk.Opens.refl _ _), fun outputs same => by simp at same⟩
  · obtain ⟨opened, kept⟩ := fresh writer rfl
    have started := started_jsonl opened kept
    dsimp only
    cases settings.prettyLogDir with
    | none =>
        refine ⟨chain _ _ _ opens ⟨rfl, rfl, rfl⟩ (Or.inl (opens.ages.now.trans now))
          (Disk.Opens.refl _ _), fun outputs same => ?_⟩
        obtain rfl := Except.ok.inj same
        exact started
    | some dir =>
        obtain ⟨prettyOpens, prettyFresh⟩ := openPrettyLog_opens later writer.roller.disk dir
        dsimp only
        generalize openPrettyLog later writer.roller.disk dir = result at prettyOpens prettyFresh ⊢
        have both := chain writer.roller.disk (writer.roller.disk.atTime later.now) _ opens
          ⟨rfl, rfl, rfl⟩ (Or.inr rfl) prettyOpens
        rcases result with failure | pretty
        · exact ⟨both, fun outputs same => by simp at same⟩
        · obtain ⟨own, elsewhere⟩ := prettyFresh pretty rfl
          refine ⟨both, fun outputs same => ?_⟩
          obtain rfl := Except.ok.inj same
          exact started.pretty own elsewhere

theorem cutoff_le {since now : Instant} {keepDays days : ℕ} (kept : keepDays ≤ days)
    (recent : now ≤ since + keepDays * day) : cutoffAt now days ≤ since := by
  have longer : (keepDays : ℤ) * day ≤ days * day :=
    mul_le_mul_of_nonneg_right (by exact_mod_cast kept) (by decide)
  rw [cutoffAt]
  linarith

theorem StartChain.preserves {since : Instant} {days : ℕ} {clock later : LocalTime}
    {before left : Disk} (chain : StartChain days clock later before left)
    (begun : since ≤ clock.now) (second : since ≤ later.now)
    (recent : cutoffAt clock.now days ≤ since) :
    Preserves since before left := by
  obtain ⟨ready, opened, late, left, cleans, jsonl, alike, time, pretty⟩ := chain
  have started : Alike before (before.atTime clock.now) := ⟨rfl, rfl, rfl⟩
  have now : since ≤ ready.now := begun.trans_eq cleans.now.symm
  have then_ : since ≤ late.now := by
    rcases time with same | same
    · exact begun.trans_eq same.symm
    · exact second.trans_eq same.symm
  exact started.preserves.trans ((Disk.preserves_of_cleans cleans recent).trans
    ((jsonl.preserves since now).trans (alike.preserves.trans (pretty.preserves since then_))))

/-! ### One event -/

/-- The readings of the clock in their order. -/
def DirectoryEvent.readings : DirectoryEvent → List LocalTime
  | .start _ clock later => [clock, later]
  | .cleanup clock => [clock]
  | .line call => [⟨call.now, call.offset⟩]
  | .text call => [call.clock]
  | .dryRun _ clock later => [clock, later]
  | .flushText | .sync | .stop => []

/-- A start keeps files for that many days at least. -/
def DirectoryEvent.Retains (keepDays : ℕ) : DirectoryEvent → Prop
  | .start settings _ _ => keepDays ≤ max settings.keepDays 1
  | _ => True

instance (keepDays : ℕ) : DecidablePred (DirectoryEvent.Retains keepDays)
  | .start settings _ _ => inferInstanceAs (Decidable (keepDays ≤ max settings.keepDays 1))
  | .cleanup _ | .line _ | .text _ | .flushText | .sync | .stop | .dryRun _ _ _ =>
      inferInstanceAs (Decidable True)

namespace LogDirectory

variable {listing : Disk → List String} {keepDays : ℕ} {s next : LogDirectory}
  {occurrence : Occurrence} {answer : Except IoError Unit} {name : String} {text : Bytes}
  {since : Instant}

/-- What an event can do. -/
inductive Moves (s : LogDirectory) :
    DirectoryEvent → Except IoError Unit → LogDirectory → Prop where
  | failed (settings : DirectorySettings) (clock later : LocalTime) (before left : Disk)
      (error : IoError) (alike : Alike s.disk before)
      (chain : StartChain (max settings.keepDays 1) clock later before left) :
      Moves s (.start settings clock later) (.error error) { disk := left }
  | started (settings : DirectorySettings) (clock later : LocalTime) (before : Disk)
      (next : LogDirectory) (alike : Alike s.disk before)
      (chain : StartChain (max settings.keepDays 1) clock later before next.disk)
      (started : Started (max settings.keepDays 1) clock next) :
      Moves s (.start settings clock later) (.ok ()) next
  | cleanup (clock : LocalTime) (writer again : RotatedWriter) (before left : Disk)
      (here : s.jsonl = some writer) (alike : Alike s.disk before) (now : before.now = clock.now)
      (cleans : Cleans (cutoffAt clock.now writer.keepDays) before left)
      (days : again.keepDays = writer.keepDays) (same : again.roller = writer.roller.withDisk left) :
      Moves s (.cleanup clock) (.ok ()) { s with disk := left, jsonl := some again }
  | line (call : LineCall) (answer : Except IoError Unit) (writer after : RotatedWriter)
      (before : Disk) (here : s.jsonl = some writer) (alike : Alike s.disk before)
      (now : before.now = call.now)
      (wrote : (writer.onDisk before).writeLocked call = (answer, after)) :
      Moves s (.line call) answer { s with disk := after.roller.disk, jsonl := some after }
  | text (call : TextCall) (answer : Except IoError Unit) (writer after : DailyWriter)
      (before : Disk) (here : s.prettyLog = some writer) (alike : Alike s.disk before)
      (now : before.now = call.clock.now)
      (wrote : (writer.withDisk before).writeAll call.text call.clock.date = (answer, after)) :
      Moves s (.text call) answer { s with disk := after.disk, prettyLog := some after }
  | flushText (answer : Except IoError Unit) (writer : DailyWriter) (left : Disk)
      (here : s.prettyLog = some writer) (alike : Alike s.disk left) :
      Moves s .flushText answer
        { s with disk := left, prettyLog := some (writer.withDisk left) }
  | sync (answer : Except IoError Unit) (writer : RotatedWriter) (left : Disk)
      (here : s.jsonl = some writer) (alike : Alike s.disk left) :
      Moves s .sync answer { s with disk := left, jsonl := some (writer.onDisk left) }
  | stop : Moves s .stop (.ok ()) { disk := s.disk }
  | dryRun (settings : DirectorySettings) (clock later : LocalTime)
      (answer : Except IoError Unit) (left : Disk)
      (untouched : Disk.Untouched (plannedFiles settings.toOutputSettings clock later)
        (plannedRoads settings.toOutputSettings) s.disk left) :
      Moves s (.dryRun settings clock later) answer { s with disk := left }

theorem moves_of_answer (happened : s.answerTo listing occurrence = some (answer, next)) :
    Moves s occurrence.event answer next := by
  obtain ⟨event, outcomes⟩ := occurrence
  have scripted : Alike s.disk (s.disk.scripted outcomes) := ⟨rfl, rfl, rfl⟩
  cases event with
  | start settings clock later =>
      obtain ⟨chain, running⟩ := start_chain listing settings clock later (s.disk.scripted outcomes)
      simp only [answerTo] at happened
      split at happened
      · simp at happened
      · generalize fromSettings listing settings.toOutputSettings clock later
          (s.disk.scripted outcomes) = result at chain running happened
        rcases result with ⟨error, left⟩ | outputs
        · obtain ⟨rfl, rfl⟩ := Prod.mk.inj (Option.some.inj happened)
          exact .failed settings clock later _ left error scripted chain
        · obtain ⟨rfl, rfl⟩ := Prod.mk.inj (Option.some.inj happened)
          exact .started settings clock later _ _ scripted chain (running outputs rfl)
  | cleanup clock =>
      obtain ⟨writer, here, same⟩ := Option.map_eq_some_iff.mp happened
      obtain ⟨rfl, rfl⟩ := Prod.mk.inj same
      obtain ⟨left, cleans, roller, days⟩ :=
        writer.cleanup_same listing ((s.disk.scripted outcomes).atTime clock.now)
      have alike : Alike s.disk ((s.disk.scripted outcomes).atTime clock.now) := ⟨rfl, rfl, rfl⟩
      have moved := Moves.cleanup clock writer _ _ left here alike rfl cleans days roller
      have disk : ((writer.onDisk ((s.disk.scripted outcomes).atTime clock.now)).cleanupIfDayChanged
          listing).roller.disk = left := by
        rw [roller]
        rfl
      dsimp only
      rw [disk]
      exact moved
  | line call =>
      obtain ⟨writer, here, same⟩ := Option.map_eq_some_iff.mp happened
      obtain ⟨rfl, rfl⟩ := Prod.mk.inj same
      exact .line call _ writer _ ((s.disk.scripted outcomes).atTime call.now) here ⟨rfl, rfl, rfl⟩
        rfl rfl
  | text call =>
      obtain ⟨writer, here, same⟩ := Option.map_eq_some_iff.mp happened
      obtain ⟨rfl, rfl⟩ := Prod.mk.inj same
      exact .text call _ writer _ ((s.disk.scripted outcomes).atTime call.clock.now) here
        ⟨rfl, rfl, rfl⟩ rfl rfl
  | flushText =>
      obtain ⟨writer, here, same⟩ := Option.map_eq_some_iff.mp happened
      obtain ⟨rfl, rfl⟩ := Prod.mk.inj same
      obtain ⟨names, files, nextInode⟩ := Disk.alike_attempt (s.disk.scripted outcomes) ()
      exact .flushText _ writer _ here ⟨names, files, nextInode⟩
  | sync =>
      obtain ⟨writer, here, same⟩ := Option.map_eq_some_iff.mp happened
      obtain ⟨rfl, rfl⟩ := Prod.mk.inj same
      obtain ⟨left, ⟨names, files, nextInode⟩, flushed⟩ :=
        writer.flush_same (s.disk.scripted outcomes)
      dsimp only
      rw [flushed]
      exact .sync _ writer left here ⟨names, files, nextInode⟩
  | stop =>
      obtain ⟨rfl, rfl⟩ := Prod.mk.inj (Option.some.inj happened)
      exact .stop
  | dryRun settings clock later =>
      obtain ⟨rfl, rfl⟩ := Prod.mk.inj (Option.some.inj happened)
      obtain ⟨names, files, added, grows, directories, made⟩ :=
        probeSettings_untouched listing settings.toOutputSettings clock later
          (s.disk.scripted outcomes)
      exact .dryRun settings clock later _ _ ⟨names, files, added, grows, directories, made⟩

theorem writeAll_acts {writer : DailyWriter} (seated : writer.Seated) (call : TextCall) :
    DailyWriter.Acts writer (writer.writeAll call.text call.clock.date).2 ∧
      Ages (writer.path call.clock.date) writer.disk
        (writer.writeAll call.text call.clock.date).2.disk := by
  unfold DailyWriter.writeAll
  split
  · exact ⟨DailyWriter.Acts.refl seated, Ages.refl _⟩
  · exact ⟨(DailyWriter.appendAt_acts seated call.lines call.clock.date).1,
      writer.appendAt_ages call.text call.clock.date⟩

theorem Sound.moves {event : DirectoryEvent} (sound : s.Sound keepDays)
    (retains : event.Retains keepDays) (moves : Moves s event answer next) :
    next.Sound keepDays := by
  cases moves with
  | failed settings clock later before left error alike chain =>
      exact ⟨fun _ never => by simp at never, fun _ never => by simp at never,
        fun _ _ never => by simp at never⟩
  | started settings clock later before next alike chain started =>
      obtain ⟨jsonl, pretty, apart⟩ := started.sound
      refine ⟨fun writer here => ?_, pretty, apart⟩
      obtain ⟨seated, path, kept⟩ := jsonl writer here
      exact ⟨seated, path, le_trans retains kept⟩
  | cleanup clock writer again before left here alike now cleans days same =>
      refine (sound.onDisk fun inode => ?_).again_jsonl here days same
      exact (alike.leaves inode).trans (Disk.leaves_of_cleans cleans inode)
  | line call answer writer after before here alike now wrote =>
      have standing := sound.onDisk alike.leaves
      have seated : (writer.onDisk before).roller.Seated := (standing.jsonl writer here).1
      obtain ⟨acts, _, _, same, _⟩ := RotatedWriter.writeLocked_acts seated call
      rw [wrote] at acts same
      have moved := standing.acts_jsonl here acts
      rw [show after = { writer with roller := after.roller } from same]
      exact moved
  | text call answer writer after before here alike now wrote =>
      have standing := sound.onDisk alike.leaves
      obtain ⟨acts, _⟩ := writeAll_acts (standing.prettyLog writer here).1 call
      rw [wrote] at acts
      exact standing.acts_pretty here acts
  | flushText answer writer left here alike =>
      exact (sound.onDisk alike.leaves).again_pretty here left
  | sync answer writer left here alike =>
      exact (sound.onDisk alike.leaves).again_jsonl here rfl rfl
  | stop =>
      exact ⟨fun _ never => by simp at never, fun _ never => by simp at never,
        fun _ _ never => by simp at never⟩
  | dryRun settings clock later answer left untouched =>
      refine ⟨fun writer here => ?_, fun writer here => ?_, sound.apart⟩
      · obtain ⟨seated, rest⟩ := sound.jsonl writer here
        exact ⟨seated.withDisk (untouched.leaves seated.numbered), rest⟩
      · obtain ⟨seated, path⟩ := sound.prettyLog writer here
        exact ⟨seated.withDisk (untouched.leaves seated.numbered), path⟩

/-- What is kept is kept by an event within the days of the retention. -/
theorem Keeps.moves (keeps : s.Keeps name text since) (complete : Complete newline text)
    (sound : s.Sound keepDays) (retains : occurrence.event.Retains keepDays)
    (begun : ∀ reading ∈ occurrence.event.readings, since ≤ reading.now)
    (recent : ∀ reading ∈ occurrence.event.readings, reading.now ≤ since + keepDays * day)
    (moves : Moves s occurrence.event answer next) : next.Keeps name text since := by
  obtain ⟨event, outcomes⟩ := occurrence
  cases moves with
  | failed settings clock later before left error alike chain =>
      have first : clock ∈ [clock, later] := List.mem_cons_self
      have second : later ∈ [clock, later] := List.mem_cons_of_mem _ List.mem_cons_self
      have preserves := alike.preserves.trans (chain.preserves (begun clock first)
        (begun later second) (cutoff_le retains (recent clock first)))
      obtain ⟨inode, still, aged, _, _⟩ := keeps.onDisk complete preserves
      exact ⟨inode, still, aged, fun _ never => by simp at never, fun _ never => by simp at never⟩
  | started settings clock later before next alike chain started =>
      have first : clock ∈ [clock, later] := List.mem_cons_self
      have second : later ∈ [clock, later] := List.mem_cons_of_mem _ List.mem_cons_self
      have preserves := alike.preserves.trans (chain.preserves (begun clock first)
        (begun later second) (cutoff_le retains (recent clock first)))
      obtain ⟨inode, still, aged, _, _⟩ := keeps.onDisk complete preserves
      refine ⟨inode, still, aged, fun writer here => ?_, fun writer here => ?_⟩
      · exact DailyWriter.spares_of_unblocked (started.jsonl writer here).1 inode text
      · exact DailyWriter.spares_of_unblocked (started.prettyLog writer here) inode text
  | cleanup clock writer again before left here alike now cleans days same =>
      have preserves := alike.preserves.trans (Disk.preserves_of_cleans cleans
        (cutoff_le (sound.jsonl writer here).2.2 (recent clock List.mem_cons_self)))
      exact (keeps.onDisk complete preserves).again_jsonl here same
  | line call answer writer after before here alike now wrote =>
      have standing := sound.onDisk alike.leaves
      have seated : (writer.onDisk before).roller.Seated := (standing.jsonl writer here).1
      obtain ⟨acts, ages, _, same, _⟩ := RotatedWriter.writeLocked_acts seated call
      rw [wrote] at acts ages same
      have begun : since ≤ before.now := now ▸ begun _ List.mem_cons_self
      have moved := (keeps.onDisk complete alike.preserves).acts_jsonl complete here acts ages begun
      rw [show after = { writer with roller := after.roller } from same]
      exact moved
  | text call answer writer after before here alike now wrote =>
      have standing := sound.onDisk alike.leaves
      obtain ⟨acts, ages⟩ := writeAll_acts (standing.prettyLog writer here).1 call
      rw [wrote] at acts ages
      have begun : since ≤ before.now := now ▸ begun _ List.mem_cons_self
      exact (keeps.onDisk complete alike.preserves).acts_pretty complete here acts ages begun
  | flushText answer writer left here alike =>
      exact (keeps.onDisk complete alike.preserves).again_pretty here left
  | sync answer writer left here alike =>
      exact (keeps.onDisk complete alike.preserves).again_jsonl here rfl
  | stop =>
      obtain ⟨inode, still, aged, _, _⟩ := keeps
      exact ⟨inode, still, aged, fun _ never => by simp at never, fun _ never => by simp at never⟩
  | dryRun settings clock later answer left untouched =>
      exact keeps.onDisk complete (Disk.preserves_kept untouched.names untouched.files)

/-- The JSONL writer's file has the name of its date. -/
def Linked (s : LogDirectory) : Prop :=
  ∀ writer, s.jsonl = some writer →
    s.disk.names[jsonlName writer.roller.date]? = some writer.roller.handle.inode

/-- An acknowledged line is kept, if the file it is in still has its name. -/
theorem Moves.acknowledged {call : LineCall} (sound : s.Sound keepDays)
    (moves : Moves s (.line call) (.ok ()) next) (after : next.Sound keepDays)
    (linked : next.Linked) : ∃ earlier, Complete newline earlier ∧
      next.Keeps (jsonlName call.date) (earlier ++ call.line) call.now := by
  cases moves with
  | line call answer writer last before here alike now wrote =>
      have seated : (writer.onDisk before).roller.Seated :=
        ((sound.onDisk alike.leaves).jsonl writer here).1
      obtain ⟨_, _, stored, _⟩ := RotatedWriter.writeLocked_acts seated call
      rw [wrote] at stored
      obtain ⟨⟨earlier, complete, begins, spares⟩, date, modified⟩ := stored rfl
      have named := linked last rfl
      rw [date] at named
      have whole : Begins (jsonlName call.date) last.roller.handle.inode (earlier ++ call.line)
          last.roller.disk := ⟨named, begins⟩
      refine ⟨earlier, complete, last.roller.handle.inode, whole, ?_, fun other same => ?_,
        fun pretty there own => absurd own.symm (after.apart last pretty rfl there)⟩
      · obtain ⟨body, ended⟩ := call.ended
        have modified : (last.roller.disk.fileData last.roller.handle.inode).modified = call.now :=
          modified.trans now
        have content := whole.begins
        rw [Disk.fileData] at modified content
        change ∃ data, last.roller.disk.files[last.roller.handle.inode]? = some data ∧ _
        cases found : last.roller.disk.files[last.roller.handle.inode]? with
        | some data =>
            rw [found] at modified
            exact ⟨data, rfl, modified.ge⟩
        | none =>
            rw [found] at content
            have empty := List.prefix_nil.mp content
            simp [ended] at empty
      · obtain rfl := Option.some.inj same
        exact spares

end LogDirectory

/-! ### Clocks -/

/-- A time zone whose offsets are between these, in seconds. -/
def LocalTime.Within (low high : ℤ) (clock : LocalTime) : Prop :=
  low ≤ clock.offset ∧ clock.offset ≤ high

instance (low high : ℤ) : DecidablePred (LocalTime.Within low high) :=
  fun clock => inferInstanceAs (Decidable (low ≤ clock.offset ∧ clock.offset ≤ high))

theorem LocalTime.near {low high : ℤ} {first second : LocalTime} (begun : first.Within low high)
    (other : second.Within low high) (same : first.date = second.date) :
    second.now < first.now + day + (high - low) * 1000000000 := by
  have apart := localDate_near same
  obtain ⟨_, most⟩ := begun
  obtain ⟨least, _⟩ := other
  linarith

/-- From one instant to the other, the clock reads these in order. -/
def Elapses : Instant → List LocalTime → Instant → Prop
  | upTo, [], last => upTo ≤ last
  | upTo, reading :: later, last => upTo ≤ reading.now ∧ Elapses reading.now later last

instance Elapses.decidable : ∀ (upTo : Instant) (readings : List LocalTime) (last : Instant),
    Decidable (Elapses upTo readings last)
  | upTo, [], last => inferInstanceAs (Decidable (upTo ≤ last))
  | upTo, reading :: later, last =>
      @instDecidableAnd _ _ (inferInstanceAs (Decidable (upTo ≤ reading.now)))
        (Elapses.decidable reading.now later last)

section Elapses

variable {upTo last : Instant} {readings later : List LocalTime}

theorem elapses_append : Elapses upTo (readings ++ later) last ↔
    ∃ middle, Elapses upTo readings middle ∧ Elapses middle later last := by
  induction readings generalizing upTo with
  | nil =>
      constructor
      · intro elapses
        exact ⟨upTo, le_refl upTo, elapses⟩
      · rintro ⟨middle, reached, elapses⟩
        cases later with
        | nil => exact le_trans reached elapses
        | cons reading later => exact ⟨le_trans reached elapses.1, elapses.2⟩
  | cons reading readings ih =>
      constructor
      · rintro ⟨reached, elapses⟩
        obtain ⟨middle, first, second⟩ := ih.mp elapses
        exact ⟨middle, ⟨reached, first⟩, second⟩
      · rintro ⟨middle, ⟨reached, first⟩, second⟩
        exact ⟨reached, ih.mpr ⟨middle, first, second⟩⟩

theorem Elapses.le (elapses : Elapses upTo readings last) : upTo ≤ last := by
  induction readings generalizing upTo with
  | nil => exact elapses
  | cons reading readings ih => exact elapses.1.trans (ih elapses.2)

theorem Elapses.reached (elapses : Elapses upTo readings last) :
    ∀ reading ∈ readings, upTo ≤ reading.now := by
  induction readings generalizing upTo with
  | nil => simp
  | cons first readings ih =>
      intro reading among
      rcases List.mem_cons.mp among with same | after
      · exact same ▸ elapses.1
      · exact elapses.1.trans (ih elapses.2 reading after)

theorem Elapses.ends (elapses : Elapses upTo readings last) :
    ∀ reading ∈ readings, reading.now ≤ last := by
  induction readings generalizing upTo with
  | nil => simp
  | cons first readings ih =>
      intro reading among
      rcases List.mem_cons.mp among with same | after
      · exact same ▸ elapses.2.le
      · exact ih elapses.2 reading after

end Elapses

/-- Each daily file is there, and was last written on its day or later. -/
def Dated (low high : ℤ) (upTo : Instant) (disk : Disk) : Prop :=
  ∀ (date : NaiveDate) (inode : ℕ), disk.names[jsonlName date]? = some inode →
    ∃ (data : FileData) (clock : LocalTime), disk.files[inode]? = some data ∧
      clock.Within low high ∧ clock.date = date ∧ clock.now ≤ data.modified ∧ clock.now ≤ upTo

/-- From then on, no clock shows the date. -/
def Past (low high : ℤ) (date : NaiveDate) (upTo : Instant) : Prop :=
  ∀ clock : LocalTime, clock.Within low high → upTo ≤ clock.now → clock.date ≠ date

section Dated

variable {low high : ℤ} {upTo last : Instant} {before after : Disk}

theorem Past.mono {date : NaiveDate} (past : Past low high date upTo) (longer : upTo ≤ last) :
    Past low high date last :=
  fun clock within reached => past clock within (longer.trans reached)

theorem Dated.mono (dated : Dated low high upTo before) (longer : upTo ≤ last) :
    Dated low high last before := by
  intro date inode named
  obtain ⟨data, clock, found, within, own, written, reached⟩ := dated date inode named
  exact ⟨data, clock, found, within, own, written, reached.trans longer⟩

theorem Dated.of_fewer (dated : Dated low high upTo before)
    (names : ∀ (name : String) (inode : ℕ), after.names[name]? = some inode →
      before.names[name]? = some inode)
    (files : after.files = before.files) : Dated low high upTo after := by
  intro date inode named
  rw [files]
  exact dated date inode (names _ inode named)

theorem Dated.alike (dated : Dated low high upTo before) (alike : Alike before after) :
    Dated low high upTo after :=
  dated.of_fewer (fun _ _ found => alike.names ▸ found) alike.files

theorem Dated.cleans {cutoff : Instant} (dated : Dated low high upTo before)
    (cleans : Cleans cutoff before after) : Dated low high upTo after :=
  dated.of_fewer cleans.removes cleans.files

/-- What is written now was written after its day began, and what is new is of this day. -/
theorem Dated.ages {opened : String} (dated : Dated low high upTo before)
    (ages : Ages opened before after) (reached : upTo ≤ before.now)
    (today : ∀ date, jsonlName date = opened →
      ∃ clock : LocalTime, clock.Within low high ∧ clock.date = date ∧ clock.now = before.now) :
    Dated low high before.now after := by
  intro date inode named
  cases was : before.names[jsonlName date]? with
  | none =>
      obtain ⟨same, data, found, modified⟩ := ages.added _ inode was named
      obtain ⟨clock, within, own, now⟩ := today date same
      exact ⟨data, clock, found, within, own, (now.trans modified.symm).le, now.le⟩
  | some number =>
      obtain rfl : number = inode :=
        Option.some.inj ((ages.names _ number was).symm.trans named)
      obtain ⟨data, clock, found, within, own, written, bound⟩ := dated date number was
      obtain ⟨latest, file, same | new⟩ := ages.modified number data found
      · exact ⟨latest, clock, file, within, own, same ▸ written, bound.trans reached⟩
      · exact ⟨latest, clock, file, within, own, new ▸ bound.trans reached, bound.trans reached⟩

theorem Dated.untouched {settings : DirectorySettings} {clock later : LocalTime}
    (dated : Dated low high upTo before)
    (untouched : Disk.Untouched (plannedFiles settings.toOutputSettings clock later)
      (plannedRoads settings.toOutputSettings) before after)
    (within : clock.Within low high) (reached : upTo ≤ last) (now : clock.now ≤ last) :
    Dated low high last after := by
  intro date inode named
  cases was : before.names[jsonlName date]? with
  | none =>
      obtain ⟨_, written, listed, found⟩ := untouched.added _ inode was named
      have planned : jsonlName date = jsonlName clock.date ∧ written = clock.now := by
        simp only [plannedFiles, settings.daily, List.singleton_append, List.mem_cons,
          Prod.mk.injEq] at listed
        rcases listed with own | other
        · exact own
        · cases dir : settings.prettyLogDir with
          | none => simp [dir] at other
          | some dir' =>
              simp only [dir, List.mem_singleton, Prod.mk.injEq] at other
              exact absurd other.1 (jsonlName_ne_prettyName date later.date)
      obtain ⟨same, rfl⟩ := planned
      exact ⟨_, clock, found, within, (dailyPath_injective _ _ same).symm, le_rfl, now⟩
  | some number =>
      obtain rfl : number = inode :=
        Option.some.inj ((untouched.names _ number was).symm.trans named)
      obtain ⟨data, own, found, rest, same, written, bound⟩ := dated date number was
      refine ⟨data, own, ?_, rest, same, written, bound.trans reached⟩
      rw [untouched.files number (before.numbered _ number was), found]

theorem Dated.start {days : ℕ} {clock later : LocalTime} (dated : Dated low high upTo before)
    (chain : StartChain days clock later before after) (within : clock.Within low high)
    (reached : upTo ≤ clock.now) (ordered : clock.now ≤ later.now) :
    Dated low high later.now after := by
  obtain ⟨ready, opened, late, left, cleans, jsonl, alike, time, pretty⟩ := chain
  have begun : Alike before (before.atTime clock.now) := ⟨rfl, rfl, rfl⟩
  have ready_now : ready.now = clock.now := cleans.now
  have first := ((dated.alike begun).cleans cleans).ages jsonl.ages (reached.trans_eq ready_now.symm)
    fun date same => ⟨clock, within, (dailyPath_injective _ _ same).symm, ready_now.symm⟩
  have late_now : clock.now ≤ late.now ∧ late.now ≤ later.now := by
    rcases time with same | same
    · exact ⟨same.ge, same.trans_le ordered⟩
    · exact ⟨ordered.trans_eq same.symm, same.le⟩
  have second := (first.alike alike).ages pretty.ages (ready_now.trans_le late_now.1)
    fun date same => absurd same (jsonlName_ne_prettyName date later.date)
  exact second.mono late_now.2

/-- A daily file that a cleanup takes away is one of a day gone by. -/
theorem Dated.past {cutoff : Instant} {days keepDays : ℕ} {clock : LocalTime} {date : NaiveDate}
    {inode : ℕ} (dated : Dated low high upTo before) (same : cutoff = cutoffAt clock.now days)
    (kept : keepDays ≤ days)
    (enough : day + (high - low) * 1000000000 ≤ keepDays * day)
    (cleans : Cleans cutoff before after) (named : before.names[jsonlName date]? = some inode) :
    after.names[jsonlName date]? = some inode ∨ Past low high date clock.now := by
  obtain ⟨data, own, found, inside, shows, written, _⟩ := dated date inode named
  by_cases old : data.modified < cutoff
  · right
    intro other here reached still
    have apart := LocalTime.near inside here (shows.trans still.symm)
    have longer : (keepDays : ℤ) * day ≤ days * day :=
      mul_le_mul_of_nonneg_right (by exact_mod_cast kept) (by decide)
    rw [same, cutoffAt] at old
    linarith
  · left
    refine cleans.spares _ inode named (Or.inr ?_)
    rw [Disk.fileData, found]
    exact not_lt.mp old

end Dated

namespace LogDirectory

/-- Each daily file was last written on its day or later, and the writer's file has its name for as
long as some clock may show its date. -/
structure Timely (low high : ℤ) (upTo : Instant) (s : LogDirectory) : Prop where
  dated : Dated low high upTo s.disk
  jsonl : ∀ writer, s.jsonl = some writer →
    s.disk.names[jsonlName writer.roller.date]? = some writer.roller.handle.inode ∨
      Past low high writer.roller.date upTo

variable {low high : ℤ} {upTo last : Instant} {listing : Disk → List String} {keepDays : ℕ}
  {s next : LogDirectory} {event : DirectoryEvent} {answer : Except IoError Unit}

theorem Timely.mono (timely : s.Timely low high upTo) (longer : upTo ≤ last) :
    s.Timely low high last :=
  ⟨timely.dated.mono longer, fun writer here =>
    (timely.jsonl writer here).imp_right fun past => past.mono longer⟩

/-- The names stay, and so does the writer. -/
theorem Timely.onDisk {disk : Disk} (timely : s.Timely low high upTo) (longer : upTo ≤ last)
    (dated : Dated low high last disk)
    (names : ∀ (name : String) (inode : ℕ), s.disk.names[name]? = some inode →
      disk.names[name]? = some inode) :
    ({ s with disk := disk } : LogDirectory).Timely low high last := by
  refine ⟨dated, fun writer here => ?_⟩
  rcases timely.jsonl writer here with named | past
  · exact Or.inl (names _ _ named)
  · exact Or.inr (past.mono longer)

theorem Timely.moves (timely : s.Timely low high upTo)
    (enough : day + (high - low) * 1000000000 ≤ keepDays * day) (sound : s.Sound keepDays)
    (within : ∀ reading ∈ event.readings, reading.Within low high)
    (elapses : Elapses upTo event.readings last) (moves : Moves s event answer next) :
    next.Timely low high last := by
  have longer := elapses.le
  have reached := elapses.reached
  have ends := elapses.ends
  cases moves with
  | failed settings clock later before left error alike chain =>
      have first : clock ∈ [clock, later] := List.mem_cons_self
      have second : later ∈ [clock, later] := List.mem_cons_of_mem _ List.mem_cons_self
      have dated := (timely.dated.alike alike).start chain (within clock first)
        (reached clock first) elapses.2.1
      exact ⟨dated.mono (ends later second), fun _ never => by simp at never⟩
  | started settings clock later before next alike chain started =>
      have first : clock ∈ [clock, later] := List.mem_cons_self
      have second : later ∈ [clock, later] := List.mem_cons_of_mem _ List.mem_cons_self
      have dated := (timely.dated.alike alike).start chain (within clock first)
        (reached clock first) elapses.2.1
      refine ⟨dated.mono (ends later second), fun writer here => Or.inl ?_⟩
      obtain ⟨_, date, named⟩ := started.jsonl writer here
      rw [date]
      exact named
  | cleanup clock writer again before left here alike now cleans days same =>
      have dated := timely.dated.alike alike
      refine ⟨(dated.cleans cleans).mono longer, fun other is => ?_⟩
      obtain rfl := Option.some.inj is
      have here_now : clock ∈ [clock] := List.mem_cons_self
      rw [same]
      rcases timely.jsonl writer here with named | past
      · have still : before.names[jsonlName writer.roller.date]? =
            some writer.roller.handle.inode := alike.names ▸ named
        exact (dated.past rfl (sound.jsonl writer here).2.2 enough cleans
          still).imp_right fun past => past.mono (ends clock here_now)
      · exact Or.inr (past.mono longer)
  | line call answer writer after before here alike now wrote =>
      have seated : (writer.onDisk before).roller.Seated :=
        ((sound.onDisk alike.leaves).jsonl writer here).1
      obtain ⟨_, ages, _, _, moved⟩ := RotatedWriter.writeLocked_acts seated call
      have path : (writer.onDisk before).roller.path = jsonlName := (sound.jsonl writer here).2.1
      rw [wrote, path] at ages moved
      have here_now : (⟨call.now, call.offset⟩ : LocalTime) ∈ [⟨call.now, call.offset⟩] :=
        List.mem_cons_self
      have dated := (timely.dated.alike alike).ages ages ((reached _ here_now).trans_eq now.symm)
        fun date same => ⟨_, within _ here_now, (dailyPath_injective _ _ same).symm, now.symm⟩
      refine ⟨dated.mono (now.trans_le (ends _ here_now)), fun other is => ?_⟩
      obtain rfl := Option.some.inj is
      rcases moved with ⟨date, inode⟩ | ⟨date, named⟩
      · rw [date, inode]
        rcases timely.jsonl writer here with named | past
        · exact Or.inl (ages.names _ _ (alike.names ▸ named))
        · exact Or.inr (past.mono longer)
      · rw [date]
        exact Or.inl named
  | text call answer writer after before here alike now wrote =>
      have seated : (writer.withDisk before).Seated :=
        ((sound.onDisk alike.leaves).prettyLog writer here).1
      obtain ⟨_, ages⟩ := writeAll_acts seated call
      have path : (writer.withDisk before).path = prettyName := (sound.prettyLog writer here).2
      rw [wrote, path] at ages
      have here_now : call.clock ∈ [call.clock] := List.mem_cons_self
      have dated := (timely.dated.alike alike).ages ages ((reached _ here_now).trans_eq now.symm)
        fun date same => absurd same (jsonlName_ne_prettyName date call.clock.date)
      obtain ⟨still, linked⟩ := timely.onDisk longer
        (dated.mono (now.trans_le (ends _ here_now)))
        fun name inode named => ages.names name inode (alike.names ▸ named)
      exact ⟨still, linked⟩
  | flushText answer writer left here alike =>
      obtain ⟨still, linked⟩ := timely.onDisk longer ((timely.dated.alike alike).mono longer)
        fun name inode named => alike.names ▸ named
      exact ⟨still, linked⟩
  | sync answer writer left here alike =>
      obtain ⟨still, linked⟩ := timely.onDisk longer ((timely.dated.alike alike).mono longer)
        fun name inode named => alike.names ▸ named
      refine ⟨still, fun other is => ?_⟩
      obtain rfl := Option.some.inj is
      exact linked writer here
  | stop => exact ⟨timely.dated.mono longer, fun _ never => by simp at never⟩
  | dryRun settings clock later answer left untouched =>
      have first : clock ∈ [clock, later] := List.mem_cons_self
      exact timely.onDisk longer
        (timely.dated.untouched untouched (within clock first) longer (ends clock first))
        untouched.names

/-- A writer at its date writes to the file of that name. -/
theorem Timely.acknowledged {call : LineCall} (timely : next.Timely low high call.now)
    (within : (⟨call.now, call.offset⟩ : LocalTime).Within low high) (sound : s.Sound keepDays)
    (after : next.Sound keepDays) (moves : Moves s (.line call) (.ok ()) next) :
    ∃ earlier, Complete newline earlier ∧
      next.Keeps (jsonlName call.date) (earlier ++ call.line) call.now := by
  refine moves.acknowledged sound after ?_
  cases moves with
  | line call answer writer last before here alike now wrote =>
      intro other same
      obtain rfl := Option.some.inj same
      have seated : (writer.onDisk before).roller.Seated :=
        ((sound.onDisk alike.leaves).jsonl writer here).1
      obtain ⟨_, _, stored, _, _⟩ := RotatedWriter.writeLocked_acts seated call
      rw [wrote] at stored
      have date : last.roller.date = call.date := (stored rfl).2.1
      rcases timely.jsonl last rfl with named | past
      · exact named
      · exact absurd date.symm (past ⟨call.now, call.offset⟩ within le_rfl)

/-! ### Runs -/

def readingsOf (occurrences : List Occurrence) : List LocalTime :=
  occurrences.flatMap fun occurrence => occurrence.event.readings

theorem timely_run (enough : day + (high - low) * 1000000000 ≤ keepDays * day) :
    ∀ (occurrences : List Occurrence) (s reached : LogDirectory) (upTo : Instant),
      s.Sound keepDays → s.Timely low high upTo →
      (∀ occurrence ∈ occurrences, occurrence.event.Retains keepDays) →
      (∀ reading ∈ readingsOf occurrences, reading.Within low high) →
      Elapses upTo (readingsOf occurrences) last → run listing s occurrences = some reached →
      reached.Sound keepDays ∧ reached.Timely low high last := by
  intro occurrences
  induction occurrences with
  | nil =>
      intro s reached upTo sound timely _ _ elapses ran
      obtain rfl := Option.some.inj ran
      exact ⟨sound, timely.mono elapses⟩
  | cons occurrence occurrences ih =>
      intro s reached upTo sound timely retains within elapses ran
      obtain ⟨next, taken, rest⟩ := Option.bind_eq_some_iff.mp ran
      obtain ⟨⟨answer, next⟩, happened, rfl⟩ := Option.map_eq_some_iff.mp taken
      rw [readingsOf, List.flatMap_cons] at within elapses
      rw [List.forall_mem_append] at within
      rw [List.forall_mem_cons] at retains
      obtain ⟨middle, first, second⟩ := elapses_append.mp elapses
      have moves := moves_of_answer happened
      exact ih next reached middle (sound.moves retains.1 moves)
        (timely.moves enough sound within.1 first moves) retains.2 within.2 second rest

theorem keeps_run {name : String} {text : Bytes} {since : Instant} (complete : Complete newline text)
    (occurrences : List Occurrence) (s reached : LogDirectory)
    (retains : ∀ occurrence ∈ occurrences, occurrence.event.Retains keepDays)
    (elapses : Elapses since (readingsOf occurrences) last) (recent : last ≤ since + keepDays * day)
    (ran : run listing s occurrences = some reached) (sound : s.Sound keepDays)
    (keeps : s.Keeps name text since) : reached.Keeps name text since := by
  have during (occurrence) (among : occurrence ∈ occurrences) :
      occurrence.event.Retains keepDays ∧ ∀ reading ∈ occurrence.event.readings,
        since ≤ reading.now ∧ reading.now ≤ since + keepDays * day := by
    refine ⟨retains occurrence among, fun reading own => ?_⟩
    have among : reading ∈ readingsOf occurrences := List.mem_flatMap.mpr ⟨occurrence, among, own⟩
    exact ⟨elapses.reached reading among, (elapses.ends reading among).trans recent⟩
  refine (invariant_run_of (motive := fun s => s.Sound keepDays ∧ s.Keeps name text since) _
    (fun state occurrence next allowed taken invariant => ?_) occurrences s reached during ran
    ⟨sound, keeps⟩).2
  obtain ⟨⟨answer, next⟩, happened, rfl⟩ := Option.map_eq_some_iff.mp taken
  obtain ⟨retains, times⟩ := allowed
  have moves := moves_of_answer happened
  exact ⟨invariant.1.moves retains moves, invariant.2.moves complete invariant.1 retains
    (fun reading own => (times reading own).1) (fun reading own => (times reading own).2) moves⟩

theorem Keeps.content {name : String} {text : Bytes} {since : Instant}
    (keeps : s.Keeps name text since) : ∃ rest, s.disk.contentAt name = some (text ++ rest) := by
  obtain ⟨inode, ⟨named, rest, content⟩, _⟩ := keeps
  refine ⟨rest, ?_⟩
  rw [Disk.contentAt, named, content]
  rfl

/-- A line that is acknowledged in a run is kept to its end. -/
theorem keeps_acknowledged (enough : day + (high - low) * 1000000000 ≤ keepDays * day)
    {disk : Disk} {begun ended : Instant} (dated : Dated low high begun disk)
    {before after : List Occurrence} {call : LineCall} {outcomes : List Outcome}
    {acknowledged reached : LogDirectory}
    (retains : ∀ occurrence ∈ before ++ after, occurrence.event.Retains keepDays)
    (within : ∀ reading ∈ readingsOf (before ++ ⟨.line call, outcomes⟩ :: after),
      reading.Within low high)
    (elapses : Elapses begun (readingsOf (before ++ ⟨.line call, outcomes⟩ :: after)) ended)
    (recent : ended ≤ call.now + keepDays * day)
    (ran : run listing { disk := disk } before = some s)
    (wrote : s.answerTo listing ⟨.line call, outcomes⟩ = some (.ok (), acknowledged))
    (continued : run listing acknowledged after = some reached) :
    ∃ earlier, Complete newline earlier ∧
      reached.Keeps (jsonlName call.date) (earlier ++ call.line) call.now := by
  rw [readingsOf, List.flatMap_append, List.flatMap_cons] at within elapses
  obtain ⟨middle, first, others⟩ := elapses_append.mp elapses
  obtain ⟨now, own, second⟩ := elapses_append.mp others
  rw [List.forall_mem_append, List.forall_mem_append] at within
  rw [List.forall_mem_append] at retains
  have fresh : ({ disk := disk } : LogDirectory).Timely low high begun :=
    ⟨dated, fun _ never => by simp at never⟩
  obtain ⟨sound, timely⟩ :=
    timely_run enough before _ s begun (sound_idle keepDays disk) fresh retains.1 within.1 first ran
  have moves := moves_of_answer wrote
  have unlimited : (DirectoryEvent.line call).Retains keepDays := trivial
  have after_sound : acknowledged.Sound keepDays := sound.moves unlimited moves
  have after_timely : acknowledged.Timely low high call.now :=
    timely.moves enough sound within.2.1 ⟨own.1, le_rfl⟩ moves
  obtain ⟨earlier, complete, keeps⟩ :=
    after_timely.acknowledged (within.2.1 _ List.mem_cons_self) sound after_sound moves
  have whole : Complete newline (earlier ++ call.line) := complete.append (Or.inr call.ended)
  have later : Elapses call.now ([] ++ readingsOf after) ended :=
    elapses_append.mpr ⟨now, own.2, second⟩
  exact ⟨earlier, complete, keeps_run whole after acknowledged reached retains.2 later recent
    continued after_sound keeps⟩

def twoDays : DirectorySettings where
  logSink := some (.directory "logs" 2)
  prettyLogDir := some "logs"
  resolved := ⟨true, rfl⟩
  dir := "logs"
  keepDays := 2
  daily := rfl

def morning : LocalTime := ⟨1793505900000000000, -4 * 3600⟩

def nextMorning : LocalTime := ⟨1793592300000000000, -4 * 3600⟩

def eve : LocalTime := ⟨1793415900000000000, -4 * 3600⟩

/-- A directory with an older daily file, which the second start finds too old. -/
def eveDirectory : Disk :=
  (Disk.create { Disk.blank [] with now := eve.now } (jsonlName eve.date)).setContent 0 [96, newline]

theorem dated_eveDirectory : Dated (-4 * 3600) (-4 * 3600) eve.now eveDirectory := by
  intro date inode named
  change ((∅ : ExtTreeMap String ℕ).insert (jsonlName eve.date) 0)[jsonlName date]? = some inode
    at named
  rw [ExtTreeMap.getElem?_insert] at named
  split at named
  · rename_i same
    obtain rfl := Option.some.inj named
    exact ⟨{ content := [96, newline], modified := eve.now }, eve, ExtTreeMap.getElem?_insert_self,
      ⟨le_rfl, le_rfl⟩, dailyPath_injective _ _ (Std.compare_eq_iff_eq.mp same), le_rfl, le_rfl⟩
  · simp at named

/-- The letter and the end of the line. -/
def letterAt (clock : LocalTime) (letter : UInt8) : LineCall where
  now := clock.now
  offset := clock.offset
  line := [letter, newline]
  ended := ⟨[letter], rfl⟩

/-- A line that fails with half of it written, which is not taken back. -/
def firstLife : List Occurrence :=
  [⟨.start twoDays morning morning, []⟩,
    ⟨.line (letterAt morning 97), [.done, .short 1, .failed (.os 28), .failed (.os 28)]⟩]

/-- The process dies in the next line, and another one starts on the next day. -/
def secondLife : List Occurrence :=
  [⟨.line (letterAt morning 99), [.done, .short 1, .failed (.os 28), .failed (.os 28)]⟩,
    ⟨.stop, []⟩, ⟨.dryRun twoDays nextMorning nextMorning, []⟩,
    ⟨.start twoDays nextMorning nextMorning, []⟩, ⟨.line (letterAt nextMorning 100), []⟩]

end LogDirectory

end OtelLogger
