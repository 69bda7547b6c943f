import OtelLogger.ProxySettings
import OtelLogger.Retention

/-!
Opening the outputs. A start recovers the files that it opens and cleans up the directory; a dry
run opens the same files without recovering them, and reads the directory without cleaning it up.
Either may fail at any operation, and what it did before stays done.
-/

namespace OtelLogger

open Std (ExtTreeMap)

/-! ### Settings -/

def resolvePrettyLogDir (enabled : Bool) (logSink : Option LogSink) :
    Except String (Option String) :=
  if !enabled then .ok none
  else
    match logSink with
    | some (.directory dir _) => .ok (some dir)
    | some (.file _) => .error
        ("`--pretty-log` writes daily-rotated files into `--log-dir` and cannot be combined " ++
          "with `--log-file`; use `--log-dir` (or `log-dir` in the config file) instead")
    | none => .error
        ("`--pretty-log` requires `--log-dir` (or `log-dir` in the config file): " ++
          "the human-readable files are rotated and pruned together with the daily JSONL")

/-- The human-readable files are in the directory of the daily JSONL, if they are anywhere. -/
structure OutputSettings where
  logSink : Option LogSink
  prettyLogDir : Option String
  resolved : ∃ enabled, resolvePrettyLogDir enabled logSink = .ok prettyLogDir

/-- A reading of the local clock. -/
structure LocalTime where
  now : Instant
  offset : ℤ

def LocalTime.date (clock : LocalTime) : NaiveDate :=
  localDate clock.now clock.offset

namespace Disk

def atTime (disk : Disk) (now : Instant) : Disk :=
  { disk with now := now }

def createParent (disk : Disk) (parent : Road) : Except IoError Unit × Disk :=
  if parent ≠ [] then disk.createPrivateDir parent else (.ok (), disk)

end Disk

/-! ### A dry run -/

/-- Opens the file, and closes it without looking at its tail. -/
def AppendFile.probe (disk : Disk) (name : String) : Except IoError Unit × Disk :=
  match AppendFile.openFile disk name with
  | .error (error, disk) => (.error error, disk)
  | .ok file => (.ok (), file.disk)

def probeLogFile (disk : Disk) (parent : Road) (name : String) : Except IoError Unit × Disk :=
  match disk.createParent parent with
  | (.error error, disk) => (.error error, disk)
  | (.ok _, disk) => AppendFile.probe disk name

def readEntries : List String → Disk → Except IoError Unit × Disk
  | [], disk => (.ok (), disk)
  | _ :: rest, disk =>
      match disk.attempt () with
      | (.error error, disk) => (.error error, disk)
      | (.ok _, disk) => readEntries rest disk

section Operations

variable (listing : Disk → List String) (settings : OutputSettings) (clock later : LocalTime)

def probeDirectory (disk : Disk) (dir : String) : Except IoError Unit × Disk :=
  match disk.createPrivateDir (dirRoad dir) with
  | (.error error, disk) => (.error error, disk)
  | (.ok _, disk) =>
      match disk.attempt (listing disk) with
      | (.error error, disk) => (.error error, disk)
      | (.ok entries, disk) =>
          match readEntries entries disk with
          | (.error error, disk) => (.error error, disk)
          | (.ok _, disk) =>
              probeLogFile disk (dirRoad dir) (dailyPath rotationPrefix none clock.date)

def probeSink (disk : Disk) : Except IoError Unit × Disk :=
  match settings.logSink with
  | none => (.ok (), disk)
  | some (.file path) => probeLogFile disk (parentRoad path) path
  | some (.directory dir _) => probeDirectory listing clock disk dir

def probeSettings (disk : Disk) : Except IoError Unit × Disk :=
  match probeSink listing settings clock (disk.atTime clock.now) with
  | (.error error, disk) => (.error error, disk)
  | (.ok _, disk) =>
      match settings.prettyLogDir with
      | none => (.ok (), disk)
      | some dir =>
          probeLogFile (disk.atTime later.now) (dirRoad dir)
            (dailyPath prettyLogPrefix (some prettyLogSuffix) later.date)

/-! ### A start -/

inductive JsonlWriter where
  | file (writer : AppendFile)
  | roller (writer : RotatedWriter)

def openLogFile (disk : Disk) (path : String) : Except (IoError × Disk) AppendFile :=
  match disk.createParent (parentRoad path) with
  | (.error error, disk) => .error (error, disk)
  | (.ok _, disk) => AppendFile.openPath disk path

def openPrettyLog (disk : Disk) (dir : String) : Except (IoError × Disk) DailyWriter :=
  match (disk.atTime clock.now).createPrivateDir (dirRoad dir) with
  | (.error error, disk) => .error (error, disk)
  | (.ok _, disk) =>
      DailyWriter.atDate disk prettyLogPrefix (some prettyLogSuffix) clock.date

/-- What is opened, and the disk that is left. -/
structure Outputs where
  disk : Disk
  file : Option JsonlWriter
  prettyLog : Option DailyWriter

def openSink (disk : Disk) : Except (IoError × Disk) Outputs :=
  match settings.logSink with
  | none => .ok ⟨disk, none, none⟩
  | some (.file path) =>
      match openLogFile (disk.atTime clock.now) path with
      | .error failure => .error failure
      | .ok writer => .ok ⟨writer.writer.file.disk, some (.file writer), none⟩
  | some (.directory dir keepDays) =>
      match RotatedWriter.openRotated listing disk dir keepDays clock.now clock.offset with
      | .error failure => .error failure
      | .ok writer => .ok ⟨writer.roller.disk, some (.roller writer), none⟩

/-- The JSONL comes first: its cleanup is over when the file of the human-readable output is
opened. -/
def fromSettings (disk : Disk) : Except (IoError × Disk) Outputs :=
  match openSink listing settings clock disk with
  | .error failure => .error failure
  | .ok outputs =>
      match settings.prettyLogDir with
      | none => .ok outputs
      | some dir =>
          match openPrettyLog later outputs.disk dir with
          | .error failure => .error failure
          | .ok writer => .ok { outputs with disk := writer.disk, prettyLog := some writer }

/-- The files that a start opens and a dry run tries, and when. -/
def plannedFiles : List (String × Instant) :=
  (match settings.logSink with
    | none => []
    | some (.file path) => [(path, clock.now)]
    | some (.directory _ _) => [(dailyPath rotationPrefix none clock.date, clock.now)]) ++
  (match settings.prettyLogDir with
    | none => []
    | some _ => [(dailyPath prettyLogPrefix (some prettyLogSuffix) later.date, later.now)])

def Planned (name : String) : Prop :=
  name ∈ (plannedFiles settings clock later).map Prod.fst

/-- The directories that these files are in. -/
def plannedRoads : List Road :=
  (match settings.logSink with
    | none => []
    | some (.file path) => [parentRoad path]
    | some (.directory dir _) => [dirRoad dir]) ++
  (match settings.prettyLogDir with
    | none => []
    | some dir => [dirRoad dir])

end Operations

/-! ### What a dry run leaves -/

/-- All names, files and directories are as they were; what is new is planned, empty, and of its
time. -/
structure Disk.Untouched (planned : List (String × Instant)) (roads : List Road)
    (before after : Disk) : Prop where
  names : ∀ (name : String) (inode : ℕ), before.names[name]? = some inode →
    after.names[name]? = some inode
  files : ∀ inode < before.nextInode, after.files[inode]? = before.files[inode]?
  added : ∀ (name : String) (inode : ℕ), before.names[name]? = none →
    after.names[name]? = some inode → before.nextInode ≤ inode ∧
      ∃ written, (name, written) ∈ planned ∧
        after.files[inode]? = some { content := [], modified := written }
  grows : before.nextInode ≤ after.nextInode
  directories : ∀ road ∈ before.directories, road ∈ after.directories
  made : ∀ road ∈ after.directories, road ∈ before.directories ∨ ∃ whole ∈ roads, road <:+ whole

namespace Disk.Untouched

variable {planned : List (String × Instant)} {roads : List Road} {before after last : Disk}

theorem of_same (names : after.names = before.names) (files : after.files = before.files)
    (nextInode : after.nextInode = before.nextInode)
    (directories : after.directories = before.directories) :
    Untouched planned roads before after := by
  refine ⟨fun name inode found => ?_, fun inode _ => by rw [files], ?_, nextInode.ge,
    fun road there => directories ▸ there, fun road there => Or.inl (directories ▸ there)⟩
  · rw [names, found]
  · intro name inode absent found
    rw [names, absent] at found
    simp at found

theorem trans (left : Untouched planned roads before after)
    (right : Untouched planned roads after last) : Untouched planned roads before last := by
  refine ⟨fun name inode found => right.names name inode (left.names name inode found),
    fun inode old => ?_, ?_, left.grows.trans right.grows,
    fun road there => right.directories road (left.directories road there),
    fun road there => (right.made road there).elim (left.made road) Or.inr⟩
  · rw [right.files inode (old.trans_le left.grows), left.files inode old]
  · intro name inode absent found
    cases middle : after.names[name]? with
    | none =>
        obtain ⟨new, empty⟩ := right.added name inode middle found
        exact ⟨left.grows.trans new, empty⟩
    | some number =>
        obtain rfl : number = inode := by
          rw [right.names name number middle] at found
          exact Option.some.inj found
        rw [right.files number (after.numbered name number middle)]
        exact left.added name number absent middle

theorem mono {wider : List (String × Instant)} {more : List Road}
    (untouched : Untouched planned roads before after) (within : planned ⊆ wider)
    (inside : roads ⊆ more) : Untouched wider more before after where
  names := untouched.names
  files := untouched.files
  added name inode absent found := by
    obtain ⟨new, written, listed, empty⟩ := untouched.added name inode absent found
    exact ⟨new, written, within listed, empty⟩
  grows := untouched.grows
  directories := untouched.directories
  made road there := (untouched.made road there).imp_right fun ⟨whole, member, part⟩ =>
    ⟨whole, inside member, part⟩

theorem attempt {α : Type*} (disk : Disk) (value : α) :
    Untouched planned roads disk (disk.attempt value).2 := by
  unfold Disk.attempt
  cases disk.outcome <;> exact of_same rfl rfl rfl rfl

theorem builds {road : Road} (planned : List (String × Instant))
    (builds : Builds road before after) : Untouched planned [road] before after := by
  obtain ⟨_, made, within, rfl⟩ := builds
  refine ⟨fun _ _ => id, fun _ _ => rfl, fun _ _ absent found => ?_, le_rfl,
    fun _ => List.mem_append_right made, fun dir there => ?_⟩
  · exact absurd (absent.symm.trans found) (by simp)
  · rcases List.mem_append.mp there with new | old
    · exact Or.inr ⟨road, List.mem_singleton_self road, within dir new⟩
    · exact Or.inl old

theorem create {disk : Disk} {name : String} (absent : disk.names[name]? = none) :
    Untouched [(name, disk.now)] roads disk (disk.create name) := by
  have elsewhere := Disk.Elsewhere.create absent
  refine ⟨fun other inode found => ?_, fun inode old => elsewhere.files inode old ?_, ?_,
    elsewhere.grows, fun _ => id, fun _ => Or.inl⟩
  · rwa [elsewhere.names]
    rintro rfl
    rw [absent] at found
    simp at found
  · rw [absent]
    simp
  · intro other inode none found
    by_cases same : other = name
    · subst other
      have new := elsewhere.fresh inode absent found
      have bound := (disk.create name).numbered name inode found
      obtain rfl : inode = disk.nextInode := by
        change inode < disk.nextInode + 1 at bound
        omega
      refine ⟨le_rfl, disk.now, List.mem_singleton_self _, ?_⟩
      simp [Disk.create]
    · rw [elsewhere.names other same, none] at found
      simp at found

end Disk.Untouched

open Disk (Untouched)

theorem AppendFile.probe_untouched (roads : List Road) (disk : Disk) (name : String) :
    Untouched [(name, disk.now)] roads disk (AppendFile.probe disk name).2 := by
  have waited : Untouched [(name, disk.now)] roads disk disk.advance :=
    Untouched.of_same rfl rfl rfl rfl
  have opened : (AppendFile.probe disk name).2 = disk.advance ∨
      (disk.names[name]? = none ∧ (AppendFile.probe disk name).2 = disk.advance.create name) := by
    unfold AppendFile.probe AppendFile.openFile
    cases disk.outcome with
    | failed error => exact Or.inl rfl
    | done | short count => cases disk.names[name]? <;> simp
  rcases opened with same | ⟨absent, created⟩
  · rw [same]
    exact waited
  · rw [created]
    exact waited.trans (@Untouched.create roads disk.advance name absent)

theorem attempt_now {α : Type*} (disk : Disk) (value : α) :
    (disk.attempt value).2.now = disk.now := by
  unfold Disk.attempt
  cases disk.outcome <;> rfl

theorem createParent_builds (disk : Disk) (parent : Road) :
    Disk.Builds parent disk (disk.createParent parent).2 := by
  unfold Disk.createParent
  split
  · exact disk.createPrivateDir_builds parent
  · exact ⟨disk.outcomes, [], fun _ never => by simp at never, rfl⟩

theorem probeLogFile_untouched (disk : Disk) (parent : Road) (name : String) :
    Untouched [(name, disk.now)] [parent] disk (probeLogFile disk parent name).2 := by
  have builds := createParent_builds disk parent
  unfold probeLogFile
  generalize disk.createParent parent = making at builds ⊢
  rcases making with ⟨error | done, next⟩
  · exact Untouched.builds _ builds
  · exact (Untouched.builds _ builds).trans
      (builds.now ▸ AppendFile.probe_untouched [parent] next name)

theorem readEntries_untouched (planned : List (String × Instant)) (roads : List Road)
    (entries : List String) (disk : Disk) :
    Untouched planned roads disk (readEntries entries disk).2 ∧
      (readEntries entries disk).2.now = disk.now := by
  induction entries generalizing disk with
  | nil => exact ⟨Untouched.of_same rfl rfl rfl rfl, rfl⟩
  | cons entry rest ih =>
      have read : Untouched planned roads disk (disk.attempt ()).2 := Untouched.attempt disk ()
      have now := attempt_now disk ()
      unfold readEntries
      generalize disk.attempt () = reading at read now ⊢
      rcases reading with ⟨error | done, next⟩
      · exact ⟨read, now⟩
      · exact ⟨read.trans (ih next).1, (ih next).2.trans now⟩

theorem probeDirectory_untouched (listing : Disk → List String) (clock : LocalTime) (disk : Disk)
    (dir : String) (started : disk.now = clock.now) :
    Untouched [(dailyPath rotationPrefix none clock.date, clock.now)] [dirRoad dir] disk
      (probeDirectory listing clock disk dir).2 := by
  generalize dailies : [(dailyPath rotationPrefix none clock.date, clock.now)] = planned
  have builds := disk.createPrivateDir_builds (dirRoad dir)
  have made := Untouched.builds planned builds
  have now := builds.now.trans started
  unfold probeDirectory
  generalize disk.createPrivateDir (dirRoad dir) = making at made now ⊢
  rcases making with ⟨error | done, disk⟩
  · exact made
  · refine made.trans ?_
    have listed : Untouched planned [dirRoad dir] disk (disk.attempt (listing disk)).2 :=
      Untouched.attempt disk _
    have now := (attempt_now disk (listing disk)).trans now
    dsimp only
    generalize disk.attempt (listing disk) = reading at listed now ⊢
    rcases reading with ⟨error | entries, disk⟩
    · exact listed
    · refine listed.trans ?_
      obtain ⟨read, same⟩ := readEntries_untouched planned [dirRoad dir] entries disk
      have now := same.trans now
      dsimp only
      generalize readEntries entries disk = looking at read now ⊢
      rcases looking with ⟨error | done, disk⟩
      · exact read
      · rw [← dailies, ← now]
        refine Untouched.trans ?_ (probeLogFile_untouched disk _ _)
        rw [now, dailies]
        exact read

theorem probeSettings_untouched (listing : Disk → List String) (settings : OutputSettings)
    (clock later : LocalTime) (disk : Disk) :
    Untouched (plannedFiles settings clock later) (plannedRoads settings) disk
      (probeSettings listing settings clock later disk).2 := by
  have begun : Untouched (plannedFiles settings clock later) (plannedRoads settings) disk
      (disk.atTime clock.now) := Untouched.of_same rfl rfl rfl rfl
  have sink (disk : Disk) (started : disk.now = clock.now) :
      Untouched (plannedFiles settings clock later) (plannedRoads settings) disk
        (probeSink listing settings clock disk).2 := by
    unfold probeSink plannedFiles plannedRoads
    cases settings.logSink with
    | none => exact Untouched.of_same rfl rfl rfl rfl
    | some sink =>
        cases sink with
        | file path =>
            exact (probeLogFile_untouched disk _ path).mono (by simp [started]) (by simp)
        | directory dir keepDays =>
            exact (probeDirectory_untouched listing clock disk dir started).mono (by simp)
              (by simp)
  have first := begun.trans (sink (disk.atTime clock.now) rfl)
  unfold probeSettings
  generalize probeSink listing settings clock (disk.atTime clock.now) = probed at first ⊢
  rcases probed with ⟨error | done, disk⟩
  · exact first
  · dsimp only
    cases dir : settings.prettyLogDir with
    | none => exact first
    | some dir' =>
        have started : Untouched (plannedFiles settings clock later) (plannedRoads settings) disk
            (disk.atTime later.now) := Untouched.of_same rfl rfl rfl rfl
        refine first.trans (started.trans ((probeLogFile_untouched _ _ _).mono ?_ ?_))
        · rw [plannedFiles, dir]
          exact List.subset_append_right _ _
        · rw [plannedRoads, dir]
          exact List.subset_append_right _ _

/-- Whatever fails in it, a dry run changes no file, no name and no directory; it only creates
files that a start would create, which it leaves empty, and directories on the way to them. -/
theorem dry_run_untouched (listing : Disk → List String) (settings : OutputSettings)
    (clock later : LocalTime) (disk : Disk) :
    (∀ name : String,
      (∃ inode, disk.names[name]? = some inode ∧
        (probeSettings listing settings clock later disk).2.names[name]? = some inode ∧
        (probeSettings listing settings clock later disk).2.files[inode]? = disk.files[inode]?) ∨
      (disk.contentAt name = none ∧
        ((probeSettings listing settings clock later disk).2.contentAt name = none ∨
          (Planned settings clock later name ∧
            (probeSettings listing settings clock later disk).2.contentAt name = some [])))) ∧
    (∀ road ∈ disk.directories,
      road ∈ (probeSettings listing settings clock later disk).2.directories) ∧
    ∀ road ∈ (probeSettings listing settings clock later disk).2.directories,
      road ∈ disk.directories ∨ ∃ whole ∈ plannedRoads settings, road <:+ whole := by
  obtain ⟨names, files, added, _, kept, made⟩ :=
    probeSettings_untouched listing settings clock later disk
  generalize (probeSettings listing settings clock later disk).2 = left at *
  refine ⟨fun name => ?_, kept, made⟩
  cases was : disk.names[name]? with
  | some inode =>
      exact Or.inl ⟨inode, rfl, names name inode was, files inode (disk.numbered name inode was)⟩
  | none =>
      refine Or.inr ⟨by rw [Disk.contentAt, was]; rfl, ?_⟩
      cases found : left.names[name]? with
      | none => exact Or.inl (by rw [Disk.contentAt, found]; rfl)
      | some inode =>
          obtain ⟨_, written, planned, file⟩ := added name inode was found
          refine Or.inr ⟨List.mem_map_of_mem planned, ?_⟩
          rw [Disk.contentAt, found, Option.map_some, Disk.fileData, file]
          rfl

/-! ### What a start leaves -/

/-- No content changes but that of planned files, of which only complete lines are left. -/
def Disk.Recovers (planned : String → Prop) (before after : Disk) : Prop :=
  ∀ name, after.contentAt name = before.contentAt name ∨
    (planned name ∧ after.contentAt name = some (AppendFile.completeLines before name))

namespace Disk.Recovers

open Delimited

variable {planned wider : String → Prop} {before after last : Disk}

theorem of_same (names : after.names = before.names) (files : after.files = before.files) :
    Recovers planned before after := by
  intro name
  refine Or.inl ?_
  unfold Disk.contentAt Disk.fileData
  rw [names, files]
  cases before.names[name]? with
  | none => rfl
  | some inode => cases found : before.files[inode]? <;> simp [found]

theorem trans (left : Recovers planned before after) (right : Recovers planned after last) :
    Recovers planned before last := by
  intro name
  rcases left name with same | ⟨listed, cut⟩
  · rcases right name with still | ⟨listed, cut⟩
    · exact Or.inl (still.trans same)
    · refine Or.inr ⟨listed, ?_⟩
      rw [cut, AppendFile.completeLines, AppendFile.completeLines, same]
  · refine Or.inr ⟨listed, ?_⟩
    rcases right name with still | ⟨_, again⟩
    · exact still.trans cut
    · rw [again, AppendFile.completeLines, cut]
      exact congrArg some (completePart_complete _).completePart_eq

theorem mono (recovers : Recovers planned before after)
    (within : ∀ name, planned name → wider name) : Recovers wider before after :=
  fun name => (recovers name).imp_right fun cut => ⟨within name cut.1, cut.2⟩

theorem builds {road : Road} (builds : Builds road before after) :
    Recovers planned before after := by
  obtain ⟨_, _, _, rfl⟩ := builds
  exact of_same rfl rfl

theorem opened {disk : Disk} {name : String} {file : AppendFile}
    (opens : AppendFile.Opened disk name file) : Recovers (· = name) disk file.writer.file.disk := by
  intro other
  by_cases same : other = name
  · subst other
    refine Or.inr ⟨rfl, ?_⟩
    rw [AppendFile.contentAt_of_named opens.named, opens.lines]
  · exact Or.inl (opens.elsewhere.contentAt same)

theorem failed {disk left : Disk} {name : String} (fails : AppendFile.OpenFailed disk name left) :
    Recovers (· = name) disk left := by
  intro other
  by_cases same : other = name
  · subst other
    exact fails.content.imp_right fun cut => ⟨rfl, cut⟩
  · exact Or.inl (fails.elsewhere.contentAt same)

end Disk.Recovers

open Disk (Recovers)

/-- The disk that an operation leaves, and what it opened. -/
def leftBy {α : Type*} (disk : α → Disk) : Except (IoError × Disk) α → Disk
  | .error failure => failure.2
  | .ok opened => disk opened

theorem openPath_recovers (disk : Disk) (name : String) :
    Recovers (· = name) disk
      (leftBy (fun file => file.writer.file.disk) (AppendFile.openPath disk name)) := by
  rcases AppendFile.openPath_spec disk name with ⟨file, result, opens⟩ | ⟨error, left, result, fails⟩
  · rw [result]
    exact Recovers.opened opens
  · rw [result]
    exact Recovers.failed fails

theorem atDate_recovers (disk : Disk) (namePrefix : String) (nameSuffix : Option String)
    (date : NaiveDate) : Recovers (· = dailyPath namePrefix nameSuffix date) disk
      (leftBy DailyWriter.disk (DailyWriter.atDate disk namePrefix nameSuffix date)) := by
  have opens := openPath_recovers disk (dailyPath namePrefix nameSuffix date)
  unfold DailyWriter.atDate
  generalize AppendFile.openPath disk (dailyPath namePrefix nameSuffix date) = opening at opens ⊢
  rcases opening with failure | file
  · exact opens
  · exact opens

theorem openLogFile_recovers (disk : Disk) (path : String) :
    Recovers (· = path) disk
      (leftBy (fun file => file.writer.file.disk) (openLogFile disk path)) := by
  have made : Recovers (· = path) disk (disk.createParent (parentRoad path)).2 :=
    Recovers.builds (createParent_builds disk (parentRoad path))
  unfold openLogFile
  generalize disk.createParent (parentRoad path) = making at made ⊢
  rcases making with ⟨error | done, next⟩
  · exact made
  · exact made.trans (openPath_recovers next path)

theorem openPrettyLog_recovers (clock : LocalTime) (disk : Disk) (dir : String) :
    Recovers (· = dailyPath prettyLogPrefix (some prettyLogSuffix) clock.date) disk
      (leftBy DailyWriter.disk (openPrettyLog clock disk dir)) := by
  have begun : Recovers (· = dailyPath prettyLogPrefix (some prettyLogSuffix) clock.date) disk
      (disk.atTime clock.now) := Recovers.of_same rfl rfl
  have made := begun.trans
    (Recovers.builds ((disk.atTime clock.now).createPrivateDir_builds (dirRoad dir)))
  unfold openPrettyLog
  generalize (disk.atTime clock.now).createPrivateDir (dirRoad dir) = making at made ⊢
  rcases making with ⟨error | done, next⟩
  · exact made
  · exact made.trans (atDate_recovers next prettyLogPrefix (some prettyLogSuffix) clock.date)

/-- A daily file that was not written for the days that are kept. -/
def Outdated (settings : OutputSettings) (clock : LocalTime) (disk : Disk) (name : String) :
    Prop :=
  ∃ dir keepDays, settings.logSink = some (.directory dir keepDays) ∧
    dailyLogKind name ≠ none ∧ ∃ (inode : ℕ) (data : FileData), disk.names[name]? = some inode ∧
      disk.files[inode]? = some data ∧ data.modified < cutoffAt clock.now (max keepDays 1)

/-- What a start leaves of a file. -/
inductive StartLeaves (settings : OutputSettings) (clock later : LocalTime) (before after : Disk)
    (name : String) : Prop where
  | same (kept : after.contentAt name = before.contentAt name)
  | recovered (planned : Planned settings clock later name)
      (lines : after.contentAt name = some (AppendFile.completeLines before name))
  | removed (outdated : Outdated settings clock before name)
      (gone : after.contentAt name = none ∨
        (Planned settings clock later name ∧ after.contentAt name = some []))

theorem StartLeaves.of_recovers {settings : OutputSettings} {clock later : LocalTime}
    {before after : Disk} (recovers : Recovers (Planned settings clock later) before after)
    (name : String) : StartLeaves settings clock later before after name := by
  rcases recovers name with kept | ⟨planned, lines⟩
  · exact .same kept
  · exact .recovered planned lines

theorem StartLeaves.recovers {settings : OutputSettings} {clock later : LocalTime}
    {before middle after : Disk} {name : String}
    (leaves : StartLeaves settings clock later before middle name)
    (recovers : Recovers (Planned settings clock later) middle after) :
    StartLeaves settings clock later before after name := by
  cases leaves with
  | same kept =>
      rcases recovers name with still | ⟨planned, lines⟩
      · exact .same (still.trans kept)
      · refine .recovered planned ?_
        rw [lines, AppendFile.completeLines, AppendFile.completeLines, kept]
  | recovered planned lines =>
      refine .recovered planned ?_
      rcases recovers name with still | ⟨_, again⟩
      · exact still.trans lines
      · rw [again, AppendFile.completeLines, lines]
        exact congrArg some (Delimited.completePart_complete _).completePart_eq
  | removed outdated gone =>
      refine .removed outdated ?_
      rcases recovers name with still | ⟨planned, lines⟩
      · rw [still]
        exact gone
      · refine Or.inr ⟨planned, lines.trans (congrArg some ?_)⟩
        rcases gone with gone | ⟨_, gone⟩ <;> rw [AppendFile.completeLines, gone] <;> rfl

theorem cleanup_leaves {settings : OutputSettings} {clock later : LocalTime} {disk after : Disk}
    {dir : String} {keepDays : ℕ} (sink : settings.logSink = some (.directory dir keepDays))
    (cleans : Cleans (cutoffAt clock.now (max keepDays 1)) (disk.atTime clock.now) after)
    (name : String) : StartLeaves settings clock later disk after name := by
  have before : (disk.atTime clock.now).contentAt name = disk.contentAt name := by
    have kept : Recovers (fun _ => False) disk (disk.atTime clock.now) := Recovers.of_same rfl rfl
    exact (kept name).resolve_right fun cut => cut.1
  cases found : disk.names[name]? with
  | none =>
      have still : after.names[name]? = none := by
        cases later : after.names[name]? with
        | none => rfl
        | some inode =>
            have was := cleans.removes name inode later
            exact absurd (found.symm.trans was) (by simp)
      refine .same ?_
      rw [Disk.contentAt, Disk.contentAt, still, found]
      rfl
  | some inode =>
      cases later : after.names[name]? with
      | some number =>
          obtain rfl : number = inode :=
            Option.some.inj ((cleans.removes name number later).symm.trans found)
          refine .same (Eq.trans ?_ before)
          rw [Disk.contentAt, Disk.contentAt, later]
          change _ = ((disk.names[name]?).map _)
          rw [found, Option.map_some, Option.map_some, cleans.fileData]
      | none =>
          have refused : ¬ (dailyLogKind name = none ∨ cutoffAt clock.now (max keepDays 1) ≤
              ((disk.atTime clock.now).fileData inode).modified) := by
            intro spared
            have still := cleans.spares name inode found spared
            exact absurd (later.symm.trans still) (by simp)
          obtain ⟨daily, old⟩ := not_or.mp refused
          have positive : 0 ≤ ((max keepDays 1 : ℕ) : ℤ) * day :=
            mul_nonneg (Int.natCast_nonneg _) (by decide)
          have past : cutoffAt clock.now (max keepDays 1) ≤ clock.now := sub_le_self _ positive
          cases data : disk.files[inode]? with
          | none =>
              have fresh : ((disk.atTime clock.now).fileData inode).modified = clock.now := by
                simp [Disk.fileData, Disk.atTime, data]
              rw [fresh] at old
              exact absurd past old
          | some data' =>
              have same : (disk.atTime clock.now).fileData inode = data' := by
                simp [Disk.fileData, Disk.atTime, data]
              rw [same] at old
              refine .removed ⟨dir, keepDays, sink, daily, inode, data', found, data,
                not_le.mp old⟩ (Or.inl ?_)
              rw [Disk.contentAt, later]
              rfl

theorem openRotated_eq (listing : Disk → List String) (disk : Disk) (dir : String) (keepDays : ℕ)
    (clock : LocalTime) :
    RotatedWriter.openRotated listing disk dir keepDays clock.now clock.offset =
      match (disk.atTime clock.now).createPrivateDir (dirRoad dir) with
      | (.error error, disk) => .error (error, disk)
      | (.ok _, disk) =>
          match cleanupOldRotatedLogs listing disk (max keepDays 1) with
          | (.error error, disk) => .error (error, disk)
          | (.ok _, disk) =>
              match DailyWriter.atDate disk rotationPrefix none clock.date with
              | .error failure => .error failure
              | .ok appender => .ok
                  { roller := appender.withSyncOnRotate
                    keepDays := max keepDays 1
                    lastCleanupDay := julianDay clock.now } :=
  rfl

theorem openRotated_leaves (listing : Disk → List String) {settings : OutputSettings}
    {clock later : LocalTime} {dir : String} {keepDays : ℕ}
    (sink : settings.logSink = some (.directory dir keepDays)) (disk : Disk) (name : String) :
    StartLeaves settings clock later disk
      (leftBy (fun writer => writer.roller.disk)
        (RotatedWriter.openRotated listing disk dir keepDays clock.now clock.offset)) name := by
  have planned : Planned settings clock later (dailyPath rotationPrefix none clock.date) := by
    simp [Planned, plannedFiles, sink]
  have made : Cleans (cutoffAt clock.now (max keepDays 1)) (disk.atTime clock.now)
      ((disk.atTime clock.now).createPrivateDir (dirRoad dir)).2 :=
    Cleans.builds _ ((disk.atTime clock.now).createPrivateDir_builds (dirRoad dir))
  rw [openRotated_eq]
  generalize (disk.atTime clock.now).createPrivateDir (dirRoad dir) = making at made ⊢
  rcases making with ⟨error | done, next⟩
  · exact cleanup_leaves sink made name
  · have cleaned := cleanupOldRotatedLogs_cleans listing next (max keepDays 1)
    have now : next.now = clock.now := made.now
    rw [now] at cleaned
    have both := made.trans cleaned
    dsimp only
    generalize cleanupOldRotatedLogs listing next (max keepDays 1) = cleaning at both ⊢
    rcases cleaning with ⟨error | done, ready⟩
    · exact cleanup_leaves sink both name
    · have opens := atDate_recovers ready rotationPrefix none clock.date
      have left : StartLeaves settings clock later disk ready name :=
        cleanup_leaves sink both name
      have leaves := left.recovers (opens.mono fun other same => same ▸ planned)
      dsimp only at leaves ⊢
      generalize DailyWriter.atDate ready rotationPrefix none clock.date = opening at leaves ⊢
      rcases opening with failure | appender
      · exact leaves
      · exact leaves

/-- Whether a start succeeds or fails at any point, it leaves every file as it was, but that the
files it opens lose what follows their last complete line, and outdated daily files are removed. -/
theorem start_leaves (listing : Disk → List String) (settings : OutputSettings)
    (clock later : LocalTime) (disk : Disk) (name : String) :
    StartLeaves settings clock later disk
      (leftBy Outputs.disk (fromSettings listing settings clock later disk)) name := by
  have sink : StartLeaves settings clock later disk
      (leftBy Outputs.disk (openSink listing settings clock disk)) name := by
    unfold openSink
    cases chosen : settings.logSink with
    | none => exact .same rfl
    | some sink =>
        cases sink with
        | file path =>
            have begun : Recovers (Planned settings clock later) disk
                (disk.atTime clock.now) := Recovers.of_same rfl rfl
            have within : Planned settings clock later path := by
              simp [Planned, plannedFiles, chosen]
            have opens := begun.trans
              ((openLogFile_recovers (disk.atTime clock.now) path).mono
                fun other same => same ▸ within)
            have leaves := StartLeaves.of_recovers opens name
            dsimp only
            generalize openLogFile (disk.atTime clock.now) path = opening at leaves ⊢
            rcases opening with failure | writer
            · exact leaves
            · exact leaves
        | directory dir keepDays =>
            have leaves : StartLeaves settings clock later disk _ name :=
              openRotated_leaves listing chosen disk name
            dsimp only
            generalize RotatedWriter.openRotated listing disk dir keepDays clock.now clock.offset =
              opening at leaves ⊢
            rcases opening with failure | writer
            · exact leaves
            · exact leaves
  unfold fromSettings
  generalize openSink listing settings clock disk = opening at sink ⊢
  rcases opening with failure | outputs
  · exact sink
  · dsimp only
    cases dir : settings.prettyLogDir with
    | none => exact sink
    | some dir' =>
        have within : Planned settings clock later
            (dailyPath prettyLogPrefix (some prettyLogSuffix) later.date) := by
          simp [Planned, plannedFiles, dir]
        have leaves := sink.recovers ((openPrettyLog_recovers later outputs.disk dir').mono
          fun other same => same ▸ within)
        dsimp only at leaves ⊢
        generalize openPrettyLog later outputs.disk dir' = pretty at leaves ⊢
        rcases pretty with failure | writer
        · exact leaves
        · exact leaves

end OtelLogger
