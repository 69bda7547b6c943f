import OtelLogger.DailyWriter

/-!
Retention in the log directory: files that were not written for `keepDays` days are unlinked
when the UTC day changes, while the writer changes its file when the local date does. A line is
found under the name of its date as long as the two never disagree about the current file.
-/

namespace OtelLogger

open Std (ExtTreeMap)
open TransactionalAppend (Consistent)

/-! ### Daily file names -/

inductive DailyLogKind where
  | jsonl
  | pretty
  deriving DecidableEq

def rotationPrefix : String := "otel-logger"
def prettyLogPrefix : String := "otel-logger.pretty"
def prettyLogSuffix : String := "log"

def isAsciiDigit (byte : UInt8) : Bool :=
  48 ≤ byte && byte ≤ 57

def dash : UInt8 := 45

/-- `parse` of a slice of ASCII digits. -/
def parseDigits (digits : Bytes) : ℕ :=
  digitsValue (digits.map fun byte => Char.ofNat byte.toNat)

def slice (bytes : Bytes) (start stop : ℕ) : Bytes :=
  (bytes.take stop).drop start

/-- A slice of a byte array, which panics out of range. -/
def byteSlice (bytes : Bytes) (start stop : ℕ) : Option Bytes :=
  if start ≤ stop ∧ stop ≤ bytes.length then some (slice bytes start stop) else none

def isCharBoundary (text : Bytes) (index : ℕ) : Bool :=
  index = 0 || index = text.length || text[index]?.any fun byte => byte < 128 || 192 ≤ byte

/-- A slice of a text, which panics out of range and inside a character. -/
def strSlice (text : Bytes) (start stop : ℕ) : Option Bytes :=
  if isCharBoundary text start ∧ isCharBoundary text stop then byteSlice text start stop else none

/-- What is checked of the bytes before the text is cut. -/
def hasDateShape (bytes : Bytes) : Option Bool := do
  if bytes.length ≠ 10 then return false
  if !(← byteSlice bytes 0 4).all isAsciiDigit then return false
  if (← bytes[4]?) ≠ dash then return false
  if !(← byteSlice bytes 5 7).all isAsciiDigit then return false
  if (← bytes[7]?) ≠ dash then return false
  return (← byteSlice bytes 8 10).all isAsciiDigit

/-- `none` is a panic of one of the slices. -/
def isCalendarDate (date : Bytes) : Option Bool := do
  if !(← hasDateShape date) then return false
  let year := parseDigits (← strSlice date 0 4)
  let month := parseDigits (← strSlice date 5 7)
  let day := parseDigits (← strSlice date 8 10)
  return 1 ≤ month && month ≤ 12 && 1 ≤ day && day ≤ daysInMonth year month

theorem byteSlice_eq {bytes : Bytes} (ten : bytes.length = 10) {start stop : ℕ}
    (ordered : start ≤ stop) (inside : stop ≤ 10) :
    byteSlice bytes start stop = some (slice bytes start stop) :=
  if_pos ⟨ordered, ten ▸ inside⟩

theorem hasDateShape_eq (bytes : Bytes) :
    hasDateShape bytes = some (bytes.length = 10 && (slice bytes 0 4).all isAsciiDigit &&
      bytes[4]? = some dash && (slice bytes 5 7).all isAsciiDigit && bytes[7]? = some dash &&
      (slice bytes 8 10).all isAsciiDigit) := by
  by_cases ten : bytes.length = 10
  · have year := byteSlice_eq ten (show 0 ≤ 4 by decide) (by decide)
    have month := byteSlice_eq ten (show 5 ≤ 7 by decide) (by decide)
    have day := byteSlice_eq ten (show 8 ≤ 10 by decide) (by decide)
    have fourth : bytes[4]? = some (bytes.get ⟨4, by omega⟩) := List.getElem?_eq_getElem _
    have seventh : bytes[7]? = some (bytes.get ⟨7, by omega⟩) := List.getElem?_eq_getElem _
    rw [hasDateShape, year, month, day, fourth, seventh]
    simp only [Option.bind_eq_bind, Option.bind_some]
    generalize (slice bytes 0 4).all isAsciiDigit = yearDigits
    generalize (slice bytes 5 7).all isAsciiDigit = monthDigits
    generalize (slice bytes 8 10).all isAsciiDigit = dayDigits
    by_cases first : bytes.get ⟨4, by omega⟩ = dash <;>
      by_cases second : bytes.get ⟨7, by omega⟩ = dash <;>
        cases yearDigits <;> cases monthDigits <;> simp_all
  · simp [hasDateShape, ten]

theorem isCharBoundary_of_ascii {text : Bytes} (ascii : ∀ byte ∈ text, byte < 128) {index : ℕ}
    (inside : index ≤ text.length) : isCharBoundary text index = true := by
  rcases inside.lt_or_eq with within | rfl
  · have first := ascii _ (List.getElem_mem within)
    simp [isCharBoundary, List.getElem?_eq_getElem within, first]
  · simp [isCharBoundary]

theorem ascii_of_shape {date : Bytes} (shape : hasDateShape date = some true) :
    date.length = 10 ∧ ∀ byte ∈ date, byte < 128 := by
  have digit {byte : UInt8} (digit : isAsciiDigit byte = true) : byte < 128 := by
    simp only [isAsciiDigit, Bool.and_eq_true, decide_eq_true_eq] at digit
    exact UInt8.lt_of_le_of_lt digit.2 (by decide)
  rw [hasDateShape_eq] at shape
  simp only [Option.some.injEq, Bool.and_eq_true, decide_eq_true_eq] at shape
  obtain ⟨⟨⟨⟨⟨ten, year⟩, fourth⟩, month⟩, seventh⟩, day⟩ := shape
  refine ⟨ten, ?_⟩
  match date, ten with
  | [_, _, _, _, first, _, _, second, _, _], _ =>
      obtain rfl : first = dash := Option.some.inj fourth
      obtain rfl : second = dash := Option.some.inj seventh
      simp only [slice, List.take, List.drop, List.all_cons, Bool.and_eq_true] at year month day
      have sign : dash < 128 := by decide
      simp only [List.forall_mem_cons]
      exact ⟨digit year.1, digit year.2.1, digit year.2.2.1, digit year.2.2.2.1, sign,
        digit month.1, digit month.2.1, sign, digit day.1, digit day.2.1, List.forall_mem_nil _⟩

/-- Where the shape is checked, every byte begins a character, so no slice of the text panics. -/
theorem strSlice_of_shape {date : Bytes} (shape : hasDateShape date = some true) {start stop : ℕ}
    (ordered : start ≤ stop) (inside : stop ≤ 10) :
    strSlice date start stop = some (slice date start stop) := by
  obtain ⟨ten, ascii⟩ := ascii_of_shape shape
  have boundary {index : ℕ} (inside : index ≤ 10) : isCharBoundary date index = true :=
    isCharBoundary_of_ascii ascii (ten ▸ inside)
  rw [strSlice, if_pos ⟨boundary (ordered.trans inside), boundary inside⟩,
    byteSlice_eq ten ordered inside]

theorem isCalendarDate_eq (date : Bytes) :
    isCalendarDate date = some (hasDateShape date = some true &&
      (1 ≤ parseDigits (slice date 5 7) && parseDigits (slice date 5 7) ≤ 12 &&
        1 ≤ parseDigits (slice date 8 10) && parseDigits (slice date 8 10) ≤
          daysInMonth (parseDigits (slice date 0 4)) (parseDigits (slice date 5 7)))) := by
  unfold isCalendarDate
  cases shape : hasDateShape date with
  | none => simp [hasDateShape_eq] at shape
  | some fits =>
      cases fits with
      | false => rfl
      | true =>
          rw [strSlice_of_shape shape (by decide) (by decide),
            strSlice_of_shape shape (by decide) (by decide),
            strSlice_of_shape shape (by decide) (by decide)]
          simp

theorem isCalendarDate_returns (date : Bytes) : (isCalendarDate date).isSome = true := by
  rw [isCalendarDate_eq]
  rfl

def prettyDate (filename : Bytes) : Option Bytes := do
  let rest ← filename.dropPrefix? (utf8 prettyLogPrefix)
  let rest ← rest.dropPrefix? (utf8 ".")
  let rest ← rest.dropSuffix? (utf8 prettyLogSuffix)
  rest.dropSuffix? (utf8 ".")

def jsonlDate (filename : Bytes) : Option Bytes := do
  let rest ← filename.dropPrefix? (utf8 rotationPrefix)
  rest.dropPrefix? (utf8 ".")

def dailyLogKind (filename : String) : Option DailyLogKind :=
  match prettyDate (utf8 filename) with
  | some date =>
      if (isCalendarDate date).get (isCalendarDate_returns date) then some .pretty else none
  | none =>
      match jsonlDate (utf8 filename) with
      | some date =>
          if (isCalendarDate date).get (isCalendarDate_returns date) then some .jsonl else none
      | none => none

example : dailyLogKind "otel-logger.2024-02-29" = some .jsonl := by decide

example : dailyLogKind "otel-logger.pretty.2023-02-29.log" = none := by decide

/-! ### Cleaning up

The directory lists its names in some order. -/

def notFound : IoError := .os 2

section Cleanup

variable (listing : Disk → List String)

/-- One entry of the directory: what cannot be looked at fails the cleanup, unless it is gone. -/
def cleanupEntry (cutoff : Instant) (disk : Disk) (filename : String) :
    Except IoError Unit × Disk :=
  match disk.attempt () with
  | (.error error, disk) => (if error = notFound then .ok () else .error error, disk)
  | (.ok _, disk) =>
      match dailyLogKind filename, disk.names[filename]? with
      | some _, some inode =>
          match disk.attempt (disk.fileData inode).modified with
          | (.error error, disk) => (if error = notFound then .ok () else .error error, disk)
          | (.ok modified, disk) =>
              if cutoff ≤ modified then (.ok (), disk)
              else
                match disk.attempt () with
                | (.error error, disk) =>
                    (if error = notFound then .ok () else .error error, disk)
                | (.ok _, disk) => (.ok (), disk.unlink filename)
      | _, _ => (.ok (), disk)

def cleanupEntries (cutoff : Instant) : List String → Disk → Except IoError Unit × Disk
  | [], disk => (.ok (), disk)
  | filename :: rest, disk =>
      match disk.attempt () with
      | (.error error, disk) => (.error error, disk)
      | (.ok _, disk) =>
          match cleanupEntry cutoff disk filename with
          | (.error error, disk) => (.error error, disk)
          | (.ok _, disk) => cleanupEntries cutoff rest disk

def cutoffAt (now : Instant) (keepDays : ℕ) : Instant :=
  now - keepDays * day

/-- The directory itself is there; finding it and reading it may fail. -/
def cleanupOldRotatedLogs (disk : Disk) (keepDays : ℕ) : Except IoError Unit × Disk :=
  match disk.attempt () with
  | (.error error, disk) => (.error error, disk)
  | (.ok _, disk) =>
      match disk.attempt (listing disk) with
      | (.error error, disk) => (.error error, disk)
      | (.ok entries, disk) => cleanupEntries (cutoffAt disk.now keepDays) entries disk

end Cleanup

/-- A cleanup only takes names away, and none of a file written since the cutoff. -/
structure Cleans (cutoff : Instant) (before after : Disk) : Prop where
  files : after.files = before.files
  nextInode : after.nextInode = before.nextInode
  now : after.now = before.now
  removes : ∀ (name : String) (inode : ℕ), after.names[name]? = some inode →
    before.names[name]? = some inode
  spares : ∀ (name : String) (inode : ℕ), before.names[name]? = some inode →
    dailyLogKind name = none ∨ cutoff ≤ (before.fileData inode).modified →
      after.names[name]? = some inode

namespace Cleans

variable {cutoff : Instant} {before after : Disk}

theorem refl (cutoff : Instant) (disk : Disk) : Cleans cutoff disk disk :=
  ⟨rfl, rfl, rfl, fun _ _ => id, fun _ _ found _ => found⟩

theorem fileData (cleans : Cleans cutoff before after) (inode : ℕ) :
    after.fileData inode = before.fileData inode := by
  rw [Disk.fileData, Disk.fileData, cleans.files, cleans.now]

theorem trans {last : Disk} (left : Cleans cutoff before after)
    (right : Cleans cutoff after last) : Cleans cutoff before last := by
  refine ⟨right.files.trans left.files, right.nextInode.trans left.nextInode,
    right.now.trans left.now, ?_, ?_⟩
  · intro name inode found
    exact left.removes name inode (right.removes name inode found)
  · intro name inode found young
    refine right.spares name inode (left.spares name inode found young) ?_
    rwa [left.fileData]

theorem advance (cutoff : Instant) (disk : Disk) : Cleans cutoff disk disk.advance :=
  ⟨rfl, rfl, rfl, fun _ _ => id, fun _ _ found _ => found⟩

theorem attempt {α : Type*} (cutoff : Instant) (disk : Disk) (value : α) :
    Cleans cutoff disk (disk.attempt value).2 := by
  unfold Disk.attempt
  cases disk.outcome with
  | failed error => exact advance cutoff disk
  | done => exact advance cutoff disk
  | short count => exact advance cutoff disk

theorem builds {road : Road} (cutoff : Instant) (builds : Disk.Builds road before after) :
    Cleans cutoff before after := by
  obtain ⟨_, _, _, rfl⟩ := builds
  exact ⟨rfl, rfl, rfl, fun _ _ => id, fun _ _ found _ => found⟩

theorem unlink {disk : Disk} {name : String} {inode : ℕ} {kind : DailyLogKind}
    (daily : dailyLogKind name = some kind) (found : disk.names[name]? = some inode)
    (old : ¬ cutoff ≤ (disk.fileData inode).modified) :
    Cleans cutoff disk (disk.unlink name) := by
  refine ⟨rfl, rfl, rfl, ?_, ?_⟩
  · intro other number still
    rw [Disk.unlink, ExtTreeMap.getElem?_erase] at still
    split at still
    · simp at still
    · exact still
  · intro other number was young
    rw [Disk.unlink, ExtTreeMap.getElem?_erase, if_neg]
    · exact was
    · rw [Std.compare_eq_iff_eq]
      rintro rfl
      rw [found] at was
      obtain rfl := Option.some.inj was
      rcases young with other | young
      · rw [daily] at other
        simp at other
      · exact old young

end Cleans

theorem attempt_names {α : Type*} (disk : Disk) (value : α) :
    (disk.attempt value).2.names = disk.names ∧
      ∀ result, (disk.attempt value).1 = .ok result → result = value := by
  unfold Disk.attempt
  cases disk.outcome with
  | failed error => exact ⟨rfl, fun result done => by simp at done⟩
  | done => exact ⟨rfl, fun result done => (Except.ok.inj done).symm⟩
  | short count => exact ⟨rfl, fun result done => (Except.ok.inj done).symm⟩

theorem cleanupEntry_cleans (cutoff : Instant) (disk : Disk) (filename : String) :
    Cleans cutoff disk (cleanupEntry cutoff disk filename).2 := by
  have typed := Cleans.attempt cutoff disk ()
  unfold cleanupEntry
  generalize disk.attempt () = typing at typed ⊢
  rcases typing with ⟨error | done, disk⟩
  · exact typed
  · refine typed.trans ?_
    dsimp only
    split
    · rename_i inode daily found
      have measured := Cleans.attempt cutoff disk (disk.fileData inode).modified
      obtain ⟨names, modified⟩ := attempt_names disk (disk.fileData inode).modified
      generalize disk.attempt (disk.fileData inode).modified = measuring at measured names modified ⊢
      rcases measuring with ⟨error | age, next⟩
      · exact measured
      · obtain rfl := modified age rfl
        refine measured.trans ?_
        dsimp only at measured names ⊢
        split
        · exact Cleans.refl cutoff next
        · rename_i old
          have removed := Cleans.attempt cutoff next ()
          have kept := (attempt_names next ()).1
          generalize next.attempt () = removing at removed kept ⊢
          rcases removing with ⟨error | done, last⟩
          · exact removed
          · have still : last.names[filename]? = some inode := by rw [kept, names, found]
            refine removed.trans (Cleans.unlink daily still ?_)
            rw [removed.fileData, measured.fileData]
            exact old
    · exact Cleans.refl cutoff disk

theorem cleanupEntries_cleans (cutoff : Instant) (entries : List String) (disk : Disk) :
    Cleans cutoff disk (cleanupEntries cutoff entries disk).2 := by
  induction entries generalizing disk with
  | nil => exact Cleans.refl cutoff disk
  | cons filename rest ih =>
      have listed := Cleans.attempt cutoff disk ()
      unfold cleanupEntries
      generalize disk.attempt () = listing at listed ⊢
      rcases listing with ⟨error | done, disk⟩
      · exact listed
      · refine listed.trans ?_
        have entry := cleanupEntry_cleans cutoff disk filename
        dsimp only
        generalize cleanupEntry cutoff disk filename = cleaned at entry ⊢
        rcases cleaned with ⟨error | done, next⟩
        · exact entry
        · exact entry.trans (ih next)

theorem cleanupOldRotatedLogs_cleans (listing : Disk → List String) (disk : Disk) (keepDays : ℕ) :
    Cleans (cutoffAt disk.now keepDays) disk (cleanupOldRotatedLogs listing disk keepDays).2 := by
  have inspected := Cleans.attempt (cutoffAt disk.now keepDays) disk ()
  unfold cleanupOldRotatedLogs
  generalize disk.attempt () = inspecting at inspected ⊢
  rcases inspecting with ⟨error | done, next⟩
  · exact inspected
  · refine inspected.trans ?_
    have listed := Cleans.attempt (cutoffAt disk.now keepDays) next (listing next)
    have now : next.now = disk.now := inspected.now
    dsimp only
    generalize next.attempt (listing next) = read at listed ⊢
    rcases read with ⟨error | entries, last⟩
    · exact listed
    · have same : last.now = disk.now := listed.now.trans now
      refine listed.trans ?_
      dsimp only at same ⊢
      rw [same]
      exact cleanupEntries_cleans _ entries last

/-! ### The writer and the name of its file -/

namespace DailyWriter

/-- The name of the current date, if it is there, is that of the open file, and no other is. -/
structure Tended (writer : DailyWriter) : Prop where
  consistent : ∃ base past, Consistent base past writer.file.writer
  mine : ∀ inode : ℕ, writer.disk.names[writer.path writer.date]? = some inode →
    inode = writer.handle.inode
  only : ∀ name : String, writer.disk.names[name]? = some writer.handle.inode →
    name = writer.path writer.date
  numbered : writer.handle.inode < writer.disk.nextInode

theorem tended_of_named {writer : DailyWriter}
    (named : writer.disk.names[writer.path writer.date]? = some writer.handle.inode)
    (consistent : ∃ base past, Consistent base past writer.file.writer) : Tended writer where
  consistent := consistent
  mine _ found := Option.some.inj (found.symm.trans named)
  only name found := writer.disk.unshared name _ _ found named
  numbered := writer.disk.numbered _ _ named

theorem Tended.of_remains {writer next : DailyWriter} (tended : Tended writer)
    (remains : Remains writer next)
    (consistent : ∃ base past, Consistent base past next.file.writer) : Tended next where
  consistent := consistent
  mine inode found := by
    rw [remains.inode]
    rw [remains.path, remains.date] at found
    exact tended.mine inode (remains.disk.names ▸ found)
  only name found := by
    rw [remains.path, remains.date]
    rw [remains.inode] at found
    exact tended.only name (remains.disk.names ▸ found)
  numbered := by
    rw [remains.inode]
    exact tended.numbered.trans_eq remains.disk.nextInode.symm

theorem Tended.named {writer : DailyWriter} (tended : Tended writer)
    (present : writer.disk.names[writer.path writer.date]? ≠ none) :
    writer.disk.names[writer.path writer.date]? = some writer.handle.inode := by
  obtain ⟨inode, found⟩ := Option.ne_none_iff_exists'.mp present
  rw [found, tended.mine inode found]

/-- Where an acknowledged call leaves its bytes: in the file of its date, and under the name of
that date when it was there or the file was changed. -/
structure Lands (writer next : DailyWriter) (date : NaiveDate) (bytes : Bytes) : Prop where
  current : next.date = date
  named : date ≠ writer.date ∨ writer.disk.names[writer.path writer.date]? ≠ none →
    next.disk.names[next.path date]? = some next.handle.inode
  written : ∃ earlier, next.handle.bytes = earlier ++ bytes

theorem append_lands {writer : DailyWriter} (tended : Tended writer) (bytes : Bytes) :
    Tended (writer.append bytes).2 ∧ ((writer.append bytes).1 = .ok () →
      Lands writer (writer.append bytes).2 writer.date bytes) := by
  have remains := writer.append_remains bytes
  obtain ⟨base, past, consistent⟩ := tended.consistent
  have next := tended.of_remains remains ⟨_, _, consistent.append bytes⟩
  refine ⟨next, fun done => ⟨remains.date, ?_, writer.file.writer.append_ok done⟩⟩
  intro present
  have there := present.resolve_left fun other => other rfl
  rw [← remains.date]
  apply next.named
  rw [remains.path, remains.date]
  exact fun absent => there (remains.disk.names ▸ absent)

theorem rotate_lands {writer : DailyWriter} (tended : Tended writer)
    (distinct : Function.Injective writer.path) {date : NaiveDate} (other : writer.date ≠ date) :
    Tended (writer.rotate date).2 ∧ (writer.rotate date).2.path = writer.path ∧
      ((writer.rotate date).1 = .ok () → (writer.rotate date).2.date = date ∧
        (writer.rotate date).2.disk.names[writer.path date]? =
          some (writer.rotate date).2.handle.inode) := by
  obtain ⟨base, past, consistent⟩ := tended.consistent
  have rotation := rotate_cases consistent date
  generalize writer.rotate date = result at rotation ⊢
  cases rotation with
  | stopped error next remains still =>
      exact ⟨tended.of_remains remains ⟨base, still⟩, remains.path, fun done => by simp at done⟩
  | refused error settled left settles failed =>
      have names : settled.disk.names = writer.disk.names := settles.disk.names
      have inode : settled.handle.inode = writer.handle.inode := settles.inode
      have elsewhere := failed.elsewhere
      have apart : writer.path writer.date ≠ writer.path date := fun same => other (distinct same)
      have mine : ∀ name : String, left.names[name]? = some settled.handle.inode →
          name = writer.path writer.date := by
        intro name found
        rw [inode] at found
        apply tended.only
        by_cases here : name = writer.path date
        · subst name
          cases was : settled.disk.names[writer.path date]? with
          | none =>
              have new := elsewhere.fresh _ was found
              have old : writer.handle.inode < settled.disk.nextInode :=
                tended.numbered.trans_eq settles.disk.nextInode.symm
              omega
          | some before =>
              rw [elsewhere.kept before was] at found
              rw [← names, was, found]
        · rw [elsewhere.names name here, names] at found
          exact found
      have unnamed : settled.disk.names[writer.path date]? ≠ some settled.handle.inode := by
        intro found
        rw [names, inode] at found
        exact apart (tended.only _ found).symm
      have numbered : settled.handle.inode < settled.disk.nextInode := by
        rw [inode]
        exact tended.numbered.trans_eq settles.disk.nextInode.symm
      have bytes : (settled.withDisk left).handle.bytes = base := by
        rw [← settles.bytes]
        exact congrArg FileData.content (elsewhere.fileData numbered unnamed)
      refine ⟨⟨⟨base, [], fun _ => bytes, ?_, ?_⟩, ?_, ?_, ?_⟩, settles.path,
        fun done => by simp at done⟩
      · intro start pending
        exact absurd (settles.unblocked.symm.trans pending) (by simp)
      · exact ⟨[], by rw [List.append_nil]; exact bytes, Or.inl rfl⟩
      · intro number found
        refine (tended.mine number ?_).trans inode.symm
        have path : (settled.withDisk left).path (settled.withDisk left).date =
            writer.path writer.date := by
          rw [← settles.path, ← settles.date]
          rfl
        rw [path] at found
        rw [← names, ← elsewhere.names _ apart]
        exact found
      · intro name found
        rw [mine name found, ← settles.path, ← settles.date]
        rfl
      · exact numbered.trans_le elsewhere.grows
  | opened settled file settles repaired synced opens =>
      refine ⟨tended_of_named ?_ ⟨file.writer.file.bytes, [], ?_, ?_, ?_⟩, settles.path, ?_⟩
      · rw [← settles.path] at opens
        exact opens.named
      · exact fun _ => rfl
      · intro start pending
        exact absurd (opens.unblocked.symm.trans pending) (by simp)
      · exact TransactionalAppend.Residual.nothing _ _
      · exact fun _ => ⟨rfl, opens.named⟩

theorem appendAt_lands {writer : DailyWriter} (tended : Tended writer)
    (distinct : Function.Injective writer.path) (bytes : Bytes) (date : NaiveDate) :
    Tended (writer.appendAt bytes date).2 ∧ (writer.appendAt bytes date).2.path = writer.path ∧
      ((writer.appendAt bytes date).1 = .ok () →
        Lands writer (writer.appendAt bytes date).2 date bytes) := by
  unfold appendAt
  by_cases other : writer.date ≠ date
  · rw [if_pos other]
    obtain ⟨next, path, reached⟩ := rotate_lands tended distinct other
    generalize writer.rotate date = rotation at next path reached ⊢
    rcases rotation with ⟨error | done, rotated⟩
    · exact ⟨next, path, fun done => by simp at done⟩
    · obtain ⟨rfl, named⟩ := reached rfl
      obtain ⟨last, lands⟩ := append_lands next bytes
      have still : (rotated.append bytes).2.path = rotated.path :=
        (rotated.append_remains bytes).path
      refine ⟨last, still.trans path, fun done => ?_⟩
      obtain ⟨date, found, written⟩ := lands done
      refine ⟨date, fun _ => found (Or.inr ?_), written⟩
      dsimp only at path named
      rw [path, named]
      simp
  · rw [if_neg other]
    obtain rfl : writer.date = date := not_not.mp other
    obtain ⟨next, lands⟩ := append_lands tended bytes
    exact ⟨next, (writer.append_remains bytes).path, lands⟩

theorem Tended.withDisk {writer : DailyWriter} {disk : Disk} (tended : Tended writer)
    (files : disk.files = writer.disk.files)
    (removes : ∀ (name : String) (inode : ℕ), disk.names[name]? = some inode →
      writer.disk.names[name]? = some inode)
    (grows : writer.disk.nextInode ≤ disk.nextInode) : Tended (writer.withDisk disk) := by
  have bytes : (writer.withDisk disk).handle.bytes = writer.handle.bytes := by
    change (disk.files[writer.handle.inode]?.getD _).content =
      (writer.disk.files[writer.handle.inode]?.getD _).content
    rw [files]
    cases writer.disk.files[writer.handle.inode]? with
    | none => rfl
    | some data => rfl
  obtain ⟨base, past, consistent⟩ := tended.consistent
  exact ⟨⟨base, past, consistent.of_same bytes rfl⟩,
    fun inode found => tended.mine inode (removes _ inode found),
    fun name found => tended.only name (removes name _ found), tended.numbered.trans_le grows⟩

/-- `write_all` of the standard library: an empty buffer is not written at all. -/
def writeAll (writer : DailyWriter) (bytes : Bytes) (date : NaiveDate) :
    Except IoError Unit × DailyWriter :=
  if bytes = [] then (.ok (), writer) else writer.appendAt bytes date

def flush (writer : DailyWriter) : Except IoError Unit × DailyWriter :=
  let flushed := writer.handle.flush
  (flushed.1, writer.withFile { writer := { writer.file.writer with file := flushed.2 } })

end DailyWriter

/-! ### The rotated writer -/

structure RotatedWriter where
  roller : DailyWriter
  keepDays : ℕ
  lastCleanupDay : ℤ

/-- A line as it is written: it ends in its newline. The offset of the local time zone may
differ from call to call. -/
structure LineCall where
  now : Instant
  offset : ℤ
  line : Bytes
  ended : ∃ body, line = body ++ [newline]

def LineCall.date (call : LineCall) : NaiveDate :=
  localDate call.now call.offset

namespace RotatedWriter

section Operations

variable (listing : Disk → List String)

def openRotated (disk : Disk) (dir : String) (keepDays : ℕ) (now : Instant) (offset : ℤ) :
    Except (IoError × Disk) RotatedWriter :=
  match ({ disk with now := now }).createPrivateDir (dirRoad dir) with
  | (.error error, disk) => .error (error, disk)
  | (.ok _, disk) =>
      let maxKeep := max keepDays 1
      match cleanupOldRotatedLogs listing disk maxKeep with
      | (.error error, disk) => .error (error, disk)
      | (.ok _, disk) =>
          match DailyWriter.atDate disk rotationPrefix none (localDate now offset) with
          | .error failure => .error failure
          | .ok appender => .ok
              { roller := appender.withSyncOnRotate
                keepDays := maxKeep
                lastCleanupDay := julianDay now }

def arrive (writer : RotatedWriter) (now : Instant) : RotatedWriter :=
  { writer with roller := writer.roller.withDisk { writer.roller.disk with now := now } }

/-- A cleanup that fails does not stop the writer. -/
def cleanupIfDayChanged (writer : RotatedWriter) : RotatedWriter :=
  let today := julianDay writer.roller.disk.now
  if writer.lastCleanupDay = today then writer
  else
    { writer with
      lastCleanupDay := today
      roller := writer.roller.withDisk
        (cleanupOldRotatedLogs listing writer.roller.disk writer.keepDays).2 }

def writeLine (writer : RotatedWriter) (call : LineCall) :
    Except IoError Unit × RotatedWriter :=
  let writer := (writer.arrive call.now).cleanupIfDayChanged listing
  match writer.roller.writeAll call.line call.date with
  | (.error error, roller) => (.error error, { writer with roller := roller })
  | (.ok _, roller) =>
      let flushed := roller.flush
      (flushed.1, { writer with roller := flushed.2 })

def writeLines (writer : RotatedWriter) (calls : List LineCall) : RotatedWriter :=
  calls.foldl (fun reached call => (reached.writeLine listing call).2) writer

end Operations

/-- The line is found in the directory, at the end of the file of its date. -/
def Saved (writer : RotatedWriter) (call : LineCall) : Prop :=
  ∃ earlier, writer.roller.disk.contentAt (dailyPath rotationPrefix none call.date) =
    some (earlier ++ call.line)

/-- The call changes the file, or its file is still there and is not cleaned up now: the UTC day
is that of the last cleanup, or the file was written `keepDays` days of 24 hours ago at most. -/
def Spared (writer : RotatedWriter) (call : LineCall) : Prop :=
  let name := dailyPath rotationPrefix none writer.roller.date
  call.date ≠ writer.roller.date ∨
    (writer.roller.disk.names[name]? ≠ none ∧
      (julianDay call.now = writer.lastCleanupDay ∨ dailyLogKind name = none ∨
        cutoffAt call.now writer.keepDays ≤ writer.roller.handle.data.modified))

instance (writer : RotatedWriter) (call : LineCall) : Decidable (writer.Spared call) :=
  inferInstanceAs (Decidable (call.date ≠ writer.roller.date ∨
    (writer.roller.disk.names[dailyPath rotationPrefix none writer.roller.date]? ≠ none ∧
      (julianDay call.now = writer.lastCleanupDay ∨
        dailyLogKind (dailyPath rotationPrefix none writer.roller.date) = none ∨
        cutoffAt call.now writer.keepDays ≤ writer.roller.handle.data.modified))))

section Steps

variable (listing : Disk → List String) {writer : RotatedWriter}

/-- The writer goes on with what it has: its open file, its date and its names. -/
structure Carries (writer next : RotatedWriter) : Prop where
  date : next.roller.date = writer.roller.date
  path : next.roller.path = writer.roller.path
  tended : next.roller.Tended

theorem arrive_carries (tended : writer.roller.Tended) (now : Instant) :
    Carries writer (writer.arrive now) :=
  ⟨rfl, rfl, tended.withDisk rfl (fun _ _ => id) le_rfl⟩

theorem cleanupIfDayChanged_carries (tended : writer.roller.Tended) :
    Carries writer (writer.cleanupIfDayChanged listing) := by
  unfold cleanupIfDayChanged
  dsimp only
  split
  · exact ⟨rfl, rfl, tended⟩
  · have cleans := cleanupOldRotatedLogs_cleans listing writer.roller.disk writer.keepDays
    exact ⟨rfl, rfl, tended.withDisk cleans.files cleans.removes cleans.nextInode.ge⟩

/-- The file that a call appends to is still under its name when the cleanup is over. -/
theorem Spared.present {call : LineCall} (spared : writer.Spared call)
    (tended : writer.roller.Tended)
    (paths : writer.roller.path = dailyPath rotationPrefix none) :
    let ready := (writer.arrive call.now).cleanupIfDayChanged listing
    call.date ≠ ready.roller.date ∨
      ready.roller.disk.names[ready.roller.path ready.roller.date]? ≠ none := by
  intro ready
  have arrived := arrive_carries tended call.now
  have cleaned : Carries (writer.arrive call.now) ready :=
    cleanupIfDayChanged_carries listing arrived.tended
  rw [cleaned.date, cleaned.path, arrived.date, arrived.path]
  rcases spared with other | ⟨present, young⟩
  · exact Or.inl other
  · rw [← paths] at present young
    have named := tended.named present
    refine Or.inr ?_
    by_cases today : writer.lastCleanupDay = julianDay call.now
    · have same : ready = writer.arrive call.now := if_pos today
      rw [same]
      exact present
    · have disk : ready.roller.disk =
          (cleanupOldRotatedLogs listing (writer.arrive call.now).roller.disk writer.keepDays).2 := by
        have passed : (writer.arrive call.now).lastCleanupDay ≠
            julianDay (writer.arrive call.now).roller.disk.now := today
        simp only [ready, cleanupIfDayChanged, if_neg passed]
        rfl
      have cleans := cleanupOldRotatedLogs_cleans listing (writer.arrive call.now).roller.disk
        writer.keepDays
      have still := cleans.spares _ writer.roller.handle.inode named ?_
      · rw [disk, still]
        simp
      · refine (young.resolve_left fun same => today same.symm).imp_right fun young => ?_
        change cutoffAt call.now writer.keepDays ≤
          (writer.roller.disk.files[writer.roller.handle.inode]?.getD _).modified
        change cutoffAt call.now writer.keepDays ≤
          (writer.roller.disk.files[writer.roller.handle.inode]?.getD _).modified at young
        cases found : writer.roller.disk.files[writer.roller.handle.inode]? with
        | some data =>
            rw [found] at young
            exact young
        | none =>
            change call.now - writer.keepDays * day ≤ call.now
            have positive : 0 ≤ (writer.keepDays : ℤ) * day := by
              exact mul_nonneg (Int.natCast_nonneg _) (by decide)
            exact sub_le_self _ positive

theorem flush_remains (roller : DailyWriter) : DailyWriter.Remains roller roller.flush.2 ∧
    roller.flush.2.handle.bytes = roller.handle.bytes := by
  refine ⟨⟨roller.handle.stays_attempt (), rfl, rfl, rfl⟩, ?_⟩
  change (roller.handle.attempt ()).2.bytes = roller.handle.bytes
  rw [OpenFile.attempt_snd, OpenFile.withDisk_advance_bytes]

theorem writeLine_step (tended : writer.roller.Tended)
    (paths : writer.roller.path = dailyPath rotationPrefix none) (call : LineCall) :
    (writer.writeLine listing call).2.roller.Tended ∧
      (writer.writeLine listing call).2.roller.path = dailyPath rotationPrefix none ∧
      (writer.Spared call → (writer.writeLine listing call).1 = .ok () →
        (writer.writeLine listing call).2.Saved call) := by
  have arrived := arrive_carries tended call.now
  have cleaned : Carries _ ((writer.arrive call.now).cleanupIfDayChanged listing) :=
    cleanupIfDayChanged_carries listing arrived.tended
  have present : writer.Spared call → _ := fun spared => spared.present listing tended paths
  unfold writeLine
  generalize (writer.arrive call.now).cleanupIfDayChanged listing = ready at cleaned present ⊢
  have path : ready.roller.path = dailyPath rotationPrefix none :=
    cleaned.path.trans (arrived.path.trans paths)
  have filled : call.line ≠ [] := by
    obtain ⟨body, ended⟩ := call.ended
    rw [ended]
    simp
  have distinct : Function.Injective ready.roller.path := by
    rw [path]
    exact dailyPath_injective rotationPrefix none
  obtain ⟨next, still, lands⟩ := DailyWriter.appendAt_lands cleaned.tended distinct call.line call.date
  dsimp only
  rw [DailyWriter.writeAll, if_neg filled]
  generalize ready.roller.appendAt call.line call.date = written at next still lands ⊢
  rcases written with ⟨error | done, roller⟩
  · exact ⟨next, still.trans path, fun _ done => by simp at done⟩
  · obtain ⟨remains, bytes⟩ := flush_remains roller
    obtain ⟨base, past, consistent⟩ := next.consistent
    refine ⟨next.of_remains remains ⟨base, past, consistent.of_same bytes rfl⟩,
      still.trans path, fun spared _ => ?_⟩
    obtain ⟨_, named, earlier, whole⟩ := lands rfl
    have found := named (present spared)
    refine ⟨earlier, ?_⟩
    dsimp only at found whole still
    rw [still, path] at found
    have there : roller.flush.2.handle.disk.names[dailyPath rotationPrefix none call.date]? =
        some roller.flush.2.handle.inode := by
      rw [remains.disk.names, remains.inode]
      exact found
    rw [← whole, ← bytes]
    exact AppendFile.contentAt_of_named there

end Steps

theorem writeLines_concat (listing : Disk → List String) (writer : RotatedWriter)
    (calls : List LineCall) (call : LineCall) : writer.writeLines listing (calls ++ [call]) =
      ((writer.writeLines listing calls).writeLine listing call).2 := by
  rw [writeLines, List.foldl_append]
  rfl

theorem writeLines_tended {listing : Disk → List String} {writer : RotatedWriter}
    (tended : writer.roller.Tended)
    (paths : writer.roller.path = dailyPath rotationPrefix none) (calls : List LineCall) :
    (writer.writeLines listing calls).roller.Tended ∧
      (writer.writeLines listing calls).roller.path = dailyPath rotationPrefix none := by
  induction calls using List.reverseRecOn with
  | nil => exact ⟨tended, paths⟩
  | append_singleton calls call ih =>
      rw [writeLines_concat]
      obtain ⟨next, path, _⟩ := writeLine_step listing ih.1 ih.2 call
      exact ⟨next, path⟩

theorem openRotated_tended {listing : Disk → List String} {disk : Disk} {dir : String}
    {keepDays : ℕ} {now : Instant} {offset : ℤ} {start : RotatedWriter}
    (opens : openRotated listing disk dir keepDays now offset = .ok start) :
    start.roller.Tended ∧ start.roller.path = dailyPath rotationPrefix none := by
  unfold openRotated at opens
  generalize ({ disk with now := now } : Disk).createPrivateDir (dirRoad dir) = made at opens
  rcases made with ⟨error | done, disk⟩
  · simp at opens
  · dsimp only at opens
    generalize cleanupOldRotatedLogs listing disk (max keepDays 1) = cleaned at opens
    rcases cleaned with ⟨error | done, disk⟩
    · simp at opens
    · dsimp only at opens
      rw [DailyWriter.atDate] at opens
      rcases AppendFile.openPath_spec disk (dailyPath rotationPrefix none (localDate now offset)) with
        ⟨file, result, opened⟩ | ⟨error, left, result, _⟩
      · rw [result] at opens
        obtain rfl := Except.ok.inj opens
        refine ⟨DailyWriter.tended_of_named opened.named
          ⟨file.writer.file.bytes, [], ?_, ?_, ?_⟩, rfl⟩
        · exact fun _ => rfl
        · intro start pending
          exact absurd (opened.unblocked.symm.trans pending) (by simp)
        · exact TransactionalAppend.Residual.nothing _ _
      · rw [result] at opens
        simp at opens

/-- In every run whose calls are all spared, from any directory and whatever fails, an answered
line is found in the file of its date. -/
theorem retention_spares (listing : Disk → List String) (disk : Disk) (dir : String)
    (keepDays : ℕ) (now : Instant) (offset : ℤ) (start : RotatedWriter)
    (opens : openRotated listing disk dir keepDays now offset = .ok start) (calls : List LineCall)
    (spared : ∀ earlier call, earlier ++ [call] <+: calls →
      (start.writeLines listing earlier).Spared call) :
    ∀ earlier call, earlier ++ [call] <+: calls →
      ((start.writeLines listing earlier).writeLine listing call).1 = .ok () →
        (start.writeLines listing (earlier ++ [call])).Saved call := by
  intro earlier call begun done
  obtain ⟨tended, paths⟩ := openRotated_tended opens
  obtain ⟨still, path⟩ := writeLines_tended tended paths earlier
  rw [writeLines_concat]
  exact (writeLine_step listing still path call).2.2 (spared earlier call begun) done

def namesOf (disk : Disk) : List String := disk.names.keys

/-- 00:10 and 23:20 on the first of November 2026, before and after the clocks go back. -/
def justPastMidnight : LineCall := ⟨1793506200000000000, -4 * 3600, [49, 10], [49], rfl⟩

def lateEvening : LineCall := ⟨1793593200000000000, -5 * 3600, [50, 10], [50], rfl⟩

theorem retention_spares_two_days :
    ∃ start,
      openRotated namesOf (Disk.blank []) "logs" 2 1793505900000000000 (-4 * 3600) = .ok start ∧
      ∀ earlier call, earlier ++ [call] <+: [justPastMidnight, lateEvening] →
        ((start.writeLines namesOf earlier).writeLine namesOf call).1 = .ok () →
          (start.writeLines namesOf (earlier ++ [call])).Saved call := by
  have evaluated :
      (match openRotated namesOf (Disk.blank []) "logs" 2 1793505900000000000 (-4 * 3600) with
      | .error _ => false
      | .ok start => decide (start.Spared justPastMidnight) &&
          decide ((start.writeLines namesOf [justPastMidnight]).Spared lateEvening)) = true := by
    decide +kernel
  cases opens : openRotated namesOf (Disk.blank []) "logs" 2 1793505900000000000 (-4 * 3600) with
  | error failure =>
      rw [opens] at evaluated
      simp at evaluated
  | ok start =>
      rw [opens] at evaluated
      simp only [Bool.and_eq_true, decide_eq_true_eq] at evaluated
      refine ⟨start, rfl, retention_spares namesOf (Disk.blank []) "logs" 2 1793505900000000000
        (-4 * 3600) start opens [justPastMidnight, lateEvening] ?_⟩
      intro earlier call begun
      rcases earlier with _ | ⟨first, _ | ⟨second, rest⟩⟩
      · obtain ⟨rfl, _⟩ := List.cons_prefix_cons.mp begun
        exact evaluated.1
      · obtain ⟨rfl, later⟩ := List.cons_prefix_cons.mp begun
        obtain ⟨rfl, _⟩ := List.cons_prefix_cons.mp later
        exact evaluated.2
      · have length := begun.length_le
        simp at length

/-- With one day of retention the second line is answered, and its file has no name: it was last
written more than 24 hours before, on the same local day of 25 hours. -/
theorem long_day_unlinks_current :
    ∃ start,
      openRotated namesOf (Disk.blank []) "logs" 1 1793505900000000000 (-4 * 3600) = .ok start ∧
      1793505900000000000 ≤ justPastMidnight.now ∧ justPastMidnight.now ≤ lateEvening.now ∧
      (∀ call ∈ [justPastMidnight, lateEvening], -12 * 3600 ≤ call.offset ∧
        call.offset ≤ 14 * 3600) ∧
      let reached := (start.writeLines namesOf [justPastMidnight]).writeLine namesOf lateEvening
      reached.1 = .ok () ∧
        reached.2.roller.disk.names[dailyPath rotationPrefix none lateEvening.date]? = none ∧
        ¬ reached.2.Saved lateEvening := by
  have evaluated :
      (match openRotated namesOf (Disk.blank []) "logs" 1 1793505900000000000 (-4 * 3600) with
      | .error _ => false
      | .ok start =>
          let reached := (start.writeLines namesOf [justPastMidnight]).writeLine namesOf lateEvening
          reached.1.isOk && decide
            (reached.2.roller.disk.names[dailyPath rotationPrefix none lateEvening.date]? = none))
        = true := by
    decide +kernel
  cases opens : openRotated namesOf (Disk.blank []) "logs" 1 1793505900000000000 (-4 * 3600) with
  | error failure =>
      rw [opens] at evaluated
      simp at evaluated
  | ok start =>
      rw [opens] at evaluated
      simp only [Bool.and_eq_true, decide_eq_true_eq] at evaluated
      refine ⟨start, rfl, by decide, by decide, by decide, ?_⟩
      generalize (start.writeLines namesOf [justPastMidnight]).writeLine namesOf lateEvening =
        reached at evaluated ⊢
      obtain ⟨answered, unnamed⟩ := evaluated
      refine ⟨?_, unnamed, ?_⟩
      · rcases reached with ⟨error | done, writer⟩
        · simp [Except.isOk, Except.toBool] at answered
        · rfl
      · rintro ⟨earlier, found⟩
        rw [Disk.contentAt, unnamed] at found
        simp at found

end RotatedWriter

end OtelLogger
