import OtelLogger.LogDirectory

/-!
Where the texts of the files come from. What is in a daily file, at any time and whatever failed or
died before, is made of starts of the texts that were written to it, in their order; of each there
are whole lines, and behind them at most one line that is not finished.
-/

namespace OtelLogger

open Delimited Interleaving
open Disk (Alike Shortens textAt_of_named)

/-! ### One operation -/

/-- A start of the text is written behind whole lines of one file, or nothing is. -/
def Disk.Continues (target : String) (text : Bytes) (before after : Disk) : Prop :=
  ∀ name, ∃ kept begun, kept <+: before.textAt name ∧ after.textAt name = kept ++ begun ∧
    (begun = [] ∨ (name = target ∧ Complete newline kept ∧ begun <+: text))

namespace Disk

variable {target : String} {text : Bytes} {before after last : Disk}

theorem Shortens.continues (shortens : Shortens before after) (target : String) (text : Bytes) :
    Continues target text before after :=
  fun name => ⟨after.textAt name, [], shortens name, (List.append_nil _).symm, Or.inl rfl⟩

theorem Shortens.then_continues (shortens : Shortens before after)
    (continues : Continues target text after last) : Continues target text before last := by
  intro name
  obtain ⟨kept, begun, start, same, own⟩ := continues name
  exact ⟨kept, begun, start.trans (shortens name), same, own⟩

theorem Continues.then_shortens (continues : Continues target text before after)
    (shortens : Shortens after last) : Continues target text before last := by
  intro name
  obtain ⟨kept, begun, start, same, own⟩ := continues name
  have cut := shortens name
  rw [same] at cut
  rcases List.prefix_or_prefix_of_prefix cut (List.prefix_append kept begun) with short | ⟨part, rest⟩
  · exact ⟨last.textAt name, [], short.trans start, (List.append_nil _).symm, Or.inl rfl⟩
  · refine ⟨kept, part, start, rest.symm, ?_⟩
    rw [← rest, List.prefix_append_right_inj] at cut
    rcases own with rfl | ⟨here, complete, begins⟩
    · exact Or.inl (List.prefix_nil.mp cut)
    · exact Or.inr ⟨here, complete, cut.trans begins⟩

end Disk

namespace DailyWriter

open TransactionalAppend (Consistent repairEffects)

variable {writer next : DailyWriter}

/-- The one text that a writer on its file can change is that of the file. -/
theorem Remains.text (remains : Remains writer next) (name : String) :
    (writer.disk.names[name]? = some writer.handle.inode ∧
      writer.disk.textAt name = writer.handle.bytes ∧ next.disk.textAt name = next.handle.bytes) ∨
    next.disk.textAt name = writer.disk.textAt name := by
  have names : next.disk.names = writer.disk.names := remains.disk.names
  cases found : writer.disk.names[name]? with
  | none =>
      right
      rw [Disk.textAt_of_unnamed found, Disk.textAt_of_unnamed (by rw [names, found])]
  | some inode =>
      have still : next.disk.names[name]? = some inode := by rw [names, found]
      by_cases own : inode = writer.handle.inode
      · left
        subst inode
        refine ⟨rfl, textAt_of_named found, ?_⟩
        rw [← remains.inode] at still
        exact textAt_of_named still
      · right
        rw [textAt_of_named found, textAt_of_named still]
        exact Disk.content_of_file (remains.disk.files inode own)

theorem Remains.shortens (remains : Remains writer next)
    (bytes : next.handle.bytes <+: writer.handle.bytes) : Shortens writer.disk next.disk := by
  intro name
  rcases remains.text name with ⟨_, before, after⟩ | same
  · rwa [before, after]
  · rw [same]

theorem settled_prefix {base : Bytes} {past : List Attempt}
    (consistent : Consistent base past writer.file.writer) : base <+: writer.handle.bytes := by
  obtain ⟨residue, whole, _⟩ := consistent.residual
  exact ⟨residue, whole.symm⟩

theorem repair_shortens (seated : writer.Seated) : Shortens writer.disk writer.repair.2.disk := by
  obtain ⟨base, past, complete, consistent⟩ := seated.consistent
  refine writer.repair_remains.shortens ?_
  have start := settled_prefix consistent
  have repaired := consistent.repaired
  change content writer.file.writer.repair.2.file <+: content writer.file.writer.file
  rcases writer.file.writer.repair_cases with ⟨next, result, _, passes⟩ |
    ⟨error, next, position, done, result, pending, _, cuts, passes⟩
  · rw [result, passes.content, repaired]
    exact start
  · rw [result, passes.content]
    rcases cuts with rfl | rfl
    · exact List.prefix_rfl
    · rw [pending, repairEffects] at repaired
      rw [repaired]
      exact start

theorem openDate_shortens (writer : DailyWriter) (date : NaiveDate) :
    Shortens writer.disk (writer.openDate date).2.disk := by
  have opens := Disk.openPath_shortens writer.disk (writer.path date)
  unfold openDate
  generalize AppendFile.openPath writer.disk (writer.path date) = opening at opens ⊢
  rcases opening with ⟨error, left⟩ | file
  · exact opens
  · exact opens

theorem rotate_shortens (seated : writer.Seated) (date : NaiveDate) :
    Shortens writer.disk (writer.rotate date).2.disk := by
  have repaired := repair_shortens seated
  unfold rotate
  generalize writer.repair = repairing at repaired ⊢
  rcases repairing with ⟨error | done, next⟩
  · exact repaired
  · dsimp only at repaired ⊢
    split
    · have synced : Shortens next.disk next.syncAll.2.disk :=
        (Disk.alike_attempt next.disk ()).shortens
      generalize next.syncAll = syncing at synced ⊢
      rcases syncing with ⟨error | done, last⟩
      · exact repaired.trans synced
      · exact repaired.trans (synced.trans (last.openDate_shortens date))
    · exact repaired.trans (next.openDate_shortens date)

/-- What a call leaves behind the complete lines: the bytes, a start of them, or less than there
was. -/
theorem append_bytes (seated : writer.Seated) (bytes : Bytes) :
    ∃ kept begun, kept <+: writer.handle.bytes ∧
      (writer.append bytes).2.handle.bytes = kept ++ begun ∧
      (begun = [] ∨ (Complete newline kept ∧ begun <+: bytes)) := by
  obtain ⟨base, past, complete, consistent⟩ := seated.consistent
  have start := settled_prefix consistent
  obtain ⟨new, passes, call⟩ := writer.file.writer.append_cases bytes
  have after : (writer.append bytes).2.handle.bytes = replay writer.handle.bytes new := passes.content
  have repaired : replay writer.handle.bytes (repairEffects writer.file.writer.rollback) = base :=
    consistent.repaired
  rw [consistent.repaired] at call
  rw [after]
  generalize (writer.file.writer.append bytes).1 = result at call
  generalize (writer.file.writer.append bytes).2.rollback = left at call
  cases call with
  | blocked error position new pending cuts =>
      refine ⟨_, [], ?_, (List.append_nil _).symm, Or.inl rfl⟩
      rcases cuts with rfl | rfl
      · exact List.prefix_rfl
      · rw [pending, repairEffects] at repaired
        rwa [repaired]
  | refused error =>
      refine ⟨base, [], start, ?_, Or.inl rfl⟩
      rw [List.append_nil]
      exact repaired
  | written chunks all =>
      refine ⟨base, bytes, start, ?_, Or.inr ⟨complete, List.prefix_rfl⟩⟩
      rw [replay_append, repaired, replay_extend, all]
  | undone error chunks begun =>
      refine ⟨base, [], start, ?_, Or.inl rfl⟩
      rw [replay_append, repaired, replay_append,
        replay_extend, replay_cut, List.append_nil]
  | stuck error chunks new begun cuts =>
      rw [replay_append, repaired, replay_append,
        replay_extend]
      rcases cuts with rfl | rfl
      · exact ⟨base, chunks.flatten, start, rfl, Or.inr ⟨complete, begun⟩⟩
      · refine ⟨base, [], start, ?_, Or.inl rfl⟩
        rw [replay_cut, List.append_nil]

/-- A call writes to the file of its date, wherever the writer is. -/
theorem append_continues (seated : writer.Seated) (bytes : Bytes) :
    Disk.Continues (writer.path writer.date) bytes writer.disk (writer.append bytes).2.disk := by
  intro name
  obtain ⟨kept, begun, start, whole, own⟩ := append_bytes seated bytes
  rcases (writer.append_remains bytes).text name with ⟨named, before, after⟩ | same
  · rw [before, after]
    exact ⟨kept, begun, start, whole, own.imp_right fun rest => ⟨seated.only name named, rest⟩⟩
  · exact ⟨_, [], List.prefix_rfl, by rw [same, List.append_nil], Or.inl rfl⟩

theorem appendAt_continues (seated : writer.Seated) (bytes : Bytes) (date : NaiveDate) :
    Disk.Continues (writer.path date) bytes writer.disk (writer.appendAt bytes date).2.disk := by
  unfold appendAt
  by_cases other : writer.date ≠ date
  · rw [if_pos other]
    obtain ⟨acts, reached⟩ := rotate_acts seated other
    have rotated := rotate_shortens seated date
    generalize writer.rotate date = rotation at acts reached rotated ⊢
    rcases rotation with ⟨error | done, next⟩
    · exact rotated.continues _ bytes
    · have path : next.path = writer.path := acts.path
      have continues := append_continues acts.seated bytes
      rw [reached rfl, path] at continues
      exact rotated.then_continues continues
  · rw [if_neg other, ← not_not.mp other]
    exact append_continues seated bytes

end DailyWriter

theorem RotatedWriter.writeLocked_continues {writer : RotatedWriter} (seated : writer.roller.Seated)
    (call : LineCall) : Disk.Continues (writer.roller.path call.date) call.line writer.roller.disk
      (writer.writeLocked call).2.roller.disk := by
  have filled : call.line ≠ [] := by
    obtain ⟨body, ended⟩ := call.ended
    rw [ended]
    simp
  have continues := DailyWriter.appendAt_continues seated call.line call.date
  unfold writeLocked
  rw [DailyWriter.writeAll, if_neg filled]
  generalize writer.roller.appendAt call.line call.date = written at continues ⊢
  rcases written with ⟨error | done, roller⟩
  · exact continues
  · have flushes : Shortens roller.disk roller.flush.2.disk :=
      (Disk.alike_attempt roller.disk ()).shortens
    exact continues.then_shortens flushes

theorem writeAll_continues {writer : DailyWriter} (seated : writer.Seated) (call : TextCall) :
    Disk.Continues (writer.path call.clock.date) call.text writer.disk
      (writer.writeAll call.text call.clock.date).2.disk := by
  unfold DailyWriter.writeAll
  split
  · exact (Shortens.refl writer.disk).continues _ _
  · exact DailyWriter.appendAt_continues seated call.text call.clock.date

/-! ### Events -/

theorem StartChain.shortens {days : ℕ} {clock later : LocalTime} {before left : Disk}
    (chain : StartChain days clock later before left) : Shortens before left := by
  obtain ⟨ready, opened, late, left, cleans, jsonl, alike, time, pretty⟩ := chain
  have cleaned : Shortens before ready := Disk.shortens_kept cleans.removes cleans.files
  exact cleaned.trans (jsonl.shortens.trans (alike.shortens.trans pretty.shortens))

theorem Disk.Untouched.shortens {planned : List (String × Instant)} {roads : List Road}
    {before after : Disk} (untouched : Disk.Untouched planned roads before after) :
    Shortens before after := by
  intro name
  cases was : before.names[name]? with
  | some inode =>
      rw [textAt_of_named was, textAt_of_named (untouched.names name inode was)]
      rw [Disk.content_of_file (untouched.files inode (before.numbered name inode was))]
  | none =>
      cases found : after.names[name]? with
      | none =>
          rw [Disk.textAt_of_unnamed found]
          exact List.nil_prefix
      | some inode =>
          obtain ⟨_, written, _, file⟩ := untouched.added name inode was found
          rw [textAt_of_named found, Disk.fileData, file]
          exact List.nil_prefix

/-- What an event writes, and to which file. -/
def DirectoryEvent.written : DirectoryEvent → Option (String × Bytes)
  | .line call => some (jsonlName call.date, call.line)
  | .text call => some (prettyName call.clock.date, call.text)
  | .start _ _ _ | .cleanup _ | .flushText | .sync | .stop | .dryRun _ _ _ => none

def DirectoryEvent.textTo (name : String) (event : DirectoryEvent) : Option Bytes :=
  (event.written.filter fun written => written.1 = name).map Prod.snd

def textsTo (name : String) (occurrences : List Occurrence) : List Bytes :=
  occurrences.filterMap fun occurrence => occurrence.event.textTo name

theorem textsTo_cons (name : String) (occurrence : Occurrence) (occurrences : List Occurrence) :
    textsTo name (occurrence :: occurrences) =
      (occurrence.event.textTo name).toList ++ textsTo name occurrences := by
  rw [textsTo, List.filterMap_cons]
  cases occurrence.event.textTo name with
  | none => rfl
  | some bytes => rfl

namespace LogDirectory

variable {listing : Disk → List String} {keepDays : ℕ} {s next : LogDirectory}
  {event : DirectoryEvent} {answer : Except IoError Unit}

theorem Moves.continues (sound : s.Sound keepDays) (moves : Moves s event answer next) :
    match event.written with
    | some (target, bytes) => Disk.Continues target bytes s.disk next.disk
    | none => Shortens s.disk next.disk := by
  cases moves with
  | failed settings clock later before left error alike chain =>
      exact alike.shortens.trans chain.shortens
  | started settings clock later before next alike chain started =>
      exact alike.shortens.trans chain.shortens
  | cleanup clock writer again before left here alike now cleans days same =>
      exact alike.shortens.trans (Disk.shortens_kept cleans.removes cleans.files)
  | line call answer writer after before here alike now wrote =>
      have seated : (writer.onDisk before).roller.Seated :=
        ((sound.onDisk alike.leaves).jsonl writer here).1
      have path : (writer.onDisk before).roller.path = jsonlName := (sound.jsonl writer here).2.1
      have continues := RotatedWriter.writeLocked_continues seated call
      rw [wrote, path] at continues
      exact alike.shortens.then_continues continues
  | text call answer writer after before here alike now wrote =>
      have seated : (writer.withDisk before).Seated :=
        ((sound.onDisk alike.leaves).prettyLog writer here).1
      have path : (writer.withDisk before).path = prettyName := (sound.prettyLog writer here).2
      have continues := writeAll_continues seated call
      rw [wrote, path] at continues
      exact alike.shortens.then_continues continues
  | flushText answer writer left here alike => exact alike.shortens
  | sync answer writer left here alike => exact alike.shortens
  | stop => exact Shortens.refl s.disk
  | dryRun settings clock later answer left untouched => exact untouched.shortens

/-- What an event leaves is woven of what was there and of what it wrote. -/
theorem Moves.woven {name : String} {past : List Bytes} (sound : s.Sound keepDays)
    (moves : Moves s event answer next) (woven : Woven newline past (s.disk.textAt name)) :
    Woven newline (past ++ (event.textTo name).toList) (next.disk.textAt name) := by
  have continues := moves.continues sound
  rw [DirectoryEvent.textTo]
  cases wrote : event.written with
  | none =>
      rw [wrote] at continues
      simp only [Option.filter_none, Option.map_none, Option.toList_none, List.append_nil]
      exact woven.shorten (continues name)
  | some written =>
      obtain ⟨target, bytes⟩ := written
      rw [wrote] at continues
      obtain ⟨kept, begun, start, whole, own⟩ := continues name
      have before := woven.shorten start
      rw [whole]
      by_cases here : target = name
      · simp only [Option.filter_some, here, decide_true, if_true, Option.map_some,
          Option.toList_some]
        rcases own with rfl | ⟨_, complete, begins⟩
        · rw [List.append_nil]
          exact before.skip bytes
        · exact before.grow complete begins
      · simp only [Option.filter_some, here, decide_false, Bool.false_eq_true, if_false,
          Option.map_none, Option.toList_none, List.append_nil]
        rcases own with rfl | ⟨there, _⟩
        · rwa [List.append_nil]
        · exact absurd there.symm here

/-! ### Runs -/

theorem woven_run {name : String} : ∀ (occurrences : List Occurrence) (s reached : LogDirectory)
    (past : List Bytes), s.Sound 0 → Woven newline past (s.disk.textAt name) →
    run listing s occurrences = some reached →
    Woven newline (past ++ textsTo name occurrences) (reached.disk.textAt name) := by
  intro occurrences
  induction occurrences with
  | nil =>
      intro s reached past sound woven ran
      obtain rfl := Option.some.inj ran
      rwa [textsTo, List.filterMap_nil, List.append_nil]
  | cons occurrence occurrences ih =>
      intro s reached past sound woven ran
      obtain ⟨next, taken, rest⟩ := Option.bind_eq_some_iff.mp ran
      obtain ⟨⟨answer, next⟩, happened, rfl⟩ := Option.map_eq_some_iff.mp taken
      have moves := moves_of_answer happened
      have retains : occurrence.event.Retains 0 := by
        cases occurrence.event <;> simp [DirectoryEvent.Retains]
      have later := ih next reached _ (sound.moves retains moves) (moves.woven sound woven) rest
      rwa [textsTo_cons, ← List.append_assoc]

theorem woven_disk (disk : Disk) (name : String) :
    Woven newline [disk.textAt name] (disk.textAt name) := by
  have nothing : Woven newline ([] : List Bytes) [] := Woven.nothing []
  exact nothing.grow (Or.inl rfl) List.prefix_rfl

end LogDirectory

end OtelLogger
