import OtelLogger.FormatSafety
import OtelLogger.PrettyWriter

/-!
The writer task on daily files. Every call appends a text and then perhaps a summary; a call that
fails on the way leaves no part of the text it failed at, once the file is repaired.
-/

namespace OtelLogger

open Interleaving

/-! ### The texts are whole lines -/

namespace Format

open Delimited

theorem writeln_complete (parts : List String) : Complete newline (utf8 (writeln parts)) := by
  refine Or.inr ⟨utf8 (concat parts), ?_⟩
  rw [writeln, utf8_append]
  rfl

theorem append_complete {first second : String} (left : Complete newline (utf8 first))
    (right : Complete newline (utf8 second)) : Complete newline (utf8 (first ++ second)) := by
  rw [utf8_append]
  exact left.append right

theorem empty_complete : Complete newline (utf8 "") :=
  Or.inl rfl

theorem concat_complete {α : Type} {shown : α → String}
    (complete : ∀ item, Complete newline (utf8 (shown item))) (items : List α) :
    Complete newline (utf8 (concat (items.map shown))) := by
  induction items with
  | nil => exact empty_complete
  | cons item items ih => exact append_complete (complete item) ih

theorem renderAttrs_complete (display : Display) (p : Painter) (attributes : List KeyValue) :
    Complete newline (utf8 (renderAttrs display p attributes)) := by
  unfold renderAttrs
  split
  · exact empty_complete
  · exact writeln_complete _

/-- A record is rendered as whole lines. -/
theorem render_complete (display : Display) (record : TelemetryRecord) (color : Bool) :
    Complete newline (utf8 (render display record color)) := by
  cases record with
  | traces resourceSpans =>
      refine concat_complete (fun group => concat_complete (fun scopeSpans => ?_) _) _
      refine concat_complete (fun span => ?_) _
      refine append_complete (append_complete (writeln_complete _) ?_) ?_
      · exact renderAttrs_complete display _ _
      · exact concat_complete (fun event => writeln_complete _) _
  | metrics resourceMetrics =>
      refine concat_complete (fun group => concat_complete (fun scopeMetrics => ?_) _) _
      exact concat_complete (fun metric => writeln_complete _) _
  | logs resourceLogs =>
      refine concat_complete (fun group => concat_complete (fun scopeLogs => ?_) _) _
      exact concat_complete
        (fun log => append_complete (writeln_complete _) (renderAttrs_complete display _ _)) _

theorem renderSummary_complete (display : Display) (snapshot : UsageSnapshot) (color : Bool) :
    Complete newline (utf8 (renderSummary display snapshot color)) := by
  unfold renderSummary
  dsimp only
  split
  · exact empty_complete
  · refine concat_complete (fun entry => ?_) _
    exact append_complete (writeln_complete _) (concat_complete (fun bucket => writeln_complete _) _)

end Format

/-! ### Whole lines through the queue -/

namespace PrettyOutput

open Delimited

variable {s next : PrettyOutput} {action : PrettyAction}

def PrettyAction.Lined : PrettyAction → Prop
  | .enqueue rendered _ => Complete newline rendered
  | _ => True

structure Lined (s : PrettyOutput) : Prop where
  calls : ∀ call ∈ s.calls, Complete newline call.rendered
  jobs : ∀ job ∈ s.jobs, Complete newline job.rendered

theorem Lined.set {id : ℕ} {call new : EnqueueCall} (lined : s.Lined)
    (found : s.calls[id]? = some call) (same : new.rendered = call.rendered) :
    ∀ other ∈ s.calls.set id new, Complete newline other.rendered := by
  intro other member
  rcases List.mem_or_eq_of_mem_set member with before | rfl
  · exact lined.calls other before
  · rw [same]
    exact lined.calls call (List.mem_of_getElem? found)

theorem Lined.send {job : PrettyJob} (lined : s.Lined) (own : Complete newline job.rendered) :
    ∀ other ∈ s.inHand.toList ++ (s.queue ++ [job]), Complete newline other.rendered := by
  intro other member
  rw [← List.append_assoc] at member
  rcases List.mem_append.mp member with before | last
  · exact lined.jobs other before
  · rw [List.mem_singleton.mp last]
    exact own

theorem Lined.callers (lined : s.Lined) (callers : action.isCallers = true) (lines : action.Lined)
    (taken : s.step action = some next) : next.Lined := by
  cases moves_of_step taken with
  | enqueue rendered wantSummary =>
      refine ⟨?_, lined.jobs⟩
      intro call member
      rcases List.mem_append.mp member with before | own
      · exact lined.calls call before
      · rw [List.mem_singleton.mp own]
        exact lines
  | add _ _ found | pass _ _ _ found | refuse _ _ _ _ found | undo _ _ _ found
  | countDrop _ _ _ found | reportStop _ _ _ found =>
      exact ⟨lined.set found rfl, lined.jobs⟩
  | send id call found =>
      exact ⟨lined.set found rfl, lined.send (lined.calls call (List.mem_of_getElem? found))⟩
  | drain => exact ⟨lined.calls, lined.send (Or.inl rfl)⟩
  | receive | finish | stop => cases callers

end PrettyOutput

namespace PrettyWriter

open Delimited

variable {W E : Type*} [PrettyDevice W E] {config : WriterConfig} {s next : PrettyWriter W E}
  {action : WriterAction E}

/-- A text that is queued is whole lines. -/
def Lined : WriterAction E → Prop
  | .output action => action.Lined
  | _ => True

structure Lines (s : PrettyWriter W E) : Prop where
  output : s.output.Lined
  writing : ∀ job summary history, s.phase = .writing job summary history →
    Complete newline job.rendered ∧ ∀ text ∈ summary, Complete newline text
  attempts : ∀ attempt ∈ s.attempts, ∀ piece ∈ attempt.pieces, Complete newline piece.1

theorem Lines.step (lines : s.Lines) (tracks : s.Tracks)
    (summaries : ∀ totals, Complete newline (config.summaryText totals)) (own : Lined action)
    (taken : s.step config action = some next) : next.Lines := by
  obtain ⟨output, writing, attempts⟩ := lines
  cases moves_of_step taken with
  | ingest record => exact ⟨output, writing, attempts⟩
  | output action later callers stepped =>
      exact ⟨output.callers callers own stepped, writing, attempts⟩
  | receive job queue here opened head =>
      refine ⟨⟨output.calls, fun other member => output.jobs other ?_⟩,
        (fun _ _ _ never => by cases never), attempts⟩
      rw [PrettyOutput.jobs, head]
      exact List.mem_append_right _ member
  | prepare job here =>
      refine ⟨output, ?_, attempts⟩
      intro other text count same
      unfold prepare at same
      split at same
      · obtain ⟨rfl, rfl, _⟩ := WriterPhase.writing.inj same
        have hand := tracks.hand
        rw [here] at hand
        refine ⟨output.jobs job ?_, ?_⟩
        · rw [PrettyOutput.jobs, hand]
          exact List.mem_cons_self
        · intro text wanted
          obtain ⟨_, text⟩ := Option.ite_none_right_eq_some.mp wanted
          obtain rfl := Option.some.inj text
          exact summaries _
      · cases same
  | write job summary history times now here =>
      obtain ⟨text, summaryLines⟩ := writing job summary history here
      refine ⟨output, (fun _ _ _ never => by cases never), ?_⟩
      intro attempt member piece own
      rcases List.mem_append.mp member with before | last
      · exact attempts attempt before piece own
      · obtain rfl := List.mem_singleton.mp last
        rcases List.mem_cons.mp own with rfl | second
        · exact text
        · obtain ⟨summary', wanted, rfl⟩ := List.mem_map.mp second
          exact summaryLines summary' (by simpa using wanted)
  | finish job held here holds =>
      refine ⟨⟨output.calls, fun other member => output.jobs other ?_⟩, ?_, attempts⟩
      · exact List.mem_append_right _ member
      · cases job.sync <;> exact fun _ _ _ never => by cases never
  | answer now here => exact ⟨output, (fun _ _ _ never => by cases never), attempts⟩
  | stop handled here still =>
      exact ⟨⟨output.calls, fun other member => by cases member⟩,
        (fun _ _ _ never => by cases never), attempts⟩

theorem lines_run {capacity maxQueuedBytes : ℕ} {device : W} {actions : List (WriterAction E)}
    (summaries : ∀ totals, Complete newline (config.summaryText totals))
    (lined : ∀ action ∈ actions, Lined action)
    (ran : run config capacity maxQueuedBytes device actions = some s) : s.Lines := by
  have kept (before : PrettyWriter W E) (action : WriterAction E) (following : PrettyWriter W E)
      (own : Lined action) (stepped : before.step config action = some following)
      (held : before.Tracks ∧ before.Lines) : following.Tracks ∧ following.Lines :=
    ⟨held.1.step stepped, held.2.step held.1 summaries own stepped⟩
  refine (invariant_run_of Lined kept actions _ _ lined ran
    ⟨tracks_spawned capacity maxQueuedBytes device, ?_⟩).2
  exact ⟨⟨by simp [spawned], by simp [spawned, PrettyOutput.jobs]⟩,
    (fun _ _ _ never => by cases never), by simp [spawned]⟩

end PrettyWriter

/-! ### The files -/

namespace DailyWriter

open Delimited
open TransactionalAppend (Consistent)

variable {names : NaiveDate → String} {before : Disk} {opened : NaiveDate → Prop}
  {acked : NaiveDate → Bytes} {writer reached : DailyWriter}

/-- What was written on a day. -/
def writtenOn (pieces : List (Bytes × NaiveDate)) (date : NaiveDate) : Bytes :=
  ((pieces.filter fun piece => piece.2 = date).map Prod.fst).flatten

theorem writtenOn_append (first second : List (Bytes × NaiveDate)) (date : NaiveDate) :
    writtenOn (first ++ second) date = writtenOn first date ++ writtenOn second date := by
  simp [writtenOn]

theorem writtenOn_singleton (text : Bytes) (day date : NaiveDate) :
    writtenOn [(text, day)] date = if day = date then text else [] := by
  by_cases same : day = date <;> simp [writtenOn, same]

theorem writtenOn_complete {pieces : List (Bytes × NaiveDate)}
    (lines : ∀ piece ∈ pieces, Complete newline piece.1) (date : NaiveDate) :
    Complete newline (writtenOn pieces date) := by
  apply Complete.flatten
  intro text member
  obtain ⟨piece, kept, rfl⟩ := List.mem_map.mp member
  exact lines piece (List.mem_of_mem_filter kept)

theorem flush_remains (writer : DailyWriter) :
    Remains writer (PrettyDevice.flush writer).2 :=
  ⟨writer.handle.stays_attempt (), rfl, rfl, rfl⟩

theorem Kept.flush (kept : Kept names before opened acked writer)
    (distinct : Function.Injective names) :
    Kept names before opened acked (PrettyDevice.flush writer).2 := by
  refine kept.remains distinct (flush_remains writer) (fun _ _ => rfl) ?_
  obtain ⟨past, consistent⟩ := kept.consistent
  refine ⟨past, consistent.of_same ?_ rfl⟩
  change (writer.handle.withDisk writer.handle.flush.2.disk).bytes = writer.handle.bytes
  rw [OpenFile.flush, OpenFile.attempt_snd]
  exact OpenFile.withDisk_advance_bytes _

/-- A text is in the file of its day whole, or not at all. -/
theorem Kept.writeAll (kept : Kept names before opened acked writer)
    (distinct : Function.Injective names) (complete : ∀ date, Complete newline (acked date))
    (text : Bytes) (day : NaiveDate) :
    ∃ later, Kept names before later
      (fun date => acked date ++
        if (PrettyDevice.writeAll writer text day).1.isOk = true then writtenOn [(text, day)] date
        else [])
      (PrettyDevice.writeAll writer text day).2 := by
  simp only [writtenOn_singleton, PrettyDevice.writeAll]
  split
  · rename_i empty
    subst empty
    exact ⟨opened, by simpa [Except.isOk, Except.toBool] using kept⟩
  · have appended := kept.appendAt distinct complete text day
    have same : (fun date => acked date ++
          if (writer.appendAt text day).1.isOk = true then if day = date then text else [] else []) =
        fun date => acked date ++
          if (writer.appendAt text day).1.isOk = true ∧ day = date then text else [] := by
      funext date
      by_cases done : (writer.appendAt text day).1.isOk = true <;> simp [done]
    rw [same]
    exact ⟨_, appended⟩

theorem Kept.congr {other : NaiveDate → Bytes} (kept : Kept names before opened acked writer)
    (same : ∀ date, other date = acked date) : Kept names before opened other writer := by
  rwa [funext same]

/-- One call of `write_blocking` adds what it wrote whole to the file of the day. -/
theorem Kept.writePrettyTo (kept : Kept names before opened acked writer)
    (distinct : Function.Injective names) (complete : ∀ date, Complete newline (acked date))
    {rendered : Bytes} (summary : Option Bytes) (times : NaiveDate × NaiveDate)
    (line : Complete newline rendered) :
    ∃ later, Kept names before later
      (fun date => acked date ++
        writtenOn (OtelLogger.writePrettyTo writer rendered summary times).1.2 date)
      (OtelLogger.writePrettyTo writer rendered summary times).2 := by
  obtain ⟨after, first⟩ := kept.writeAll distinct complete rendered times.1
  simp only [OtelLogger.writePrettyTo]
  generalize PrettyDevice.writeAll writer rendered times.1 = wrote at first ⊢
  rcases wrote with ⟨error | done, middle⟩
  · exact ⟨after, first⟩
  · have whole (date : NaiveDate) :
        Complete newline (acked date ++ writtenOn [(rendered, times.1)] date) := by
      refine (complete date).append (writtenOn_complete ?_ date)
      simpa using line
    cases summary with
    | none => exact ⟨after, first.flush distinct⟩
    | some summary =>
        obtain ⟨last, second⟩ := first.writeAll distinct whole summary times.2
        dsimp only
        generalize PrettyDevice.writeAll middle summary times.2 = wrote at second ⊢
        rcases wrote with ⟨error | done, ends⟩
        · exact ⟨last, second.congr fun date => (List.append_nil _).symm⟩
        · refine ⟨last, (second.flush distinct).congr fun date => ?_⟩
          rw [List.append_assoc]
          exact congrArg _ (writtenOn_append [(rendered, times.1)] [(summary, times.2)] date)

theorem kept_performs {attempts : List (WriteAttempt NaiveDate)} {opened : NaiveDate → Prop}
    (kept : Kept names before opened (fun _ => []) writer) (distinct : Function.Injective names)
    (performs : PrettyWriter.Performs writer attempts reached)
    (lines : ∀ attempt ∈ attempts, ∀ piece ∈ attempt.pieces, Complete newline piece.1) :
    ∃ later, Kept names before later (writtenOn (attempts.flatMap WriteAttempt.wrote)) reached := by
  induction performs with
  | nothing => exact ⟨opened, kept⟩
  | @next attempts middle attempt performs result ih =>
      have earlier : ∀ other ∈ attempts, ∀ piece ∈ other.pieces, Complete newline piece.1 :=
        fun other member => lines other (List.mem_append_left _ member)
      obtain ⟨after, held⟩ := ih earlier
      have complete (date : NaiveDate) :
          Complete newline (writtenOn (attempts.flatMap WriteAttempt.wrote) date) := by
        refine writtenOn_complete ?_ date
        intro piece member
        obtain ⟨other, listed, wrote⟩ := List.mem_flatMap.mp member
        exact earlier other listed piece ((performs.wrote other listed).1.subset wrote)
      have line : Complete newline attempt.job.rendered :=
        lines attempt (List.mem_append_right _ List.mem_cons_self) _ List.mem_cons_self
      obtain ⟨last, next⟩ :=
        held.writePrettyTo distinct complete attempt.summary attempt.times line
      refine ⟨last, next.congr fun date => ?_⟩
      rw [List.flatMap_append, writtenOn_append, result]
      simp

theorem atDate_opened {disk : Disk} {namePrefix : String} {nameSuffix : Option String}
    {date : NaiveDate} {start : DailyWriter}
    (starts : atDate disk namePrefix nameSuffix date = .ok start) :
    start.path = dailyPath namePrefix nameSuffix ∧ start.date = date ∧
      AppendFile.Opened disk (dailyPath namePrefix nameSuffix date) start.file := by
  unfold atDate at starts
  rcases AppendFile.openPath_spec disk (dailyPath namePrefix nameSuffix date) with
    ⟨file, result, opens⟩ | ⟨error, left, result, _⟩
  · rw [result] at starts
    obtain rfl := Except.ok.inj starts
    exact ⟨rfl, rfl, opens⟩
  · rw [result] at starts
    simp at starts

theorem Kept.residual {opened : NaiveDate → Prop} {acked : NaiveDate → Bytes}
    (kept : Kept names before opened acked writer) (date : NaiveDate) :
    (∃ residue, writer.disk.contentAt (names date) =
        some (AppendFile.completeLines before (names date) ++ acked date ++ residue) ∧
        (residue ≠ [] → date = writer.date ∧ writer.rollback ≠ none)) ∨
      (acked date = [] ∧ (writer.disk.contentAt (names date) = before.contentAt (names date) ∨
        writer.disk.contentAt (names date) =
          some (AppendFile.completeLines before (names date)))) := by
  by_cases was : opened date
  · refine Or.inl ?_
    by_cases current : date = writer.date
    · subst current
      obtain ⟨past, consistent⟩ := kept.consistent
      obtain ⟨residue, whole, _⟩ := consistent.residual
      refine ⟨residue, ?_, fun some => ⟨rfl, fun settled => some ?_⟩⟩
      · exact (AppendFile.contentAt_of_named kept.named).trans (congrArg _ whole)
      · have exactly := consistent.unblocked settled
        rw [whole] at exactly
        exact List.append_right_eq_self.mp exactly
    · refine ⟨[], ?_, fun some => absurd rfl some⟩
      rw [List.append_nil]
      exact kept.earlier date was current
  · exact Or.inr (kept.unopened date was)

/-- Over every run of the writer on daily files, whatever fails: a text is in the file of its day
whole or not at all, in the order of the jobs and before its summary, behind the complete lines
from before; a residue stands only at the end of the current file while it waits to be cut. -/
theorem pretty_log_exact (disk : Disk) (namePrefix : String) (nameSuffix : Option String)
    (first : NaiveDate) (start : DailyWriter)
    (starts : atDate disk namePrefix nameSuffix first = .ok start) {config : WriterConfig}
    {capacity maxQueuedBytes : ℕ} {actions : List (WriterAction NaiveDate)}
    {s : PrettyWriter DailyWriter NaiveDate}
    (ran : PrettyWriter.run config capacity maxQueuedBytes start actions = some s)
    (lined : ∀ action ∈ actions, PrettyWriter.Lined action)
    (summaries : ∀ totals, Complete newline (config.summaryText totals)) :
    let name := dailyPath namePrefix nameSuffix
    let written := writtenOn (s.attempts.flatMap WriteAttempt.wrote)
    (∀ attempt ∈ s.attempts, attempt.wrote <+: attempt.pieces ∧
      (attempt.result = .ok () → attempt.wrote = attempt.pieces)) ∧
    ∀ date, (∃ residue, s.device.disk.contentAt (name date) =
        some (AppendFile.completeLines disk (name date) ++ written date ++ residue) ∧
        (residue ≠ [] → date = s.device.date ∧ s.device.rollback ≠ none)) ∨
      (written date = [] ∧ (s.device.disk.contentAt (name date) = disk.contentAt (name date) ∨
        s.device.disk.contentAt (name date) =
          some (AppendFile.completeLines disk (name date)))) := by
  have distinct := dailyPath_injective namePrefix nameSuffix
  have performs := (PrettyWriter.sound_run ran).performs
  intro name written
  refine ⟨performs.wrote, ?_⟩
  obtain ⟨paths, date, opens⟩ := atDate_opened starts
  rw [← date] at opens
  have begun : Kept name disk (start.opened []) (fun _ => []) start :=
    kept_run distinct paths opens [] (by simp)
  have lines := (PrettyWriter.lines_run summaries lined ran).attempts
  obtain ⟨later, kept⟩ := kept_performs begun distinct performs lines
  exact kept.residual

/-- The second summary fails on the way, after the clock went past midnight. -/
def pastMidnight : List (WriterAction NaiveDate) :=
  let january : NaiveDate := ⟨2026, 1, 1, by decide, by decide⟩
  let february : NaiveDate := ⟨2026, 2, 1, by decide, by decide⟩
  List.flatten [
    PrettyWriter.queues 0 [97, 10] true,
    PrettyWriter.queues 1 [98, 10] true,
    [.receive, .prepare, .write (january, january) 1, .finish],
    [.receive, .prepare, .write (january, february) 2, .finish]]

def dailySummary : WriterConfig where
  target := .file
  summaryText _ := [115, 10]

theorem pretty_log_exact_pastMidnight :
    let january : NaiveDate := ⟨2026, 1, 1, by decide, by decide⟩
    let disk := Disk.blank
      (List.replicate 15 .done ++ [.short 1, .failed (.os 28), .failed (.os 5)])
    ∃ start s, atDate disk "otel-logger.pretty" (some "log") january = .ok start ∧
      PrettyWriter.run dailySummary 256 (64 * 1024 * 1024) start pastMidnight = some s ∧
      s.attempts.length = 2 ∧ s.device.rollback = some 0 ∧
      ∀ attempt ∈ s.attempts, attempt.wrote <+: attempt.pieces ∧
        (attempt.result = .ok () → attempt.wrote = attempt.pieces) := by
  intro january disk
  have facts : ((atDate disk "otel-logger.pretty" (some "log") january).toOption.any fun start =>
      (PrettyWriter.run dailySummary 256 (64 * 1024 * 1024) start pastMidnight).any fun s =>
        s.attempts.length = 2 ∧ s.device.rollback = some 0) = true := by
    decide +kernel
  obtain ⟨start, opened, facts⟩ := (Option.any_eq_true _ _).mp facts
  obtain ⟨s, ran, facts⟩ := (Option.any_eq_true _ _).mp facts
  obtain ⟨two, rollback⟩ := of_decide_eq_true facts
  have starts : atDate disk "otel-logger.pretty" (some "log") january = .ok start := by
    cases result : atDate disk "otel-logger.pretty" (some "log") january with
    | error => simp [result, Except.toOption] at opened
    | ok other => simpa [result, Except.toOption] using opened
  have lined : ∀ action ∈ pastMidnight, PrettyWriter.Lined action := by
    simp only [pastMidnight, PrettyWriter.queues, List.flatten_cons, List.forall_mem_append,
      List.forall_mem_cons, PrettyWriter.Lined, PrettyOutput.PrettyAction.Lined]
    have first : Complete newline [97, 10] := Or.inr ⟨[97], rfl⟩
    have second : Complete newline [98, 10] := Or.inr ⟨[98], rfl⟩
    simp [first, second]
  exact ⟨start, s, starts, ran, two, rollback,
    (pretty_log_exact disk "otel-logger.pretty" (some "log") january start starts ran lined
      fun _ => Or.inr ⟨[115], rfl⟩).1⟩

end DailyWriter

end OtelLogger
