import OtelLogger.AggregatorRun
import OtelLogger.Library.Interleaving

/-!
The sink: calls of `record_with_permit`, each with the save task it may spawn, and one shutdown.
The tasks take their steps in any order; a caller may be dropped wherever it awaits, and its task
goes on. The admission lock lets in many readers or one writer.
-/

namespace OtelLogger

open Interleaving

abbrev TelemetryRecord := Call

structure SinkSettings where
  jsonl : Bool
  stdout : Bool
  prettyLog : Bool
  summaryEnabled : Bool
  proxy : Bool

inductive Caller where
  | waiting
  | guarded
  | joining
  | returned (ok : Bool)
  | cancelled
  deriving DecidableEq

/-- The task that runs `record_admitted`, by what it does next. -/
inductive SaveTask where
  | saving
  | counting
  | queueing (samplesPresent : Bool)
  | notifying
  | finished (ok : Bool)
  deriving DecidableEq

def SaveTask.running : SaveTask → Bool
  | finished _ => false
  | _ => true

/-- The guard is held by the call until it spawns, and then by the task; it reads the value that
admission had when it was taken. -/
structure RecordCall where
  record : TelemetryRecord
  guard : Option Bool := none
  caller : Caller := .waiting
  task : Option SaveTask := none

structure PrettyJob where
  id : ℕ
  record : TelemetryRecord
  wantSummary : Bool

/-- How far `shutdown` has come; it holds the write guard from `locked` until it returns. -/
inductive Shutdown where
  | notCalled
  | waiting
  | locked
  | closed
  | flushing
  | draining (flushed : Bool)
  | returned (ok : Bool)
  deriving DecidableEq

def Shutdown.writeHeld : Shutdown → Bool
  | locked | closed | flushing | draining _ => true
  | _ => false

structure Sink where
  settings : SinkSettings
  admission : Bool := true
  shutdown : Shutdown := .notCalled
  calls : List RecordCall := []
  aggregator : AggregatorInner := Aggregator.new
  /-- The calls whose line was written, those whose write failed, those ingested and those
  handed to the proxy, in the order this happened. -/
  written : List (ℕ × TelemetryRecord) := []
  failed : List (ℕ × TelemetryRecord) := []
  ingested : List (ℕ × TelemetryRecord) := []
  queued : List PrettyJob := []
  forwarded : List (ℕ × TelemetryRecord) := []

inductive CallAction where
  | takeGuard
  | check
  | cancel
  | write (ok : Bool)
  | ingest
  | queuePretty
  | notify
  | respond
  deriving DecidableEq

inductive ShutdownAction where
  | begin
  | lock
  | close
  | startFlush
  | endFlush (ok : Bool)
  | endDrain
  deriving DecidableEq

inductive SinkAction where
  | call (record : TelemetryRecord)
  | act (id : ℕ) (action : CallAction)
  | shutdown (action : ShutdownAction)

/-- The next stage of a call, when the action is its turn. Between the guard and the spawn
nothing is awaited, so a caller cannot be cancelled there. -/
def RecordCall.next (s : Sink) (call : RecordCall) : CallAction → Option RecordCall
  | .takeGuard =>
      if call.caller = .waiting ∧ s.shutdown.writeHeld = false then
        some { call with guard := some s.admission, caller := .guarded }
      else none
  | .check =>
      if call.caller = .guarded then
        if call.guard = some true then
          some { call with caller := .joining, task := some .saving }
        else some { call with guard := none, caller := .returned false }
      else none
  | .cancel =>
      if call.caller = .waiting ∨ call.caller = .joining then
        some { call with caller := .cancelled }
      else none
  | .write ok =>
      if call.task = some .saving then
        if s.settings.jsonl = true ∧ ok = false then
          some { call with guard := none, task := some (.finished false) }
        else some { call with task := some .counting }
      else none
  | .ingest =>
      if call.task = some .counting then
        some
          { call with
            task := some (.queueing ((Aggregator.ingest s.aggregator call.record).2 ≠ 0)) }
      else none
  | .queuePretty =>
      match call.task with
      | some (.queueing _) => some { call with task := some .notifying }
      | _ => none
  | .notify =>
      if call.task = some .notifying then
        some { call with guard := none, task := some (.finished true) }
      else none
  | .respond =>
      match call.caller, call.task with
      | .joining, some (.finished ok) => some { call with caller := .returned ok }
      | _, _ => none

namespace Sink

def opened (settings : SinkSettings) : Sink := { settings := settings }

def effect (s : Sink) (id : ℕ) (call : RecordCall) : CallAction → Sink
  | .write ok =>
      if s.settings.jsonl then
        if ok then { s with written := s.written ++ [(id, call.record)] }
        else { s with failed := s.failed ++ [(id, call.record)] }
      else s
  | .ingest =>
      { s with
        aggregator := (Aggregator.ingest s.aggregator call.record).1
        ingested := s.ingested ++ [(id, call.record)] }
  | .queuePretty =>
      if s.settings.stdout || s.settings.prettyLog then
        let wantSummary := call.task = some (.queueing true) ∧ s.settings.summaryEnabled = true
        { s with
          queued :=
            s.queued ++ [{ id := id, record := call.record, wantSummary := wantSummary }] }
      else s
  | .notify =>
      if s.settings.proxy then { s with forwarded := s.forwarded ++ [(id, call.record)] } else s
  | _ => s

def shut (s : Sink) : ShutdownAction → Option Sink
  | .begin => if s.shutdown = .notCalled then some { s with shutdown := .waiting } else none
  | .lock =>
      if s.shutdown = .waiting ∧ ∀ call ∈ s.calls, call.guard = none then
        some { s with shutdown := .locked }
      else none
  | .close =>
      if s.shutdown = .locked then some { s with admission := false, shutdown := .closed }
      else none
  | .startFlush => if s.shutdown = .closed then some { s with shutdown := .flushing } else none
  | .endFlush ok =>
      if s.shutdown = .flushing then some { s with shutdown := .draining ok } else none
  | .endDrain =>
      match s.shutdown with
      | .draining flushed => some { s with shutdown := .returned flushed }
      | _ => none

def step (s : Sink) : SinkAction → Option Sink
  | .call record => some { s with calls := s.calls ++ [{ record := record }] }
  | .act id action =>
      s.calls[id]?.bind fun call =>
        (call.next s action).map fun next =>
          { s.effect id call action with calls := s.calls.set id next }
  | .shutdown action => s.shut action

def run (settings : SinkSettings) (actions : List SinkAction) : Option Sink :=
  runFrom step (opened settings) actions

end Sink

/-! ### What a call can do -/

/-- The steps of a call, one constructor for each branch. -/
inductive RecordCall.Moves (s : Sink) (call : RecordCall) : CallAction → RecordCall → Prop where
  | takeGuard (waits : call.caller = .waiting) (free : s.shutdown.writeHeld = false) :
      Moves s call .takeGuard { call with guard := some s.admission, caller := .guarded }
  | spawn (holds : call.caller = .guarded) (admitted : call.guard = some true) :
      Moves s call .check { call with caller := .joining, task := some .saving }
  | refuse (holds : call.caller = .guarded) (late : call.guard ≠ some true) :
      Moves s call .check { call with guard := none, caller := .returned false }
  | cancel (awaits : call.caller = .waiting ∨ call.caller = .joining) :
      Moves s call .cancel { call with caller := .cancelled }
  | fail (saves : call.task = some .saving) (jsonl : s.settings.jsonl = true) :
      Moves s call (.write false) { call with guard := none, task := some (.finished false) }
  | persist (ok : Bool) (saves : call.task = some .saving)
      (kept : ¬(s.settings.jsonl = true ∧ ok = false)) :
      Moves s call (.write ok) { call with task := some .counting }
  | ingest (counts : call.task = some .counting) :
      Moves s call .ingest
        { call with
          task := some (.queueing ((Aggregator.ingest s.aggregator call.record).2 ≠ 0)) }
  | queuePretty (samplesPresent : Bool) (queues : call.task = some (.queueing samplesPresent)) :
      Moves s call .queuePretty { call with task := some .notifying }
  | notify (notifies : call.task = some .notifying) :
      Moves s call .notify { call with guard := none, task := some (.finished true) }
  | respond (ok : Bool) (joins : call.caller = .joining)
      (done : call.task = some (.finished ok)) :
      Moves s call .respond { call with caller := .returned ok }

theorem RecordCall.moves_of_next {s : Sink} {call new : RecordCall} {action : CallAction}
    (moved : call.next s action = some new) : call.Moves s action new := by
  cases action with
  | takeGuard =>
      obtain ⟨⟨waits, free⟩, result⟩ := Option.ite_none_right_eq_some.mp moved
      obtain rfl := Option.some.inj result
      exact .takeGuard waits free
  | check =>
      obtain ⟨holds, spawned⟩ := Option.ite_none_right_eq_some.mp moved
      split at spawned
      · rename_i admitted
        obtain rfl := Option.some.inj spawned
        exact .spawn holds admitted
      · rename_i late
        obtain rfl := Option.some.inj spawned
        exact .refuse holds late
  | cancel =>
      obtain ⟨awaits, result⟩ := Option.ite_none_right_eq_some.mp moved
      obtain rfl := Option.some.inj result
      exact .cancel awaits
  | write ok =>
      obtain ⟨saves, wrote⟩ := Option.ite_none_right_eq_some.mp moved
      split at wrote
      · rename_i failed
        obtain ⟨jsonl, rfl⟩ := failed
        obtain rfl := Option.some.inj wrote
        exact .fail saves jsonl
      · rename_i kept
        obtain rfl := Option.some.inj wrote
        exact .persist ok saves kept
  | ingest =>
      obtain ⟨counts, result⟩ := Option.ite_none_right_eq_some.mp moved
      obtain rfl := Option.some.inj result
      exact .ingest counts
  | queuePretty =>
      simp only [RecordCall.next] at moved
      split at moved
      · rename_i samplesPresent queues
        obtain rfl := Option.some.inj moved
        exact .queuePretty samplesPresent queues
      · simp at moved
  | notify =>
      obtain ⟨notifies, result⟩ := Option.ite_none_right_eq_some.mp moved
      obtain rfl := Option.some.inj result
      exact .notify notifies
  | respond =>
      simp only [RecordCall.next] at moved
      split at moved
      · rename_i ok joins done
        obtain rfl := Option.some.inj moved
        exact .respond ok joins done
      · simp at moved

namespace RecordCall

def reached (mark : SaveTask → Bool) (call : RecordCall) : Bool :=
  call.task.any mark

/-- The guard goes from the caller to the task, and is dropped when either ends. -/
def Valid (call : RecordCall) : Prop :=
  match call.task with
  | none =>
      (call.caller = .guarded ∧ call.guard ≠ none) ∨
        (call.guard = none ∧
          (call.caller = .waiting ∨ call.caller = .returned false ∨ call.caller = .cancelled))
  | some (.finished ok) =>
      call.guard = none ∧
        (call.caller = .joining ∨ call.caller = .cancelled ∨ call.caller = .returned ok)
  | some _ => call.guard = some true ∧ (call.caller = .joining ∨ call.caller = .cancelled)

variable {s : Sink} {call new : RecordCall} {action : CallAction}

theorem Valid.task_none (valid : call.Valid)
    (before : call.caller = .waiting ∨ call.caller = .guarded) : call.task = none := by
  unfold Valid at valid
  split at valid
  · assumption
  · rcases before with before | before <;> simp [before] at valid
  · rcases before with before | before <;> simp [before] at valid

theorem Moves.record (moves : call.Moves s action new) : new.record = call.record := by
  cases moves <;> rfl

theorem Moves.valid (moves : call.Moves s action new) (valid : call.Valid) : new.Valid := by
  cases moves with
  | takeGuard waits free =>
      have none := valid.task_none (Or.inl waits)
      simp [Valid, none]
  | spawn holds admitted => simp [Valid, admitted]
  | refuse holds late =>
      have none := valid.task_none (Or.inr holds)
      simp [Valid, none]
  | cancel awaits =>
      unfold Valid at valid ⊢
      split at valid <;> rename_i task <;> simp only [task]
      · rcases awaits with awaits | awaits
        · simpa [awaits] using valid
        · simp [awaits] at valid
      · exact ⟨valid.1, Or.inr (Or.inl trivial)⟩
      · exact ⟨valid.1, Or.inr trivial⟩
  | fail saves jsonl =>
      simp only [Valid, saves] at valid ⊢
      exact ⟨trivial, valid.2.imp_right Or.inl⟩
  | persist ok saves kept => simpa [Valid, saves] using valid
  | ingest counts => simpa [Valid, counts] using valid
  | queuePretty samplesPresent queues => simpa [Valid, queues] using valid
  | notify notifies =>
      simp only [Valid, notifies] at valid ⊢
      exact ⟨trivial, valid.2.imp_right Or.inl⟩
  | respond ok joins done =>
      simp only [Valid, done] at valid ⊢
      exact ⟨valid.1, Or.inr (Or.inr trivial)⟩

end RecordCall

/-! ### Runs of the sink -/

namespace SaveTask

def persisted : SaveTask → Bool
  | counting | queueing _ | notifying | finished true => true
  | _ => false

def failed : SaveTask → Bool
  | finished false => true
  | _ => false

def counted : SaveTask → Bool
  | queueing _ | notifying | finished true => true
  | _ => false

theorem persisted_of_counted {task : SaveTask} (counts : task.counted = true) :
    task.persisted = true := by
  cases task with
  | finished ok =>
      cases ok with
      | false => simp [counted] at counts
      | true => rfl
  | saving | counting => simp [counted] at counts
  | _ => rfl

theorem counted_of_failed {task : SaveTask} (fails : task.failed = true) :
    task.counted = false := by
  cases task with
  | finished ok =>
      cases ok with
      | false => rfl
      | true => simp [failed] at fails
  | _ => simp [failed] at fails

theorem counted_of_ended {task : SaveTask} (ended : task.running = false) :
    task.counted = task.persisted := by
  cases task with
  | finished ok => cases ok <;> rfl
  | _ => simp [running] at ended

end SaveTask

/-- The logs tell how far each task has come, and the totals are those of the ingested records. -/
structure Sink.Coherent (s : Sink) : Prop where
  valid : ∀ call ∈ s.calls, call.Valid
  written : s.settings.jsonl = true →
    Logged s.written s.calls RecordCall.record (RecordCall.reached SaveTask.persisted)
  unwritten : s.settings.jsonl = false → s.written = []
  failed : Logged s.failed s.calls RecordCall.record (RecordCall.reached SaveTask.failed)
  ingested : Logged s.ingested s.calls RecordCall.record (RecordCall.reached SaveTask.counted)
  queued : ∀ job ∈ s.queued, (job.id, job.record) ∈ s.ingested
  forwarded : ∀ entry ∈ s.forwarded, entry ∈ s.ingested
  totals : s.aggregator = Aggregator.run (s.ingested.map Prod.snd)

section Marks

variable {s : Sink} {call new : RecordCall} {action : CallAction}

theorem RecordCall.reached_none {mark : SaveTask → Bool} (idle : call.task = none) :
    call.reached mark = false := by
  simp [RecordCall.reached, idle]

theorem RecordCall.reached_some {mark : SaveTask → Bool} {task : SaveTask}
    (own : call.task = some task) : call.reached mark = mark task := by
  simp [RecordCall.reached, own]

theorem RecordCall.reached_iff {mark : SaveTask → Bool} :
    call.reached mark = true ↔ ∃ task, call.task = some task ∧ mark task = true := by
  cases own : call.task <;> simp [RecordCall.reached, own]

theorem Logged.moved {log next : List (ℕ × TelemetryRecord)} {mark : SaveTask → Bool} {id : ℕ}
    (logged : Logged log s.calls RecordCall.record (RecordCall.reached mark))
    (found : s.calls[id]? = some call) (record : new.record = call.record)
    (moved : (new.reached mark = call.reached mark ∧ next = log) ∨
      (call.reached mark = false ∧ new.reached mark = true ∧
        next = log ++ [(id, call.record)])) :
    Logged next (s.calls.set id new) RecordCall.record (RecordCall.reached mark) := by
  rcases moved with ⟨same, rfl⟩ | ⟨before, after, rfl⟩
  · exact logged.keep found record same
  · exact logged.pass found record before after

/-- A move leaves the marks of the task and the logs alone, or takes the task past the one step
that its log tells of. -/
theorem RecordCall.Moves.mark_cases (moves : call.Moves s action new) (id : ℕ)
    (valid : call.Valid) :
    ((new.reached SaveTask.persisted = call.reached SaveTask.persisted ∧
        new.reached SaveTask.failed = call.reached SaveTask.failed ∧
        new.reached SaveTask.counted = call.reached SaveTask.counted) ∧
      (s.effect id call action).written = s.written ∧
      (s.effect id call action).failed = s.failed ∧
      (s.effect id call action).ingested = s.ingested ∧
      (s.effect id call action).aggregator = s.aggregator) ∨
    (call.task = some .saving ∧ new.task = some (.finished false) ∧
      s.effect id call action = { s with failed := s.failed ++ [(id, call.record)] }) ∨
    (call.task = some .saving ∧ new.task = some .counting ∧
      s.effect id call action =
        if s.settings.jsonl then { s with written := s.written ++ [(id, call.record)] } else s) ∨
    (call.task = some .counting ∧ (∃ samplesPresent, new.task = some (.queueing samplesPresent)) ∧
      s.effect id call action =
        { s with
          ingested := s.ingested ++ [(id, call.record)]
          aggregator := (Aggregator.ingest s.aggregator call.record).1 }) := by
  cases moves with
  | takeGuard | refuse | cancel | respond => exact Or.inl ⟨⟨rfl, rfl, rfl⟩, rfl, rfl, rfl, rfl⟩
  | spawn holds admitted =>
      have idle := valid.task_none (Or.inr holds)
      refine Or.inl ⟨?_, rfl, rfl, rfl, rfl⟩
      rw [reached_none idle, reached_none idle, reached_none idle]
      exact ⟨rfl, rfl, rfl⟩
  | fail saves jsonl =>
      refine Or.inr (Or.inl ⟨saves, rfl, ?_⟩)
      simp [Sink.effect, jsonl]
  | persist ok saves kept =>
      refine Or.inr (Or.inr (Or.inl ⟨saves, rfl, ?_⟩))
      simp only [Sink.effect]
      split
      · rename_i jsonl
        have written : ok = true := by
          by_contra missed
          exact kept ⟨jsonl, by simpa using missed⟩
        rw [if_pos written]
      · rfl
  | ingest counts => exact Or.inr (Or.inr (Or.inr ⟨counts, ⟨_, rfl⟩, rfl⟩))
  | queuePretty samplesPresent queues =>
      refine Or.inl ⟨?_, ?_⟩
      · rw [reached_some queues, reached_some queues, reached_some queues]
        exact ⟨rfl, rfl, rfl⟩
      · simp only [Sink.effect]
        split <;> exact ⟨rfl, rfl, rfl, rfl⟩
  | notify notifies =>
      refine Or.inl ⟨?_, ?_⟩
      · rw [reached_some notifies, reached_some notifies, reached_some notifies]
        exact ⟨rfl, rfl, rfl⟩
      · simp only [Sink.effect]
        split <;> exact ⟨rfl, rfl, rfl, rfl⟩

theorem RecordCall.Moves.persisted (moves : call.Moves s action new) (id : ℕ)
    (valid : call.Valid) (jsonl : s.settings.jsonl = true) :
    (new.reached SaveTask.persisted = call.reached SaveTask.persisted ∧
        (s.effect id call action).written = s.written) ∨
      (call.reached SaveTask.persisted = false ∧ new.reached SaveTask.persisted = true ∧
        (s.effect id call action).written = s.written ++ [(id, call.record)]) := by
  rcases moves.mark_cases id valid with
    ⟨same, logs⟩ | ⟨saves, fails, next⟩ | ⟨saves, counts, next⟩ | ⟨counts, ⟨_, queues⟩, next⟩
  · exact Or.inl ⟨same.1, logs.1⟩
  · refine Or.inl ⟨?_, by rw [next]⟩
    rw [reached_some saves, reached_some fails]
    rfl
  · refine Or.inr ⟨reached_some saves, reached_some counts, ?_⟩
    rw [next, if_pos jsonl]
  · refine Or.inl ⟨?_, by rw [next]⟩
    rw [reached_some counts, reached_some queues]
    rfl

theorem RecordCall.Moves.failed (moves : call.Moves s action new) (id : ℕ)
    (valid : call.Valid) :
    (new.reached SaveTask.failed = call.reached SaveTask.failed ∧
        (s.effect id call action).failed = s.failed) ∨
      (call.reached SaveTask.failed = false ∧ new.reached SaveTask.failed = true ∧
        (s.effect id call action).failed = s.failed ++ [(id, call.record)]) := by
  rcases moves.mark_cases id valid with
    ⟨same, logs⟩ | ⟨saves, fails, next⟩ | ⟨saves, counts, next⟩ | ⟨counts, ⟨_, queues⟩, next⟩
  · exact Or.inl ⟨same.2.1, logs.2.1⟩
  · exact Or.inr ⟨reached_some saves, reached_some fails, by rw [next]⟩
  · refine Or.inl ⟨?_, ?_⟩
    · rw [reached_some saves, reached_some counts]
      rfl
    · rw [next]
      split <;> rfl
  · refine Or.inl ⟨?_, by rw [next]⟩
    rw [reached_some counts, reached_some queues]
    rfl

theorem RecordCall.Moves.counted (moves : call.Moves s action new) (id : ℕ)
    (valid : call.Valid) :
    (new.reached SaveTask.counted = call.reached SaveTask.counted ∧
        (s.effect id call action).ingested = s.ingested ∧
        (s.effect id call action).aggregator = s.aggregator) ∨
      (call.reached SaveTask.counted = false ∧ new.reached SaveTask.counted = true ∧
        (s.effect id call action).ingested = s.ingested ++ [(id, call.record)] ∧
        (s.effect id call action).aggregator =
          (Aggregator.ingest s.aggregator call.record).1) := by
  rcases moves.mark_cases id valid with
    ⟨same, logs⟩ | ⟨saves, fails, next⟩ | ⟨saves, counts, next⟩ | ⟨counts, ⟨_, queues⟩, next⟩
  · exact Or.inl ⟨same.2.2, logs.2.2⟩
  · refine Or.inl ⟨?_, by rw [next], by rw [next]⟩
    rw [reached_some saves, reached_some fails]
    rfl
  · refine Or.inl ⟨?_, ?_⟩
    · rw [reached_some saves, reached_some counts]
      rfl
    · rw [next]
      split <;> exact ⟨rfl, rfl⟩
  · exact Or.inr ⟨reached_some counts, reached_some queues, by rw [next], by rw [next]⟩

theorem Sink.effect_fixed (s : Sink) (id : ℕ) (call : RecordCall) (action : CallAction) :
    (s.effect id call action).settings = s.settings ∧
      (s.effect id call action).admission = s.admission ∧
      (s.effect id call action).shutdown = s.shutdown := by
  cases action with
  | write ok =>
      simp only [Sink.effect]
      split
      · split <;> exact ⟨rfl, rfl, rfl⟩
      · exact ⟨rfl, rfl, rfl⟩
  | queuePretty | notify =>
      simp only [Sink.effect]
      split <;> exact ⟨rfl, rfl, rfl⟩
  | _ => exact ⟨rfl, rfl, rfl⟩

theorem Sink.effect_unwritten {s : Sink} (bare : s.settings.jsonl = false) (id : ℕ)
    (call : RecordCall) (action : CallAction) : (s.effect id call action).written = s.written := by
  cases action with
  | write ok => simp [Sink.effect, bare]
  | queuePretty | notify =>
      simp only [Sink.effect]
      split <;> rfl
  | _ => rfl

/-- Only a write that succeeds is noted as written. -/
theorem Sink.effect_written (s : Sink) (id : ℕ) (call : RecordCall) (action : CallAction) :
    (s.effect id call action).written = s.written ∨
      action = .write true ∧
        (s.effect id call action).written = s.written ++ [(id, call.record)] := by
  cases action with
  | write ok =>
      cases ok with
      | false =>
          refine Or.inl ?_
          simp only [Sink.effect]
          split <;> rfl
      | true =>
          cases jsonl : s.settings.jsonl with
          | false => exact Or.inl (by simp [Sink.effect, jsonl])
          | true => exact Or.inr ⟨rfl, by simp [Sink.effect, jsonl]⟩
  | queuePretty | notify =>
      refine Or.inl ?_
      simp only [Sink.effect]
      split <;> rfl
  | _ => exact Or.inl rfl

/-- Only queueing hands a job over, and only the proxy step a batch; both come after the
record was ingested. -/
theorem Sink.effect_handed (s : Sink) (id : ℕ) (call : RecordCall) (action : CallAction) :
    (∀ job ∈ (s.effect id call action).queued, job ∈ s.queued ∨
      (action = .queuePretty ∧ job.id = id ∧ job.record = call.record)) ∧
    ∀ entry ∈ (s.effect id call action).forwarded, entry ∈ s.forwarded ∨
      (action = .notify ∧ entry = (id, call.record)) := by
  cases action with
  | write ok =>
      simp only [Sink.effect]
      split
      · split <;> exact ⟨fun _ => Or.inl, fun _ => Or.inl⟩
      · exact ⟨fun _ => Or.inl, fun _ => Or.inl⟩
  | queuePretty =>
      simp only [Sink.effect]
      split
      · refine ⟨?_, fun _ => Or.inl⟩
        intro job member
        rcases List.mem_append.mp member with before | own
        · exact Or.inl before
        · obtain rfl := List.mem_singleton.mp own
          exact Or.inr ⟨trivial, rfl, rfl⟩
      · exact ⟨fun _ => Or.inl, fun _ => Or.inl⟩
  | notify =>
      simp only [Sink.effect]
      split
      · refine ⟨fun _ => Or.inl, ?_⟩
        intro entry member
        rcases List.mem_append.mp member with before | own
        · exact Or.inl before
        · exact Or.inr ⟨trivial, List.mem_singleton.mp own⟩
      · exact ⟨fun _ => Or.inl, fun _ => Or.inl⟩
  | _ => exact ⟨fun _ => Or.inl, fun _ => Or.inl⟩

end Marks

theorem Sink.step_cases {s next : Sink} {action : SinkAction} (taken : s.step action = some next) :
    (∃ record, action = .call record ∧
      next = { s with calls := s.calls ++ [{ record := record }] }) ∨
    (∃ id move call new, action = .act id move ∧ s.calls[id]? = some call ∧
      call.Moves s move new ∧
      next = { s.effect id call move with calls := s.calls.set id new }) ∨
    ∃ move, action = .shutdown move ∧ s.shut move = some next := by
  cases action with
  | call record => exact Or.inl ⟨record, rfl, (Option.some.inj taken).symm⟩
  | act id move =>
      obtain ⟨call, found, moved⟩ := Option.bind_eq_some_iff.mp taken
      obtain ⟨new, stepped, rfl⟩ := Option.map_eq_some_iff.mp moved
      exact Or.inr (Or.inl
        ⟨id, move, call, new, rfl, found, RecordCall.moves_of_next stepped, rfl⟩)
  | shutdown move => exact Or.inr (Or.inr ⟨move, rfl, taken⟩)

theorem Sink.shut_eq {s next : Sink} {move : ShutdownAction} (taken : s.shut move = some next) :
    next = { s with admission := next.admission, shutdown := next.shutdown } := by
  cases move <;> simp only [Sink.shut] at taken <;> split at taken <;>
    first
      | (obtain rfl := Option.some.inj taken; rfl)
      | simp at taken

theorem mem_set_of_found {τ : Type*} {pool : List τ} {id : ℕ} {new member : τ}
    (set : member ∈ pool.set id new) : member = new ∨ member ∈ pool :=
  (List.mem_or_eq_of_mem_set set).symm

theorem Sink.Coherent.step {s next : Sink} {action : SinkAction}
    (taken : s.step action = some next) (coherent : s.Coherent) : next.Coherent := by
  rcases Sink.step_cases taken with
    ⟨record, rfl, rfl⟩ | ⟨id, move, call, new, rfl, found, moves, rfl⟩ | ⟨move, rfl, shut⟩
  · refine ⟨?_, fun jsonl => (coherent.written jsonl).join rfl, coherent.unwritten,
      coherent.failed.join rfl, coherent.ingested.join rfl, coherent.queued, coherent.forwarded,
      coherent.totals⟩
    intro call member
    rcases List.mem_append.mp member with before | own
    · exact coherent.valid call before
    · obtain rfl := List.mem_singleton.mp own
      simp [RecordCall.Valid]
  · have valid := coherent.valid call (List.mem_of_getElem? found)
    obtain ⟨settings, _, _⟩ := Sink.effect_fixed s id call move
    obtain ⟨queued, forwarded⟩ := Sink.effect_handed s id call move
    have counted := moves.counted id valid
    have kept : ∀ entry ∈ s.ingested, entry ∈ (s.effect id call move).ingested := by
      intro entry member
      rcases counted with ⟨_, same, _⟩ | ⟨_, _, grown, _⟩
      · rwa [same]
      · rw [grown]
        exact List.mem_append_left _ member
    have own (task : SaveTask) (due : call.task = some task) (counts : task.counted = true) :
        (id, call.record) ∈ (s.effect id call move).ingested :=
      kept _ (coherent.ingested.mem_of_found found ((RecordCall.reached_some due).trans counts))
    refine ⟨?_, ?_, ?_, ?_, ?_, ?_, ?_, ?_⟩
    · intro other member
      rcases mem_set_of_found member with rfl | before
      · exact moves.valid valid
      · exact coherent.valid other before
    · intro jsonl
      replace jsonl : s.settings.jsonl = true := settings ▸ jsonl
      exact Logged.moved (coherent.written jsonl) found moves.record
        (moves.persisted id valid jsonl)
    · intro bare
      replace bare : s.settings.jsonl = false := settings ▸ bare
      exact (Sink.effect_unwritten bare id call move).trans (coherent.unwritten bare)
    · exact Logged.moved coherent.failed found moves.record (moves.failed id valid)
    · refine Logged.moved coherent.ingested found moves.record ?_
      exact counted.imp (fun same => ⟨same.1, same.2.1⟩)
        fun passed => ⟨passed.1, passed.2.1, passed.2.2.1⟩
    · intro job member
      rcases queued job member with before | ⟨rfl, sameId, sameRecord⟩
      · exact kept _ (coherent.queued job before)
      · rw [sameId, sameRecord]
        cases moves with
        | queuePretty samplesPresent queues => exact own _ queues rfl
    · intro entry member
      rcases forwarded entry member with before | ⟨rfl, rfl⟩
      · exact kept _ (coherent.forwarded entry before)
      · cases moves with
        | notify notifies => exact own _ notifies rfl
    · rcases counted with ⟨_, same, totals⟩ | ⟨_, _, grown, totals⟩
      · rw [same, totals]
        exact coherent.totals
      · rw [grown, totals, coherent.totals, List.map_append, Aggregator.run, Aggregator.run,
          List.foldl_append]
        rfl
  · rw [Sink.shut_eq shut]
    exact ⟨coherent.valid, coherent.written, coherent.unwritten, coherent.failed,
      coherent.ingested, coherent.queued, coherent.forwarded, coherent.totals⟩

theorem Sink.coherent_opened (settings : SinkSettings) : (Sink.opened settings).Coherent where
  valid call member := by simp [Sink.opened] at member
  written _ := Logged.empty
  unwritten _ := rfl
  failed := Logged.empty
  ingested := Logged.empty
  queued job member := by simp [Sink.opened] at member
  forwarded entry member := by simp [Sink.opened] at member
  totals := rfl

theorem Sink.coherent_run {settings : SinkSettings} {actions : List SinkAction} {s : Sink}
    (ran : Sink.run settings actions = some s) : s.Coherent :=
  invariant_run (fun _ _ _ taken => Sink.Coherent.step taken) actions _ _ ran
    (Sink.coherent_opened settings)

theorem Sink.settings_run {settings : SinkSettings} {actions : List SinkAction} {s : Sink}
    (ran : Sink.run settings actions = some s) : s.settings = settings := by
  have kept (before : Sink) (action : SinkAction) (next : Sink)
      (taken : before.step action = some next) (same : before.settings = settings) :
      next.settings = settings := by
    rcases Sink.step_cases taken with
      ⟨record, rfl, rfl⟩ | ⟨id, move, call, new, rfl, _, _, rfl⟩ | ⟨move, rfl, shut⟩
    · exact same
    · exact (Sink.effect_fixed before id call move).1.trans same
    · rw [Sink.shut_eq shut]
      exact same
  exact invariant_run kept actions _ _ ran rfl

def Sink.Idle (s : Sink) : Prop :=
  ∀ call ∈ s.calls, ∀ task, call.task = some task → task.running = false

theorem RecordCall.Valid.returned {call : RecordCall} (valid : call.Valid)
    (answered : call.caller = .returned true) : call.task = some (.finished true) := by
  unfold RecordCall.Valid at valid
  split at valid
  · simp [answered] at valid
  · rename_i ok own
    simp only [answered, reduceCtorEq, false_or, Caller.returned.injEq] at valid
    rw [own, ← valid.2]
  · simp [answered] at valid

theorem Sink.step_act {s : Sink} {id : ℕ} {call new : RecordCall} {action : CallAction}
    (found : s.calls[id]? = some call) (moved : call.next s action = some new) :
    s.step (.act id action) =
      some { s.effect id call action with calls := s.calls.set id new } := by
  simp [Sink.step, found, moved]

theorem Sink.act_cases {s next : Sink} {id : ℕ} {action : CallAction}
    (taken : s.step (.act id action) = some next) :
    ∃ call, s.calls[id]? = some call ∧ ∃ new, call.Moves s action new := by
  obtain ⟨call, found, moved⟩ := Option.bind_eq_some_iff.mp taken
  obtain ⟨new, stepped, _⟩ := Option.map_eq_some_iff.mp moved
  exact ⟨call, found, new, RecordCall.moves_of_next stepped⟩

namespace Sink

section Reachable

variable {settings : SinkSettings} {actions : List SinkAction} {s : Sink}

/-- With a JSONL sink, in every state of every interleaving: a record is ingested at most once
and after its line was written, forwarded after it was ingested, acknowledged only when both
happened, and a failed write stops its task; once every save task has ended, exactly the
records whose line was written are counted. -/
theorem persist_before_count (jsonl : settings.jsonl = true)
    (ran : run settings actions = some s) :
    (s.ingested.map Prod.fst).Nodup ∧
    (∀ id next, s.step (.act id .ingest) = some next → ∃ call, s.calls[id]? = some call ∧
      (id, call.record) ∈ s.written ∧ (id, call.record) ∉ s.ingested) ∧
    (∀ entry ∈ s.ingested, entry ∈ s.written) ∧
    (∀ id next, s.step (.act id .notify) = some next → ∃ call, s.calls[id]? = some call ∧
      (id, call.record) ∈ s.ingested) ∧
    (∀ entry ∈ s.forwarded, entry ∈ s.ingested) ∧
    (∀ id call, s.calls[id]? = some call → call.caller = .returned true →
      (id, call.record) ∈ s.written ∧ (id, call.record) ∈ s.ingested) ∧
    (∀ entry ∈ s.failed, entry ∉ s.ingested ∧ entry ∉ s.forwarded ∧
      ∀ job ∈ s.queued, job.id ≠ entry.1) ∧
    (s.Idle → s.ingested.Perm s.written ∧
      s.aggregator = Aggregator.run (s.ingested.map Prod.snd)) := by
  have coherent := coherent_run ran
  rw [← settings_run ran] at jsonl
  have written := coherent.written jsonl
  have behind {id : ℕ} {record : TelemetryRecord} (counted : (id, record) ∈ s.ingested) :
      (id, record) ∈ s.written := by
    obtain ⟨call, found, rfl, passed⟩ := (coherent.ingested.mem id record).mp counted
    obtain ⟨task, own, counts⟩ := RecordCall.reached_iff.mp passed
    refine written.mem_of_found found (RecordCall.reached_iff.mpr ⟨task, own, ?_⟩)
    exact SaveTask.persisted_of_counted counts
  refine ⟨coherent.ingested.ids_nodup, ?_, fun _ => behind, ?_, coherent.forwarded, ?_, ?_, ?_⟩
  · intro id next taken
    obtain ⟨call, found, task, own⟩ := act_cases taken
    cases own with
    | ingest counts =>
        refine ⟨call, found, written.mem_of_found found (RecordCall.reached_some counts), ?_⟩
        intro counted
        have reached := coherent.ingested.passed_of_mem found counted
        simp [RecordCall.reached_some counts, SaveTask.counted] at reached
  · intro id next taken
    obtain ⟨call, found, task, own⟩ := act_cases taken
    cases own with
    | notify notifies =>
        exact ⟨call, found, coherent.ingested.mem_of_found found
          (RecordCall.reached_some notifies)⟩
  · intro id call found answered
    have done := (coherent.valid call (List.mem_of_getElem? found)).returned answered
    exact ⟨written.mem_of_found found (RecordCall.reached_some done),
      coherent.ingested.mem_of_found found (RecordCall.reached_some done)⟩
  · rintro ⟨id, record⟩ failed
    obtain ⟨call, found, rfl, passed⟩ := (coherent.failed.mem id record).mp failed
    obtain ⟨task, own, fails⟩ := RecordCall.reached_iff.mp passed
    have uncounted (value : TelemetryRecord) : (id, value) ∉ s.ingested := by
      intro counted
      have reached := coherent.ingested.passed_of_mem found counted
      rw [RecordCall.reached_some own, SaveTask.counted_of_failed fails] at reached
      simp at reached
    refine ⟨uncounted _, fun delivered => uncounted _ (coherent.forwarded _ delivered), ?_⟩
    rintro job member rfl
    exact uncounted _ (coherent.queued job member)
  · intro idle
    refine ⟨coherent.ingested.perm written ?_, coherent.totals⟩
    intro call member
    cases own : call.task with
    | none => rw [RecordCall.reached_none own, RecordCall.reached_none own]
    | some task =>
        rw [RecordCall.reached_some own, RecordCall.reached_some own]
        exact SaveTask.counted_of_ended (idle call member task own)

end Reachable

def allOutputs : SinkSettings where
  jsonl := true
  stdout := true
  prettyLog := true
  summaryEnabled := true
  proxy := true

/-- One call whose caller is gone before its line is written, and one whose write fails. -/
def cancelledAndFailed : List SinkAction :=
  [.call (.logs { resourceLogs := [] }), .call (.traces { resourceSpans := [] }),
    .act 0 .takeGuard, .act 1 .takeGuard, .act 0 .check, .act 1 .check, .act 0 .cancel,
    .act 1 (.write false), .act 0 (.write true), .act 1 .respond, .act 0 .ingest,
    .act 0 .queuePretty, .act 0 .notify]

theorem persist_before_count_cancelled :
    ∃ s, run allOutputs cancelledAndFailed = some s ∧ s.written.map Prod.fst = [0] ∧
      s.failed.map Prod.fst = [1] ∧ s.ingested.Perm s.written := by
  have facts : (run allOutputs cancelledAndFailed).any (fun s =>
      s.written.map Prod.fst = [0] ∧ s.failed.map Prod.fst = [1] ∧
        ∀ call ∈ s.calls, call.task.all (fun task => task.running = false) = true) = true := by
    decide +kernel
  obtain ⟨s, ran, facts⟩ := (Option.any_eq_true _ _).mp facts
  obtain ⟨written, failed, ended⟩ := of_decide_eq_true facts
  refine ⟨s, ran, written, failed, ?_⟩
  have conclusions := persist_before_count rfl ran
  refine (conclusions.2.2.2.2.2.2.2 ?_).1
  intro call member task own
  simpa [own] using ended call member

end Sink

end OtelLogger
