import OtelLogger.CodexTotals
import OtelLogger.DailyWriter
import OtelLogger.PrettyQueue
import OtelLogger.WriteHealth

/-!
The writer task of a human-readable output, at the end of its queue. It writes one job after the
other and takes the totals just before it writes them; the records are ingested, and the jobs
queued, while it works.
-/

namespace OtelLogger

open Interleaving

/-! ### Destinations -/

/-- `io::Write`. The environment decides what it wants about each call. -/
class PrettyDevice (W : Type*) (E : outParam Type*) where
  writeAll : W → Bytes → E → Except IoError Unit × W
  flush : W → Except IoError Unit × W

/-- A daily file is given the date of the day. -/
instance : PrettyDevice DailyWriter NaiveDate where
  writeAll writer bytes date := if bytes = [] then (.ok (), writer) else writer.appendAt bytes date
  flush writer :=
    let flushed := writer.handle.flush
    (flushed.1, writer.withDisk flushed.2.disk)

inductive PrettyTarget where
  | stdout
  | file
  deriving DecidableEq

/-- `ErrorKind::BrokenPipe`. -/
def IoError.isBrokenPipe : IoError → Bool
  | .os code => code = 32
  | .writeZero => false

section Device

variable {W E : Type*} [PrettyDevice W E]

/-- What was written whole comes with the result, for the record. -/
def writePrettyTo (writer : W) (rendered : Bytes) (summary : Option Bytes) (times : E × E) :
    (Except IoError Unit × List (Bytes × E)) × W :=
  match PrettyDevice.writeAll writer rendered times.1 with
  | (.error error, writer) => ((.error error, []), writer)
  | (.ok _, writer) =>
      match summary with
      | none =>
          let flushed := PrettyDevice.flush writer
          ((flushed.1, [(rendered, times.1)]), flushed.2)
      | some summary =>
          match PrettyDevice.writeAll writer summary times.2 with
          | (.error error, writer) => ((.error error, [(rendered, times.1)]), writer)
          | (.ok _, writer) =>
              let flushed := PrettyDevice.flush writer
              ((flushed.1, [(rendered, times.1), (summary, times.2)]), flushed.2)

end Device

/-! ### The writer task -/

structure PrettyWriterState where
  brokenPipe : Bool := false
  health : WriteHealth := {}

namespace PrettyWriterState

def shouldWrite (state : PrettyWriterState) : Bool :=
  !state.brokenPipe

def recordResult (state : PrettyWriterState) (target : PrettyTarget)
    (result : Except IoError Unit) (now : ℕ) : HealthReport × PrettyWriterState :=
  match result with
  | .ok _ =>
      let handled := state.health.onSuccess now
      (handled.1, { state with health := handled.2 })
  | .error error =>
      if error.isBrokenPipe = true ∧ target = .stdout then
        (.silent, { state with brokenPipe := true })
      else
        let handled := state.health.onFailure now
        (handled.1, { state with health := handled.2 })

end PrettyWriterState

/-- What the task does next. A summary comes with the number of records it was taken after. -/
inductive WriterPhase where
  | receiving
  | received (job : PrettyOutput.PrettyJob)
  | writing (job : PrettyOutput.PrettyJob) (summary : Option Bytes) (history : ℕ)
  | handled (job : PrettyOutput.PrettyJob)
  | answering
  | stopped (handled : Option PrettyOutput.PrettyJob)

namespace WriterPhase

def hand : WriterPhase → Option PrettyOutput.PrettyJob
  | received job | writing job _ _ | handled job => some job
  | _ => none

/-- The job that is written or passed over and not yet finished. -/
def done : WriterPhase → List PrettyOutput.PrettyJob
  | handled job => [job]
  | stopped job => job.toList
  | _ => []

def isStopped : WriterPhase → Bool
  | stopped _ => true
  | _ => false

def isAnswering : WriterPhase → Bool
  | answering => true
  | _ => false

end WriterPhase

/-- One call of `write_blocking`, kept for the record. -/
structure WriteAttempt (E : Type*) where
  job : PrettyOutput.PrettyJob
  summary : Option Bytes
  history : ℕ
  times : E × E
  now : ℕ
  result : Except IoError Unit
  wrote : List (Bytes × E)
  report : HealthReport

/-- EPIPE counts on stdout only. -/
def breaksPipe (target : PrettyTarget) : Except IoError Unit → Bool
  | .ok _ => false
  | .error error => error.isBrokenPipe && target = .stdout

/-- What the health of the output sees of a result. -/
def healthEvent (target : PrettyTarget) (now : ℕ) : Except IoError Unit → Option HealthEvent
  | .ok _ => some (.success now)
  | .error error =>
      if breaksPipe target (.error error) then none else some (.failure now)

def WriteAttempt.breaks {E : Type*} (target : PrettyTarget) (attempt : WriteAttempt E) : Bool :=
  breaksPipe target attempt.result

def WriteAttempt.event {E : Type*} (target : PrettyTarget) (attempt : WriteAttempt E) :
    Option HealthEvent :=
  healthEvent target attempt.now attempt.result

/-- `summaryText` is `render_summary` of the snapshot. -/
structure WriterConfig where
  target : PrettyTarget
  summaryText : AggregatorInner → Bytes

/-- The fields from `ingested` on are kept for the record: what was ingested, how much of it when
each job was added to the counter of bytes, the writes, and for each answer how many jobs were
finished and what was reported as unresolved. -/
structure PrettyWriter (W E : Type*) where
  output : PrettyOutput
  device : W
  state : PrettyWriterState := {}
  phase : WriterPhase := .receiving
  aggregator : AggregatorInner := Aggregator.new
  ingested : List Call := []
  asked : List ℕ := []
  attempts : List (WriteAttempt E) := []
  answers : List (ℕ × Option (ℕ × ℕ × ℕ)) := []

inductive WriterAction (E : Type*) where
  | ingest (record : Call)
  | output (action : PrettyOutput.PrettyAction)
  | receive
  | prepare
  | write (times : E × E) (now : ℕ)
  | finish
  | answer (now : ℕ)
  | stop

/-- The actions of those who queue and of the shutdown. -/
def PrettyOutput.PrettyAction.isCallers : PrettyOutput.PrettyAction → Bool
  | .enqueue _ _ | .act _ _ | .drain => true
  | _ => false

def PrettyOutput.PrettyAction.adds : PrettyOutput.PrettyAction → Bool
  | .act _ .fetchAdd => true
  | _ => false

namespace PrettyWriter

variable {W E : Type*}

/-- The task looks at the pipe before it takes a summary. -/
def prepare (config : WriterConfig) (s : PrettyWriter W E) (job : PrettyOutput.PrettyJob) :
    WriterPhase :=
  if s.state.shouldWrite = true ∧ job.rendered ≠ [] then
    .writing job (if job.wantSummary then some (config.summaryText s.aggregator) else none)
      s.ingested.length
  else .handled job

def write [PrettyDevice W E] (config : WriterConfig) (s : PrettyWriter W E)
    (job : PrettyOutput.PrettyJob) (summary : Option Bytes) (history : ℕ) (times : E × E)
    (now : ℕ) : PrettyWriter W E :=
  let written := writePrettyTo s.device job.rendered summary times
  let recorded := s.state.recordResult config.target written.1.1 now
  { s with
    device := written.2
    state := recorded.2
    phase := .handled job
    attempts := s.attempts ++ [{
      job := job
      summary := summary
      history := history
      times := times
      now := now
      result := written.1.1
      wrote := written.1.2
      report := recorded.1 }] }

def step [PrettyDevice W E] (config : WriterConfig) (s : PrettyWriter W E) :
    WriterAction E → Option (PrettyWriter W E)
  | .ingest record =>
      some { s with
        aggregator := (Aggregator.ingest s.aggregator record).1
        ingested := s.ingested ++ [record] }
  | .output action =>
      if action.isCallers then
        (s.output.step action).map fun output =>
          { s with
            output := output
            asked := if action.adds then s.asked ++ [s.ingested.length] else s.asked }
      else none
  | .receive =>
      match s.phase, s.output.queue with
      | .receiving, job :: _ =>
          (s.output.step .receive).map fun output =>
            { s with output := output, phase := .received job }
      | _, _ => none
  | .prepare =>
      match s.phase with
      | .received job => some { s with phase := s.prepare config job }
      | _ => none
  | .write times now =>
      match s.phase with
      | .writing job summary history => some (s.write config job summary history times now)
      | _ => none
  | .finish =>
      match s.phase with
      | .handled job =>
          (s.output.step .finish).map fun output =>
            { s with output := output, phase := if job.sync then .answering else .receiving }
      | _ => none
  | .answer now =>
      match s.phase with
      | .answering =>
          some { s with
            phase := .receiving
            answers := s.answers ++ [(s.output.finished.length, s.state.health.unresolved now)] }
      | _ => none
  | .stop =>
      match s.phase with
      | .stopped _ => none
      | .handled job =>
          (s.output.step .stop).map fun output =>
            { s with output := output, phase := .stopped (some job) }
      | _ =>
          (s.output.step .stop).map fun output =>
            { s with output := output, phase := .stopped none }

def spawned (capacity maxQueuedBytes : ℕ) (device : W) : PrettyWriter W E where
  output := { capacity := capacity, maxQueuedBytes := maxQueuedBytes }
  device := device

def run [PrettyDevice W E] (config : WriterConfig) (capacity maxQueuedBytes : ℕ) (device : W)
    (actions : List (WriterAction E)) : Option (PrettyWriter W E) :=
  runFrom (step config) (spawned capacity maxQueuedBytes device) actions

/-! ### What a step can do -/

inductive Moves [PrettyDevice W E] (config : WriterConfig) (s : PrettyWriter W E) :
    WriterAction E → PrettyWriter W E → Prop where
  | ingest (record : Call) :
      Moves config s (.ingest record)
        { s with
          aggregator := (Aggregator.ingest s.aggregator record).1
          ingested := s.ingested ++ [record] }
  | output (action : PrettyOutput.PrettyAction) (output : PrettyOutput)
      (callers : action.isCallers = true) (taken : s.output.step action = some output) :
      Moves config s (.output action)
        { s with
          output := output
          asked := if action.adds then s.asked ++ [s.ingested.length] else s.asked }
  | receive (job : PrettyOutput.PrettyJob) (queue : List PrettyOutput.PrettyJob)
      (here : s.phase = .receiving) (opened : s.output.closed = false)
      (head : s.output.queue = job :: queue) :
      Moves config s .receive
        { s with
          output := { s.output with queue := queue, inHand := some job }
          phase := .received job }
  | prepare (job : PrettyOutput.PrettyJob) (here : s.phase = .received job) :
      Moves config s .prepare { s with phase := s.prepare config job }
  | write (job : PrettyOutput.PrettyJob) (summary : Option Bytes) (history : ℕ) (times : E × E)
      (now : ℕ) (here : s.phase = .writing job summary history) :
      Moves config s (.write times now) (s.write config job summary history times now)
  | finish (job held : PrettyOutput.PrettyJob) (here : s.phase = .handled job)
      (holds : s.output.inHand = some held) :
      Moves config s .finish
        { s with
          output := { s.output with
            inHand := none
            queuedBytes := fetchSub s.output.queuedBytes held.len
            finished := s.output.finished ++ [held] }
          phase := if job.sync then .answering else .receiving }
  | answer (now : ℕ) (here : s.phase = .answering) :
      Moves config s (.answer now)
        { s with
          phase := .receiving
          answers := s.answers ++ [(s.output.finished.length, s.state.health.unresolved now)] }
  | stop (handled : Option PrettyOutput.PrettyJob)
      (here : (∃ job, s.phase = .handled job ∧ handled = some job) ∨
        (handled = none ∧ (∀ job, s.phase ≠ .handled job) ∧ ∀ job, s.phase ≠ .stopped job))
      (opened : s.output.closed = false) :
      Moves config s .stop
        { s with
          output := { s.output with
            closed := true
            queue := []
            inHand := none
            discarded := s.output.inHand.toList ++ s.output.queue }
          phase := .stopped handled }

variable [PrettyDevice W E] {config : WriterConfig} {s next : PrettyWriter W E}
  {action : WriterAction E}

theorem output_stop {output stopped : PrettyOutput} (taken : output.step .stop = some stopped) :
    output.closed = false ∧ stopped =
      { output with
        closed := true
        queue := []
        inHand := none
        discarded := output.inHand.toList ++ output.queue } := by
  cases PrettyOutput.moves_of_step taken with
  | stop opened => exact ⟨opened, rfl⟩

theorem moves_of_step (taken : s.step config action = some next) : Moves config s action next := by
  cases action with
  | ingest record =>
      cases taken
      exact .ingest record
  | output action =>
      obtain ⟨callers, taken⟩ := Option.ite_none_right_eq_some.mp taken
      obtain ⟨output, stepped, rfl⟩ := Option.map_eq_some_iff.mp taken
      exact .output action output callers stepped
  | receive =>
      simp only [step] at taken
      split at taken
      · rename_i job queue here head
        obtain ⟨output, stepped, rfl⟩ := Option.map_eq_some_iff.mp taken
        cases PrettyOutput.moves_of_step stepped with
        | receive first rest opened idle own =>
            obtain ⟨rfl, rfl⟩ := List.cons.inj (own.symm.trans head)
            exact .receive first rest here opened own
      · cases taken
  | prepare =>
      simp only [step] at taken
      split at taken
      · rename_i job here
        cases taken
        exact .prepare job here
      · cases taken
  | write times now =>
      simp only [step] at taken
      split at taken
      · rename_i job summary history here
        cases taken
        exact .write job summary history times now here
      · cases taken
  | finish =>
      simp only [step] at taken
      split at taken
      · rename_i job here
        obtain ⟨output, stepped, rfl⟩ := Option.map_eq_some_iff.mp taken
        cases PrettyOutput.moves_of_step stepped with
        | finish held holds => exact .finish job held here holds
      · cases taken
  | answer now =>
      simp only [step] at taken
      split at taken
      · rename_i here
        cases taken
        exact .answer now here
      · cases taken
  | stop =>
      simp only [step] at taken
      split at taken
      · cases taken
      · rename_i job here
        obtain ⟨output, stepped, rfl⟩ := Option.map_eq_some_iff.mp taken
        obtain ⟨opened, rfl⟩ := output_stop stepped
        exact .stop (some job) (Or.inl ⟨job, here, rfl⟩) opened
      · rename_i running unhandled
        obtain ⟨output, stepped, rfl⟩ := Option.map_eq_some_iff.mp taken
        obtain ⟨opened, rfl⟩ := output_stop stepped
        exact .stop none (Or.inr ⟨rfl, unhandled, running⟩) opened

end PrettyWriter

/-! ### The queue under the task -/

namespace PrettyOutput

variable {s next : PrettyOutput} {action : PrettyAction}

/-- A job that has a text came from an addition to the counter. -/
structure Turned (s : PrettyOutput) : Prop where
  calls : ∀ call ∈ s.calls, call.phase ≠ .called → call.turn < s.turns
  jobs : ∀ job ∈ s.jobs, job.rendered ≠ [] → job.turn < s.turns

theorem Turned.set {id : ℕ} {call new : EnqueueCall} (turned : s.Turned)
    (found : s.calls[id]? = some call) (here : call.phase ≠ .called) (turn : new.turn = call.turn) :
    ∀ other ∈ s.calls.set id new, other.phase ≠ .called → other.turn < s.turns := by
  intro other member past
  rcases List.mem_or_eq_of_mem_set member with before | rfl
  · exact turned.calls other before past
  · rw [turn]
    exact turned.calls call (List.mem_of_getElem? found) here

/-- The jobs that entered the channel, in order. -/
def entered (s : PrettyOutput) : List PrettyJob :=
  s.finished ++ s.discarded ++ s.jobs

/-- Who queues or drains adds at most one job, at the end, and touches nothing of the task. -/
structure Calls (s next : PrettyOutput) : Prop where
  finished : next.finished = s.finished
  discarded : next.discarded = s.discarded
  inHand : next.inHand = s.inHand
  closed : next.closed = s.closed
  queue : next.queue = s.queue ∨ ∃ job, s.closed = false ∧ next.queue = s.queue ++ [job]

theorem callers_step (callers : action.isCallers = true) (taken : s.step action = some next) :
    s.Calls next := by
  cases moves_of_step taken with
  | enqueue | add | pass | refuse | undo | countDrop | reportStop =>
      exact ⟨rfl, rfl, rfl, rfl, Or.inl rfl⟩
  | send id call found here opened => exact ⟨rfl, rfl, rfl, rfl, Or.inr ⟨_, opened, rfl⟩⟩
  | drain opened => exact ⟨rfl, rfl, rfl, rfl, Or.inr ⟨_, opened, rfl⟩⟩
  | receive | finish | stop => cases callers

theorem turned_callers (turned : s.Turned) (callers : action.isCallers = true)
    (taken : s.step action = some next) :
    next.Turned ∧ next.turns = s.turns + action.adds.toNat := by
  have moves := moves_of_step taken
  cases moves with
  | enqueue rendered wantSummary =>
      refine ⟨⟨?_, turned.jobs⟩, rfl⟩
      intro call member past
      rcases List.mem_append.mp member with before | own
      · exact turned.calls call before past
      · obtain rfl := List.mem_singleton.mp own
        exact absurd rfl past
  | add id call found here =>
      refine ⟨⟨?_, fun job member some => (turned.jobs job member some).trans (Nat.lt_succ_self _)⟩,
        rfl⟩
      intro other member past
      rcases List.mem_or_eq_of_mem_set member with before | rfl
      · exact (turned.calls other before past).trans (Nat.lt_succ_self _)
      · exact Nat.lt_succ_self _
  | pass id call queued found here =>
      exact ⟨⟨turned.set found (by simp [here]) rfl, turned.jobs⟩, rfl⟩
  | refuse id call action reason found here =>
      have past : call.phase ≠ .called := by
        rcases here with ⟨_, here⟩ | here <;> simp [here]
      have added : (PrettyAction.act id action).adds = false := by
        cases action with
        | fetchAdd =>
            simp only [step, found, act, Option.bind_some] at taken
            split at taken <;> simp_all
        | _ => rfl
      exact ⟨⟨turned.set found past rfl, turned.jobs⟩, by rw [added]; rfl⟩
  | send id call found here opened =>
      refine ⟨⟨turned.set found (by simp [here]) rfl, ?_⟩, rfl⟩
      intro job member some
      change job ∈ s.inHand.toList ++ (s.queue ++ [_]) at member
      rw [← List.append_assoc] at member
      rcases List.mem_append.mp member with before | own
      · exact turned.jobs job before some
      · obtain rfl := List.mem_singleton.mp own
        exact turned.calls call (List.mem_of_getElem? found) (by simp [here])
  | undo id call reason found here =>
      exact ⟨⟨turned.set found (by simp [here]) rfl, turned.jobs⟩, rfl⟩
  | countDrop id call reason found here =>
      exact ⟨⟨turned.set found (by simp [here]) rfl, turned.jobs⟩, rfl⟩
  | reportStop id call dropped found here =>
      exact ⟨⟨turned.set found (by simp [here]) rfl, turned.jobs⟩, rfl⟩
  | drain opened =>
      refine ⟨⟨turned.calls, ?_⟩, rfl⟩
      intro job member some
      change job ∈ s.inHand.toList ++ (s.queue ++ [_]) at member
      rw [← List.append_assoc] at member
      rcases List.mem_append.mp member with before | own
      · exact turned.jobs job before some
      · obtain rfl := List.mem_singleton.mp own
        exact absurd rfl some
  | receive | finish | stop => cases callers

end PrettyOutput

namespace PrettyWriter

variable {W E : Type*} {config : WriterConfig} {s next : PrettyWriter W E} {action : WriterAction E}

/-- The task and its queue agree on the job in hand, and on whether the task goes on. -/
structure Tracks (s : PrettyWriter W E) : Prop where
  turned : s.output.Turned
  asked : s.asked.length = s.output.turns
  known : ∀ count ∈ s.asked, count ≤ s.ingested.length
  hand : s.output.inHand = s.phase.hand
  closed : s.output.closed = s.phase.isStopped
  opened : s.output.closed = false → s.output.discarded = []
  shut : s.output.closed = true → s.output.queue = []

theorem tracks_spawned (capacity maxQueuedBytes : ℕ) (device : W) :
    Tracks (spawned (E := E) capacity maxQueuedBytes device) := by
  refine ⟨⟨?_, ?_⟩, rfl, ?_, rfl, rfl, fun _ => rfl, fun _ => rfl⟩ <;>
    simp [spawned, PrettyOutput.jobs]

variable [PrettyDevice W E]

theorem Tracks.step (tracks : s.Tracks) (taken : s.step config action = some next) :
    next.Tracks := by
  obtain ⟨turned, asked, known, hand, closed, opened, shut⟩ := tracks
  cases moves_of_step taken with
  | ingest record =>
      refine ⟨turned, asked, ?_, hand, closed, opened, shut⟩
      intro count member
      have before := known count member
      rw [List.length_append]
      omega
  | output action output callers stepped =>
      have calls := PrettyOutput.callers_step callers stepped
      obtain ⟨later, turns⟩ := PrettyOutput.turned_callers turned callers stepped
      refine ⟨later, ?_, ?_, calls.inHand.trans hand, calls.closed.trans closed, ?_, ?_⟩
      · rw [turns, ← asked]
        cases action.adds <;> simp
      · intro count member
        cases adds : action.adds with
        | false =>
            rw [adds] at member
            exact known count member
        | true =>
            rw [adds] at member
            rcases List.mem_append.mp member with before | own
            · exact known count before
            · exact (List.mem_singleton.mp own).le
      · intro still
        rw [calls.discarded]
        exact opened (calls.closed ▸ still)
      · intro ended
        have before : s.output.closed = true := calls.closed ▸ ended
        rcases calls.queue with same | ⟨job, still, _⟩
        · rw [same]
          exact shut before
        · simp [before] at still
  | receive job queue here still head =>
      refine ⟨⟨turned.calls, fun other member => turned.jobs other ?_⟩, asked, known, rfl, ?_,
        opened, ?_⟩
      · rw [PrettyOutput.jobs, head]
        exact List.mem_append_right _ member
      · rw [closed, here]
        rfl
      · intro ended
        simp [still] at ended
  | prepare job here =>
      rw [here] at hand closed
      refine ⟨turned, asked, known, ?_, ?_, opened, shut⟩
      · rw [hand, PrettyWriter.prepare]
        split <;> rfl
      · rw [closed, PrettyWriter.prepare]
        split <;> rfl
  | write job summary history times now here =>
      rw [here] at hand closed
      exact ⟨turned, asked, known, hand, closed, opened, shut⟩
  | finish job held here holds =>
      rw [here] at closed
      refine ⟨⟨turned.calls, fun other member => turned.jobs other ?_⟩, asked, known, ?_, ?_,
        opened, shut⟩
      · exact List.mem_append_right _ member
      · cases job.sync <;> rfl
      · rw [closed]
        cases job.sync <;> rfl
  | answer now here =>
      rw [here] at hand closed
      exact ⟨turned, asked, known, hand, closed, opened, shut⟩
  | stop handled here still =>
      refine ⟨⟨turned.calls, fun other member => by cases member⟩, asked, known, rfl, rfl, ?_,
        fun _ => rfl⟩
      intro never
      cases never

/-- Jobs enter at the end of the channel, and are finished in the order they entered. -/
theorem Tracks.grows (tracks : s.Tracks) (taken : s.step config action = some next) :
    s.output.entered <+: next.output.entered ∧ s.output.finished <+: next.output.finished := by
  cases moves_of_step taken with
  | ingest | prepare | write | answer => exact ⟨List.prefix_rfl, List.prefix_rfl⟩
  | output action output callers stepped =>
      obtain ⟨finished, discarded, inHand, closed, queue⟩ :=
        PrettyOutput.callers_step callers stepped
      simp only [PrettyOutput.entered, PrettyOutput.jobs, finished, discarded, inHand]
      refine ⟨?_, List.prefix_rfl⟩
      rcases queue with same | ⟨job, _, more⟩
      · rw [same]
      · rw [more]
        simp only [← List.append_assoc]
        exact List.prefix_append _ _
  | receive job queue here still head =>
      have hand := tracks.hand
      rw [here] at hand
      simp only [PrettyOutput.entered, PrettyOutput.jobs, head, hand, WriterPhase.hand]
      exact ⟨List.prefix_rfl, List.prefix_rfl⟩
  | finish job held here holds =>
      have closed := tracks.closed
      rw [here] at closed
      simp only [PrettyOutput.entered, PrettyOutput.jobs, tracks.opened closed, holds,
        List.append_nil, Option.toList_some, Option.toList_none, List.nil_append,
        List.append_assoc]
      exact ⟨List.prefix_rfl, List.prefix_append _ _⟩
  | stop handled here still =>
      simp only [PrettyOutput.entered, PrettyOutput.jobs, tracks.opened still, List.append_nil,
        Option.toList_none]
      exact ⟨List.prefix_rfl, List.prefix_rfl⟩

/-! ### The texts that are written -/

def texts (jobs : List PrettyOutput.PrettyJob) : List PrettyOutput.PrettyJob :=
  jobs.filter fun job => job.rendered ≠ []

/-- Until the pipe breaks every text is tried, in the order of the jobs; then none is. -/
structure Serial (config : WriterConfig) (s : PrettyWriter W E) : Prop where
  pipe : s.state.brokenPipe = s.attempts.any (WriteAttempt.breaks config.target)
  last : ∀ attempt ∈ s.attempts.dropLast, attempt.breaks config.target = false
  order : s.attempts.map WriteAttempt.job <+: texts (s.output.finished ++ s.phase.done)
  every : s.state.brokenPipe = false →
    s.attempts.map WriteAttempt.job = texts (s.output.finished ++ s.phase.done)
  writing : ∀ job summary history, s.phase = .writing job summary history →
    s.state.brokenPipe = false ∧ job.rendered ≠ []
  health : s.state.health =
    WriteHealth.handleAll {} (s.attempts.filterMap (WriteAttempt.event config.target))

omit [PrettyDevice W E] in
theorem Serial.stay (serial : s.Serial config) (state : next.state = s.state)
    (attempts : next.attempts = s.attempts)
    (same : texts (next.output.finished ++ next.phase.done) =
      texts (s.output.finished ++ s.phase.done))
    (writing : ∀ job summary history, next.phase = .writing job summary history →
      next.state.brokenPipe = false ∧ job.rendered ≠ []) : next.Serial config where
  pipe := by rw [state, attempts, serial.pipe]
  last := attempts ▸ serial.last
  order := by
    rw [attempts, same]
    exact serial.order
  every unbroken := by
    rw [attempts, same]
    exact serial.every (state ▸ unbroken)
  writing := writing
  health := by rw [state, attempts, serial.health]

theorem recordResult_eq (state : PrettyWriterState) (target : PrettyTarget)
    (result : Except IoError Unit) (now : ℕ) :
    (state.recordResult target result now).2.brokenPipe =
        (state.brokenPipe || breaksPipe target result) ∧
      (state.recordResult target result now).2.health =
        state.health.handleAll (healthEvent target now result).toList := by
  cases result with
  | ok => simp [PrettyWriterState.recordResult, breaksPipe, healthEvent, WriteHealth.handleAll,
      WriteHealth.handle]
  | error error =>
      simp only [PrettyWriterState.recordResult, healthEvent, breaksPipe]
      by_cases broken : error.isBrokenPipe = true ∧ target = .stdout
      · simp [broken, WriteHealth.handleAll]
      · have unbroken : (error.isBrokenPipe && Decidable.decide (target = .stdout)) = false := by
          simpa using broken
        rw [if_neg broken]
        simp [unbroken, WriteHealth.handleAll, WriteHealth.handle]

theorem Serial.write (serial : s.Serial config) {job : PrettyOutput.PrettyJob}
    {summary : Option Bytes} {history : ℕ} (here : s.phase = .writing job summary history)
    (times : E × E) (now : ℕ) : (s.write config job summary history times now).Serial config := by
  obtain ⟨unbroken, some⟩ := serial.writing job summary history here
  have quiet : ∀ attempt ∈ s.attempts, attempt.breaks config.target = false := by
    have none := serial.pipe
    rw [unbroken] at none
    simpa using none.symm
  have none : s.phase.done = [] := by rw [here]; rfl
  have before := serial.every unbroken
  rw [none, List.append_nil] at before
  have grown : (s.attempts.map WriteAttempt.job) ++ [job] = texts (s.output.finished ++ [job]) := by
    rw [before, texts, texts, List.filter_append]
    simp [some]
  obtain ⟨pipe, health⟩ := recordResult_eq s.state config.target
    (writePrettyTo s.device job.rendered summary times).1.1 now
  refine ⟨?_, ?_, ?_, fun _ => ?_, ?_, ?_⟩
  · simp only [PrettyWriter.write, List.any_append, List.any_cons, List.any_nil, Bool.or_false]
    rw [← serial.pipe]
    exact pipe
  · simpa only [PrettyWriter.write, List.dropLast_concat] using quiet
  · simp only [PrettyWriter.write, List.map_append, List.map_singleton, WriterPhase.done, grown]
    exact List.prefix_rfl
  · simp only [PrettyWriter.write, List.map_append, List.map_singleton, WriterPhase.done, grown]
  · intro other text count never
    cases never
  · have added (attempt : WriteAttempt E) :
        [attempt].filterMap (WriteAttempt.event config.target) =
          (attempt.event config.target).toList := by
      cases own : attempt.event config.target <;> simp [own]
    simp only [PrettyWriter.write, List.filterMap_append, WriteHealth.handleAll,
      List.foldl_append, added]
    rw [← WriteHealth.handleAll, ← WriteHealth.handleAll, ← serial.health]
    exact health

theorem Serial.step (serial : s.Serial config) (tracks : s.Tracks)
    (taken : s.step config action = some next) : next.Serial config := by
  cases moves_of_step taken with
  | ingest record => exact serial.stay rfl rfl rfl serial.writing
  | output action output callers stepped =>
      have calls := PrettyOutput.callers_step callers stepped
      exact serial.stay rfl rfl (by rw [calls.finished]) serial.writing
  | receive job queue here =>
      exact serial.stay rfl rfl (by rw [here]; rfl) fun _ _ _ never => by cases never
  | prepare job here =>
      have none : s.phase.done = [] := by rw [here]; rfl
      have order := serial.order
      have every := serial.every
      rw [none, List.append_nil] at order every
      unfold PrettyWriter.prepare
      split
      · rename_i writes
        refine serial.stay rfl rfl (by rw [here]; rfl) ?_
        intro other text count same
        obtain ⟨rfl, _⟩ := WriterPhase.writing.inj same
        exact ⟨by simpa [PrettyWriterState.shouldWrite] using writes.1, writes.2⟩
      · rename_i passes
        refine ⟨serial.pipe, serial.last, ?_, ?_,
          (fun _ _ _ never => by cases never), serial.health⟩
        · refine order.trans ?_
          simp only [texts, WriterPhase.done, List.filter_append]
          exact List.prefix_append _ _
        · intro unbroken
          change s.state.brokenPipe = false at unbroken
          have empty : job.rendered = [] := by
            by_contra some
            exact passes ⟨by simp [PrettyWriterState.shouldWrite, unbroken], some⟩
          rw [every unbroken]
          simp [texts, WriterPhase.done, List.filter_append, empty]
  | write job summary history times now here => exact serial.write here times now
  | finish job held here holds =>
      have hand := tracks.hand
      rw [here, holds] at hand
      obtain rfl : held = job := Option.some.inj hand
      refine serial.stay rfl rfl ?_ ?_
      · rw [here]
        cases held.sync <;> simp [WriterPhase.done]
      · cases held.sync <;> exact fun _ _ _ never => by cases never
  | answer now here =>
      exact serial.stay rfl rfl (by rw [here]; rfl) fun _ _ _ never => by cases never
  | stop handled here still =>
      refine serial.stay rfl rfl ?_ fun _ _ _ never => by cases never
      rcases here with ⟨job, here, rfl⟩ | ⟨rfl, unhandled, running⟩
      · rw [here]
        rfl
      · have none : s.phase.done = [] := by
          cases phase : s.phase with
          | handled job => exact absurd phase (unhandled job)
          | stopped job => exact absurd phase (running job)
          | _ => rfl
        rw [none]
        rfl

/-! ### The summaries -/

/-- A summary shows the totals after so many records, among them every record that was ingested
before the job was added to the counter. -/
structure Covers (config : WriterConfig) (s : PrettyWriter W E) (job : PrettyOutput.PrettyJob)
    (summary : Option Bytes) (history : ℕ) : Prop where
  known : history ≤ s.ingested.length
  text : summary = if job.wantSummary then
    some (config.summaryText (Aggregator.run (s.ingested.take history))) else none
  since : ∃ count, s.asked[job.turn]? = some count ∧ count ≤ history

omit [PrettyDevice W E] in
theorem Covers.later {job : PrettyOutput.PrettyJob} {summary : Option Bytes} {history : ℕ}
    (covers : Covers config s job summary history) (ingested : s.ingested <+: next.ingested)
    (asked : s.asked <+: next.asked) : Covers config next job summary history where
  known := covers.known.trans ingested.length_le
  text := by
    obtain ⟨rest, grown⟩ := ingested
    rw [← grown, List.take_append_of_le_length covers.known]
    exact covers.text
  since := by
    obtain ⟨count, found, below⟩ := covers.since
    obtain ⟨rest, grown⟩ := asked
    exact ⟨count, by rw [← grown, List.getElem?_append_left (lt_of_found found), found], below⟩

structure Summarized (config : WriterConfig) (s : PrettyWriter W E) : Prop where
  totals : s.aggregator = Aggregator.run s.ingested
  covers : ∀ attempt ∈ s.attempts, Covers config s attempt.job attempt.summary attempt.history
  sorted : (s.attempts.map WriteAttempt.history).Pairwise (· ≤ ·)
  writing : ∀ job summary history, s.phase = .writing job summary history →
    Covers config s job summary history ∧ ∀ attempt ∈ s.attempts, attempt.history ≤ history

omit [PrettyDevice W E] in
theorem Summarized.stay (summarized : s.Summarized config)
    (totals : next.aggregator = Aggregator.run next.ingested)
    (ingested : s.ingested <+: next.ingested) (asked : s.asked <+: next.asked)
    (attempts : next.attempts = s.attempts)
    (writing : ∀ job summary history, next.phase = .writing job summary history →
      s.phase = .writing job summary history) : next.Summarized config where
  totals := totals
  covers attempt member :=
    (summarized.covers attempt (attempts ▸ member)).later ingested asked
  sorted := attempts ▸ summarized.sorted
  writing job summary history here := by
    obtain ⟨covers, latest⟩ := summarized.writing job summary history (writing _ _ _ here)
    exact ⟨covers.later ingested asked, attempts ▸ latest⟩

theorem Summarized.step (summarized : s.Summarized config) (tracks : s.Tracks)
    (taken : s.step config action = some next) : next.Summarized config := by
  have totals := summarized.totals
  cases moves_of_step taken with
  | ingest record =>
      refine summarized.stay ?_ (List.prefix_append _ _) List.prefix_rfl rfl fun _ _ _ => id
      rw [totals, Aggregator.run, Aggregator.run, List.foldl_append]
      rfl
  | output action output callers stepped =>
      refine summarized.stay totals List.prefix_rfl ?_ rfl fun _ _ _ => id
      cases action.adds with
      | true => exact List.prefix_append _ _
      | false => exact List.prefix_rfl
  | receive | answer | stop =>
      exact summarized.stay totals List.prefix_rfl List.prefix_rfl rfl
        fun _ _ _ never => by cases never
  | prepare job here =>
      unfold prepare
      split
      · rename_i writes
        refine ⟨totals, ?_, summarized.sorted, ?_⟩
        · intro attempt member
          exact (summarized.covers attempt member).later List.prefix_rfl List.prefix_rfl
        · intro other text count same
          obtain ⟨rfl, rfl, rfl⟩ := WriterPhase.writing.inj same
          refine ⟨⟨le_rfl, ?_, ?_⟩, fun attempt member => (summarized.covers attempt member).known⟩
          · rw [totals]
            simp
          · have hand := tracks.hand
            rw [here] at hand
            have held : job ∈ s.output.jobs := by
              rw [PrettyOutput.jobs, hand]
              exact List.mem_cons_self
            have turn := tracks.turned.jobs job held writes.2
            rw [← tracks.asked] at turn
            have found := List.getElem?_eq_getElem turn
            exact ⟨_, found, tracks.known _ (List.getElem_mem turn)⟩
      · exact summarized.stay totals List.prefix_rfl List.prefix_rfl rfl
          fun _ _ _ never => by cases never
  | write job summary history times now here =>
      obtain ⟨covers, latest⟩ := summarized.writing job summary history here
      refine ⟨totals, ?_, ?_, fun _ _ _ never => by cases never⟩
      · intro attempt member
        rcases List.mem_append.mp member with before | own
        · exact (summarized.covers attempt before).later List.prefix_rfl List.prefix_rfl
        · obtain rfl := List.mem_singleton.mp own
          exact covers.later List.prefix_rfl List.prefix_rfl
      · simp only [write, List.map_append, List.map_singleton]
        refine List.pairwise_append.mpr ⟨summarized.sorted, List.pairwise_singleton _ _, ?_⟩
        intro earlier before later own
        obtain rfl := List.mem_singleton.mp own
        obtain ⟨attempt, member, rfl⟩ := List.mem_map.mp before
        exact latest attempt member
  | finish job held here holds =>
      refine summarized.stay totals List.prefix_rfl List.prefix_rfl rfl ?_
      cases job.sync <;> exact fun _ _ _ never => by cases never

/-! ### The answers -/

/-- Each synchronization is answered once, when it is finished, and they are answered in turn. -/
structure Answered (s : PrettyWriter W E) : Prop where
  sorted : (s.answers.map Prod.fst).Pairwise (· < ·)
  synced : ∀ answer ∈ s.answers, ∃ place job, answer.1 = place + 1 ∧
    s.output.finished[place]? = some job ∧ job.sync = true
  due : s.phase = .answering → ∃ before job, s.output.finished = before ++ [job] ∧
    job.sync = true ∧ ∀ answer ∈ s.answers, answer.1 ≤ before.length
  all : s.phase.isStopped = false → s.answers.length + s.phase.isAnswering.toNat =
    s.output.finished.countP PrettyOutput.PrettyJob.sync

omit [PrettyDevice W E] in
theorem Answered.stay (answered : s.Answered) (answers : next.answers = s.answers)
    (finished : next.output.finished = s.output.finished)
    (phase : next.phase.isStopped = true ∨
      (s.phase.isStopped = false ∧ next.phase.isAnswering = s.phase.isAnswering)) :
    next.Answered where
  sorted := answers ▸ answered.sorted
  synced answer member := finished ▸ answered.synced answer (answers ▸ member)
  due here := by
    rcases phase with stopped | ⟨_, same⟩
    · rw [here] at stopped
      cases stopped
    · rw [here] at same
      rw [finished, answers]
      refine answered.due ?_
      cases own : s.phase with
      | answering => rfl
      | _ => rw [own] at same; cases same
  all running := by
    rcases phase with stopped | ⟨before, same⟩
    · rw [running] at stopped
      cases stopped
    · rw [answers, finished, same]
      exact answered.all before

theorem Answered.step (answered : s.Answered) (tracks : s.Tracks)
    (taken : s.step config action = some next) : next.Answered := by
  cases moves_of_step taken with
  | ingest record =>
      cases own : s.phase.isStopped with
      | true => exact answered.stay rfl rfl (Or.inl own)
      | false => exact answered.stay rfl rfl (Or.inr ⟨own, rfl⟩)
  | output action output callers stepped =>
      have finished := (PrettyOutput.callers_step callers stepped).finished
      cases own : s.phase.isStopped with
      | true => exact answered.stay rfl finished (Or.inl own)
      | false => exact answered.stay rfl finished (Or.inr ⟨own, rfl⟩)
  | receive job queue here => exact answered.stay rfl rfl (Or.inr (by rw [here]; exact ⟨rfl, rfl⟩))
  | prepare job here =>
      refine answered.stay rfl rfl (Or.inr ?_)
      rw [here]
      refine ⟨rfl, ?_⟩
      unfold prepare
      split <;> rfl
  | write job summary history times now here =>
      exact answered.stay rfl rfl (Or.inr (by rw [here]; exact ⟨rfl, rfl⟩))
  | finish job held here holds =>
      have hand := tracks.hand
      rw [here, holds] at hand
      obtain rfl : held = job := Option.some.inj hand
      have all := answered.all (by rw [here]; rfl)
      rw [here] at all
      refine ⟨answered.sorted, ?_, ?_, ?_⟩
      · intro answer member
        obtain ⟨place, job, number, found, sync⟩ := answered.synced answer member
        exact ⟨place, job, number, by
          rw [List.getElem?_append_left (lt_of_found found), found], sync⟩
      · intro due
        cases sync : held.sync with
        | false =>
            simp [sync] at due
        | true =>
            refine ⟨s.output.finished, held, rfl, sync, ?_⟩
            intro answer member
            obtain ⟨place, job, number, found, _⟩ := answered.synced answer member
            have below := lt_of_found found
            omega
      · intro _
        rw [List.countP_append, ← all]
        cases sync : held.sync <;> simp [WriterPhase.isAnswering, sync]
  | answer now here =>
      obtain ⟨before, job, finished, sync, earlier⟩ := answered.due here
      have all := answered.all (by rw [here]; rfl)
      rw [here] at all
      refine ⟨?_, ?_, nofun, ?_⟩
      · rw [List.map_append, List.pairwise_append]
        refine ⟨answered.sorted, List.pairwise_singleton _ _, ?_⟩
        intro number own last member
        obtain rfl := List.mem_singleton.mp member
        obtain ⟨answer, listed, rfl⟩ := List.mem_map.mp own
        have below := earlier answer listed
        simp only [finished, List.length_append, List.length_singleton]
        omega
      · intro answer member
        rcases List.mem_append.mp member with old | own
        · exact answered.synced answer old
        · obtain rfl := List.mem_singleton.mp own
          refine ⟨before.length, job, ?_, ?_, sync⟩
          · simp [finished]
          · simp [finished]
      · intro _
        rw [← all, List.length_append]
        rfl
  | stop => exact answered.stay rfl rfl (Or.inl rfl)

/-! ### Runs -/

/-- Additions to the counter of bytes stay in the range of `usize`. -/
def fits (s : PrettyWriter W E) : WriterAction E → Bool
  | .output action => s.output.bytesFit action
  | _ => true

theorem step_simulates (taken : restrict fits (step config) s action = some next) :
    next.output = s.output ∨
      ∃ move, restrict PrettyOutput.bytesFit PrettyOutput.step s.output move = some next.output := by
  obtain ⟨fit, taken⟩ := restrict_eq_some.mp taken
  have own {move : PrettyOutput.PrettyAction} {output : PrettyOutput}
      (fit : s.output.bytesFit move = true) (stepped : s.output.step move = some output)
      (same : next.output = output) :
      ∃ move, restrict PrettyOutput.bytesFit PrettyOutput.step s.output move =
        some next.output :=
    ⟨move, restrict_eq_some.mpr ⟨fit, same ▸ stepped⟩⟩
  cases action with
  | ingest record =>
      cases taken
      exact Or.inl rfl
  | output action =>
      obtain ⟨_, taken⟩ := Option.ite_none_right_eq_some.mp taken
      obtain ⟨output, stepped, rfl⟩ := Option.map_eq_some_iff.mp taken
      exact Or.inr (own fit stepped rfl)
  | receive | finish =>
      simp only [step] at taken
      split at taken
      · obtain ⟨output, stepped, rfl⟩ := Option.map_eq_some_iff.mp taken
        exact Or.inr (own rfl stepped rfl)
      · cases taken
  | stop =>
      simp only [step] at taken
      split at taken
      · cases taken
      · obtain ⟨output, stepped, rfl⟩ := Option.map_eq_some_iff.mp taken
        exact Or.inr (own rfl stepped rfl)
      · obtain ⟨output, stepped, rfl⟩ := Option.map_eq_some_iff.mp taken
        exact Or.inr (own rfl stepped rfl)
  | prepare | write | answer =>
      simp only [step] at taken
      split at taken
      · cases taken
        exact Or.inl rfl
      · cases taken

/-- The queue under the task takes its own steps and no others. -/
theorem refines_queue {capacity maxQueuedBytes : ℕ} {device : W} {actions : List (WriterAction E)}
    (ran : runFrom (restrict fits (step config)) (spawned capacity maxQueuedBytes device) actions =
      some s) :
    ∃ moves, runFrom (restrict PrettyOutput.bytesFit PrettyOutput.step)
      { capacity := capacity, maxQueuedBytes := maxQueuedBytes } moves = some s.output := by
  exact projects_run (fun _ _ _ taken => step_simulates taken) actions _ _ ran

/-- What the task holds and what waits for it stay within the budget, and the counter is at zero
when there is neither and no call is on its way. -/
theorem held_within {capacity maxQueuedBytes : ℕ} {device : W} {actions : List (WriterAction E)}
    (ran : runFrom (restrict fits (step config)) (spawned capacity maxQueuedBytes device) actions =
      some s) :
    load PrettyOutput.PrettyJob.len s.output.jobs ≤ maxQueuedBytes ∧
      (s.output.closed = false → s.output.jobs = [] →
        (∀ call ∈ s.output.calls, PrettyOutput.pendingBytes call = 0) →
        s.output.queuedBytes = 0) := by
  obtain ⟨moves, queue⟩ := refines_queue ran
  obtain ⟨⟨accounted, budgeted, _⟩, limit⟩ := PrettyOutput.counters_run queue
  refine ⟨limit ▸ budgeted.bound, ?_⟩
  intro opened empty idle
  have zero : load PrettyOutput.pendingBytes s.output.calls = 0 := by
    refine List.sum_eq_zero fun value member => ?_
    obtain ⟨call, own, rfl⟩ := List.mem_map.mp member
    exact idle call own
  have total := accounted.total
  rw [empty, accounted.opened opened, zero] at total
  exact total

/-- The calls of `write_blocking`, one after the other. -/
inductive Performs (device : W) : List (WriteAttempt E) → W → Prop where
  | nothing : Performs device [] device
  | next {attempts : List (WriteAttempt E)} {reached : W} (attempt : WriteAttempt E)
      (before : Performs device attempts reached)
      (result : (writePrettyTo reached attempt.job.rendered attempt.summary attempt.times).1 =
        (attempt.result, attempt.wrote)) :
      Performs device (attempts ++ [attempt])
        (writePrettyTo reached attempt.job.rendered attempt.summary attempt.times).2

structure Sound (config : WriterConfig) (device : W) (s : PrettyWriter W E) : Prop where
  tracks : s.Tracks
  serial : s.Serial config
  summarized : s.Summarized config
  answered : s.Answered
  performs : Performs device s.attempts s.device

theorem Performs.step {device : W} (performs : Performs device s.attempts s.device)
    (taken : s.step config action = some next) : Performs device next.attempts next.device := by
  cases moves_of_step taken with
  | write job summary history times now here => exact .next _ performs rfl
  | _ => exact performs

theorem sound_spawned (config : WriterConfig) (capacity maxQueuedBytes : ℕ) (device : W) :
    Sound config device (spawned (E := E) capacity maxQueuedBytes device) where
  tracks := tracks_spawned capacity maxQueuedBytes device
  serial := ⟨rfl, by simp [spawned], List.prefix_rfl, fun _ => rfl,
    (fun _ _ _ never => by cases never), rfl⟩
  summarized := ⟨rfl, by simp [spawned], List.Pairwise.nil, fun _ _ _ never => by cases never⟩
  answered := ⟨List.Pairwise.nil, by simp [spawned], nofun, fun _ => rfl⟩
  performs := .nothing

theorem Sound.step {device : W} (sound : Sound config device s)
    (taken : s.step config action = some next) : Sound config device next where
  tracks := sound.tracks.step taken
  serial := sound.serial.step sound.tracks taken
  summarized := sound.summarized.step sound.tracks taken
  answered := sound.answered.step sound.tracks taken
  performs := sound.performs.step taken

theorem sound_run {capacity maxQueuedBytes : ℕ} {device : W} {actions : List (WriterAction E)}
    (ran : run config capacity maxQueuedBytes device actions = some s) : Sound config device s :=
  invariant_run (fun _ _ _ taken sound => Sound.step sound taken) actions _ _ ran
    (sound_spawned config capacity maxQueuedBytes device)

theorem Sound.grows {device : W} {more : List (WriterAction E)} {later : PrettyWriter W E}
    (sound : Sound config device s)
    (reached : runFrom (PrettyWriter.step config) s more = some later) :
    Sound config device later ∧ s.output.entered <+: later.output.entered := by
  have kept (before : PrettyWriter W E) (action : WriterAction E) (following : PrettyWriter W E)
      (stepped : before.step config action = some following)
      (held : Sound config device before ∧ s.output.entered <+: before.output.entered) :
      Sound config device following ∧ s.output.entered <+: following.output.entered :=
    ⟨held.1.step stepped, held.2.trans (held.1.tracks.grows stepped).1⟩
  exact invariant_run kept more _ _ reached ⟨sound, List.prefix_rfl⟩

/-- Nothing is written once the pipe is broken. -/
theorem Serial.silent (serial : s.Serial config) (broken : s.state.brokenPipe = true)
    (taken : s.step config action = some next) :
    next.state.brokenPipe = true ∧ next.attempts = s.attempts ∧ next.device = s.device := by
  cases moves_of_step taken with
  | write job summary history times now here =>
      have unbroken := (serial.writing job summary history here).1
      simp [broken] at unbroken
  | _ => exact ⟨broken, rfl, rfl⟩

/-- In every interleaving with those who queue and ingest: the texts are tried one after the other
in the order of the jobs, each whole call after the last; the health of the output saw exactly
these calls. The first EPIPE of stdout is the last call ever; until then, and always for a
file, every text was tried. -/
theorem writer_serializes {capacity maxQueuedBytes : ℕ} {device : W}
    {actions : List (WriterAction E)}
    (ran : run config capacity maxQueuedBytes device actions = some s) :
    Performs device s.attempts s.device ∧
    s.attempts.map WriteAttempt.job <+: texts (s.output.finished ++ s.phase.done) ∧
    ((∀ attempt ∈ s.attempts, attempt.breaks config.target = false) →
      s.attempts.map WriteAttempt.job = texts (s.output.finished ++ s.phase.done)) ∧
    (config.target = .file → ∀ attempt ∈ s.attempts, attempt.breaks config.target = false) ∧
    (∀ attempt ∈ s.attempts, attempt.breaks config.target = true →
      s.attempts.getLast? = some attempt ∧
      ∀ more later, runFrom (step config) s more = some later →
        later.attempts = s.attempts ∧ later.device = s.device) ∧
    s.state.health =
      WriteHealth.handleAll {} (s.attempts.filterMap (WriteAttempt.event config.target)) := by
  have sound := sound_run ran
  have serial := sound.serial
  refine ⟨sound.performs, serial.order, ?_, ?_, ?_, serial.health⟩
  · intro unbroken
    refine serial.every ?_
    rw [serial.pipe]
    simpa using unbroken
  · intro file attempt _
    unfold WriteAttempt.breaks breaksPipe
    split
    · rfl
    · simp [file]
  · intro attempt member breaks
    refine ⟨?_, ?_⟩
    · rcases List.eq_nil_or_concat s.attempts with none | ⟨before, last, split⟩
      · simp [none] at member
      · have only := serial.last
        rw [split, List.concat_eq_append] at only member
        rw [split, List.concat_eq_append, List.getLast?_concat]
        rw [List.dropLast_concat] at only
        rcases List.mem_append.mp member with earlier | own
        · simp [only attempt earlier] at breaks
        · rw [List.mem_singleton.mp own]
    · intro more later reached
      have broken : s.state.brokenPipe = true := by
        rw [serial.pipe]
        exact List.any_eq_true.mpr ⟨attempt, member, breaks⟩
      have kept (before : PrettyWriter W E) (action : WriterAction E)
          (following : PrettyWriter W E) (stepped : before.step config action = some following)
          (held : Sound config device before ∧ before.state.brokenPipe = true ∧
            before.attempts = s.attempts ∧ before.device = s.device) :
          Sound config device following ∧ following.state.brokenPipe = true ∧
            following.attempts = s.attempts ∧ following.device = s.device := by
        obtain ⟨own, still, same, place⟩ := held
        obtain ⟨after, attempts, device⟩ := own.serial.silent still stepped
        exact ⟨own.step stepped, after, attempts.trans same, device.trans place⟩
      exact (invariant_run kept more _ _ reached ⟨sound, broken, rfl, rfl⟩).2.2

omit [PrettyDevice W E] in
theorem Summarized.codex_monotone (summarized : s.Summarized config) :
    s.attempts.Pairwise fun earlier later =>
      (codexTotal (Aggregator.run (s.ingested.take earlier.history))).AtMost
        (codexTotal (Aggregator.run (s.ingested.take later.history))) := by
  refine (List.pairwise_map.mp summarized.sorted).imp fun {earlier later} order => ?_
  have split : s.ingested.take later.history = s.ingested.take earlier.history ++
      (s.ingested.take later.history).drop earlier.history := by
    conv_lhs => rw [← List.take_append_drop earlier.history (s.ingested.take later.history)]
    rw [List.take_take, min_eq_left order]
  rw [split]
  exact (Aggregator.codex_total_monotone _ _).2

/-- The summaries are those of the totals after more and more of the records: none is ahead of
what was ingested, none misses a record that was ingested before its own job was queued, and a
later one never shows an earlier state, nor a smaller total of Codex. -/
theorem summaries_follow_history {capacity maxQueuedBytes : ℕ} {device : W}
    {actions : List (WriterAction E)}
    (ran : run config capacity maxQueuedBytes device actions = some s) :
    (∀ attempt ∈ s.attempts, Covers config s attempt.job attempt.summary attempt.history) ∧
    (s.attempts.map WriteAttempt.history).Pairwise (· ≤ ·) ∧
    (s.attempts.Pairwise fun earlier later =>
      (codexTotal (Aggregator.run (s.ingested.take earlier.history))).AtMost
        (codexTotal (Aggregator.run (s.ingested.take later.history)))) ∧
    ∀ more later, runFrom (step config) s more = some later →
      (s.ingested <+: later.ingested ∧ s.asked <+: later.asked) ∧
      s.attempts <+: later.attempts := by
  have sound := sound_run ran
  refine ⟨sound.summarized.covers, sound.summarized.sorted, sound.summarized.codex_monotone, ?_⟩
  intro more later reached
  refine invariant_run (motive := fun later =>
    (s.ingested <+: later.ingested ∧ s.asked <+: later.asked) ∧ s.attempts <+: later.attempts)
    ?_ more _ _ reached ⟨⟨List.prefix_rfl, List.prefix_rfl⟩, List.prefix_rfl⟩
  rintro before action following stepped ⟨⟨ingested, asked⟩, attempts⟩
  cases moves_of_step stepped with
  | ingest record => exact ⟨⟨ingested.trans (List.prefix_append _ _), asked⟩, attempts⟩
  | output action output callers taken =>
      refine ⟨⟨ingested, asked.trans ?_⟩, attempts⟩
      cases action.adds with
      | true => exact List.prefix_append _ _
      | false => exact List.prefix_rfl
  | write job summary history times now here =>
      exact ⟨⟨ingested, asked⟩, attempts.trans (List.prefix_append _ _)⟩
  | _ => exact ⟨⟨ingested, asked⟩, attempts⟩

/-- When the task answers a synchronization, it has finished everything that entered the channel
before it, in that order; until the pipe breaks it has written each of these texts. Nothing is
answered twice or out of turn. -/
theorem drain_answered {capacity maxQueuedBytes : ℕ} {device : W} {actions : List (WriterAction E)}
    (ran : run config capacity maxQueuedBytes device actions = some s)
    (drained : s.step config (.output .drain) = some next) {more : List (WriterAction E)}
    {later : PrettyWriter W E} (reached : runFrom (step config) next more = some later)
    (answered : s.output.entered.length + 1 ∈ later.answers.map Prod.fst) :
    later.output.finished.take s.output.entered.length = s.output.entered ∧
    (∃ job, later.output.finished[s.output.entered.length]? = some job ∧ job.sync = true) ∧
    ((∀ attempt ∈ later.attempts, attempt.breaks config.target = false) →
      texts s.output.entered <+: later.attempts.map WriteAttempt.job) ∧
    (later.answers.map Prod.fst).count (s.output.entered.length + 1) = 1 ∧
    (s.output.entered.length + 1 ∉ s.answers.map Prod.fst) := by
  have sound := sound_run ran
  have before := (sound.tracks.grows drained).1
  obtain ⟨ends, grown⟩ := (sound.step drained).grows reached
  obtain ⟨answer, member, same⟩ := List.mem_map.mp answered
  obtain ⟨place, job, number, found, sync⟩ := ends.answered.synced answer member
  obtain rfl : s.output.entered.length = place := Nat.succ.inj (same.symm.trans number)
  have reaches := lt_of_found found
  have finished : s.output.entered <+: later.output.finished := by
    refine List.prefix_of_prefix_length_le (before.trans grown) ?_ reaches.le
    rw [PrettyOutput.entered, List.append_assoc]
    exact List.prefix_append _ _
  refine ⟨(List.prefix_iff_eq_take.mp finished).symm, ⟨job, found, sync⟩, ?_, ?_, ?_⟩
  · intro unbroken
    have every := ends.serial.every (by rw [ends.serial.pipe]; simpa using unbroken)
    rw [every]
    exact (finished.trans (List.prefix_append _ _)).filter _
  · have once : (later.answers.map Prod.fst).Nodup := ends.answered.sorted.imp ne_of_lt
    exact List.count_eq_one_of_mem once answered
  · intro early
    obtain ⟨answer, member, same⟩ := List.mem_map.mp early
    obtain ⟨place, other, number, present, _⟩ := sound.answered.synced answer member
    have below := lt_of_found present
    have within : s.output.finished.length ≤ s.output.entered.length := by
      rw [PrettyOutput.entered, List.append_assoc, List.length_append]
      omega
    omega

end PrettyWriter

/-- Stdout, with the calls that fail: how much such a call takes, and its error. -/
structure Stdout where
  taken : Bytes := []
  outcomes : List (Option (ℕ × IoError)) := []
  deriving DecidableEq

instance : PrettyDevice Stdout Unit where
  writeAll out bytes _ :=
    match out.outcomes with
    | [] => (.ok (), { out with taken := out.taken ++ bytes })
    | none :: rest => (.ok (), { taken := out.taken ++ bytes, outcomes := rest })
    | some (count, error) :: rest =>
        (.error error, { taken := out.taken ++ bytes.take count, outcomes := rest })
  flush out := (.ok (), out)

namespace PrettyWriter

def countingSummary : WriterConfig where
  target := .stdout
  summaryText g := [UInt8.ofNat (48 + g.agents.size), 10]

def queues {E : Type*} (id : ℕ) (text : Bytes) (wantSummary : Bool) : List (WriterAction E) :=
  [.output (.enqueue text wantSummary), .output (.act id .fetchAdd), .output (.act id .check),
    .output (.act id (.trySend false))]

/-- The first text is written with a summary, the second finds the reader gone, and the third is
passed over. -/
def readerGone : List (WriterAction Unit) :=
  List.flatten [
    [.ingest (.logs { resourceLogs := [] })],
    queues 0 [97, 10] true,
    queues 1 [98, 10] false,
    queues 2 [99, 10] true,
    [.receive, .prepare, .write ((), ()) 1, .finish],
    [.receive, .prepare, .write ((), ()) 2, .finish],
    [.receive, .prepare]]

def goneReader : Stdout where
  outcomes := [none, none, some (1, .os 32)]

theorem writer_serializes_readerGone :
    ∃ s, run countingSummary 256 (64 * 1024 * 1024) goneReader readerGone = some s ∧
      s.device.taken = [97, 10, 48, 10, 98] ∧ s.attempts.length = 2 ∧
      s.attempts.map WriteAttempt.job <+: texts (s.output.finished ++ s.phase.done) ∧
      (s.output.finished ++ s.phase.done).length = 3 := by
  have facts : (run countingSummary 256 (64 * 1024 * 1024) goneReader readerGone).any (fun s =>
      s.device.taken = [97, 10, 48, 10, 98] ∧ s.attempts.length = 2 ∧
        (s.output.finished ++ s.phase.done).length = 3) = true := by
    decide +kernel
  obtain ⟨s, ran, facts⟩ := (Option.any_eq_true _ _).mp facts
  obtain ⟨taken, two, three⟩ := of_decide_eq_true facts
  exact ⟨s, ran, taken, two, (writer_serializes ran).2.1, three⟩

theorem summaries_follow_history_readerGone :
    ∃ s, run countingSummary 256 (64 * 1024 * 1024) goneReader readerGone = some s ∧
      s.attempts.map WriteAttempt.history = [1, 1] ∧
      ∀ attempt ∈ s.attempts, Covers countingSummary s attempt.job attempt.summary attempt.history := by
  have facts : (run countingSummary 256 (64 * 1024 * 1024) goneReader readerGone).any (fun s =>
      s.attempts.map WriteAttempt.history = [1, 1]) = true := by
    decide +kernel
  obtain ⟨s, ran, facts⟩ := (Option.any_eq_true _ _).mp facts
  exact ⟨s, ran, of_decide_eq_true facts, (summaries_follow_history ran).1⟩

def drainsOne : List (WriterAction Unit) :=
  [.receive, .prepare, .write ((), ()) 1, .finish, .receive, .prepare, .finish, .answer 2]

theorem drain_answered_one :
    ∃ s next later : PrettyWriter Stdout Unit,
      run countingSummary 256 (64 * 1024 * 1024) {} (queues 0 [97, 10] false) = some s ∧
      s.step countingSummary (.output .drain) = some next ∧
      runFrom (step countingSummary) next drainsOne = some later ∧
      later.device = { taken := [97, 10] } ∧
      later.output.finished.take s.output.entered.length = s.output.entered := by
  have facts : ((run countingSummary 256 (64 * 1024 * 1024) ({} : Stdout)
      (queues 0 [97, 10] false)).any fun s =>
        (s.step countingSummary (.output .drain)).any fun next =>
          (runFrom (step countingSummary) next drainsOne).any fun later =>
            later.device = { taken := [97, 10] } ∧
              s.output.entered.length + 1 ∈ later.answers.map Prod.fst) = true := by
    decide +kernel
  obtain ⟨s, ran, facts⟩ := (Option.any_eq_true _ _).mp facts
  obtain ⟨next, drained, facts⟩ := (Option.any_eq_true _ _).mp facts
  obtain ⟨later, reached, facts⟩ := (Option.any_eq_true _ _).mp facts
  obtain ⟨device, answered⟩ := of_decide_eq_true facts
  exact ⟨s, next, later, ran, drained, reached, device,
    (drain_answered ran drained reached answered).1⟩

end PrettyWriter

/-! ### Pieces -/

/-- What `write_pretty_to` has to write. -/
def WriteAttempt.pieces {E : Type*} (attempt : WriteAttempt E) : List (Bytes × E) :=
  (attempt.job.rendered, attempt.times.1) ::
    attempt.summary.toList.map fun summary => (summary, attempt.times.2)

theorem writePrettyTo_wrote {W E : Type*} [PrettyDevice W E] (writer : W) (rendered : Bytes)
    (summary : Option Bytes) (times : E × E) :
    let pieces := (rendered, times.1) :: summary.toList.map fun summary => (summary, times.2)
    (writePrettyTo writer rendered summary times).1.2 <+: pieces ∧
      ((writePrettyTo writer rendered summary times).1.1 = .ok () →
        (writePrettyTo writer rendered summary times).1.2 = pieces) := by
  intro pieces
  simp only [writePrettyTo, pieces]
  rcases PrettyDevice.writeAll writer rendered times.1 with ⟨error | done, middle⟩
  · exact ⟨List.nil_prefix, nofun⟩
  · cases summary with
    | none => exact ⟨List.prefix_rfl, fun _ => rfl⟩
    | some summary =>
        dsimp only
        rcases PrettyDevice.writeAll middle summary times.2 with ⟨error | done, ends⟩
        · exact ⟨List.prefix_append [_] [_], nofun⟩
        · exact ⟨List.prefix_rfl, fun _ => rfl⟩

theorem PrettyWriter.Performs.wrote {W E : Type*} [PrettyDevice W E] {device reached : W}
    {attempts : List (WriteAttempt E)} (performs : Performs device attempts reached) :
    ∀ attempt ∈ attempts, attempt.wrote <+: attempt.pieces ∧
      (attempt.result = .ok () → attempt.wrote = attempt.pieces) := by
  induction performs with
  | nothing => simp
  | @next attempts middle attempt before result ih =>
      intro other member
      rcases List.mem_append.mp member with earlier | own
      · exact ih other earlier
      · obtain rfl := List.mem_singleton.mp own
        have wrote := writePrettyTo_wrote middle other.job.rendered other.summary other.times
        rwa [result] at wrote

end OtelLogger
