import OtelLogger.Library.Interleaving
import OtelLogger.AppendStorage
import OtelLogger.Number

/-!
The queue of the human-readable output: calls of `PrettyOutput::enqueue`, each adding its length
to a shared counter before it decides, and the writer task that takes jobs and subtracts them.
-/

namespace OtelLogger

open Interleaving

namespace PrettyOutput

inductive DropReason where
  | writerStopped
  | queueFull
  | byteBudget
  deriving DecidableEq

inductive DropNotice where
  | stopped (total : ℕ)
  | stillStopped (total : ℕ)
  | behind (total : ℕ) (reason : DropReason)
  deriving DecidableEq

/-- Where a call of `enqueue` is. From `added` to `refused` its length is in the counter without a
job; `counted` is `report_drop` before it looks whether the stop was reported. -/
inductive EnqueuePhase where
  | called
  | added (queued : ℕ)
  | sending
  | refused (reason : DropReason)
  | undone (reason : DropReason)
  | counted (dropped : ℕ)
  | returned (reason : Option DropReason)
  deriving DecidableEq

/-- The turn is the number of the call's addition to the counter, kept for the record. -/
structure EnqueueCall where
  rendered : Bytes
  wantSummary : Bool
  phase : EnqueuePhase := .called
  turn : ℕ := 0

structure PrettyJob where
  rendered : Bytes
  wantSummary : Bool
  sync : Bool
  turn : ℕ := 0
  deriving DecidableEq

inductive EnqueueAction where
  | fetchAdd
  | check
  | trySend (full : Bool)
  | fetchSub
  | countDrop
  | reportStop

inductive PrettyAction where
  | enqueue (rendered : Bytes) (wantSummary : Bool)
  | act (id : ℕ) (action : EnqueueAction)
  | drain
  | receive
  | finish
  | stop

def isPowerOfTwo (number : ℕ) : Bool :=
  number = 2 ^ number.log2

def EnqueueCall.len (call : EnqueueCall) : ℕ :=
  call.rendered.length

def EnqueueCall.queued (call : EnqueueCall) : Bool :=
  call.phase = .returned none

def EnqueueCall.droppedOut (call : EnqueueCall) : Bool :=
  match call.phase with
  | .counted _ | .returned (some _) => true
  | _ => false

def PrettyJob.len (job : PrettyJob) : ℕ :=
  job.rendered.length

end PrettyOutput

open PrettyOutput in
/-- The fields from `turns` on are kept for the record and never read: the additions so far, the
jobs that were finished and those that went with the channel, and what was queued and dropped by
which call. -/
structure PrettyOutput where
  capacity : ℕ
  maxQueuedBytes : ℕ
  calls : List EnqueueCall := []
  queue : List PrettyJob := []
  inHand : Option PrettyJob := none
  queuedBytes : ℕ := 0
  dropped : ℕ := 0
  closed : Bool := false
  writerStopReported : Bool := false
  notices : List DropNotice := []
  turns : ℕ := 0
  finished : List PrettyJob := []
  discarded : List PrettyJob := []
  queuedBy : List (ℕ × Bytes) := []
  droppedBy : List (ℕ × Bytes) := []

namespace PrettyOutput

def setCall (s : PrettyOutput) (id : ℕ) (call : EnqueueCall) (phase : EnqueuePhase) :
    PrettyOutput :=
  { s with calls := s.calls.set id { call with phase := phase } }

/-- The reason not to send, if there is one before the attempt; the stopped writer comes first. -/
def check (s : PrettyOutput) (queued len : ℕ) : EnqueuePhase :=
  if s.closed then .refused .writerStopped
  else if s.maxQueuedBytes < saturatingAdd queued len then .refused .byteBudget
  else .sending

/-- `try_send` fails on a channel that is closed, or full at that moment. -/
def trySend (s : PrettyOutput) (id : ℕ) (call : EnqueueCall) (full : Bool) :
    Option PrettyOutput :=
  if s.closed then some (s.setCall id call (.refused .writerStopped))
  else if full then some (s.setCall id call (.refused .queueFull))
  else if s.queue.length < s.capacity then
    some { s.setCall id call (.returned none) with
      queue := s.queue ++
        [{ rendered := call.rendered, wantSummary := call.wantSummary, sync := false,
           turn := call.turn }]
      queuedBy := s.queuedBy ++ [(id, call.rendered)] }
  else none

/-- `report_drop` up to the report about a stopped writer. -/
def countDrop (s : PrettyOutput) (id : ℕ) (call : EnqueueCall) (reason : DropReason) :
    PrettyOutput :=
  let dropped := fetchAdd s.dropped 1
  let phase := if reason = .writerStopped then .counted dropped else .returned (some reason)
  let notice := reason ≠ .writerStopped ∧ isPowerOfTwo dropped
  { s.setCall id call phase with
    dropped := dropped
    notices := s.notices ++ if notice then [.behind dropped reason] else []
    droppedBy := s.droppedBy ++ [(id, call.rendered)] }

def reportStop (s : PrettyOutput) (id : ℕ) (call : EnqueueCall) (dropped : ℕ) : PrettyOutput :=
  { s.setCall id call (.returned (some .writerStopped)) with
    writerStopReported := true
    notices := s.notices ++
      if s.writerStopReported = false then [.stopped dropped]
      else if isPowerOfTwo dropped then [.stillStopped dropped]
      else [] }

def act (s : PrettyOutput) (id : ℕ) (call : EnqueueCall) (action : EnqueueAction) :
    Option PrettyOutput :=
  match action, call.phase with
  | .fetchAdd, .called =>
      some { s with
        calls := s.calls.set id { call with phase := .added s.queuedBytes, turn := s.turns }
        queuedBytes := fetchAdd s.queuedBytes call.len
        turns := s.turns + 1 }
  | .check, .added queued => some (s.setCall id call (s.check queued call.len))
  | .trySend full, .sending => s.trySend id call full
  | .fetchSub, .refused reason =>
      some { s.setCall id call (.undone reason) with
        queuedBytes := fetchSub s.queuedBytes call.len }
  | .countDrop, .undone reason => some (s.countDrop id call reason)
  | .reportStop, .counted dropped => some (s.reportStop id call dropped)
  | _, _ => none

/-- One atomic step. The channel closes with the end of the writer task, and what is in it is
dropped with its receiving end. -/
def step (s : PrettyOutput) : PrettyAction → Option PrettyOutput
  | .enqueue rendered wantSummary =>
      some { s with calls := s.calls ++ [{ rendered := rendered, wantSummary := wantSummary }] }
  | .act id action => s.calls[id]?.bind fun call => s.act id call action
  | .drain =>
      if s.closed = false ∧ s.queue.length < s.capacity then
        some { s with
          queue := s.queue ++ [{ rendered := [], wantSummary := false, sync := true }] }
      else none
  | .receive =>
      match s.closed, s.inHand, s.queue with
      | false, none, job :: queue => some { s with queue := queue, inHand := some job }
      | _, _, _ => none
  | .finish =>
      s.inHand.map fun job =>
        { s with
          inHand := none
          queuedBytes := fetchSub s.queuedBytes job.len
          finished := s.finished ++ [job] }
  | .stop =>
      if s.closed then none
      else
        some { s with
          closed := true
          queue := []
          inHand := none
          discarded := s.inHand.toList ++ s.queue }

/-- No addition to the counter of bytes exceeds the range of `usize`. -/
def bytesFit (s : PrettyOutput) : PrettyAction → Bool
  | .act id .fetchAdd => s.calls[id]?.all fun call => s.queuedBytes + call.len ≤ usizeMax
  | _ => true

/-! ### What a step can do -/

/-- The steps, one constructor for each branch that matters to the counters. -/
inductive Moves (s : PrettyOutput) : PrettyAction → PrettyOutput → Prop where
  | enqueue (rendered : Bytes) (wantSummary : Bool) :
      Moves s (.enqueue rendered wantSummary)
        { s with calls := s.calls ++ [{ rendered := rendered, wantSummary := wantSummary }] }
  | add (id : ℕ) (call : EnqueueCall) (found : s.calls[id]? = some call)
      (here : call.phase = .called) :
      Moves s (.act id .fetchAdd)
        { s with
          calls := s.calls.set id { call with phase := .added s.queuedBytes, turn := s.turns }
          queuedBytes := fetchAdd s.queuedBytes call.len
          turns := s.turns + 1 }
  | pass (id : ℕ) (call : EnqueueCall) (queued : ℕ) (found : s.calls[id]? = some call)
      (here : call.phase = .added queued)
      (small : saturatingAdd queued call.len ≤ s.maxQueuedBytes) :
      Moves s (.act id .check) (s.setCall id call .sending)
  | refuse (id : ℕ) (call : EnqueueCall) (action : EnqueueAction) (reason : DropReason)
      (found : s.calls[id]? = some call)
      (here : (∃ queued, call.phase = .added queued) ∨ call.phase = .sending) :
      Moves s (.act id action) (s.setCall id call (.refused reason))
  | send (id : ℕ) (call : EnqueueCall) (found : s.calls[id]? = some call)
      (here : call.phase = .sending) (opened : s.closed = false) :
      Moves s (.act id (.trySend false))
        { s.setCall id call (.returned none) with
          queue := s.queue ++
            [{ rendered := call.rendered, wantSummary := call.wantSummary, sync := false,
               turn := call.turn }]
          queuedBy := s.queuedBy ++ [(id, call.rendered)] }
  | undo (id : ℕ) (call : EnqueueCall) (reason : DropReason) (found : s.calls[id]? = some call)
      (here : call.phase = .refused reason) :
      Moves s (.act id .fetchSub)
        { s.setCall id call (.undone reason) with
          queuedBytes := fetchSub s.queuedBytes call.len }
  | countDrop (id : ℕ) (call : EnqueueCall) (reason : DropReason)
      (found : s.calls[id]? = some call) (here : call.phase = .undone reason) :
      Moves s (.act id .countDrop) (s.countDrop id call reason)
  | reportStop (id : ℕ) (call : EnqueueCall) (dropped : ℕ) (found : s.calls[id]? = some call)
      (here : call.phase = .counted dropped) :
      Moves s (.act id .reportStop) (s.reportStop id call dropped)
  | drain (opened : s.closed = false) :
      Moves s .drain
        { s with queue := s.queue ++ [{ rendered := [], wantSummary := false, sync := true }] }
  | receive (job : PrettyJob) (queue : List PrettyJob) (opened : s.closed = false)
      (idle : s.inHand = none) (head : s.queue = job :: queue) :
      Moves s .receive { s with queue := queue, inHand := some job }
  | finish (job : PrettyJob) (holds : s.inHand = some job) :
      Moves s .finish
        { s with
          inHand := none
          queuedBytes := fetchSub s.queuedBytes job.len
          finished := s.finished ++ [job] }
  | stop (opened : s.closed = false) :
      Moves s .stop
        { s with
          closed := true
          queue := []
          inHand := none
          discarded := s.inHand.toList ++ s.queue }

variable {s next : PrettyOutput} {action : PrettyAction}

theorem moves_of_check {id queued : ℕ} {call : EnqueueCall} (found : s.calls[id]? = some call)
    (here : call.phase = .added queued) :
    Moves s (.act id .check) (s.setCall id call (s.check queued call.len)) := by
  unfold check
  split
  · exact .refuse id call .check .writerStopped found (Or.inl ⟨queued, here⟩)
  · split
    · exact .refuse id call .check .byteBudget found (Or.inl ⟨queued, here⟩)
    · exact .pass id call queued found here (by omega)

theorem moves_of_trySend {id : ℕ} {call : EnqueueCall} {full : Bool}
    (found : s.calls[id]? = some call) (here : call.phase = .sending)
    (taken : s.trySend id call full = some next) : Moves s (.act id (.trySend full)) next := by
  simp only [trySend] at taken
  split at taken
  · cases taken
    exact .refuse id call _ .writerStopped found (Or.inr here)
  · rename_i opened
    split at taken
    · cases taken
      exact .refuse id call _ .queueFull found (Or.inr here)
    · rename_i notFull
      obtain rfl : full = false := by simpa using notFull
      obtain ⟨_, taken⟩ := Option.ite_none_right_eq_some.mp taken
      cases taken
      exact .send id call found here (by simpa using opened)

theorem moves_of_step (taken : s.step action = some next) : Moves s action next := by
  cases action with
  | enqueue rendered wantSummary =>
      cases taken
      exact .enqueue rendered wantSummary
  | act id action =>
      simp only [step, Option.bind_eq_some_iff, act] at taken
      obtain ⟨call, found, taken⟩ := taken
      split at taken
      · rename_i here
        cases taken
        exact .add id call found here
      · rename_i here
        cases taken
        exact moves_of_check found here
      · rename_i here
        exact moves_of_trySend found here taken
      · rename_i here
        cases taken
        exact .undo id call _ found here
      · rename_i here
        cases taken
        exact .countDrop id call _ found here
      · rename_i here
        cases taken
        exact .reportStop id call _ found here
      · cases taken
  | drain =>
      obtain ⟨⟨opened, _⟩, taken⟩ := Option.ite_none_right_eq_some.mp taken
      cases taken
      exact .drain opened
  | receive =>
      simp only [step] at taken
      split at taken
      · rename_i opened idle head
        cases taken
        exact .receive _ _ opened idle head
      · cases taken
  | finish =>
      obtain ⟨job, holds, rfl⟩ := Option.map_eq_some_iff.mp taken
      exact .finish job holds
  | stop =>
      simp only [step] at taken
      split at taken
      · cases taken
      · rename_i opened
        cases taken
        exact .stop (by simpa using opened)

/-! ### The counter of bytes -/

/-- What a call has in the counter while there is no job for it. -/
def pendingBytes (call : EnqueueCall) : ℕ :=
  match call.phase with
  | .added _ | .sending | .refused _ => call.len
  | _ => 0

def jobs (s : PrettyOutput) : List PrettyJob :=
  s.inHand.toList ++ s.queue

/-- The counter holds what is queued or being written, what calls have added without a job, and
what went with the channel. -/
structure Accounted (s : PrettyOutput) : Prop where
  total : s.queuedBytes = load PrettyJob.len s.jobs + load pendingBytes s.calls +
    load PrettyJob.len s.discarded
  within : s.queuedBytes ≤ u64Max
  opened : s.closed = false → s.discarded = []
  closed : s.closed = true → s.jobs = []

/-- A call goes on; what it has in the counter stays, or was just added or taken away. -/
theorem pending_set {id : ℕ} {call : EnqueueCall} (found : s.calls[id]? = some call)
    (new : EnqueueCall) :
    load pendingBytes (s.calls.set id new) + pendingBytes call =
      load pendingBytes s.calls + pendingBytes new :=
  load_set pendingBytes found new

theorem pending_le {id : ℕ} {call : EnqueueCall} (found : s.calls[id]? = some call) :
    pendingBytes call ≤ load pendingBytes s.calls :=
  weight_le_load pendingBytes found

theorem Accounted.keep {id : ℕ} {call new : EnqueueCall} (accounted : Accounted s)
    (found : s.calls[id]? = some call) (same : pendingBytes new = pendingBytes call) :
    s.queuedBytes = load PrettyJob.len s.jobs + load pendingBytes (s.calls.set id new) +
      load PrettyJob.len s.discarded := by
  have total := accounted.total
  have moved := pending_set found new
  omega

theorem Accounted.step (accounted : Accounted s) (fits : s.bytesFit action = true)
    (taken : s.step action = some next) : Accounted next := by
  have total := accounted.total
  have within := accounted.within
  cases moves_of_step taken with
  | enqueue rendered wantSummary =>
      refine ⟨?_, within, accounted.opened, accounted.closed⟩
      rw [load_concat]
      exact total
  | add id call found here =>
      have bound : s.queuedBytes + call.len ≤ u64Max := by
        simp only [bytesFit, found, Option.all_some, decide_eq_true_eq] at fits
        exact fits
      have before : pendingBytes call = 0 := by rw [pendingBytes, here]
      have moved := pending_set found
        { call with phase := .added s.queuedBytes, turn := s.turns }
      change _ = _ + call.len at moved
      refine ⟨?_, ?_, accounted.opened, accounted.closed⟩
      · rw [fetchAdd_of_fits bound]
        change s.queuedBytes + call.len = load PrettyJob.len s.jobs +
          load pendingBytes (s.calls.set id _) + load PrettyJob.len s.discarded
        omega
      · rw [fetchAdd_of_fits bound]
        exact bound
  | pass id call queued found here small =>
      have same : pendingBytes { call with phase := .sending } = pendingBytes call := by
        simp only [pendingBytes, here]
        rfl
      exact ⟨accounted.keep found same, within, accounted.opened, accounted.closed⟩
  | refuse id call action reason found here =>
      have same : pendingBytes { call with phase := .refused reason } = pendingBytes call := by
        rcases here with ⟨queued, here⟩ | here <;> simp only [pendingBytes, here] <;> rfl
      exact ⟨accounted.keep found same, within, accounted.opened, accounted.closed⟩
  | send id call found here stillOpen =>
      have before : pendingBytes call = call.len := by simp only [pendingBytes, here]
      have moved := pending_set found { call with phase := .returned none }
      change _ = _ + 0 at moved
      refine ⟨?_, within, accounted.opened, fun shut => by cases stillOpen.symm.trans shut⟩
      change s.queuedBytes = load PrettyJob.len (s.inHand.toList ++ (s.queue ++ [_])) +
        load pendingBytes (s.calls.set id _) + load PrettyJob.len s.discarded
      rw [← List.append_assoc, load_concat, ← jobs]
      change s.queuedBytes = load PrettyJob.len s.jobs + call.len + _ + _
      omega
  | undo id call reason found here =>
      have before : pendingBytes call = call.len := by simp only [pendingBytes, here]
      have moved := pending_set found { call with phase := .undone reason }
      have enough := pending_le found
      change _ = _ + 0 at moved
      refine ⟨?_, ?_, accounted.opened, accounted.closed⟩
      · rw [fetchSub_of_fits within (by omega)]
        change s.queuedBytes - call.len = load PrettyJob.len s.jobs +
          load pendingBytes (s.calls.set id _) + load PrettyJob.len s.discarded
        omega
      · change fetchSub s.queuedBytes call.len ≤ u64Max
        rw [fetchSub_of_fits within (by omega)]
        omega
  | countDrop id call reason found here =>
      have same : pendingBytes { call with
          phase := if reason = .writerStopped then .counted (fetchAdd s.dropped 1)
            else .returned (some reason) } = pendingBytes call := by
        cases reason <;> simp [pendingBytes, here]
      exact ⟨accounted.keep found same, within, accounted.opened, accounted.closed⟩
  | reportStop id call dropped found here =>
      have same : pendingBytes { call with phase := .returned (some .writerStopped) } =
          pendingBytes call := by
        simp only [pendingBytes, here]
      exact ⟨accounted.keep found same, within, accounted.opened, accounted.closed⟩
  | drain stillOpen =>
      refine ⟨?_, within, accounted.opened, fun shut => by cases stillOpen.symm.trans shut⟩
      change s.queuedBytes = load PrettyJob.len (s.inHand.toList ++ (s.queue ++ [_])) +
        load pendingBytes s.calls + load PrettyJob.len s.discarded
      rw [← List.append_assoc, load_concat, ← jobs]
      exact total
  | receive job queue stillOpen idle head =>
      refine ⟨?_, within, accounted.opened, fun shut => by cases stillOpen.symm.trans shut⟩
      rw [jobs, idle, head] at total
      exact total
  | finish job holds =>
      have split : load PrettyJob.len s.jobs = job.len + load PrettyJob.len s.queue := by
        rw [jobs, holds]
        simp [load]
      refine ⟨?_, ?_, accounted.opened, fun shut => ?_⟩
      · rw [fetchSub_of_fits within (by omega)]
        change s.queuedBytes - job.len = load PrettyJob.len s.queue + load pendingBytes s.calls +
          load PrettyJob.len s.discarded
        omega
      · change fetchSub s.queuedBytes job.len ≤ u64Max
        rw [fetchSub_of_fits within (by omega)]
        omega
      · have none := accounted.closed shut
        rw [jobs, holds] at none
        cases none
  | stop stillOpen =>
      have none := accounted.opened stillOpen
      refine ⟨?_, within, fun opened => (by cases opened), fun _ => rfl⟩
      rw [none] at total
      change s.queuedBytes = 0 + load pendingBytes s.calls + load PrettyJob.len s.jobs
      simp only [load, List.map_nil, List.sum_nil] at total ⊢
      omega

/-! ### The byte budget -/

/-- What was added to the counter by a turn and is still in it. -/
def earlierBytes (s : PrettyOutput) (turn : ℕ) : ℕ :=
  load PrettyJob.len (s.jobs.filter fun job => job.turn ≤ turn) +
    load (fun call => if call.turn ≤ turn then pendingBytes call else 0) s.calls

theorem earlierBytes_le (s : PrettyOutput) (turn : ℕ) :
    s.earlierBytes turn ≤ load PrettyJob.len s.jobs + load pendingBytes s.calls := by
  have jobs : load PrettyJob.len (s.jobs.filter fun job => job.turn ≤ turn) ≤
      load PrettyJob.len s.jobs :=
    (List.filter_sublist.map PrettyJob.len).sum_le_sum fun _ _ => Nat.zero_le _
  have calls : load (fun call => if call.turn ≤ turn then pendingBytes call else 0) s.calls ≤
      load pendingBytes s.calls := by
    refine load_le_load fun call _ => ?_
    split
    · exact le_rfl
    · exact Nat.zero_le _
  unfold earlierBytes
  omega

/-- A call after its addition: what came before it is no more than what it read, and within the
limit once it passed the check. -/
def CallWithin (s : PrettyOutput) (call : EnqueueCall) : Prop :=
  call.phase ≠ .called → call.turn < s.turns ∧
    match call.phase with
    | .added queued =>
        s.earlierBytes call.turn ≤ queued + call.len ∧ queued + call.len ≤ u64Max
    | .sending => s.earlierBytes call.turn ≤ s.maxQueuedBytes
    | _ => True

def JobWithin (s : PrettyOutput) (job : PrettyJob) : Prop :=
  job.len ≠ 0 → job.turn < s.turns ∧ s.earlierBytes job.turn ≤ s.maxQueuedBytes

structure Budgeted (s : PrettyOutput) : Prop where
  calls : ∀ call ∈ s.calls, s.CallWithin call
  jobs : ∀ job ∈ s.jobs, s.JobWithin job

/-- Additions get later turns; everything else a step does only takes away from the earlier. -/
structure Follows (s next : PrettyOutput) : Prop where
  limit : next.maxQueuedBytes = s.maxQueuedBytes
  turns : s.turns ≤ next.turns
  earlier : ∀ turn < s.turns, next.earlierBytes turn ≤ s.earlierBytes turn

theorem Follows.call {call : EnqueueCall} (follows : Follows s next)
    (within : s.CallWithin call) : next.CallWithin call := by
  intro past
  obtain ⟨turn, bound⟩ := within past
  have less := follows.earlier call.turn turn
  refine ⟨turn.trans_le follows.turns, ?_⟩
  split at bound
  · exact ⟨less.trans bound.1, bound.2⟩
  · rw [follows.limit]
    exact less.trans bound
  · trivial

theorem Follows.job {job : PrettyJob} (follows : Follows s next)
    (within : s.JobWithin job) : next.JobWithin job := by
  intro heavy
  obtain ⟨turn, bound⟩ := within heavy
  refine ⟨turn.trans_le follows.turns, ?_⟩
  rw [follows.limit]
  exact (follows.earlier job.turn turn).trans bound

/-- The calls weigh as before or less, up to the turn. -/
theorem earlier_set {id : ℕ} {call : EnqueueCall} (found : s.calls[id]? = some call)
    (turn : ℕ) (new : EnqueueCall) :
    load (fun call => if call.turn ≤ turn then pendingBytes call else 0) (s.calls.set id new) +
        (if call.turn ≤ turn then pendingBytes call else 0) =
      load (fun call => if call.turn ≤ turn then pendingBytes call else 0) s.calls +
        (if new.turn ≤ turn then pendingBytes new else 0) :=
  load_set _ found new

theorem Follows.of_set {id : ℕ} {call : EnqueueCall} (found : s.calls[id]? = some call)
    (new : EnqueueCall) (turn : new.turn = call.turn) (less : pendingBytes new ≤ pendingBytes call)
    (jobs : next.jobs = s.jobs) (calls : next.calls = s.calls.set id new)
    (limit : next.maxQueuedBytes = s.maxQueuedBytes) (turns : next.turns = s.turns) :
    Follows s next := by
  refine ⟨limit, turns.ge, fun bound _ => ?_⟩
  have moved := earlier_set found bound new
  rw [turn] at moved
  rw [earlierBytes, earlierBytes, jobs, calls]
  split at moved <;> omega

theorem Follows.of_jobs (calls : next.calls = s.calls) (jobs : next.jobs.Sublist s.jobs)
    (limit : next.maxQueuedBytes = s.maxQueuedBytes) (turns : next.turns = s.turns) :
    Follows s next := by
  refine ⟨limit, turns.ge, fun bound _ => ?_⟩
  have less : load PrettyJob.len (next.jobs.filter fun job => job.turn ≤ bound) ≤
      load PrettyJob.len (s.jobs.filter fun job => job.turn ≤ bound) :=
    ((jobs.filter _).map PrettyJob.len).sum_le_sum fun _ _ => Nat.zero_le _
  rw [earlierBytes, earlierBytes, calls]
  omega

theorem step_follows (taken : s.step action = some next) : Follows s next := by
  cases moves_of_step taken with
  | enqueue rendered wantSummary =>
      refine ⟨rfl, le_rfl, fun turn _ => ?_⟩
      rw [earlierBytes, load_concat]
      change load PrettyJob.len (s.jobs.filter _) + (_ + if 0 ≤ turn then 0 else 0) ≤ _
      rw [earlierBytes]
      split <;> exact le_rfl
  | add id call found here =>
      refine ⟨rfl, Nat.le_succ _, fun turn early => ?_⟩
      have moved := earlier_set found turn
        { call with phase := .added s.queuedBytes, turn := s.turns }
      have before : pendingBytes call = 0 := by simp only [pendingBytes, here]
      rw [if_neg (show ¬s.turns ≤ turn by omega), before, ite_self] at moved
      change load PrettyJob.len (s.jobs.filter _) + load _ (s.calls.set id _) ≤ _
      rw [earlierBytes]
      omega
  | pass id call queued found here small =>
      exact Follows.of_set found { call with phase := .sending } rfl
        (by simp only [pendingBytes, here]; exact le_rfl) rfl rfl rfl rfl
  | refuse id call action reason found here =>
      have same : pendingBytes { call with phase := .refused reason } = pendingBytes call := by
        rcases here with ⟨queued, here⟩ | here <;> simp only [pendingBytes, here] <;> rfl
      exact Follows.of_set found { call with phase := .refused reason } rfl same.le rfl rfl rfl
        rfl
  | send id call found here stillOpen =>
      refine ⟨rfl, le_rfl, fun turn _ => ?_⟩
      have moved := earlier_set found turn { call with phase := .returned none }
      have before : pendingBytes call = call.len := by simp only [pendingBytes, here]
      have after : pendingBytes { call with phase := .returned none } = 0 := rfl
      rw [before, after, ite_self] at moved
      change load PrettyJob.len ((s.inHand.toList ++ (s.queue ++ [_])).filter _) +
        load _ (s.calls.set id _) ≤ _
      rw [← List.append_assoc, List.filter_append, earlierBytes, ← jobs]
      by_cases seen : call.turn ≤ turn
      · rw [if_pos seen] at moved
        rw [List.filter_cons_of_pos (by simpa using seen), List.filter_nil, load_concat]
        change _ + call.len + _ ≤ _
        omega
      · rw [if_neg seen] at moved
        rw [List.filter_cons_of_neg (by simpa using seen), List.filter_nil, List.append_nil]
        omega
  | undo id call reason found here =>
      exact Follows.of_set found { call with phase := .undone reason } rfl (Nat.zero_le _) rfl rfl
        rfl rfl
  | countDrop id call reason found here =>
      refine Follows.of_set found { call with
        phase := if reason = .writerStopped then .counted (fetchAdd s.dropped 1)
          else .returned (some reason) } rfl ?_ rfl rfl rfl rfl
      cases reason <;> exact Nat.zero_le _
  | reportStop id call dropped found here =>
      exact Follows.of_set found { call with phase := .returned (some .writerStopped) } rfl
        (Nat.zero_le _) rfl rfl rfl rfl
  | drain stillOpen =>
      refine ⟨rfl, le_rfl, fun turn _ => ?_⟩
      change load PrettyJob.len ((s.inHand.toList ++ (s.queue ++ [_])).filter _) + _ ≤ _
      rw [← List.append_assoc, List.filter_append, earlierBytes, ← jobs,
        List.filter_cons_of_pos (by simp), List.filter_nil, load_concat]
      exact le_rfl
  | receive job queue stillOpen idle head =>
      refine Follows.of_jobs rfl ?_ rfl rfl
      rw [jobs, jobs, idle, head]
      exact List.Sublist.refl _
  | finish job holds =>
      refine Follows.of_jobs rfl ?_ rfl rfl
      exact List.sublist_append_right _ _
  | stop stillOpen => exact Follows.of_jobs rfl (List.nil_sublist _) rfl rfl

theorem Budgeted.set {id : ℕ} {new : EnqueueCall} (budgeted : Budgeted s)
    (follows : Follows s next) (calls : next.calls = s.calls.set id new)
    (own : next.CallWithin new) : ∀ call ∈ next.calls, next.CallWithin call := by
  intro call member
  rw [calls] at member
  rcases List.mem_or_eq_of_mem_set member with earlier | rfl
  · exact follows.call (budgeted.calls call earlier)
  · exact own

theorem Budgeted.step (budgeted : Budgeted s) (accounted : Accounted s)
    (fits : s.bytesFit action = true) (taken : s.step action = some next) : Budgeted next := by
  have follows := step_follows taken
  have keepCalls : ∀ call ∈ s.calls, next.CallWithin call := fun call member =>
    follows.call (budgeted.calls call member)
  have keepJobs : ∀ job ∈ s.jobs, next.JobWithin job := fun job member =>
    follows.job (budgeted.jobs job member)
  cases moves_of_step taken with
  | enqueue rendered wantSummary =>
      refine ⟨?_, keepJobs⟩
      intro call member
      rcases List.mem_append.mp member with earlier | last
      · exact keepCalls call earlier
      · obtain rfl := List.mem_singleton.mp last
        exact fun past => absurd rfl past
  | add id call found here =>
      refine ⟨budgeted.set follows rfl ?_, keepJobs⟩
      have bound : s.queuedBytes + call.len ≤ u64Max := by
        simp only [bytesFit, found, Option.all_some, decide_eq_true_eq] at fits
        exact fits
      refine fun _ => ⟨Nat.lt_succ_self _, ?_, bound⟩
      have all := earlierBytes_le
        { s with
          calls := s.calls.set id { call with phase := .added s.queuedBytes, turn := s.turns }
          queuedBytes := fetchAdd s.queuedBytes call.len
          turns := s.turns + 1 } s.turns
      have moved := pending_set found { call with phase := .added s.queuedBytes, turn := s.turns }
      have before : pendingBytes call = 0 := by simp only [pendingBytes, here]
      have total := accounted.total
      change _ = _ + call.len at moved
      refine all.trans ?_
      change load PrettyJob.len s.jobs + load pendingBytes (s.calls.set id _) ≤
        s.queuedBytes + call.len
      omega
  | pass id call queued found here small =>
      refine ⟨budgeted.set follows rfl ?_, keepJobs⟩
      have own := keepCalls call (List.mem_of_getElem? found)
      intro _
      obtain ⟨turn, bound⟩ := own (by simp [here])
      rw [here] at bound
      have limit : queued + call.len ≤ s.maxQueuedBytes := by
        unfold saturatingAdd at small
        omega
      exact ⟨turn, bound.1.trans limit⟩
  | refuse id call action reason found here =>
      refine ⟨budgeted.set follows rfl ?_, keepJobs⟩
      have own := keepCalls call (List.mem_of_getElem? found)
      intro _
      have past : call.phase ≠ .called := by
        rcases here with ⟨queued, here⟩ | here <;> simp [here]
      exact ⟨(own past).1, trivial⟩
  | send id call found here stillOpen =>
      have own := keepCalls call (List.mem_of_getElem? found) (by simp [here])
      rw [here] at own
      refine ⟨budgeted.set follows rfl fun _ => ⟨own.1, trivial⟩, ?_⟩
      intro job member
      change job ∈ s.inHand.toList ++ (s.queue ++ [_]) at member
      rw [← List.append_assoc] at member
      rcases List.mem_append.mp member with earlier | last
      · exact keepJobs job earlier
      · obtain rfl := List.mem_singleton.mp last
        exact fun _ => own
  | undo id call reason found here =>
      refine ⟨budgeted.set follows rfl fun _ => ?_, keepJobs⟩
      exact ⟨(keepCalls call (List.mem_of_getElem? found) (by simp [here])).1, trivial⟩
  | countDrop id call reason found here =>
      refine ⟨budgeted.set follows rfl fun _ => ?_, keepJobs⟩
      refine ⟨(keepCalls call (List.mem_of_getElem? found) (by simp [here])).1, ?_⟩
      cases reason <;> trivial
  | reportStop id call dropped found here =>
      refine ⟨budgeted.set follows rfl fun _ => ?_, keepJobs⟩
      exact ⟨(keepCalls call (List.mem_of_getElem? found) (by simp [here])).1, trivial⟩
  | drain stillOpen =>
      refine ⟨keepCalls, ?_⟩
      intro job member
      change job ∈ s.inHand.toList ++ (s.queue ++ [_]) at member
      rw [← List.append_assoc] at member
      rcases List.mem_append.mp member with earlier | last
      · exact keepJobs job earlier
      · obtain rfl := List.mem_singleton.mp last
        exact fun heavy => absurd rfl heavy
  | receive job queue stillOpen idle head =>
      refine ⟨keepCalls, fun other member => keepJobs other ?_⟩
      rw [PrettyOutput.jobs, idle, head]
      exact member
  | finish job holds =>
      refine ⟨keepCalls, fun other member => keepJobs other ?_⟩
      exact List.mem_append_right _ member
  | stop stillOpen => exact ⟨keepCalls, fun job member => by cases member⟩

theorem Budgeted.bound (budgeted : Budgeted s) :
    load PrettyJob.len s.jobs ≤ s.maxQueuedBytes := by
  refine sum_le_of_latest PrettyJob.turn fun job member heavy => ?_
  obtain ⟨_, within⟩ := budgeted.jobs job member heavy
  unfold earlierBytes at within
  omega

/-! ### Outcomes -/

/-- The jobs of calls that ever were in the channel. -/
def sent (s : PrettyOutput) : List PrettyJob :=
  (s.finished ++ s.discarded ++ s.jobs).filter fun job => !job.sync

theorem sent_concat (s : PrettyOutput) (job : PrettyJob) :
    { s with queue := s.queue ++ [job] }.sent = s.sent ++ [job].filter fun job => !job.sync := by
  simp [sent, jobs]

/-- Each call that queued has one job, each that dropped is counted once. -/
structure Settled (s : PrettyOutput) : Prop where
  queued : Logged s.queuedBy s.calls EnqueueCall.rendered EnqueueCall.queued
  dropped : Logged s.droppedBy s.calls EnqueueCall.rendered EnqueueCall.droppedOut
  sent : s.sent.map PrettyJob.rendered = s.queuedBy.map Prod.snd
  total : s.dropped = s.droppedBy.length % 2 ^ 64

theorem Settled.step (settled : Settled s) (accounted : Accounted s)
    (taken : s.step action = some next) : Settled next := by
  obtain ⟨queued, dropped, sent, total⟩ := settled
  cases moves_of_step taken with
  | enqueue rendered wantSummary =>
      exact ⟨queued.join rfl, dropped.join rfl, sent, total⟩
  | add id call found here =>
      refine ⟨queued.keep found rfl ?_, dropped.keep found rfl ?_, sent, total⟩
      · simp [EnqueueCall.queued, here]
      · simp [EnqueueCall.droppedOut, here]
  | pass id call before found here small =>
      refine ⟨queued.keep found rfl ?_, dropped.keep found rfl ?_, sent, total⟩
      · simp [EnqueueCall.queued, here]
      · simp [EnqueueCall.droppedOut, here]
  | refuse id call action reason found here =>
      refine ⟨queued.keep found rfl ?_, dropped.keep found rfl ?_, sent, total⟩
      · rcases here with ⟨_, here⟩ | here <;> simp [EnqueueCall.queued, here]
      · rcases here with ⟨_, here⟩ | here <;> simp [EnqueueCall.droppedOut, here]
  | send id call found here stillOpen =>
      refine ⟨queued.pass found rfl ?_ rfl, dropped.keep found rfl ?_, ?_, total⟩
      · simp [EnqueueCall.queued, here]
      · simp [EnqueueCall.droppedOut, here]
      · change List.map _ { s with queue := s.queue ++ [_] }.sent = _
        rw [sent_concat, List.map_append, sent, List.map_append]
        rfl
  | undo id call reason found here =>
      refine ⟨queued.keep found rfl ?_, dropped.keep found rfl ?_, sent, total⟩
      · simp [EnqueueCall.queued, here]
      · simp [EnqueueCall.droppedOut, here]
  | countDrop id call reason found here =>
      refine ⟨queued.keep found rfl ?_, dropped.pass found rfl ?_ ?_, sent, ?_⟩
      · cases reason <;> simp [EnqueueCall.queued, here]
      · simp [EnqueueCall.droppedOut, here]
      · cases reason <;> rfl
      · change fetchAdd s.dropped 1 = (s.droppedBy ++ [_]).length % 2 ^ 64
        rw [fetchAdd, total, List.length_append, List.length_singleton, Nat.mod_add_mod]
  | reportStop id call amount found here =>
      refine ⟨queued.keep found rfl ?_, dropped.keep found rfl ?_, sent, total⟩
      · simp [EnqueueCall.queued, here]
      · simp [EnqueueCall.droppedOut, here]
  | drain stillOpen =>
      refine ⟨queued, dropped, ?_, total⟩
      rw [sent_concat, List.map_append, sent]
      exact List.append_nil _
  | receive job queue stillOpen idle head =>
      refine ⟨queued, dropped, ?_, total⟩
      rw [PrettyOutput.sent, jobs, idle, head] at sent
      exact sent
  | finish job holds =>
      refine ⟨queued, dropped, ?_, total⟩
      have none : s.discarded = [] := by
        cases shut : s.closed with
        | true =>
            have empty := accounted.closed shut
            rw [jobs, holds] at empty
            cases empty
        | false => exact accounted.opened shut
      rw [PrettyOutput.sent, jobs, holds, none] at sent
      rw [← sent]
      change List.map _ (List.filter _ (s.finished ++ [job] ++ s.discarded ++ s.queue)) = _
      rw [none]
      simp
  | stop stillOpen =>
      refine ⟨queued, dropped, ?_, total⟩
      rw [PrettyOutput.sent, accounted.opened stillOpen, List.append_nil] at sent
      rw [← sent]
      change List.map _ (List.filter _ (s.finished ++ s.jobs ++ [])) = _
      rw [List.append_nil]

/-- What holds of the counters after any run. -/
structure Counters (s : PrettyOutput) : Prop where
  accounted : Accounted s
  budgeted : Budgeted s
  settled : Settled s

theorem counters_new (capacity maxQueuedBytes : ℕ) :
    Counters { capacity := capacity, maxQueuedBytes := maxQueuedBytes } where
  accounted := ⟨rfl, Nat.zero_le _, fun _ => rfl, fun _ => rfl⟩
  budgeted := ⟨by simp, by simp [jobs]⟩
  settled := ⟨Logged.empty, Logged.empty, rfl, rfl⟩

theorem counters_run {capacity maxQueuedBytes : ℕ} {actions : List PrettyAction}
    (ran : runFrom (restrict bytesFit step)
      { capacity := capacity, maxQueuedBytes := maxQueuedBytes } actions = some s) :
    Counters s ∧ s.maxQueuedBytes = maxQueuedBytes := by
  refine invariant_run (motive := fun s => Counters s ∧ s.maxQueuedBytes = maxQueuedBytes) ?_
    actions _ s ran ⟨counters_new capacity maxQueuedBytes, rfl⟩
  rintro state action next taken ⟨counters, limit⟩
  obtain ⟨fits, taken⟩ := restrict_eq_some.mp taken
  refine ⟨⟨counters.accounted.step fits taken,
    counters.budgeted.step counters.accounted fits taken,
    counters.settled.step counters.accounted taken⟩, ?_⟩
  rw [(step_follows taken).limit, limit]

/-- A job was queued, and the writer task ended before it took the job. -/
def stoppedEarly : List PrettyAction :=
  [.enqueue [97, 10] false, .act 0 .fetchAdd, .act 0 .check, .act 0 (.trySend false), .stop]

/-- Nothing subtracts the jobs that go with the channel. -/
theorem stop_keeps_bytes :
    ∃ s, runFrom (restrict bytesFit step) { capacity := 256, maxQueuedBytes := 64 * 1024 * 1024 }
        stoppedEarly = some s ∧
      s.jobs = [] ∧ load pendingBytes s.calls = 0 ∧ s.queuedBytes = 2 ∧
      s.queuedBytes ≠ load PrettyJob.len s.jobs + load pendingBytes s.calls := by
  have facts : (runFrom (restrict bytesFit step)
      { capacity := 256, maxQueuedBytes := 64 * 1024 * 1024 } stoppedEarly).any (fun s =>
        s.jobs = [] ∧ load pendingBytes s.calls = 0 ∧ s.queuedBytes = 2) = true := by
    decide +kernel
  obtain ⟨s, ran, facts⟩ := (Option.any_eq_true _ _).mp facts
  obtain ⟨empty, idle, bytes⟩ := of_decide_eq_true facts
  refine ⟨s, ran, empty, idle, bytes, ?_⟩
  rw [bytes, empty, idle]
  decide

/-- The counter is the length of the jobs queued or being written, of what calls have added and
neither turned into a job nor taken back, and of the jobs that went with the channel when the
writer ended. No subtraction goes below zero, the jobs stay within the limit, and a call that
returns has queued one job or is counted once as dropped. -/
theorem queue_budgeted {capacity maxQueuedBytes : ℕ} {actions : List PrettyAction}
    (ran : runFrom (restrict bytesFit step)
      { capacity := capacity, maxQueuedBytes := maxQueuedBytes } actions = some s) :
    s.queuedBytes = load PrettyJob.len s.jobs + load pendingBytes s.calls +
        load PrettyJob.len s.discarded ∧
      (s.closed = false → s.discarded = []) ∧
      (s.jobs = [] → (∀ call ∈ s.calls, pendingBytes call = 0) → s.discarded = [] →
        s.queuedBytes = 0) ∧
      (∀ job, s.inHand = some job → job.len ≤ s.queuedBytes) ∧
      (∀ call ∈ s.calls, ∀ reason, call.phase = .refused reason → call.len ≤ s.queuedBytes) ∧
      load PrettyJob.len s.jobs ≤ maxQueuedBytes ∧
      (∀ id call reason, s.calls[id]? = some call → call.phase = .returned reason →
        (s.queuedBy.map Prod.fst).count id = (if reason = none then 1 else 0) ∧
          (s.droppedBy.map Prod.fst).count id = if reason = none then 0 else 1) ∧
      s.sent.map PrettyJob.rendered = s.queuedBy.map Prod.snd ∧
      s.dropped = s.droppedBy.length % 2 ^ 64 := by
  obtain ⟨⟨accounted, budgeted, settled⟩, limit⟩ := counters_run ran
  have total := accounted.total
  refine ⟨total, accounted.opened, ?_, ?_, ?_, limit ▸ budgeted.bound, ?_, settled.sent,
    settled.total⟩
  · intro empty idle none
    have zero : load pendingBytes s.calls = 0 := List.sum_eq_zero fun value member => by
      obtain ⟨call, own, rfl⟩ := List.mem_map.mp member
      exact idle call own
    rw [empty, none, zero] at total
    exact total
  · intro job holds
    have own : job.len ≤ load PrettyJob.len s.jobs := by
      rw [jobs, holds]
      simp [load]
    omega
  · intro call member reason here
    obtain ⟨id, found⟩ := List.getElem?_of_mem member
    have own := pending_le found
    have len : pendingBytes call = call.len := by simp only [pendingBytes, here]
    omega
  · intro id call reason found here
    rw [settled.queued.count_id found, settled.dropped.count_id found]
    cases reason <;> simp [EnqueueCall.queued, EnqueueCall.droppedOut, here]

/-- The second call finds the budget used up while the first job is being written. -/
def overBudget : List PrettyAction :=
  [.enqueue [97, 98, 10] false, .enqueue [99, 10] false, .act 0 .fetchAdd, .act 0 .check,
    .act 1 .fetchAdd, .act 0 (.trySend false), .act 1 .check, .receive, .act 1 .fetchSub,
    .act 1 .countDrop]

theorem queue_budgeted_over :
    ∃ s, runFrom (restrict bytesFit step) { capacity := 1, maxQueuedBytes := 4 } overBudget =
        some s ∧
      s.queuedBytes = 3 ∧ load PrettyJob.len s.jobs ≤ 4 ∧
      (s.droppedBy.map Prod.fst).count 1 = 1 ∧ s.dropped = s.droppedBy.length % 2 ^ 64 := by
  have facts : (runFrom (restrict bytesFit step) { capacity := 1, maxQueuedBytes := 4 }
      overBudget).any (fun s => s.queuedBytes = 3 ∧
        (s.calls[1]?.any fun call => call.phase = .returned (some .byteBudget)) = true) = true := by
    decide +kernel
  obtain ⟨s, ran, facts⟩ := (Option.any_eq_true _ _).mp facts
  obtain ⟨bytes, last⟩ := of_decide_eq_true facts
  obtain ⟨call, found, phase⟩ := (Option.any_eq_true _ _).mp last
  obtain ⟨_, _, _, _, _, bound, once, _, dropped⟩ := queue_budgeted ran
  have counted := (once 1 call (some .byteBudget) found (of_decide_eq_true phase)).2
  exact ⟨s, ran, bytes, bound, by simpa using counted, dropped⟩

end PrettyOutput

end OtelLogger
