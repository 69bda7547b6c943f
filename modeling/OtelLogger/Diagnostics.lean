import OtelLogger.Library.Interleaving
import OtelLogger.AppendStorage
import OtelLogger.Number

/-!
Diagnostic lines on their way to stderr: calls of `DiagnosticWriter::write`, the bounded queue, and
the thread that writes to an output which may take less than it is given or fail. What is lost is
counted, and announced with the next line that can be written.
-/

namespace OtelLogger

open Interleaving

namespace Diagnostics

/-! ### Writing one line -/

/-- What a call of the output's `write` comes to. -/
inductive WriteAnswer where
  | accepted (n : ℕ)
  | interrupted
  | failed
  deriving DecidableEq

def droppedNote (now : String) (lost : ℕ) : Bytes :=
  utf8 (now ++ "  WARN " ++ toString lost ++ " diagnostic log line(s) were dropped while stderr " ++
    "was not writable or not keeping up / stderr に書けない・追いつかない間に、診断ログを " ++
    toString lost ++ " 行捨てました\n")

/-- What `write_line` is called with: the buffer of a call of `write`, or a note. -/
inductive Outgoing where
  | line (call : ℕ) (buf : Bytes)
  | note (now : String) (lost : ℕ)
  deriving DecidableEq

def Outgoing.bytes : Outgoing → Bytes
  | line _ buf => buf
  | note now lost => droppedNote now lost

/-- What a finished `write_counting` left in the output. -/
inductive Piece where
  | whole (message : Outgoing)
  | fragment (message : Outgoing) (written : ℕ)
  | repair
  deriving DecidableEq

def Piece.bytes : Piece → Bytes
  | whole message => message.bytes
  | fragment message written => message.bytes.take written
  | repair => [newline]

def Piece.whole? : Piece → Option Outgoing
  | whole message => some message
  | _ => none

def wholes (laid : List Piece) : List Outgoing :=
  laid.filterMap Piece.whole?

@[simp] theorem wholes_append (first second : List Piece) :
    wholes (first ++ second) = wholes first ++ wholes second :=
  List.filterMap_append

/-- The loop of `write_counting` goes round again with so much written, or is left. -/
inductive Counting where
  | again (written : ℕ)
  | returned (result : Except ℕ Unit)

def writeCounting (buf : Bytes) (written : ℕ) : Counting :=
  if written < buf.length then .again written else .returned (.ok ())

def countAnswer (buf : Bytes) (written : ℕ) : WriteAnswer → Counting
  | .accepted n =>
      if n = 0 then .returned (.error written) else writeCounting buf (written + n)
  | .interrupted => writeCounting buf written
  | .failed => .returned (.error written)

/-- The call of `write_counting` in which `write_line` waits for the output. -/
inductive LinePlace where
  | mending (written : ℕ)
  | body (written : ℕ)
  deriving DecidableEq

def LinePlace.buf (message : Outgoing) : LinePlace → Bytes
  | mending _ => [newline]
  | body _ => message.bytes

def LinePlace.written : LinePlace → ℕ
  | mending written => written
  | body written => written

inductive LineState where
  | waiting (place : LinePlace)
  | returned (ok : Bool)
  deriving DecidableEq

structure LineWrite where
  state : LineState
  torn : Bool
  laid : List Piece := []

def writeBody (message : Outgoing) (torn : Bool) : Counting → LineWrite
  | .again written => { state := .waiting (.body written), torn := torn }
  | .returned (.ok ()) => { state := .returned true, torn := torn, laid := [.whole message] }
  | .returned (.error written) =>
      { state := .returned false
        torn := 0 < written
        laid := if 0 < written then [.fragment message written] else [] }

def mendLine (message : Outgoing) (torn : Bool) : Counting → LineWrite
  | .again written => { state := .waiting (.mending written), torn := torn }
  | .returned (.error _) => { state := .returned false, torn := torn }
  | .returned (.ok ()) =>
      let write := writeBody message false (writeCounting message.bytes 0)
      { write with laid := .repair :: write.laid }

def writeLine (message : Outgoing) (torn : Bool) : LineWrite :=
  if torn then mendLine message torn (writeCounting [newline] 0)
  else writeBody message torn (writeCounting message.bytes 0)

/-- `write_line` from where it waited. -/
def lineAnswer (message : Outgoing) (torn : Bool) (place : LinePlace) (answer : WriteAnswer) :
    LineWrite :=
  match place with
  | .mending written => mendLine message torn (countAnswer [newline] written answer)
  | .body written => writeBody message torn (countAnswer message.bytes written answer)

theorem writeBody_wholes (message : Outgoing) (torn : Bool) (counting : Counting) :
    wholes (writeBody message torn counting).laid =
      if (writeBody message torn counting).state = .returned true then [message] else [] := by
  cases counting with
  | again written => rfl
  | returned result =>
      cases result with
      | ok value => rfl
      | error written =>
          simp only [writeBody]
          split <;> rfl

theorem mendLine_wholes (message : Outgoing) (torn : Bool) (counting : Counting) :
    wholes (mendLine message torn counting).laid =
      if (mendLine message torn counting).state = .returned true then [message] else [] := by
  cases counting with
  | again written => rfl
  | returned result =>
      cases result with
      | ok value => exact writeBody_wholes message false _
      | error written => rfl

/-- Exactly a `write_line` that returns `true` leaves its whole message behind. -/
theorem writeLine_wholes (message : Outgoing) (torn : Bool) :
    wholes (writeLine message torn).laid =
      if (writeLine message torn).state = .returned true then [message] else [] := by
  unfold writeLine
  split
  · exact mendLine_wholes message torn _
  · exact writeBody_wholes message torn _

theorem lineAnswer_wholes (message : Outgoing) (torn : Bool) (place : LinePlace)
    (answer : WriteAnswer) :
    wholes (lineAnswer message torn place answer).laid =
      if (lineAnswer message torn place answer).state = .returned true then [message]
      else [] := by
  cases place with
  | mending written => exact mendLine_wholes message torn _
  | body written => exact writeBody_wholes message torn _

/-! ### The writers, the queue and the thread -/

/-- `refused` is a call whose `try_send` failed and that has not counted its line yet. -/
inductive WritePhase where
  | sending
  | refused
  | returned
  deriving DecidableEq

structure WriteCall where
  buf : Bytes
  phase : WritePhase := .sending

/-- A line carries the number of the call that queued it, which tells the lines apart. -/
inductive Message where
  | line (call : ℕ) (buf : Bytes)
  | flush
  deriving DecidableEq

/-- Where `run` is. In `recounting` the line and `lost` earlier ones are about to be counted. -/
inductive Thread where
  | receiving
  | swapping (call : ℕ) (buf : Bytes)
  | noting (now : String) (lost call : ℕ) (buf : Bytes) (place : LinePlace)
  | lining (call : ℕ) (buf : Bytes) (place : LinePlace)
  | recounting (call lost : ℕ)
  deriving DecidableEq

inductive Action where
  | call (buf : Bytes)
  | trySend (call : ℕ) (accepted : Bool)
  | countDropped (call : ℕ)
  | requestFlush
  | receive
  | swap (now : String)
  | answer (answer : WriteAnswer)
  | countAgain

end Diagnostics

open Diagnostics in
/-- The last three fields are kept for the record and never read: what was laid down in the
output, the calls in the order they were queued, and the calls in the order they were lost. -/
structure Diagnostics where
  calls : List WriteCall := []
  queue : List Message := []
  dropped : ℕ := 0
  thread : Thread := .receiving
  torn : Bool := false
  out : Bytes := []
  laid : List Piece := []
  accepted : List ℕ := []
  lost : List ℕ := []

namespace Diagnostics

/-- A channel without room hands a message over to a receiver that waits for one. -/
def hasRoom (s : Diagnostics) (capacity : ℕ) : Prop :=
  s.queue.length < capacity ∨ (capacity = 0 ∧ s.queue = [] ∧ s.thread = .receiving)

instance (s : Diagnostics) (capacity : ℕ) : Decidable (s.hasRoom capacity) :=
  inferInstanceAs (Decidable (_ ∨ _))

/-- The rest of `run` for a line after `write_line` came this far. -/
def lined (s : Diagnostics) (call : ℕ) (buf : Bytes) (write : LineWrite) : Diagnostics :=
  { s with
    thread :=
      match write.state with
      | .waiting place => .lining call buf place
      | .returned true => .receiving
      | .returned false => .recounting call 0
    torn := write.torn
    laid := s.laid ++ write.laid }

/-- The rest of `run` for a note after `write_line` came this far. -/
def noted (s : Diagnostics) (now : String) (lost call : ℕ) (buf : Bytes) (write : LineWrite) :
    Diagnostics :=
  let s := { s with torn := write.torn, laid := s.laid ++ write.laid }
  match write.state with
  | .waiting place => { s with thread := .noting now lost call buf place }
  | .returned true => s.lined call buf (writeLine (.line call buf) s.torn)
  | .returned false => { s with thread := .recounting call lost }

/-- The output takes no more than it is given. -/
def WriteAnswer.within (limit : ℕ) : WriteAnswer → Bool
  | accepted n => n ≤ limit
  | _ => true

def WriteAnswer.count : WriteAnswer → ℕ
  | accepted n => n
  | _ => 0

/-- What a call of the output's `write` is given. -/
def LinePlace.rest (message : Outgoing) (place : LinePlace) : Bytes :=
  (place.buf message).drop place.written

def step (capacity : ℕ) (s : Diagnostics) : Action → Option Diagnostics
  | .call buf => some { s with calls := s.calls ++ [{ buf := buf }] }
  | .trySend id accepted =>
      s.calls[id]?.bind fun call =>
        if call.phase = .sending then
          if accepted then
            if s.hasRoom capacity then
              some { s with
                calls := s.calls.set id { call with phase := .returned }
                queue := s.queue ++ [.line id call.buf]
                accepted := s.accepted ++ [id] }
            else none
          else if capacity ≤ s.queue.length then
            some { s with calls := s.calls.set id { call with phase := .refused } }
          else none
        else none
  | .countDropped id =>
      s.calls[id]?.bind fun call =>
        if call.phase = .refused then
          some { s with
            calls := s.calls.set id { call with phase := .returned }
            dropped := fetchAdd s.dropped 1
            lost := s.lost ++ [id] }
        else none
  | .requestFlush =>
      if s.hasRoom capacity then some { s with queue := s.queue ++ [.flush] } else none
  | .receive =>
      match s.thread, s.queue with
      | .receiving, .line call buf :: queue =>
          some { s with queue := queue, thread := .swapping call buf }
      | .receiving, .flush :: queue => some { s with queue := queue }
      | _, _ => none
  | .swap now =>
      match s.thread with
      | .swapping call buf =>
          let lost := s.dropped
          let s := { s with dropped := 0 }
          if 0 < lost then
            some (s.noted now lost call buf (writeLine (.note now lost) s.torn))
          else some (s.lined call buf (writeLine (.line call buf) s.torn))
      | _ => none
  | .answer answer =>
      match s.thread with
      | .noting now lost call buf place =>
          let rest := place.rest (.note now lost)
          if answer.within rest.length then
            some ({ s with out := s.out ++ rest.take answer.count }.noted now lost call buf
              (lineAnswer (.note now lost) s.torn place answer))
          else none
      | .lining call buf place =>
          let rest := place.rest (.line call buf)
          if answer.within rest.length then
            some ({ s with out := s.out ++ rest.take answer.count }.lined call buf
              (lineAnswer (.line call buf) s.torn place answer))
          else none
      | _ => none
  | .countAgain =>
      match s.thread with
      | .recounting call lost =>
          some { s with
            dropped := fetchAdd s.dropped (saturatingAdd lost 1)
            thread := .receiving
            lost := s.lost ++ [call] }
      | _ => none

/-- No addition to the counter exceeds 64 bits. -/
def counterFits (s : Diagnostics) : Action → Bool
  | .countDropped _ => s.dropped + 1 ≤ u64Max
  | .countAgain =>
      match s.thread with
      | .recounting _ lost => s.dropped + lost + 1 ≤ u64Max
      | _ => true
  | _ => true

/-! ### What a step can do -/

/-- The steps, one constructor for each branch; `lined` and `noted` say where the thread goes. -/
inductive Moves (capacity : ℕ) (s : Diagnostics) : Action → Diagnostics → Prop where
  | call (buf : Bytes) : Moves capacity s (.call buf) { s with calls := s.calls ++ [{ buf := buf }] }
  | queue (id : ℕ) (call : WriteCall) (found : s.calls[id]? = some call)
      (here : call.phase = .sending) (room : s.hasRoom capacity) :
      Moves capacity s (.trySend id true)
        { s with
          calls := s.calls.set id { call with phase := .returned }
          queue := s.queue ++ [.line id call.buf]
          accepted := s.accepted ++ [id] }
  | refuse (id : ℕ) (call : WriteCall) (found : s.calls[id]? = some call)
      (here : call.phase = .sending) (full : capacity ≤ s.queue.length) :
      Moves capacity s (.trySend id false)
        { s with calls := s.calls.set id { call with phase := .refused } }
  | countDropped (id : ℕ) (call : WriteCall) (found : s.calls[id]? = some call)
      (here : call.phase = .refused) :
      Moves capacity s (.countDropped id)
        { s with
          calls := s.calls.set id { call with phase := .returned }
          dropped := fetchAdd s.dropped 1
          lost := s.lost ++ [id] }
  | requestFlush (room : s.hasRoom capacity) :
      Moves capacity s .requestFlush { s with queue := s.queue ++ [.flush] }
  | receiveLine (call : ℕ) (buf : Bytes) (queue : List Message) (here : s.thread = .receiving)
      (head : s.queue = .line call buf :: queue) :
      Moves capacity s .receive { s with queue := queue, thread := .swapping call buf }
  | receiveFlush (queue : List Message) (here : s.thread = .receiving)
      (head : s.queue = .flush :: queue) : Moves capacity s .receive { s with queue := queue }
  | skipNote (now : String) (call : ℕ) (buf : Bytes) (here : s.thread = .swapping call buf)
      (none : s.dropped = 0) :
      Moves capacity s (.swap now) (s.lined call buf (writeLine (.line call buf) s.torn))
  | startNote (now : String) (call : ℕ) (buf : Bytes) (here : s.thread = .swapping call buf)
      (some : 0 < s.dropped) :
      Moves capacity s (.swap now)
        ({ s with dropped := 0 }.noted now s.dropped call buf
          (writeLine (.note now s.dropped) s.torn))
  | answerNote (answer : WriteAnswer) (now : String) (lost call : ℕ) (buf : Bytes)
      (place : LinePlace) (here : s.thread = .noting now lost call buf place)
      (within : answer.within (place.rest (.note now lost)).length = true) :
      Moves capacity s (.answer answer)
        ({ s with out := s.out ++ (place.rest (.note now lost)).take answer.count }.noted now lost
          call buf (lineAnswer (.note now lost) s.torn place answer))
  | answerLine (answer : WriteAnswer) (call : ℕ) (buf : Bytes) (place : LinePlace)
      (here : s.thread = .lining call buf place)
      (within : answer.within (place.rest (.line call buf)).length = true) :
      Moves capacity s (.answer answer)
        ({ s with out := s.out ++ (place.rest (.line call buf)).take answer.count }.lined call buf
          (lineAnswer (.line call buf) s.torn place answer))
  | countAgain (call lost : ℕ) (here : s.thread = .recounting call lost) :
      Moves capacity s .countAgain
        { s with
          dropped := fetchAdd s.dropped (saturatingAdd lost 1)
          thread := .receiving
          lost := s.lost ++ [call] }

variable {capacity : ℕ} {s next : Diagnostics} {action : Action}

theorem moves_of_step (taken : s.step capacity action = some next) :
    Moves capacity s action next := by
  cases action with
  | call buf =>
      cases taken
      exact .call buf
  | trySend id accepted =>
      simp only [step, Option.bind_eq_some_iff] at taken
      obtain ⟨call, found, taken⟩ := taken
      obtain ⟨here, taken⟩ := Option.ite_none_right_eq_some.mp taken
      cases accepted with
      | true =>
          obtain ⟨room, taken⟩ := Option.ite_none_right_eq_some.mp taken
          cases taken
          exact .queue id call found here room
      | false =>
          obtain ⟨full, taken⟩ := Option.ite_none_right_eq_some.mp taken
          cases taken
          exact .refuse id call found here full
  | countDropped id =>
      simp only [step, Option.bind_eq_some_iff] at taken
      obtain ⟨call, found, taken⟩ := taken
      obtain ⟨here, taken⟩ := Option.ite_none_right_eq_some.mp taken
      cases taken
      exact .countDropped id call found here
  | requestFlush =>
      obtain ⟨room, taken⟩ := Option.ite_none_right_eq_some.mp taken
      cases taken
      exact .requestFlush room
  | receive =>
      simp only [step] at taken
      split at taken
      · rename_i call buf queue here head
        cases taken
        exact .receiveLine call buf queue here head
      · rename_i queue here head
        cases taken
        exact .receiveFlush queue here head
      · cases taken
  | swap now =>
      simp only [step] at taken
      split at taken
      · rename_i call buf here
        split at taken
        · rename_i some
          cases taken
          exact .startNote now call buf here some
        · rename_i notSome
          have none : s.dropped = 0 := by omega
          have same : { s with dropped := 0 } = s := by rw [← none]
          cases taken
          rw [same]
          exact .skipNote now call buf here none
      · cases taken
  | answer answer =>
      simp only [step] at taken
      split at taken
      · rename_i now lost call buf place here
        obtain ⟨within, taken⟩ := Option.ite_none_right_eq_some.mp taken
        cases taken
        exact .answerNote answer now lost call buf place here within
      · rename_i call buf place here
        obtain ⟨within, taken⟩ := Option.ite_none_right_eq_some.mp taken
        cases taken
        exact .answerLine answer call buf place here within
      · cases taken
  | countAgain =>
      simp only [step] at taken
      split at taken
      · rename_i call lost here
        cases taken
        exact .countAgain call lost here
      · cases taken

end Diagnostics

end OtelLogger
