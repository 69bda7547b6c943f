import OtelLogger.CodexTotals
import OtelLogger.Intake
import OtelLogger.ProxySettings
import OtelLogger.Retry
import OtelLogger.SinkSteps

/-!
The receivers: requests over HTTP and gRPC on their way through the intake and the sink, and what
each of them is answered. A handler has one request of the intake, and one call of the sink once
its body was decoded; the two take their steps together.
-/

namespace OtelLogger

open Interleaving

/-! ### Requests and answers -/

def otlpMaxRequestBytes : ℕ := 32 * 1024 * 1024

inductive Encoding where
  | protobuf
  | json
  deriving DecidableEq

/-- The `Content-Type` header, which is a text only if its bytes are visible ASCII. -/
inductive ContentType where
  | missing
  | invalid
  | text (value : String)
  deriving DecidableEq

inductive HttpError where
  | unsupportedContentType (found : String)
  | badProtobuf (reason : String)
  | badJson (reason : String)
  | badBody (reason : String)
  | bodyTooLarge
  | busy (rejected : Rejected)
  | bodyTimeout
  | persistence (reason : String)
  deriving DecidableEq

def Rejected.message : Rejected → String
  | busy => "receiver is busy; retry later"
  | timedOut => "receiver is busy; timed out waiting for a free slot"

namespace HttpError

def message : HttpError → String
  | unsupportedContentType found => "unsupported content type: " ++ found
  | badProtobuf reason => "failed to decode protobuf body: " ++ reason
  | badJson reason => "failed to decode JSON body: " ++ reason
  | badBody reason => "failed to read request body: " ++ reason
  | bodyTooLarge => "request body exceeds " ++ toString otlpMaxRequestBytes ++ " bytes"
  | busy rejected => rejected.message
  | bodyTimeout => "request body was not received before the deadline; retry later"
  | persistence reason => "failed to persist telemetry: " ++ reason

def status : HttpError → ℕ
  | unsupportedContentType _ => 415
  | badProtobuf _ | badJson _ | badBody _ => 400
  | bodyTooLarge => 413
  | busy _ | bodyTimeout | persistence _ => 503

end HttpError

def protobufContentType : String := "application/x-protobuf"

def jsonContentType : String := "application/json"

def detectEncoding (header : ContentType) : Except HttpError Encoding :=
  match header with
  | .invalid => .error (.unsupportedContentType "<invalid header value>")
  | .missing => .ok .protobuf
  | .text value =>
      let primary := trim (String.ofList (value.toList.takeWhile (· ≠ ';')))
      if toAsciiLowercase primary = protobufContentType then .ok .protobuf
      else if toAsciiLowercase primary = jsonContentType then .ok .json
      else .error (.unsupportedContentType primary)

structure GrpcStatus where
  code : GrpcCode
  message : String

/-- An HTTP request that is taken is answered in the encoding it came in. -/
inductive Answer where
  | http (result : Except HttpError Encoding)
  | grpc (result : Except GrpcStatus Unit)

def Answer.accepted : Answer → Bool
  | http (.ok _) | grpc (.ok _) => true
  | _ => false

/-- What the client of a forwarding instance makes of the answer. -/
def Answer.exportError : Answer → Option ExportError
  | http (.error error) => some (.http error.status none)
  | grpc (.error status) => some (.grpc status.code none false)
  | _ => none

def Answer.retryable (answer : Answer) : Bool :=
  answer.exportError.any fun error => (retryDelay error).isSome

/-- A request by its path or its service, and the header that HTTP requests carry. -/
inductive Entry where
  | http (signal : ProxySignal) (contentType : ContentType)
  | grpc (signal : ProxySignal)

/-- What reading the body came to. -/
inductive BodyRead where
  | bytes (body : List UInt8)
  | timedOut
  | tooLarge
  | failed (reason : String)

/-- The decoders, and the status that the gRPC library gives for a body it could not read. -/
structure ServiceConfig where
  maxInflight : ℕ
  sink : SinkSettings
  decode : Encoding → ProxySignal → List UInt8 → Except String TelemetryRecord
  decodeGrpc : ProxySignal → List UInt8 → Except GrpcStatus TelemetryRecord
  bodyStatus : BodyRead → GrpcStatus

def TelemetryRecord.kind : TelemetryRecord → String
  | .traces _ => "traces"
  | .metrics _ => "metrics"
  | .logs _ => "logs"

namespace Entry

def unavailable (message : String) : Answer :=
  .grpc (.error { code := .unavailable, message := message })

def busy (entry : Entry) (rejected : Rejected) : Answer :=
  match entry with
  | http _ _ => .http (.error (.busy rejected))
  | grpc _ => unavailable rejected.message

def persistence (entry : Entry) (reason : String) : Answer :=
  match entry with
  | http _ _ => .http (.error (.persistence reason))
  | grpc _ => unavailable ("failed to persist telemetry: " ++ reason)

def accept : Entry → Answer
  | http _ contentType => .http (detectEncoding contentType)
  | grpc _ => .grpc (.ok ())

/-- The answer that needs no slot. -/
def refusal : Entry → Option Answer
  | http _ contentType =>
      match detectEncoding contentType with
      | .error error => some (.http (.error error))
      | .ok _ => none
  | grpc _ => none

/-- The record that a body holds, or the answer it gets. -/
def receive (config : ServiceConfig) (entry : Entry) (read : BodyRead) :
    Except Answer TelemetryRecord :=
  match entry with
  | http signal contentType =>
      match detectEncoding contentType, read with
      | .error error, _ => .error (.http (.error error))
      | .ok _, .timedOut => .error (.http (.error .bodyTimeout))
      | .ok _, .tooLarge => .error (.http (.error .bodyTooLarge))
      | .ok _, .failed reason => .error (.http (.error (.badBody reason)))
      | .ok encoding, .bytes body =>
          match config.decode encoding signal body, encoding with
          | .ok record, _ => .ok record
          | .error reason, .protobuf => .error (.http (.error (.badProtobuf reason)))
          | .error reason, .json => .error (.http (.error (.badJson reason)))
  | grpc signal =>
      match read with
      | .timedOut =>
          .error (unavailable "request body was not received before the deadline; retry later")
      | .bytes body => (config.decodeGrpc signal body).mapError fun status => .grpc (.error status)
      | read => .error (.grpc (.error (config.bodyStatus read)))

end Entry

/-- `refused` has how its body was read, if that is what it is answered for. -/
structure Handler where
  entry : Entry
  answer : Option Answer := none
  refused : Option BodyRead := none

/-- The handler of the request `id` of the intake is `handlers[id]`; `owners` has the handler of
each call of the sink. -/
structure Service where
  handlers : List Handler := []
  intake : Intake
  sink : Sink
  owners : List ℕ := []

inductive ServiceAction where
  | arrive (entry : Entry)
  | receive (id : ℕ) (action : RequestAction)
  | body (id : ℕ) (read : BodyRead)
  | call (id : ℕ) (action : CallAction)
  | shutdown (action : ShutdownAction)

/-- The steps that a handler takes without its call. -/
def Request.apart (request : Request) : RequestAction → Bool
  | .failBody | .record | .spawn | .refuse | .endSave | .respond => false
  | .cancel =>
      match request.phase with
      | .recording | .joining => false
      | _ => true
  | _ => true

/-- The step of its request that goes with the step of a call. -/
def RecordCall.partner (s : Sink) (call : RecordCall) : CallAction → Option RequestAction
  | .check => if call.guard = some true then some .spawn else some .refuse
  | .cancel => some .cancel
  | .write ok => if s.settings.jsonl = true ∧ ok = false then some .endSave else none
  | .notify => some .endSave
  | .respond => some .respond
  | _ => none

/-- The error that `record_with_permit` gives: admission is closed, or the write failed. -/
def RecordCall.errorText (call : RecordCall) : String :=
  match call.task with
  | none => "JSONL sink is shutting down"
  | some _ => "persist " ++ call.record.kind ++ " batch to JSONL"

/-- What the handler answers once its call has returned. -/
def RecordCall.answer (entry : Entry) (call : RecordCall) : Option Answer :=
  match call.caller with
  | .returned true => some entry.accept
  | .returned false => some (entry.persistence call.errorText)
  | _ => none

namespace Handler

/-- `admit` rejects the request: the handler answers as the guard of the waiter is dropped. -/
def leave (handler : Handler) (request : Request) (action : RequestAction) : Handler :=
  match action, request.phase with
  | .leave, .leaving (.rejected rejected) =>
      { handler with answer := some (handler.entry.busy rejected) }
  | _, _ => handler

def returns (handler : Handler) (call : RecordCall) : Handler :=
  { handler with answer := call.answer handler.entry }

end Handler

namespace Service

def opened (config : ServiceConfig) : Service where
  intake := Intake.new config.maxInflight
  sink := Sink.opened config.sink

def step (config : ServiceConfig) (s : Service) : ServiceAction → Option Service
  | .arrive entry =>
      some
        { s with
          handlers := s.handlers ++ [{ entry := entry, answer := entry.refusal }]
          intake := { s.intake with requests := s.intake.requests ++ [{}] } }
  | .receive id action =>
      s.handlers[id]?.bind fun handler =>
        s.intake.requests[id]?.bind fun request =>
          if (action = .tryAcquire → handler.answer.isNone) ∧ request.apart action then
            (s.intake.step (.act id action)).map fun intake =>
              { s with
                handlers := s.handlers.set id (handler.leave request action)
                intake := intake }
          else none
  | .body id read =>
      s.handlers[id]?.bind fun handler =>
        match handler.entry.receive config read with
        | .error answer =>
            (s.intake.step (.act id .failBody)).map fun intake =>
              { s with
                handlers := s.handlers.set id
                  { handler with answer := some answer, refused := some read }
                intake := intake }
        | .ok record =>
            (s.intake.step (.act id .record)).map fun intake =>
              { s with
                intake := intake
                sink := { s.sink with calls := s.sink.calls ++ [{ record := record }] }
                owners := s.owners ++ [id] }
  | .call id action =>
      s.owners[id]?.bind fun owner =>
        s.handlers[owner]?.bind fun handler =>
          s.sink.calls[id]?.bind fun call =>
            (call.next s.sink action).bind fun new =>
              let sink := { s.sink.effect id call action with calls := s.sink.calls.set id new }
              let handlers := s.handlers.set owner (handler.returns new)
              match call.partner s.sink action with
              | none => some { s with handlers := handlers, sink := sink }
              | some move =>
                  (s.intake.step (.act owner move)).map fun intake =>
                    { s with handlers := handlers, intake := intake, sink := sink }
  | .shutdown action => (s.sink.shut action).map fun sink => { s with sink := sink }

def run (config : ServiceConfig) (actions : List ServiceAction) : Option Service :=
  runFrom (step config) (opened config) actions

/-! ### What a step can do -/

/-- A step of a call takes the request along, or leaves the intake as it was. -/
def Together (s : Service) (owner : ℕ) (partner : Option RequestAction) (intake : Intake) : Prop :=
  match partner with
  | none => intake = s.intake
  | some move => s.intake.step (.act owner move) = some intake

/-- The steps of the service, one constructor for each branch. -/
inductive Moves (config : ServiceConfig) (s : Service) : ServiceAction → Service → Prop where
  | arrive (entry : Entry) :
      Moves config s (.arrive entry)
        { s with
          handlers := s.handlers ++ [{ entry := entry, answer := entry.refusal }]
          intake := { s.intake with requests := s.intake.requests ++ [{}] } }
  | receive (id : ℕ) (action : RequestAction) (handler : Handler) (request : Request)
      (intake : Intake) (own : s.handlers[id]? = some handler)
      (found : s.intake.requests[id]? = some request)
      (awaits : action = .tryAcquire → handler.answer = none) (apart : request.apart action = true)
      (moved : s.intake.step (.act id action) = some intake) :
      Moves config s (.receive id action)
        { s with handlers := s.handlers.set id (handler.leave request action), intake := intake }
  | refuse (id : ℕ) (read : BodyRead) (handler : Handler) (answer : Answer) (intake : Intake)
      (own : s.handlers[id]? = some handler)
      (refused : handler.entry.receive config read = .error answer)
      (moved : s.intake.step (.act id .failBody) = some intake) :
      Moves config s (.body id read)
        { s with
          handlers := s.handlers.set id
            { handler with answer := some answer, refused := some read }
          intake := intake }
  | record (id : ℕ) (read : BodyRead) (handler : Handler) (record : TelemetryRecord)
      (intake : Intake) (own : s.handlers[id]? = some handler)
      (decoded : handler.entry.receive config read = .ok record)
      (moved : s.intake.step (.act id .record) = some intake) :
      Moves config s (.body id read)
        { s with
          intake := intake
          sink := { s.sink with calls := s.sink.calls ++ [{ record := record }] }
          owners := s.owners ++ [id] }
  | call (id : ℕ) (action : CallAction) (owner : ℕ) (handler : Handler) (call new : RecordCall)
      (intake : Intake) (owned : s.owners[id]? = some owner)
      (own : s.handlers[owner]? = some handler) (found : s.sink.calls[id]? = some call)
      (stepped : call.next s.sink action = some new)
      (together : s.Together owner (call.partner s.sink action) intake) :
      Moves config s (.call id action)
        { s with
          handlers := s.handlers.set owner (handler.returns new)
          intake := intake
          sink := { s.sink.effect id call action with calls := s.sink.calls.set id new } }
  | shutdown (action : ShutdownAction) (sink : Sink) (shut : s.sink.shut action = some sink) :
      Moves config s (.shutdown action) { s with sink := sink }

variable {config : ServiceConfig} {s next : Service} {action : ServiceAction}

theorem moves_of_step (taken : s.step config action = some next) : Moves config s action next := by
  cases action with
  | arrive entry =>
      obtain rfl := Option.some.inj taken
      exact .arrive entry
  | receive id action =>
      obtain ⟨handler, own, taken⟩ := Option.bind_eq_some_iff.mp taken
      obtain ⟨request, found, taken⟩ := Option.bind_eq_some_iff.mp taken
      obtain ⟨⟨awaits, apart⟩, taken⟩ := Option.ite_none_right_eq_some.mp taken
      obtain ⟨intake, moved, rfl⟩ := Option.map_eq_some_iff.mp taken
      exact .receive id action handler request intake own found
        (fun first => Option.isNone_iff_eq_none.mp (awaits first)) apart moved
  | body id read =>
      obtain ⟨handler, own, taken⟩ := Option.bind_eq_some_iff.mp taken
      cases received : handler.entry.receive config read with
      | error answer =>
          rw [received] at taken
          obtain ⟨intake, moved, rfl⟩ := Option.map_eq_some_iff.mp taken
          exact .refuse id read handler answer intake own received moved
      | ok record =>
          rw [received] at taken
          obtain ⟨intake, moved, rfl⟩ := Option.map_eq_some_iff.mp taken
          exact .record id read handler record intake own received moved
  | call id action =>
      obtain ⟨owner, owned, taken⟩ := Option.bind_eq_some_iff.mp taken
      obtain ⟨handler, own, taken⟩ := Option.bind_eq_some_iff.mp taken
      obtain ⟨call, found, taken⟩ := Option.bind_eq_some_iff.mp taken
      obtain ⟨new, stepped, taken⟩ := Option.bind_eq_some_iff.mp taken
      cases partner : call.partner s.sink action with
      | none =>
          rw [partner] at taken
          obtain rfl := Option.some.inj taken
          exact .call id action owner handler call new s.intake owned own found stepped
            (by rw [partner]; rfl)
      | some move =>
          rw [partner] at taken
          obtain ⟨intake, moved, rfl⟩ := Option.map_eq_some_iff.mp taken
          exact .call id action owner handler call new intake owned own found stepped
            (by rw [partner]; exact moved)
  | shutdown action =>
      obtain ⟨sink, shut, rfl⟩ := Option.map_eq_some_iff.mp taken
      exact .shutdown action sink shut

/-! ### The components -/

/-- A step of the service is a step of the intake, or leaves it as it was. -/
theorem Moves.intakeMoves (moves : Moves config s action next) :
    next.intake = s.intake ∨ ∃ move, s.intake.step move = some next.intake := by
  cases moves with
  | arrive => exact Or.inr ⟨.arrive, rfl⟩
  | receive id action _ _ _ _ _ _ _ moved => exact Or.inr ⟨_, moved⟩
  | refuse _ _ _ _ _ _ _ moved | record _ _ _ _ _ _ _ moved => exact Or.inr ⟨_, moved⟩
  | shutdown => exact Or.inl rfl
  | call id action owner handler call new intake owned own found stepped together =>
      cases partner : call.partner s.sink action with
      | none =>
          rw [partner] at together
          exact Or.inl together
      | some move =>
          rw [partner] at together
          exact Or.inr ⟨_, together⟩

/-- A step of the service is a step of the sink, or leaves it as it was. -/
theorem Moves.sinkMoves (moves : Moves config s action next) :
    next.sink = s.sink ∨ ∃ move, s.sink.step move = some next.sink := by
  cases moves with
  | arrive | receive | refuse => exact Or.inl rfl
  | record id read handler record => exact Or.inr ⟨.call record, rfl⟩
  | call id action owner handler call new intake owned own found stepped =>
      exact Or.inr ⟨.act id action, Sink.step_act found stepped⟩
  | shutdown action sink shut => exact Or.inr ⟨.shutdown action, shut⟩

/-- Only the write of a call is noted as written, under its number. -/
theorem Moves.written (moves : Moves config s action next) :
    next.sink.written = s.sink.written ∨ ∃ id call, action = .call id (.write true) ∧
      s.sink.calls[id]? = some call ∧
      next.sink.written = s.sink.written ++ [(id, call.record)] := by
  cases moves with
  | arrive | receive | refuse | record => exact Or.inl rfl
  | call id action owner handler call new intake owned own found stepped =>
      rcases s.sink.effect_written id call action with same | ⟨rfl, grown⟩
      · exact Or.inl same
      · exact Or.inr ⟨id, call, rfl, found, grown⟩
  | shutdown action sink shut => exact Or.inl (by rw [Sink.shut_eq shut])

end Service

namespace Intake

variable {s next : Intake} {id : ℕ} {old new : Request} {action : RequestAction}

/-- A slot that is given back goes to another request: the one that gives it does not wait. -/
theorem Balanced.apart (balanced : s.Balanced) (found : s.requests[id]? = some old)
    (moves : Request.Moves s old action new .giveBack) : id ∉ s.queue := by
  intro waits
  obtain ⟨request, present, parked⟩ := (balanced.queue id).mp waits
  obtain rfl := Option.some.inj (present.symm.trans found)
  have valid := balanced.valid request (List.mem_of_getElem? found)
  obtain ⟨phase, held, saving⟩ := request
  obtain rfl : phase = _ := parked
  obtain ⟨_, rfl⟩ : held = 0 ∧ saving = false := valid
  generalize same : SlotMove.giveBack = move at moves
  cases moves with
  | passOn _ _ here => cases here
  | dropClone here => simp at here
  | endSave saves => cases saves
  | _ => cases same

/-- A body is failed or recorded while it is being read. -/
theorem reading_of_body (taken : s.step (.act id action) = some next)
    (due : action = .failBody ∨ action = .record) :
    ∃ request, s.requests[id]? = some request ∧ request.phase = .reading := by
  obtain ⟨request, found, moved⟩ := Option.bind_eq_some_iff.mp taken
  obtain ⟨_, stepped, _⟩ := Option.map_eq_some_iff.mp moved
  rcases due with rfl | rfl
  · exact ⟨request, found, (Option.ite_none_right_eq_some.mp stepped).1⟩
  · exact ⟨request, found, (Option.ite_none_right_eq_some.mp stepped).1⟩

/-- A step moves its own request on, and at most hands a slot to one that is parked. -/
theorem Balanced.requests_step (balanced : s.Balanced)
    (taken : s.step (.act id action) = some next) :
    ∃ old new move, s.requests[id]? = some old ∧ Request.Moves s old action new move ∧
      next.requests[id]? = some new ∧ next.requests.length = s.requests.length ∧
      ∀ other, other ≠ id → next.requests[other]? = s.requests[other]? ∨
        ∃ waiter, s.requests[other]? = some waiter ∧ waiter.phase = .parked ∧
          next.requests[other]? = some { waiter with phase := .handed } := by
  rcases step_cases taken with ⟨impossible, _⟩ | ⟨_, _, old, new, move, same, found, moves, rfl⟩
  · cases impossible
  obtain ⟨rfl, rfl⟩ := IntakeAction.act.inj same
  have own : (s.requests.set id new)[id]? = some new := by
    rw [getElem?_set_of_found found, if_pos rfl]
  have others (other : ℕ) (different : other ≠ id) :
      (s.requests.set id new)[other]? = s.requests[other]? := by
    rw [getElem?_set_of_found found, if_neg (Ne.symm different)]
  have plain : (s.requests.set id new).length = s.requests.length := by simp
  refine ⟨old, new, move, found, moves, ?_⟩
  cases move with
  | keep | take | park | unpark =>
      exact ⟨own, plain, fun other different => Or.inl (others other different)⟩
  | giveBack =>
      cases waiters : s.queue with
      | nil =>
          simp only [Intake.slotMove, advance, waiters]
          exact ⟨own, plain, fun other different => Or.inl (others other different)⟩
      | cons waiter queue =>
          have apart := balanced.apart found moves
          obtain ⟨request, present, parked⟩ := (balanced.queue waiter).mp (by simp [waiters])
          have different : waiter ≠ id := by
            rintro rfl
            exact apart (by simp [waiters])
          have given := (others waiter different).trans present
          have result : (((s.advance id new action).slotMove id .giveBack).requests) =
              (s.requests.set id new).set waiter { request with phase := .handed } := by
            simp only [Intake.slotMove, advance, waiters, Intake.handTo, given]
          rw [result]
          refine ⟨?_, by simp, ?_⟩
          · rw [getElem?_set_of_found given, if_neg different, own]
          · intro other apartFrom
            rw [getElem?_set_of_found given]
            split
            · rename_i equal
              subst equal
              exact Or.inr ⟨request, present, parked, rfl⟩
            · exact Or.inl (others other apartFrom)

end Intake

/-! ### A handler, its request and its call -/

def Caller.stays : Caller → RequestPhase → Prop
  | waiting, phase | guarded, phase => phase = .recording
  | joining, phase => phase = .joining
  | returned _, phase | cancelled, phase => phase = .ending ∨ phase = .finished

structure Coupled (handler : Handler) (request : Request) (call : RecordCall) : Prop where
  stage : call.caller.stays request.phase
  saving : request.saving = call.task.any SaveTask.running
  answer : handler.answer = call.answer handler.entry
  fits : handler.entry.accept.accepted = true

/-- The request is refused for what it is: its content type, or what its body really was. -/
inductive Handler.AtFault (config : ServiceConfig) (handler : Handler) (answer : Answer) : Prop where
  | contentType (given : handler.entry.refusal = some answer)
  | size (was : handler.refused = some .tooLarge)
      (given : handler.entry.receive config .tooLarge = .error answer)
  | encoding (body : List UInt8) (was : handler.refused = some (.bytes body))
      (given : handler.entry.receive config (.bytes body) = .error answer)
  | unreadable (reason : String) (was : handler.refused = some (.failed reason))
      (given : handler.entry.receive config (.failed reason) = .error answer)

/-- Before its body was decoded a handler has no call, and once it is answered it gets none. -/
structure Uncalled (config : ServiceConfig) (handler : Handler) (request : Request) : Prop where
  stage : request.phase ≠ .recording ∧ request.phase ≠ .joining
  saving : request.saving = false
  refused : ∀ answer, handler.answer = some answer → answer.accepted = false ∧
    (request.phase = .arrived ∨ request.phase = .ending ∨ request.phase = .finished)
  blame : ∀ answer, handler.answer = some answer →
    answer.retryable = true ∨ handler.AtFault config answer

section Coupling

variable {config : ServiceConfig} {s : Intake} {sink : Sink} {handler : Handler}
  {request new : Request} {call later : RecordCall} {action : RequestAction} {move : SlotMove}

theorem Entry.busy_refused (entry : Entry) (rejected : Rejected) :
    (entry.busy rejected).accepted = false ∧ (entry.busy rejected).retryable = true := by
  cases entry <;> exact ⟨rfl, rfl⟩

theorem Uncalled.unanswered (uncalled : Uncalled config handler request)
    (under : request.phase ≠ .arrived ∧ request.phase ≠ .ending ∧ request.phase ≠ .finished) :
    handler.answer = none := by
  by_contra answered
  obtain ⟨answer, answered⟩ := Option.ne_none_iff_exists'.mp answered
  have stage := (uncalled.refused answer answered).2
  simp [under] at stage

theorem uncalled_of_unanswered (unanswered : handler.answer = none)
    (stage : request.phase ≠ .recording ∧ request.phase ≠ .joining)
    (idle : request.saving = false) : Uncalled config handler request :=
  ⟨stage, idle, fun answer answered => by simp [unanswered] at answered,
    fun answer answered => by simp [unanswered] at answered⟩

theorem Handler.leave_of_ne (quiet : action ≠ .leave) : handler.leave request action = handler := by
  unfold Handler.leave
  split
  · exact absurd rfl quiet
  · rfl

theorem Uncalled.moved (uncalled : Uncalled config handler request)
    (moves : Request.Moves s request action new move) (apart : request.apart action = true)
    (awaits : action = .tryAcquire → handler.answer = none) :
    Uncalled config (handler.leave request action) new := by
  have idle := uncalled.saving
  have quiet := uncalled.unanswered
  cases moves with
  | acquire here | miss here =>
      rw [Handler.leave_of_ne (by simp)]
      exact uncalled_of_unanswered (awaits rfl) (by simp) idle
  | enter here | pass here | park here | busy here | wake here =>
      rw [Handler.leave_of_ne (by simp)]
      exact uncalled_of_unanswered (quiet (by simp [here])) (by simp) idle
  | unpark action outcome here stops | passOn action outcome here stops =>
      rw [Handler.leave_of_ne (by rcases stops with ⟨rfl, _⟩ | ⟨rfl, _⟩ <;> simp)]
      exact uncalled_of_unanswered (quiet (by simp [here])) (by simp) idle
  | stop action here stops =>
      have unanswered := quiet (by rcases here with here | here | here <;> simp [here])
      rw [Handler.leave_of_ne (by rcases stops with rfl | rfl | rfl | rfl <;> simp)]
      exact uncalled_of_unanswered unanswered (by simp) idle
  | admitted here =>
      have unanswered := quiet (by simp [here])
      have same : handler.leave request .leave = handler := by simp [Handler.leave, here]
      rw [same]
      exact uncalled_of_unanswered unanswered (by simp) idle
  | turnedAway outcome here refused =>
      have unanswered := quiet (by simp [here])
      cases outcome with
      | admitted => exact absurd rfl refused
      | cancelled =>
          have same : handler.leave request .leave = handler := by simp [Handler.leave, here]
          rw [same]
          exact uncalled_of_unanswered unanswered (by simp) idle
      | rejected rejected =>
          have left : handler.leave request .leave =
              { handler with answer := some (handler.entry.busy rejected) } := by
            simp [Handler.leave, here]
          rw [left]
          obtain ⟨unaccepted, retryable⟩ := handler.entry.busy_refused rejected
          refine ⟨by simp, idle, ?_, ?_⟩
          · intro answer answered
            obtain rfl := Option.some.inj answered
            exact ⟨unaccepted, Or.inr (Or.inr rfl)⟩
          · intro answer answered
            obtain rfl := Option.some.inj answered
            exact Or.inl retryable
  | clonePermit | dropSpare | dropClone =>
      rw [Handler.leave_of_ne (by simp)]
      exact ⟨uncalled.stage, idle, uncalled.refused, uncalled.blame⟩
  | record | spawn | endSave => cases apart
  | finish here =>
      rw [Handler.leave_of_ne (by simp)]
      refine ⟨by simp, idle, fun answer answered => ?_, uncalled.blame⟩
      exact ⟨(uncalled.refused answer answered).1, Or.inr (Or.inr rfl)⟩

theorem Uncalled.handed (uncalled : Uncalled config handler request) (parked : request.phase = .parked) :
    Uncalled config handler { request with phase := .handed } :=
  uncalled_of_unanswered (uncalled.unanswered (by simp [parked])) (by simp) uncalled.saving

/-- What is left to a handler whose call goes on without it: it drops its clones. -/
theorem Coupled.moved (coupled : Coupled handler request call)
    (moves : Request.Moves s request action new move) (apart : request.apart action = true) :
    Coupled (handler.leave request action) new call := by
  obtain ⟨stage, saving, answer, fits⟩ := coupled
  have under : request.phase = .recording ∨ request.phase = .joining ∨ request.phase = .ending ∨
      request.phase = .finished := by
    unfold Caller.stays at stage
    split at stage
    · exact Or.inl stage
    · exact Or.inl stage
    · exact Or.inr (Or.inl stage)
    · exact Or.inr (Or.inr stage)
    · exact Or.inr (Or.inr stage)
  cases moves with
  | acquire here | miss here | enter here | pass here | park here | busy here | wake here
  | unpark _ _ here | passOn _ _ here | admitted here | turnedAway _ here =>
      simp [here] at under
  | record here => simp [here] at under
  | spawn | endSave => cases apart
  | stop action here stops =>
      rcases stops with rfl | rfl | rfl | rfl
      · have reading : request.phase = .reading := by
          rcases here with own | own | own
          · exact own
          · simp [Request.apart, own] at apart
          · simp [Request.apart, own] at apart
        simp [reading] at under
      · cases apart
      · cases apart
      · cases apart
  | clonePermit | dropSpare | dropClone =>
      rw [Handler.leave_of_ne (by simp)]
      exact ⟨stage, saving, answer, fits⟩
  | finish here =>
      rw [Handler.leave_of_ne (by simp)]
      refine ⟨?_, saving, answer, fits⟩
      cases caller : call.caller with
      | waiting | guarded | joining => simp [caller, Caller.stays, here] at stage
      | returned | cancelled => exact Or.inr rfl

variable {taken : CallAction}

/-- A step that a call takes alone. -/
theorem Coupled.alone (coupled : Coupled handler request call)
    (moves : call.Moves sink taken later) (alone : call.partner sink taken = none) :
    Coupled (handler.returns later) request later := by
  obtain ⟨stage, saving, _, fits⟩ := coupled
  cases moves with
  | takeGuard waits => exact ⟨by rw [waits] at stage; exact stage, saving, rfl, fits⟩
  | spawn holds admitted => simp [RecordCall.partner, admitted] at alone
  | refuse holds late => simp [RecordCall.partner, late] at alone
  | cancel | notify | respond => cases alone
  | fail saves jsonl => simp [RecordCall.partner, jsonl] at alone
  | persist ok saves => exact ⟨stage, by rw [saves] at saving; exact saving, rfl, fits⟩
  | ingest counts => exact ⟨stage, by rw [counts] at saving; exact saving, rfl, fits⟩
  | queuePretty samplesPresent queues =>
      exact ⟨stage, by rw [queues] at saving; exact saving, rfl, fits⟩

theorem ending_of_stop (moves : Request.Moves s request action new move)
    (stops : action = .refuse ∨ action = .respond ∨
      (action = .cancel ∧ (request.phase = .recording ∨ request.phase = .joining))) :
    new = { request with phase := .ending } := by
  cases moves with
  | stop => rfl
  | unpark _ _ here cause | passOn _ _ here cause =>
      rcases stops with rfl | rfl | ⟨_, stage⟩
      · simp at cause
      · simp at cause
      · simp [here] at stage
  | _ => simp at stops

/-- A step that a call takes with its request. -/
theorem Coupled.together {partner : RequestAction} (coupled : Coupled handler request call)
    (moves : call.Moves sink taken later)
    (pair : call.partner sink taken = some partner)
    (moved : Request.Moves s request partner new move) :
    Coupled (handler.returns later) new later := by
  obtain ⟨stage, saving, _, fits⟩ := coupled
  cases moves with
  | takeGuard | ingest | queuePretty => cases pair
  | spawn holds admitted =>
      simp only [RecordCall.partner, admitted, if_true, Option.some.injEq] at pair
      subst pair
      cases moved with
      | spawn => exact ⟨rfl, rfl, rfl, fits⟩
      | stop _ _ stops => simp at stops
      | unpark _ _ _ cause | passOn _ _ _ cause => simp at cause
  | refuse holds late =>
      simp only [RecordCall.partner, late, if_false, Option.some.injEq] at pair
      subst pair
      rw [ending_of_stop moved (Or.inl rfl)]
      exact ⟨Or.inl rfl, saving, rfl, fits⟩
  | cancel awaits =>
      obtain rfl := Option.some.inj pair
      have here : request.phase = .recording ∨ request.phase = .joining := by
        rcases awaits with awaits | awaits
        · exact Or.inl (by simpa [awaits, Caller.stays] using stage)
        · exact Or.inr (by simpa [awaits, Caller.stays] using stage)
      rw [ending_of_stop moved (Or.inr (Or.inr ⟨rfl, here⟩))]
      exact ⟨Or.inl rfl, saving, rfl, fits⟩
  | fail saves jsonl =>
      simp only [RecordCall.partner, jsonl, and_self, if_true, Option.some.injEq] at pair
      subst pair
      cases moved with
      | endSave => exact ⟨stage, rfl, rfl, fits⟩
      | stop _ _ stops => simp at stops
      | unpark _ _ _ cause | passOn _ _ _ cause => simp at cause
  | persist ok saves kept => simp [RecordCall.partner, kept] at pair
  | notify notifies =>
      obtain rfl := Option.some.inj pair
      cases moved with
      | endSave => exact ⟨stage, rfl, rfl, fits⟩
      | stop _ _ stops => simp at stops
      | unpark _ _ _ cause | passOn _ _ _ cause => simp at cause
  | respond ok joins done =>
      obtain rfl := Option.some.inj pair
      rw [ending_of_stop moved (Or.inr (Or.inl rfl))]
      exact ⟨Or.inl rfl, saving, rfl, fits⟩

end Coupling

/-! ### Runs of the service -/

theorem Entry.receive_refused {config : ServiceConfig} {entry : Entry} {read : BodyRead}
    {answer : Answer} (refused : entry.receive config read = .error answer) :
    answer.accepted = false := by
  cases entry with
  | http signal contentType =>
      simp only [Entry.receive] at refused
      split at refused
      · cases refused; rfl
      · cases refused; rfl
      · cases refused; rfl
      · cases refused; rfl
      · split at refused
        · cases refused
        · cases refused; rfl
        · cases refused; rfl
  | grpc signal =>
      simp only [Entry.receive] at refused
      split at refused
      · cases refused; rfl
      · cases decoded : config.decodeGrpc signal _ with
        | error status =>
            rw [decoded] at refused
            cases refused
            rfl
        | ok record =>
            rw [decoded] at refused
            cases refused
      · cases refused; rfl

theorem Entry.receive_fits {config : ServiceConfig} {entry : Entry} {read : BodyRead}
    {record : TelemetryRecord} (received : entry.receive config read = .ok record) :
    entry.accept.accepted = true := by
  cases entry with
  | http signal contentType =>
      cases detected : detectEncoding contentType with
      | error error => simp [Entry.receive, detected] at received
      | ok encoding => simp [Entry.accept, Answer.accepted, detected]
  | grpc signal => rfl

/-- A refused body is one that came too late, or the request is at fault. -/
theorem Handler.blame {config : ServiceConfig} {handler : Handler} {read : BodyRead}
    {answer : Answer} (was : handler.refused = some read)
    (refused : handler.entry.receive config read = .error answer) :
    answer.retryable = true ∨ handler.AtFault config answer := by
  cases read with
  | bytes body => exact Or.inr (.encoding body was refused)
  | tooLarge => exact Or.inr (.size was refused)
  | failed reason => exact Or.inr (.unreadable reason was refused)
  | timedOut =>
      cases entry : handler.entry with
      | http signal contentType =>
          cases detected : detectEncoding contentType with
          | error error =>
              simp only [entry, Entry.receive, detected, Except.error.injEq] at refused
              exact Or.inr (.contentType (by simp [entry, Entry.refusal, detected, refused]))
          | ok encoding =>
              simp only [entry, Entry.receive, detected, Except.error.injEq] at refused
              subst refused
              exact Or.inl rfl
      | grpc signal =>
          rw [entry] at refused
          cases refused
          exact Or.inl rfl

namespace Service

/-- A handler, its request, and its call if it has one. -/
def Tied (config : ServiceConfig) (s : Service) (id : ℕ) : Prop :=
  ∃ handler request, s.handlers[id]? = some handler ∧ s.intake.requests[id]? = some request ∧
    ((id ∉ s.owners ∧ Uncalled config handler request) ∨
      ∃ (place : ℕ) (call : RecordCall), s.owners[place]? = some id ∧
        s.sink.calls[place]? = some call ∧ Coupled handler request call)

structure Sound (config : ServiceConfig) (s : Service) : Prop where
  requests : s.intake.requests.length = s.handlers.length
  calls : s.sink.calls.length = s.owners.length
  once : s.owners.Nodup
  tied : ∀ id, id < s.handlers.length → s.Tied config id
  known : ∀ owner ∈ s.owners, owner < s.handlers.length
  balanced : s.intake.Balanced
  limit : s.intake.maxInflight = config.maxInflight
  coherent : s.sink.Coherent
  settings : s.sink.settings = config.sink

variable {config : ServiceConfig} {s next : Service} {action : ServiceAction} {id : ℕ}

/-- A handler that a step is not about is tied as before; it may be handed a slot. -/
theorem Tied.frame (tied : s.Tied config id) (handlers : next.handlers[id]? = s.handlers[id]?)
    (requests : next.intake.requests[id]? = s.intake.requests[id]? ∨
      ∃ waiter, s.intake.requests[id]? = some waiter ∧ waiter.phase = .parked ∧
        next.intake.requests[id]? = some { waiter with phase := .handed })
    (owners : ∀ place : ℕ, next.owners[place]? = some id ↔ s.owners[place]? = some id)
    (calls : ∀ place : ℕ, s.owners[place]? = some id →
      next.sink.calls[place]? = s.sink.calls[place]?) : next.Tied config id := by
  obtain ⟨handler, request, own, found, stage⟩ := tied
  have absent : id ∉ s.owners → id ∉ next.owners := by
    intro missing present
    obtain ⟨place, here⟩ := List.mem_iff_getElem?.mp present
    exact missing (List.mem_of_getElem? ((owners place).mp here))
  rw [← handlers] at own
  rcases requests with same | ⟨waiter, present, parked, handed⟩
  · rw [← same] at found
    refine ⟨handler, request, own, found, stage.imp (fun free => ⟨absent free.1, free.2⟩) ?_⟩
    rintro ⟨place, call, owned, here, coupled⟩
    exact ⟨place, call, (owners place).mpr owned, (calls place owned).trans here, coupled⟩
  · obtain rfl := Option.some.inj (present.symm.trans found)
    refine ⟨handler, _, own, handed, ?_⟩
    rcases stage with ⟨free, uncalled⟩ | ⟨_, call, _, _, coupled⟩
    · exact Or.inl ⟨absent free, uncalled.handed parked⟩
    · have stage := coupled.stage
      cases caller : call.caller <;> simp [caller, Caller.stays, parked] at stage

/-- A step about one handler leaves the others tied. -/
theorem Sound.retied (sound : Sound config s) {owner : ℕ}
    (length : next.handlers.length = s.handlers.length)
    (handlers : ∀ other, other ≠ owner → next.handlers[other]? = s.handlers[other]?)
    (requests : ∀ other, other ≠ owner →
      next.intake.requests[other]? = s.intake.requests[other]? ∨
      ∃ waiter, s.intake.requests[other]? = some waiter ∧ waiter.phase = .parked ∧
        next.intake.requests[other]? = some { waiter with phase := .handed })
    (owners : ∀ other, other ≠ owner → ∀ place : ℕ,
      next.owners[place]? = some other ↔ s.owners[place]? = some other)
    (calls : ∀ other, other ≠ owner → ∀ place : ℕ, s.owners[place]? = some other →
      next.sink.calls[place]? = s.sink.calls[place]?)
    (here : next.Tied config owner) : ∀ id, id < next.handlers.length → next.Tied config id := by
  intro id below
  by_cases equal : id = owner
  · exact equal ▸ here
  · exact (sound.tied id (length ▸ below)).frame (handlers id equal) (requests id equal)
      (owners id equal) (calls id equal)

theorem set_others {τ : Type*} {pool : List τ} {owner : ℕ} {old : τ} (new : τ)
    (found : pool[owner]? = some old) (other : ℕ) (different : other ≠ owner) :
    (pool.set owner new)[other]? = pool[other]? := by
  rw [getElem?_set_of_found found, if_neg (Ne.symm different)]

theorem set_own {τ : Type*} {pool : List τ} {owner : ℕ} {old : τ} (new : τ)
    (found : pool[owner]? = some old) : (pool.set owner new)[owner]? = some new := by
  rw [getElem?_set_of_found found, if_pos rfl]

/-- The one handler, request and call of a call's step. -/
theorem Sound.coupled (sound : Sound config s) {place owner : ℕ} {handler : Handler}
    {call : RecordCall} (owned : s.owners[place]? = some owner)
    (own : s.handlers[owner]? = some handler) (found : s.sink.calls[place]? = some call) :
    ∃ request, s.intake.requests[owner]? = some request ∧ Coupled handler request call := by
  obtain ⟨other, request, same, present, ⟨free, _⟩ | ⟨again, twin, also, here, coupled⟩⟩ :=
    sound.tied owner (lt_of_found own)
  · exact absurd (List.mem_of_getElem? owned) free
  · obtain rfl := Option.some.inj (same.symm.trans own)
    obtain rfl := (List.getElem?_inj (lt_of_found owned) sound.once).mp (owned.trans also.symm)
    obtain rfl := Option.some.inj (here.symm.trans found)
    exact ⟨request, present, coupled⟩

/-- A request of which the body is being read has no call yet. -/
theorem Sound.uncalled (sound : Sound config s) {handler : Handler} {request : Request}
    (own : s.handlers[id]? = some handler) (found : s.intake.requests[id]? = some request)
    (reading : request.phase = .reading) : id ∉ s.owners ∧ Uncalled config handler request := by
  obtain ⟨other, twin, same, present, ⟨free, uncalled⟩ | ⟨_, call, _, _, coupled⟩⟩ :=
    sound.tied id (lt_of_found own)
  · obtain rfl := Option.some.inj (same.symm.trans own)
    obtain rfl := Option.some.inj (present.symm.trans found)
    exact ⟨free, uncalled⟩
  · obtain rfl := Option.some.inj (present.symm.trans found)
    have stage := coupled.stage
    cases caller : call.caller <;> simp [caller, Caller.stays, reading] at stage

theorem Sound.tied_step (sound : Sound config s) (moves : Moves config s action next) :
    ∀ id, id < next.handlers.length → next.Tied config id := by
  cases moves with
  | arrive entry =>
      intro id below
      rw [List.length_append, List.length_singleton] at below
      by_cases fresh : id = s.handlers.length
      · subst fresh
        refine ⟨_, {}, List.getElem?_concat_length, ?_, Or.inl ⟨?_, by simp, rfl, ?_, ?_⟩⟩
        · exact sound.requests ▸ List.getElem?_concat_length
        · exact fun owns => absurd (sound.known _ owns) (lt_irrefl _)
        · intro answer answered
          refine ⟨?_, Or.inl rfl⟩
          cases entry with
          | http signal contentType =>
              simp only [Entry.refusal] at answered
              split at answered
              · obtain rfl := Option.some.inj answered
                rfl
              · cases answered
          | grpc signal => cases answered
        · exact fun answer answered => Or.inr (.contentType answered)
      · have before : id < s.handlers.length := by omega
        exact (sound.tied id before).frame (List.getElem?_append_left before)
          (Or.inl (List.getElem?_append_left (sound.requests ▸ before))) (fun _ => Iff.rfl)
          fun _ _ => rfl
  | receive owner move handler request intake own found awaits apart moved =>
      obtain ⟨old, new, slot, present, moves, placed, _, others⟩ :=
        sound.balanced.requests_step moved
      obtain rfl := Option.some.inj (present.symm.trans found)
      refine sound.retied (by simp) (set_others _ own) others (fun _ _ _ => Iff.rfl)
        (fun _ _ _ _ => rfl) ⟨_, new, set_own _ own, placed, ?_⟩
      obtain ⟨other, twin, same, here, stage⟩ := sound.tied owner (lt_of_found own)
      obtain rfl := Option.some.inj (same.symm.trans own)
      obtain rfl := Option.some.inj (here.symm.trans found)
      rcases stage with ⟨free, uncalled⟩ | ⟨place, call, owned, here, coupled⟩
      · exact Or.inl ⟨free, uncalled.moved moves apart awaits⟩
      · exact Or.inr ⟨place, call, owned, here, coupled.moved moves apart⟩
  | refuse owner read handler answer intake own refused moved =>
      obtain ⟨old, new, slot, present, moves, placed, _, others⟩ :=
        sound.balanced.requests_step moved
      refine sound.retied (by simp) (set_others _ own) others (fun _ _ _ => Iff.rfl)
        (fun _ _ _ _ => rfl) ⟨_, new, set_own _ own, placed, Or.inl ?_⟩
      obtain ⟨request, found, reading⟩ := Intake.reading_of_body moved (Or.inl rfl)
      obtain rfl := Option.some.inj (found.symm.trans present)
      obtain ⟨free, uncalled⟩ := sound.uncalled own found reading
      cases moves with
      | stop =>
          refine ⟨free, by simp, uncalled.saving, ?_, ?_⟩
          · intro other answered
            obtain rfl := Option.some.inj answered
            exact ⟨Entry.receive_refused refused, Or.inr (Or.inl rfl)⟩
          · intro other answered
            obtain rfl := Option.some.inj answered
            exact Handler.blame rfl refused
      | unpark _ _ _ cause | passOn _ _ _ cause => simp at cause
  | record owner read handler record intake own decoded moved =>
      obtain ⟨request, found, reading⟩ := Intake.reading_of_body moved (Or.inr rfl)
      obtain ⟨old, new, slot, present, moves, placed, _, others⟩ :=
        sound.balanced.requests_step moved
      obtain rfl := Option.some.inj (found.symm.trans present)
      obtain ⟨free, uncalled⟩ := sound.uncalled own found reading
      have unanswered := uncalled.unanswered (by simp [reading])
      refine sound.retied rfl (fun _ _ => rfl) others ?_ ?_ ⟨handler, new, own, placed, Or.inr
        ⟨s.owners.length, { record := record }, List.getElem?_concat_length,
          sound.calls ▸ List.getElem?_concat_length, ?_⟩⟩
      · intro other different place
        rw [List.getElem?_append]
        split
        · rfl
        · rename_i beyond
          constructor
          · intro last
            exact absurd (List.mem_singleton.mp (List.mem_of_getElem? last)) different
          · intro theirs
            exact absurd (lt_of_found theirs) beyond
      · intro other _ place owned
        exact List.getElem?_append_left (sound.calls ▸ lt_of_found owned)
      · cases moves with
        | record => exact ⟨rfl, uncalled.saving, unanswered, Entry.receive_fits decoded⟩
        | stop _ _ stops => simp at stops
        | unpark _ _ _ cause | passOn _ _ _ cause => simp at cause
  | call place move owner handler call new intake owned own found stepped together =>
      obtain ⟨request, present, coupled⟩ := sound.coupled owned own found
      have moves := RecordCall.moves_of_next stepped
      have others (other : ℕ) (different : other ≠ owner) (elsewhere : ℕ)
          (theirs : s.owners[elsewhere]? = some other) :
          (s.sink.calls.set place new)[elsewhere]? = s.sink.calls[elsewhere]? := by
        refine set_others new found elsewhere ?_
        rintro rfl
        exact different (Option.some.inj (theirs.symm.trans owned))
      cases pair : call.partner s.sink move with
      | none =>
          rw [pair] at together
          obtain rfl : intake = s.intake := together
          exact sound.retied (by simp) (set_others _ own) (fun _ _ => Or.inl rfl)
            (fun _ _ _ => Iff.rfl) others ⟨_, request, set_own _ own, present, Or.inr
              ⟨place, new, owned, set_own _ found, coupled.alone moves pair⟩⟩
      | some partner =>
          rw [pair] at together
          obtain ⟨old, moved, slot, here, requestMoves, placed, _, unmoved⟩ :=
            sound.balanced.requests_step together
          obtain rfl := Option.some.inj (here.symm.trans present)
          exact sound.retied (by simp) (set_others _ own) unmoved (fun _ _ _ => Iff.rfl) others
            ⟨_, moved, set_own _ own, placed, Or.inr ⟨place, new, owned, set_own _ found,
              coupled.together moves pair requestMoves⟩⟩
  | shutdown move sink shut =>
      have calls : sink.calls = s.sink.calls := by rw [Sink.shut_eq shut]
      intro id below
      exact (sound.tied id below).frame rfl (Or.inl rfl) (fun _ => Iff.rfl)
        fun place _ => congrArg (·[place]?) calls

theorem Sound.step (sound : Sound config s) (taken : s.step config action = some next) :
    Sound config next := by
  have moves := moves_of_step taken
  have tied := sound.tied_step moves
  have balanced : next.intake.Balanced ∧ next.intake.maxInflight = config.maxInflight := by
    rcases moves.intakeMoves with same | ⟨move, moved⟩
    · rw [same]
      exact ⟨sound.balanced, sound.limit⟩
    · exact ⟨sound.balanced.step moved, (Intake.step_limits moved).1.trans sound.limit⟩
  have coherent : next.sink.Coherent ∧ next.sink.settings = config.sink := by
    rcases moves.sinkMoves with same | ⟨move, moved⟩
    · rw [same]
      exact ⟨sound.coherent, sound.settings⟩
    · exact ⟨sound.coherent.step moved, (Sink.settings_step moved).trans sound.settings⟩
  have lengths : next.intake.requests.length = next.handlers.length ∧
      next.sink.calls.length = next.owners.length := by
    have requests := sound.requests
    have calls := sound.calls
    cases moves with
    | arrive => exact ⟨by simp [requests], calls⟩
    | receive _ _ _ _ _ _ _ _ _ moved | refuse _ _ _ _ _ _ _ moved =>
        obtain ⟨_, _, _, _, _, _, same, _⟩ := sound.balanced.requests_step moved
        exact ⟨by simp [same, requests], calls⟩
    | record _ _ _ _ _ _ _ moved =>
        obtain ⟨_, _, _, _, _, _, same, _⟩ := sound.balanced.requests_step moved
        exact ⟨by simp [same, requests], by simp [calls]⟩
    | call place move owner handler call new intake owned own found stepped together =>
        refine ⟨?_, by simp [calls]⟩
        cases pair : call.partner s.sink move with
        | none =>
            rw [pair] at together
            obtain rfl : intake = s.intake := together
            simp [requests]
        | some partner =>
            rw [pair] at together
            obtain ⟨_, _, _, _, _, _, same, _⟩ := sound.balanced.requests_step together
            simp [same, requests]
    | shutdown move sink shut => exact ⟨requests, by rw [Sink.shut_eq shut]; exact calls⟩
  have owners : next.owners.Nodup ∧ ∀ owner ∈ next.owners, owner < next.handlers.length := by
    have once := sound.once
    have known := sound.known
    cases moves with
    | arrive =>
        refine ⟨once, fun owner member => ?_⟩
        rw [List.length_append]
        exact Nat.lt_add_right _ (known owner member)
    | receive | refuse | call =>
        exact ⟨once, by simpa using known⟩
    | record owner read handler record intake own decoded moved =>
        obtain ⟨request, found, reading⟩ := Intake.reading_of_body moved (Or.inr rfl)
        have free := (sound.uncalled own found reading).1
        refine ⟨?_, ?_⟩
        · rw [List.nodup_append]
          refine ⟨once, List.nodup_singleton _, ?_⟩
          rintro place member other last rfl
          exact free (List.mem_singleton.mp last ▸ member)
        · intro place member
          rcases List.mem_append.mp member with before | last
          · exact known place before
          · obtain rfl := List.mem_singleton.mp last
            exact lt_of_found own
    | shutdown => exact ⟨once, known⟩
  exact ⟨lengths.1, lengths.2, owners.1, tied, owners.2, balanced.1, balanced.2, coherent.1,
    coherent.2⟩

theorem sound_opened (config : ServiceConfig) : Sound config (opened config) where
  requests := rfl
  calls := rfl
  once := List.nodup_nil
  tied id below := absurd below (Nat.not_lt_zero id)
  known owner member := by simp [opened] at member
  balanced := Intake.balanced_new _
  limit := rfl
  coherent := Sink.coherent_opened _
  settings := rfl

theorem sound_run {actions : List ServiceAction} (ran : run config actions = some s) :
    Sound config s :=
  invariant_run (fun _ _ _ taken sound => Sound.step sound taken) actions _ _ ran
    (sound_opened config)

/-! ### What an answer tells -/

end Service

theorem Entry.persistence_refused (entry : Entry) (reason : String) :
    (entry.persistence reason).accepted = false ∧ (entry.persistence reason).retryable = true := by
  cases entry <;> exact ⟨rfl, rfl⟩

section Settling

variable {handler : Handler} {request : Request} {call : RecordCall} {answer : Answer}

theorem Coupled.returned (coupled : Coupled handler request call)
    (answered : handler.answer = some answer) :
    call.caller = .returned answer.accepted ∧
      (answer.accepted = false → answer.retryable = true) := by
  have told := coupled.answer.symm.trans answered
  simp only [RecordCall.answer] at told
  split at told
  · rename_i caller
    obtain rfl := Option.some.inj told
    rw [coupled.fits, caller]
    exact ⟨rfl, fun never => by cases never⟩
  · rename_i caller
    obtain rfl := Option.some.inj told
    obtain ⟨refused, retryable⟩ := handler.entry.persistence_refused call.errorText
    rw [refused, caller]
    exact ⟨rfl, fun _ => retryable⟩
  · cases told

/-- An answer tells how the save task ended. -/
theorem Coupled.settled (coupled : Coupled handler request call) (valid : call.Valid)
    (answered : handler.answer = some answer) {mark : SaveTask → Bool}
    (marks : mark (.finished true) = true ∧ mark (.finished false) = false) :
    call.reached mark = answer.accepted := by
  have caller := (coupled.returned answered).1
  cases accepted : answer.accepted with
  | true =>
      rw [accepted] at caller
      rw [RecordCall.reached_some (valid.returned caller), marks.1]
  | false =>
      rw [accepted] at caller
      unfold RecordCall.Valid at valid
      split at valid
      · rename_i idle
        exact RecordCall.reached_none idle
      · rename_i ok ended
        obtain rfl : ok = false := by simpa [caller, eq_comm] using valid.2
        rw [RecordCall.reached_some ended, marks.2]
      · simp [caller] at valid

/-- A call that has returned takes no more steps. -/
theorem RecordCall.Valid.stays {sink : Sink} {new : RecordCall} {action : CallAction} {ok : Bool}
    (valid : call.Valid) (caller : call.caller = .returned ok) :
    ¬call.Moves sink action new := by
  intro moves
  have ended (task : SaveTask) (own : call.task = some task) : task.running = false := by
    unfold RecordCall.Valid at valid
    rw [own] at valid
    cases task with
    | finished => rfl
    | _ => simp [caller] at valid
  cases moves with
  | takeGuard waits | cancel waits => simp [caller] at waits
  | spawn holds | refuse holds | respond _ holds => simp [caller] at holds
  | fail own | persist _ own | ingest own | queuePretty _ own | notify own =>
      have running := ended _ own
      cases running

end Settling

namespace Service

variable {config : ServiceConfig} {s next : Service} {action : ServiceAction} {id : ℕ}
  {handler : Handler} {answer : Answer}

/-- An answer is final. -/
theorem Sound.answered_step (sound : Sound config s) (taken : s.step config action = some next)
    (own : s.handlers[id]? = some handler) (answered : handler.answer = some answer) :
    next.handlers[id]? = some handler := by
  cases moves_of_step taken with
  | arrive => exact (List.getElem?_append_left (lt_of_found own)).trans own
  | record | shutdown => exact own
  | receive owner move other request intake here found awaits apart moved =>
      by_cases same : id = owner
      · subst same
        obtain rfl := Option.some.inj (here.symm.trans own)
        refine (set_own _ own).trans (congrArg some ?_)
        obtain ⟨again, twin, also, present, stage⟩ := sound.tied id (lt_of_found own)
        obtain rfl := Option.some.inj (also.symm.trans own)
        obtain rfl := Option.some.inj (present.symm.trans found)
        unfold Handler.leave
        split
        · rename_i rejected leaving
          rcases stage with ⟨_, uncalled⟩ | ⟨_, call, _, _, coupled⟩
          · have unanswered := uncalled.unanswered (by simp [leaving])
            simp [unanswered] at answered
          · have stage := coupled.stage
            cases caller : call.caller <;> simp [caller, Caller.stays, leaving] at stage
        · rfl
      · exact (set_others _ here id same).trans own
  | refuse owner read other late intake here refused moved =>
      by_cases same : id = owner
      · subst same
        obtain rfl := Option.some.inj (here.symm.trans own)
        obtain ⟨request, found, reading⟩ := Intake.reading_of_body moved (Or.inl rfl)
        have unanswered := (sound.uncalled own found reading).2.unanswered (by simp [reading])
        simp [unanswered] at answered
      · exact (set_others _ here id same).trans own
  | call place move owner other call new intake owned here found stepped together =>
      by_cases same : id = owner
      · subst same
        obtain rfl := Option.some.inj (here.symm.trans own)
        obtain ⟨request, _, coupled⟩ := sound.coupled owned own found
        have valid := sound.coherent.valid call (List.mem_of_getElem? found)
        exact absurd (RecordCall.moves_of_next stepped)
          (valid.stays (coupled.returned answered).1)
      · exact (set_others _ here id same).trans own

/-- The record of a request that was taken is counted, and its line is written. -/
theorem Sound.taken (sound : Sound config s) (own : s.handlers[id]? = some handler)
    (answered : handler.answer = some answer) (accepted : answer.accepted = true) :
    ∃ (place : ℕ) (call : RecordCall), s.owners[place]? = some id ∧
      s.sink.calls[place]? = some call ∧ (place, call.record) ∈ s.sink.ingested ∧
      (config.sink.jsonl = true → (place, call.record) ∈ s.sink.written) := by
  obtain ⟨again, request, also, present, stage⟩ := sound.tied id (lt_of_found own)
  obtain rfl := Option.some.inj (also.symm.trans own)
  rcases stage with ⟨_, uncalled⟩ | ⟨place, call, owned, here, coupled⟩
  · simp [(uncalled.refused answer answered).1] at accepted
  · have valid := sound.coherent.valid call (List.mem_of_getElem? here)
    have marked {mark : SaveTask → Bool}
        (marks : mark (.finished true) = true ∧ mark (.finished false) = false) :
        call.reached mark = true := (coupled.settled valid answered marks).trans accepted
    refine ⟨place, call, owned, here, ?_, fun jsonl => ?_⟩
    · exact sound.coherent.ingested.mem_of_found here (marked ⟨rfl, rfl⟩)
    · exact (sound.coherent.written (sound.settings ▸ jsonl)).mem_of_found here
        (marked ⟨rfl, rfl⟩)

/-- How often the records of the handlers stand in a log. -/
def listed (s : Service) (ids : List ℕ) (log : List (ℕ × TelemetryRecord)) : ℕ :=
  log.countP fun entry => s.owners[entry.1]?.any fun owner => ids.contains owner

/-- The answer to a handler tells whether its record stands in the log. -/
theorem Sound.listed_single (sound : Sound config s) {mark : SaveTask → Bool}
    {log : List (ℕ × TelemetryRecord)}
    (logged : Logged log s.sink.calls RecordCall.record (RecordCall.reached mark))
    (marks : mark (.finished true) = true ∧ mark (.finished false) = false)
    (own : s.handlers[id]? = some handler) (answered : handler.answer = some answer) :
    s.listed [id] log = answer.accepted.toNat := by
  obtain ⟨again, request, also, present, ⟨free, uncalled⟩ | ⟨place, call, owned, here, coupled⟩⟩ :=
    sound.tied id (lt_of_found own)
  · obtain rfl := Option.some.inj (also.symm.trans own)
    rw [(uncalled.refused answer answered).1, listed, Bool.toNat_false, List.countP_eq_zero]
    intro entry _ listed
    obtain ⟨owner, owned, same⟩ := (Option.any_eq_true _ _).mp listed
    obtain rfl : owner = id := by simpa using same
    exact free (List.mem_of_getElem? owned)
  · obtain rfl := Option.some.inj (also.symm.trans own)
    have valid := sound.coherent.valid call (List.mem_of_getElem? here)
    rw [← coupled.settled valid answered marks, ← logged.count_id here, List.count,
      List.countP_map, listed]
    refine List.countP_congr fun entry _ => ?_
    simp only [Option.any_eq_true, List.contains_eq_mem, List.mem_singleton, decide_eq_true_eq,
      Function.comp_apply, beq_iff_eq]
    constructor
    · rintro ⟨owner, theirs, rfl⟩
      exact ((List.getElem?_inj (lt_of_found theirs) sound.once).mp (theirs.trans owned.symm))
    · rintro rfl
      exact ⟨_, owned, rfl⟩

theorem listed_cons (s : Service) (ids : List ℕ) (log : List (ℕ × TelemetryRecord))
    (fresh : id ∉ ids) : s.listed (id :: ids) log = s.listed [id] log + s.listed ids log := by
  have split (found : Option ℕ) :
      (if (found.any fun owner => (id :: ids).contains owner) = true then 1 else 0) =
        (if (found.any fun owner => [id].contains owner) = true then 1 else 0) +
          if (found.any fun owner => ids.contains owner) = true then 1 else 0 := by
    cases found with
    | none => rfl
    | some owner =>
        by_cases same : owner = id
        · simp [same, fresh]
        · simp [same]
  induction log with
  | nil => rfl
  | cons entry log ih =>
      simp only [listed, List.countP_cons] at ih ⊢
      rw [ih, split]
      omega

section Reachable

variable {actions : List ServiceAction}

/-- In every interleaving, the records of handlers that were answered are counted as often as an
exporter was told that one was taken, and have as many lines. -/
theorem counted_as_answered (ran : run config actions = some s) (ids : List ℕ)
    (once : ids.Nodup)
    (answered : ∀ id ∈ ids, ∃ handler answer, s.handlers[id]? = some handler ∧
      handler.answer = some answer) :
    s.listed ids s.sink.ingested =
      ids.countP (fun id => s.handlers[id]?.any fun handler =>
        handler.answer.any Answer.accepted) ∧
    (config.sink.jsonl = true → s.listed ids s.sink.written = s.listed ids s.sink.ingested) := by
  have sound := sound_run ran
  have counts (log : List (ℕ × TelemetryRecord)) (mark : SaveTask → Bool)
      (logged : Logged log s.sink.calls RecordCall.record (RecordCall.reached mark))
      (marks : mark (.finished true) = true ∧ mark (.finished false) = false) :
      s.listed ids log = ids.countP (fun id => s.handlers[id]?.any fun handler =>
        handler.answer.any Answer.accepted) := by
    induction ids with
    | nil => simp [listed]
    | cons id ids ih =>
        obtain ⟨fresh, once⟩ := List.nodup_cons.mp once
        rw [List.forall_mem_cons] at answered
        obtain ⟨⟨handler, answer, own, told⟩, rest⟩ := answered
        rw [listed_cons s ids log fresh, sound.listed_single logged marks own told,
          ih once rest, List.countP_cons, own]
        cases accepted : answer.accepted <;> simp [told, accepted, Nat.add_comm]
  refine ⟨counts _ SaveTask.counted sound.coherent.ingested ⟨rfl, rfl⟩, fun jsonl => ?_⟩
  rw [counts _ SaveTask.counted sound.coherent.ingested ⟨rfl, rfl⟩]
  exact counts _ SaveTask.persisted (sound.coherent.written (sound.settings ▸ jsonl)) ⟨rfl, rfl⟩

end Reachable

/-- A body without bytes stands for the end of one response of Codex; others are invalid. -/
def oneCompletion : ServiceConfig where
  maxInflight := 1
  sink := Sink.allOutputs
  decode _ _ body :=
    if body.isEmpty then .ok (completionMessage "c" "gpt-5" 7).call else .error "invalid"
  decodeGrpc _ _ := .ok (completionMessage "c" "gpt-5" 7).call
  bodyStatus _ := { code := .internal, message := "body" }

/-- One request is taken; one finds no slot until its deadline, and is taken when it is sent
again; one has a content type that nothing reads. -/
def retriedAfterBusy : List ServiceAction :=
  [.arrive (.http .logs .missing), .receive 0 .tryAcquire,
    .arrive (.http .logs (.text "Application/JSON; charset=utf-8")), .receive 1 .tryAcquire,
    .receive 1 .enter, .receive 1 .poll, .receive 1 .expire, .receive 1 .leave,
    .arrive (.http .logs (.text "text/plain")), .body 0 (.bytes []), .call 0 .takeGuard,
    .call 0 .check, .call 0 (.write true), .call 0 .ingest, .call 0 .queuePretty, .call 0 .notify,
    .call 0 .respond, .receive 0 .finish,
    .arrive (.http .logs (.text "Application/JSON; charset=utf-8")), .receive 3 .tryAcquire,
    .body 3 (.bytes []), .call 1 .takeGuard, .call 1 .check, .call 1 (.write true),
    .call 1 .ingest, .call 1 .queuePretty, .call 1 .notify, .call 1 .respond]

theorem counted_as_answered_retried : ∃ s, run oneCompletion retriedAfterBusy = some s ∧
    s.listed [1, 3] s.sink.ingested = 1 ∧ s.listed [0, 1, 2, 3] s.sink.written = 2 := by
  have facts : (run oneCompletion retriedAfterBusy).any (fun s =>
      (∀ id ∈ [0, 1, 2, 3], (s.handlers[id]?.any fun handler => handler.answer.isSome) = true) ∧
      ∀ ids ∈ [([1, 3], 1), ([0, 1, 2, 3], 2)], ids.1.countP (fun id =>
        s.handlers[id]?.any fun handler => handler.answer.any Answer.accepted) = ids.2) =
        true := by
    decide +kernel
  obtain ⟨s, ran, facts⟩ := (Option.any_eq_true _ _).mp facts
  obtain ⟨told, counts⟩ := of_decide_eq_true facts
  have answered (id : ℕ) (member : id ∈ [0, 1, 2, 3]) :
      ∃ handler answer, s.handlers[id]? = some handler ∧ handler.answer = some answer := by
    obtain ⟨handler, own, some⟩ := (Option.any_eq_true _ _).mp (told id member)
    obtain ⟨answer, here⟩ := Option.isSome_iff_exists.mp some
    exact ⟨handler, answer, own, here⟩
  have pair := counted_as_answered ran [1, 3] (by simp) fun id member =>
    answered id (by simp at member ⊢; omega)
  have all := counted_as_answered ran [0, 1, 2, 3] (by simp) answered
  refine ⟨s, ran, ?_, ?_⟩
  · exact pair.1.trans (counts ([1, 3], 1) (by simp))
  · rw [all.2 rfl, all.1]
    exact counts ([0, 1, 2, 3], 2) (by simp)

section Reachable

variable {actions : List ServiceAction}

/-- An answer is final. A request that was taken stays saved and counted. One that was refused is
never saved, counted or forwarded, and may be sent again, unless it is itself at fault: by its
content type, or because the body that was read of it was too long, could not be read or did not
decode. -/
theorem answer_meaning (ran : run config actions = some s)
    (own : s.handlers[id]? = some handler) (answered : handler.answer = some answer)
    (after : List ServiceAction) (later : Service)
    (on : runFrom (step config) s after = some later) :
    later.handlers[id]? = some handler ∧
    (answer.accepted = true → ∃ (place : ℕ) (call : RecordCall), later.owners[place]? = some id ∧
      later.sink.calls[place]? = some call ∧ (place, call.record) ∈ later.sink.ingested ∧
      (config.sink.jsonl = true → (place, call.record) ∈ later.sink.written)) ∧
    (answer.accepted = false →
      (∀ (place : ℕ) (record : TelemetryRecord), later.owners[place]? = some id →
        (place, record) ∉ later.sink.written ∧ (place, record) ∉ later.sink.ingested ∧
          (place, record) ∉ later.sink.forwarded) ∧
      (answer.retryable = true ∨ handler.AtFault config answer)) := by
  have kept (before : Service) (action : ServiceAction) (following : Service)
      (taken : before.step config action = some following)
      (held : Sound config before ∧ before.handlers[id]? = some handler) :
      Sound config following ∧ following.handlers[id]? = some handler :=
    ⟨held.1.step taken, held.1.answered_step taken held.2 answered⟩
  obtain ⟨sound, still⟩ := invariant_run kept after _ _ on ⟨sound_run ran, own⟩
  obtain ⟨again, request, also, present, stage⟩ := sound.tied id (lt_of_found still)
  obtain rfl := Option.some.inj (also.symm.trans still)
  refine ⟨still, sound.taken still answered, fun refused => ⟨?_, ?_⟩⟩
  · intro place record owned
    have below : place < later.sink.calls.length := sound.calls ▸ lt_of_found owned
    have here := List.getElem?_eq_getElem below
    obtain ⟨_, _, coupled⟩ := sound.coupled owned still here
    have valid := sound.coherent.valid _ (List.mem_of_getElem? here)
    have unmarked {mark : SaveTask → Bool}
        (marks : mark (.finished true) = true ∧ mark (.finished false) = false) :
        later.sink.calls[place].reached mark = false :=
      (coupled.settled valid answered marks).trans refused
    have uncounted : (place, record) ∉ later.sink.ingested := by
      intro counted
      have reached := sound.coherent.ingested.passed_of_mem here counted
      rw [unmarked ⟨rfl, rfl⟩] at reached
      cases reached
    refine ⟨?_, uncounted, fun sent => uncounted (sound.coherent.forwarded _ sent)⟩
    intro wrote
    cases jsonl : later.sink.settings.jsonl with
    | false => simp [sound.coherent.unwritten jsonl] at wrote
    | true =>
        have reached := (sound.coherent.written jsonl).passed_of_mem here wrote
        rw [unmarked ⟨rfl, rfl⟩] at reached
        cases reached
  · rcases stage with ⟨_, uncalled⟩ | ⟨_, _, _, _, coupled⟩
    · exact uncalled.blame answer answered
    · exact Or.inl ((coupled.returned answered).2 refused)

end Reachable

theorem answer_meaning_retried : ∃ s handler answer, run oneCompletion retriedAfterBusy = some s ∧
    s.handlers[1]? = some handler ∧ handler.answer = some answer ∧ answer.accepted = false ∧
    (answer.retryable = true ∨ handler.AtFault oneCompletion answer) := by
  have facts : (run oneCompletion retriedAfterBusy).any (fun s =>
      s.handlers[1]?.any fun handler => handler.answer.any fun answer => !answer.accepted) =
        true := by
    decide +kernel
  obtain ⟨s, ran, facts⟩ := (Option.any_eq_true _ _).mp facts
  obtain ⟨handler, own, facts⟩ := (Option.any_eq_true _ _).mp facts
  obtain ⟨answer, answered, refused⟩ := (Option.any_eq_true _ _).mp facts
  have refused : answer.accepted = false := by simpa using refused
  have meaning := answer_meaning ran own answered [] s rfl
  exact ⟨s, handler, answer, ran, own, answered, refused, (meaning.2.2 refused).2⟩

end Service

/-! ### Bounds -/

/-- The body is being received, or was decoded and waits for the sink to admit it. -/
def Request.receiving (request : Request) : Bool :=
  request.phase = .reading || request.phase = .recording

/-- The handler gives its slot to the save task, so that one record is held at a time. -/
theorem Request.Valid.receives {request : Request} (valid : request.Valid) :
    request.saving.toNat + request.receiving.toNat ≤ request.permitLive.toNat := by
  by_cases here : request.phase = .reading ∨ request.phase = .recording
  · have holds : 1 ≤ request.held ∧ request.saving = false := by
      rcases here with here | here
      · simpa [Request.Valid, here] using valid
      · simpa [Request.Valid, here] using valid
    have live : request.held ≠ 0 := by omega
    simp [Request.permitLive, holds.2, live, Bool.toNat_le]
  · have idle : request.receiving = false := by
      rw [not_or] at here
      simp [Request.receiving, here.1, here.2]
    cases saves : request.saving <;> simp [Request.permitLive, idle, saves]

namespace Service

section Reachable

variable {actions : List ServiceAction}

/-- The records in memory are bounded by the slots: those being received, those that wait for the
sink, and those of the save tasks, also of handlers that are gone. -/
theorem records_bounded (ran : run config actions = some s) :
    load (fun call => (call.reached SaveTask.running).toNat) s.sink.calls +
      s.intake.count Request.receiving ≤ config.maxInflight := by
  have sound := sound_run ran
  have saves : load (fun call => (call.reached SaveTask.running).toNat) s.sink.calls ≤
      load (fun request : Request => request.saving.toNat) s.intake.requests := by
    refine load_le_of_owners sound.once sound.calls fun place owner call owned here => ?_
    have known := sound.known owner (List.mem_of_getElem? owned)
    obtain ⟨request, found, coupled⟩ :=
      sound.coupled owned (List.getElem?_eq_getElem known) here
    exact ⟨request, found, by rw [coupled.saving]; rfl⟩
  have together := load_add (fun request : Request => request.saving.toNat)
    (fun request => request.receiving.toNat) s.intake.requests
  have held : load (fun request : Request => request.saving.toNat + request.receiving.toNat)
      s.intake.requests ≤ s.intake.count Request.permitLive := by
    exact load_le_load fun request member =>
      Request.Valid.receives (sound.balanced.valid request member)
  have accounted := sound.balanced.accounted
  rw [sound.limit] at accounted
  simp only [Intake.count] at accounted held ⊢
  omega

/-- What `/stats` shows as the total of Codex never goes down. -/
theorem stats_codex_monotone (ran : run config actions = some s) (after : List ServiceAction)
    (later : Service) (on : runFrom (step config) s after = some later) :
    (codexTotal s.sink.aggregator).AtMost (codexTotal later.sink.aggregator) := by
  have kept (before : Service) (action : ServiceAction) (following : Service)
      (taken : before.step config action = some following)
      (held : Sound config before ∧ s.sink.ingested <+: before.sink.ingested) :
      Sound config following ∧ s.sink.ingested <+: following.sink.ingested := by
    refine ⟨held.1.step taken, ?_⟩
    rcases (moves_of_step taken).sinkMoves with same | ⟨move, moved⟩
    · rw [same]
      exact held.2
    · exact held.2.trans (Sink.ingested_step held.1.coherent moved)
  obtain ⟨sound, more, grown⟩ :=
    invariant_run kept after _ _ on ⟨sound_run ran, List.prefix_rfl⟩
  rw [(sound_run ran).coherent.totals, sound.coherent.totals, ← grown, List.map_append]
  exact (Aggregator.codex_total_monotone _ _).2

end Reachable

theorem records_bounded_retried : ∃ s, run oneCompletion (retriedAfterBusy.take 12) = some s ∧
    load (fun call => (call.reached SaveTask.running).toNat) s.sink.calls = 1 ∧
    s.intake.count Request.receiving = 0 := by
  have facts : (run oneCompletion (retriedAfterBusy.take 12)).any (fun s =>
      load (fun call => (call.reached SaveTask.running).toNat) s.sink.calls = 1) = true := by
    decide +kernel
  obtain ⟨s, ran, facts⟩ := (Option.any_eq_true _ _).mp facts
  have saves := of_decide_eq_true facts
  have bounded := records_bounded ran
  have slots : oneCompletion.maxInflight = 1 := rfl
  exact ⟨s, ran, saves, by omega⟩

theorem stats_codex_monotone_retried : ∃ s later,
    run oneCompletion (retriedAfterBusy.take 17) = some s ∧
    runFrom (step oneCompletion) s (retriedAfterBusy.drop 17) = some later ∧
    (codexTotal s.sink.aggregator).inputTokens = 7 ∧
    7 ≤ (codexTotal later.sink.aggregator).inputTokens := by
  have facts : (run oneCompletion (retriedAfterBusy.take 17)).any (fun s =>
      (codexTotal s.sink.aggregator).inputTokens = 7 ∧
      (runFrom (step oneCompletion) s (retriedAfterBusy.drop 17)).isSome = true) = true := by
    decide +kernel
  obtain ⟨s, ran, facts⟩ := (Option.any_eq_true _ _).mp facts
  obtain ⟨seven, on⟩ := of_decide_eq_true facts
  obtain ⟨later, on⟩ := Option.isSome_iff_exists.mp on
  have grown := (stats_codex_monotone ran _ later on).counter .inputTokens
  exact ⟨s, later, ran, on, seven, seven ▸ grown⟩

end Service

end OtelLogger
