import OtelLogger.Library.Interleaving
import OtelLogger.Router

/-!
One route of the proxy: the bounded channel that `notify` sends to, the worker that takes the
batches from it, and what happens to each. The token may be cancelled, and the drain deadline may
pass, between any two steps.
-/

namespace OtelLogger

open Interleaving

/-! ### Sending one batch -/

inductive ExportOutcome where
  | ok
  | failed (retryAfter : Option ℕ)

inductive SendStage where
  | ready
  | exporting
  | pausing (wait : ℕ)

/-- The locals of `send_with_retry`; times are in milliseconds. -/
structure Sending where
  attempt : ℕ := 0
  delay : ℕ := 200
  stage : SendStage := .ready

inductive SendAction where
  | start
  | complete (outcome : ExportOutcome)
  | wake
  | interrupt

inductive SendResult where
  | sent
  | cancelled
  | failed

def attempts (retryMax : ℕ) : ℕ :=
  min (retryMax + 1) (2 ^ 32 - 1)

/-- An export that completes is taken even when the token was cancelled after it was looked at;
a cancelled token keeps an attempt from starting. -/
def Sending.step (retryMax : ℕ) (cancelled : Bool) (sending : Sending) :
    SendAction → Option (Sending ⊕ SendResult)
  | .start =>
      match sending.stage with
      | .ready =>
          some (if cancelled then .inr .cancelled else .inl { sending with stage := .exporting })
      | _ => none
  | .complete outcome =>
      match sending.stage, outcome with
      | .exporting, .ok => some (.inr .sent)
      | .exporting, .failed none => some (.inr .failed)
      | .exporting, .failed (some retryAfter) =>
          some (if sending.attempt + 1 ≥ attempts retryMax then .inr .failed
            else .inl { sending with stage := .pausing (max sending.delay retryAfter) })
      | _, _ => none
  | .wake =>
      match sending.stage with
      | .pausing _ =>
          some (.inl {
            attempt := sending.attempt + 1
            delay := min (sending.delay * 2) 30000
            stage := .ready })
      | _ => none
  | .interrupt =>
      match sending.stage with
      | .ready => none
      | _ => if cancelled then some (.inr .cancelled) else none

/-! ### The worker -/

/-- A request on its way; `number` is its place among those offered to the route, which the code
does not keep. -/
structure Batch where
  number : ℕ
  request : ExportRequest

/-- The totals are atomic counters of 64 bits. -/
structure RouteMetrics where
  sentTotal : ℕ := 0
  failedTotal : ℕ := 0
  droppedTotal : ℕ := 0

/-- What the worker does next; in the drain it counts the batches it abandons. -/
inductive WorkerPhase where
  | receiving
  | sending (batch : Batch) (state : Sending)
  | stopping (interrupted : Option Batch)
  | draining (interrupted : Option Batch) (abandoned : ℕ)
  | resending (batch : Batch) (state : Sending) (abandoned : ℕ)
  | stopped

inductive DropReason where
  | full
  | closed
  | deadline
  deriving DecidableEq

/-- What happened so far, by the numbers of the batches. -/
structure DeliveryLog where
  offered : List ExportRequest := []
  sent : List ℕ := []
  failed : List ℕ := []
  dropped : List ℕ := []
  reasons : List (ℕ × DropReason) := []
  abandoned : List ℕ := []
  attempts : List ℕ := []

structure DeliveryConfig where
  router : ProxyRouter
  lane : RouteLane
  capacity : ℕ
  retryMax : ℕ

structure Delivery where
  shutdown : Bool := false
  deadline : Bool := false
  closed : Bool := false
  sendersGone : Bool := false
  channel : List Batch := []
  worker : WorkerPhase := .receiving
  metrics : RouteMetrics := {}
  log : DeliveryLog := {}

inductive DeliveryAction where
  | notify (record : TelemetryRecord)
  | dropSenders
  | shutdown
  | expire
  | recv
  | stop
  | close
  | next
  | settle
  | send (action : SendAction)

namespace Delivery

def refuse (s : Delivery) (request : ExportRequest) (reason : DropReason) : Delivery :=
  { s with
    metrics := { s.metrics with droppedTotal := fetchAdd s.metrics.droppedTotal 1 }
    log := { s.log with
      offered := s.log.offered ++ [request]
      dropped := s.log.dropped ++ [s.log.offered.length]
      reasons := s.log.reasons ++ [(s.log.offered.length, reason)] } }

def accept (s : Delivery) (request : ExportRequest) : Delivery :=
  { s with
    channel := s.channel ++ [{ number := s.log.offered.length, request := request }]
    log := { s.log with offered := s.log.offered ++ [request] } }

def trySend (capacity : ℕ) (s : Delivery) (request : ExportRequest) : Delivery :=
  if s.closed then s.refuse request .closed
  else if capacity ≤ s.channel.length then s.refuse request .full
  else s.accept request

def countSent (s : Delivery) (batch : Batch) (worker : WorkerPhase) : Delivery :=
  { s with
    worker := worker
    metrics := { s.metrics with sentTotal := fetchAdd s.metrics.sentTotal 1 }
    log := { s.log with sent := s.log.sent ++ [batch.number] } }

def countFailed (s : Delivery) (batch : Batch) (worker : WorkerPhase) : Delivery :=
  { s with
    worker := worker
    metrics := { s.metrics with failedTotal := fetchAdd s.metrics.failedTotal 1 }
    log := { s.log with failed := s.log.failed ++ [batch.number] } }

def abandon (s : Delivery) (batch : Batch) (abandoned : ℕ) : Delivery :=
  { s with
    worker := .draining none (abandoned + 1)
    log := { s.log with abandoned := s.log.abandoned ++ [batch.number] } }

/-- The worker goes on with a batch; an export that starts is an attempt. -/
def carryOn (s : Delivery) (batch : Batch) (state : Sending) (worker : WorkerPhase) : Delivery :=
  { s with
    worker := worker
    log := { s.log with
      attempts := match state.stage with
        | .exporting => s.log.attempts ++ [batch.number]
        | _ => s.log.attempts } }

def finishSend (s : Delivery) (batch : Batch) : Sending ⊕ SendResult → Delivery
  | .inl state => s.carryOn batch state (.sending batch state)
  | .inr .sent => s.countSent batch .receiving
  | .inr .cancelled => { s with worker := .stopping (some batch) }
  | .inr .failed => s.countFailed batch .receiving

def finishResend (s : Delivery) (batch : Batch) (abandoned : ℕ) :
    Sending ⊕ SendResult → Delivery
  | .inl state => s.carryOn batch state (.resending batch state abandoned)
  | .inr .sent => s.countSent batch (.draining none abandoned)
  | .inr .cancelled => s.abandon batch abandoned
  | .inr .failed => s.countFailed batch (.draining none abandoned)

def drain (s : Delivery) (batch : Batch) (abandoned : ℕ) : Delivery :=
  if batch.request.isEmpty then { s with worker := .draining none abandoned }
  else if s.deadline then s.abandon batch abandoned
  else { s with worker := .resending batch {} abandoned }

def settle (s : Delivery) (abandoned : ℕ) : Delivery :=
  { s with
    worker := .stopped
    metrics := { s.metrics with droppedTotal := fetchAdd s.metrics.droppedTotal abandoned }
    log := { s.log with
      dropped := s.log.dropped ++ s.log.abandoned
      reasons := s.log.reasons ++ s.log.abandoned.map fun number => (number, .deadline)
      abandoned := [] } }

def step (config : DeliveryConfig) (s : Delivery) : DeliveryAction → Option Delivery
  | .notify record =>
      if s.sendersGone then none
      else
        match config.router.laneRequest record config.lane with
        | none => some s
        | some request => some (s.trySend config.capacity request)
  | .dropSenders => some { s with sendersGone := true }
  | .shutdown => some { s with shutdown := true }
  | .expire =>
      match s.worker with
      | .draining _ _ | .resending _ _ _ => some { s with deadline := true }
      | _ => none
  | .recv =>
      match s.worker, s.channel with
      | .receiving, batch :: rest =>
          some (if batch.request.isEmpty then { s with channel := rest }
            else { s with channel := rest, worker := .sending batch {} })
      | .receiving, [] => if s.sendersGone then some { s with worker := .stopping none } else none
      | _, _ => none
  | .stop =>
      match s.worker with
      | .receiving => if s.shutdown then some { s with worker := .stopping none } else none
      | _ => none
  | .close =>
      match s.worker with
      | .stopping interrupted => some { s with closed := true, worker := .draining interrupted 0 }
      | _ => none
  | .next =>
      match s.worker, s.channel with
      | .draining (some batch) abandoned, _ => some (s.drain batch abandoned)
      | .draining none abandoned, batch :: rest =>
          some ({ s with channel := rest }.drain batch abandoned)
      | _, _ => none
  | .settle =>
      match s.worker, s.channel with
      | .draining none abandoned, [] => some (s.settle abandoned)
      | _, _ => none
  | .send action =>
      match s.worker with
      | .sending batch state =>
          (state.step config.retryMax s.shutdown action).map (s.finishSend batch)
      | .resending batch state abandoned =>
          (state.step 0 s.deadline action).map (s.finishResend batch abandoned)
      | _ => none

def run (config : DeliveryConfig) (actions : List DeliveryAction) : Option Delivery :=
  runFrom (step config) {} actions

end Delivery

/-! ### The order of the batches -/

def WorkerPhase.inHand : WorkerPhase → List Batch
  | .sending batch _ | .resending batch _ _ => [batch]
  | .stopping interrupted | .draining interrupted _ => interrupted.toList
  | _ => []

/-- The batches abandoned in the drain and not yet counted as dropped. -/
def WorkerPhase.abandoned : WorkerPhase → ℕ
  | .draining _ abandoned | .resending _ _ abandoned => abandoned
  | _ => 0

/-- The worker has closed the channel. -/
def WorkerPhase.drains : WorkerPhase → Prop
  | .draining _ _ | .resending _ _ _ | .stopped => True
  | _ => False

/-- Batches wait in the order they were offered in, behind every attempt so far. -/
structure Ordered (offered : List ExportRequest) (tried : List ℕ) (held : List Batch) :
    Prop where
  requests : ∀ batch ∈ held, offered[batch.number]? = some batch.request
  sorted : (held.map Batch.number).Pairwise (· < ·)
  attempts : tried.Pairwise (· ≤ ·)
  known : ∀ number ∈ tried, number < offered.length
  behind : ∀ number ∈ tried, ∀ batch ∈ held, number ≤ batch.number

namespace Ordered

variable {offered : List ExportRequest} {tried : List ℕ} {held rest : List Batch}
  {batch : Batch}

theorem lt_length (ordered : Ordered offered tried held) (member : batch ∈ held) :
    batch.number < offered.length :=
  (List.getElem?_eq_some_iff.mp (ordered.requests batch member)).1

theorem tail (ordered : Ordered offered tried (batch :: rest)) :
    Ordered offered tried rest where
  requests other member := ordered.requests other (List.mem_cons_of_mem batch member)
  sorted := (List.pairwise_cons.mp ordered.sorted).2
  attempts := ordered.attempts
  known := ordered.known
  behind number attempt other member :=
    ordered.behind number attempt other (List.mem_cons_of_mem batch member)

theorem offer (ordered : Ordered offered tried held) (request : ExportRequest) :
    Ordered (offered ++ [request]) tried held where
  requests other member := by
    rw [List.getElem?_append_left (ordered.lt_length member)]
    exact ordered.requests other member
  sorted := ordered.sorted
  attempts := ordered.attempts
  known number attempt := by
    have before := ordered.known number attempt
    rw [List.length_append, List.length_singleton]
    omega
  behind := ordered.behind

theorem enqueue (ordered : Ordered offered tried held) (request : ExportRequest) :
    Ordered (offered ++ [request]) tried
      (held ++ [{ number := offered.length, request := request }]) where
  requests other member := by
    rcases List.mem_append.mp member with before | last
    · exact (ordered.offer request).requests other before
    · obtain rfl := List.mem_singleton.mp last
      simp
  sorted := by
    rw [List.map_append, List.pairwise_append]
    refine ⟨ordered.sorted, List.pairwise_singleton _ _, ?_⟩
    rintro first member second last
    obtain ⟨other, listed, rfl⟩ := List.mem_map.mp member
    obtain rfl := List.mem_singleton.mp last
    exact ordered.lt_length listed
  attempts := ordered.attempts
  known := (ordered.offer request).known
  behind number attempt other member := by
    rcases List.mem_append.mp member with before | last
    · exact ordered.behind number attempt other before
    · obtain rfl := List.mem_singleton.mp last
      exact (ordered.known number attempt).le

theorem attempt (ordered : Ordered offered tried (batch :: rest)) :
    Ordered offered (tried ++ [batch.number]) (batch :: rest) where
  requests := ordered.requests
  sorted := ordered.sorted
  attempts := by
    rw [List.pairwise_append]
    refine ⟨ordered.attempts, List.pairwise_singleton _ _, ?_⟩
    intro number attempt own last
    obtain rfl := List.mem_singleton.mp last
    exact ordered.behind number attempt batch List.mem_cons_self
  known number attempt := by
    rcases List.mem_append.mp attempt with before | last
    · exact ordered.known number before
    · obtain rfl := List.mem_singleton.mp last
      exact ordered.lt_length List.mem_cons_self
  behind number attempt other member := by
    rcases List.mem_append.mp attempt with before | last
    · exact ordered.behind number before other member
    · obtain rfl := List.mem_singleton.mp last
      rcases List.mem_cons.mp member with rfl | later
      · exact le_rfl
      · exact ((List.pairwise_cons.mp ordered.sorted).1 _ (List.mem_map_of_mem later)).le

end Ordered

namespace Delivery

/-- The batches that are neither sent, failed, dropped nor abandoned. -/
def held (s : Delivery) : List Batch :=
  s.worker.inHand ++ s.channel

def places (s : Delivery) : List ℕ :=
  s.log.sent ++ s.log.failed ++ s.log.dropped ++ s.log.abandoned ++ s.held.map Batch.number

/-- Every batch offered is in one place, the counters count the places, and the worker closes the
channel before it drains it. -/
structure Accounted (s : Delivery) : Prop where
  places : s.places.Perm (List.range s.log.offered.length)
  sent : s.metrics.sentTotal = s.log.sent.length % 2 ^ 64
  failed : s.metrics.failedTotal = s.log.failed.length % 2 ^ 64
  dropped : s.metrics.droppedTotal = s.log.dropped.length % 2 ^ 64
  abandoned : s.worker.abandoned = s.log.abandoned.length
  nonEmpty : ∀ request ∈ s.log.offered, request.isEmpty = false
  ordered : Ordered s.log.offered s.log.attempts s.held
  closed : s.worker.drains → s.closed = true
  quiet : s.worker = .stopped → s.channel = []

namespace Accounted

variable {s : Delivery} {batch : Batch} {rest : List Batch} {abandoned : ℕ}

theorem batch_nonEmpty (accounted : s.Accounted) (member : batch ∈ s.held) :
    batch.request.isEmpty = false :=
  accounted.nonEmpty _ (List.mem_of_getElem? (accounted.ordered.requests batch member))

theorem refuse (accounted : s.Accounted) {request : ExportRequest}
    (some : request.isEmpty = false) (reason : DropReason) : (s.refuse request reason).Accounted where
  places := by
    have before := accounted.places
    rw [List.perm_iff_count] at before ⊢
    intro number
    have own := before number
    simp only [Delivery.places, Delivery.refuse, held, List.length_append, List.length_singleton,
      List.range_succ, List.count_append] at own ⊢
    omega
  sent := accounted.sent
  failed := accounted.failed
  dropped := by
    rw [Delivery.refuse, accounted.dropped, fetchAdd_mod, List.length_append, List.length_singleton]
  abandoned := accounted.abandoned
  nonEmpty other member := by
    rcases List.mem_append.mp member with before | last
    · exact accounted.nonEmpty other before
    · rwa [List.mem_singleton.mp last]
  ordered := accounted.ordered.offer request
  closed := accounted.closed
  quiet := accounted.quiet

theorem accept (accounted : s.Accounted) {request : ExportRequest}
    (some : request.isEmpty = false) (opened : s.closed = false) : (s.accept request).Accounted where
  places := by
    have before := accounted.places
    rw [List.perm_iff_count] at before ⊢
    intro number
    have own := before number
    simp only [Delivery.places, Delivery.accept, held, List.length_append, List.length_singleton,
      List.range_succ, List.count_append, List.map_append, List.map_singleton] at own ⊢
    omega
  sent := accounted.sent
  failed := accounted.failed
  dropped := accounted.dropped
  abandoned := accounted.abandoned
  nonEmpty other member := by
    rcases List.mem_append.mp member with before | last
    · exact accounted.nonEmpty other before
    · rwa [List.mem_singleton.mp last]
  ordered := by
    have enqueued := accounted.ordered.enqueue request
    rwa [held, List.append_assoc] at enqueued
  closed := accounted.closed
  quiet stopped := by
    have done := accounted.closed (stopped ▸ trivial)
    rw [opened] at done
    cases done

theorem stay (accounted : s.Accounted) {next : Delivery} (log : next.log = s.log)
    (metrics : next.metrics = s.metrics) (held : next.held = s.held)
    (abandoned : next.worker.abandoned = s.worker.abandoned)
    (closed : next.worker.drains → next.closed = true)
    (quiet : next.worker = .stopped → next.channel = []) : next.Accounted where
  places := by
    rw [Delivery.places, log, held]
    exact accounted.places
  sent := by rw [metrics, log, accounted.sent]
  failed := by rw [metrics, log, accounted.failed]
  dropped := by rw [metrics, log, accounted.dropped]
  abandoned := by rw [abandoned, log, accounted.abandoned]
  nonEmpty := log ▸ accounted.nonEmpty
  ordered := by
    rw [log, held]
    exact accounted.ordered
  closed := closed
  quiet := quiet

theorem held_of_inHand (hand : s.worker.inHand = [batch]) : s.held = batch :: s.channel := by
  rw [held, hand, List.singleton_append]

theorem carryOn (accounted : s.Accounted) (hand : s.worker.inHand = [batch]) (state : Sending)
    {worker : WorkerPhase} (after : worker.inHand = [batch])
    (same : worker.abandoned = s.worker.abandoned) (drains : worker.drains → s.worker.drains) :
    (s.carryOn batch state worker).Accounted where
  places := by
    have before := accounted.places
    rw [Delivery.places, held_of_inHand hand] at before
    rwa [Delivery.places, held_of_inHand (s := s.carryOn batch state worker) after]
  sent := accounted.sent
  failed := accounted.failed
  dropped := accounted.dropped
  abandoned := same.trans accounted.abandoned
  nonEmpty := accounted.nonEmpty
  ordered := by
    have before := accounted.ordered
    rw [held_of_inHand hand] at before
    rw [held_of_inHand (s := s.carryOn batch state worker) after]
    cases stage : state.stage with
    | exporting =>
        simp only [Delivery.carryOn, stage]
        exact before.attempt
    | ready | pausing =>
        simp only [Delivery.carryOn, stage]
        exact before
  closed drains' := accounted.closed (drains drains')
  quiet stopped := by
    rw [show worker = .stopped from stopped] at after
    cases after

theorem leave (accounted : s.Accounted) (hand : s.worker.inHand = [batch]) {next : Delivery}
    (empty : next.worker.inHand = []) (channel : next.channel = s.channel)
    (offered : next.log.offered = s.log.offered) (tried : next.log.attempts = s.log.attempts)
    (moved : ∀ number, (next.log.sent ++ next.log.failed ++ next.log.dropped ++
        next.log.abandoned).count number =
      (s.log.sent ++ s.log.failed ++ s.log.dropped ++ s.log.abandoned).count number +
        [batch.number].count number)
    (sent : next.metrics.sentTotal = next.log.sent.length % 2 ^ 64)
    (failed : next.metrics.failedTotal = next.log.failed.length % 2 ^ 64)
    (dropped : next.metrics.droppedTotal = next.log.dropped.length % 2 ^ 64)
    (abandoned : next.worker.abandoned = next.log.abandoned.length)
    (closed : next.worker.drains → next.closed = true) (goesOn : next.worker ≠ .stopped) :
    next.Accounted where
  places := by
    have before := accounted.places
    rw [List.perm_iff_count] at before ⊢
    intro number
    have own := before number
    have left := moved number
    have split : s.held.map Batch.number = [batch.number] ++ s.channel.map Batch.number := by
      rw [held_of_inHand hand]
      rfl
    rw [Delivery.places, split] at own
    rw [Delivery.places, held, empty, channel, offered, List.nil_append]
    simp only [List.count_append] at own left ⊢
    omega
  sent := sent
  failed := failed
  dropped := dropped
  abandoned := abandoned
  nonEmpty := offered ▸ accounted.nonEmpty
  ordered := by
    have before := accounted.ordered
    rw [held_of_inHand hand] at before
    rw [offered, tried, held, empty, channel, List.nil_append]
    exact before.tail
  closed := closed
  quiet stopped := absurd stopped goesOn

theorem countSent (accounted : s.Accounted) (hand : s.worker.inHand = [batch])
    {worker : WorkerPhase} (empty : worker.inHand = [])
    (same : worker.abandoned = s.worker.abandoned) (drains : worker.drains → s.worker.drains)
    (goesOn : worker ≠ .stopped) : (s.countSent batch worker).Accounted := by
  refine accounted.leave hand empty rfl rfl rfl ?_ ?_ accounted.failed accounted.dropped
    (same.trans accounted.abandoned) (fun drains' => accounted.closed (drains drains')) goesOn
  · intro number
    simp only [Delivery.countSent, List.count_append]
    omega
  · rw [Delivery.countSent, accounted.sent, fetchAdd_mod, List.length_append, List.length_singleton]

theorem countFailed (accounted : s.Accounted) (hand : s.worker.inHand = [batch])
    {worker : WorkerPhase} (empty : worker.inHand = [])
    (same : worker.abandoned = s.worker.abandoned) (drains : worker.drains → s.worker.drains)
    (goesOn : worker ≠ .stopped) : (s.countFailed batch worker).Accounted := by
  refine accounted.leave hand empty rfl rfl rfl ?_ accounted.sent ?_ accounted.dropped
    (same.trans accounted.abandoned) (fun drains' => accounted.closed (drains drains')) goesOn
  · intro number
    simp only [Delivery.countFailed, List.count_append]
    omega
  · rw [Delivery.countFailed, accounted.failed, fetchAdd_mod, List.length_append,
      List.length_singleton]

theorem abandon (accounted : s.Accounted) (hand : s.worker.inHand = [batch])
    (drains : s.worker.drains) : (s.abandon batch s.worker.abandoned).Accounted := by
  refine accounted.leave hand rfl rfl rfl rfl ?_ accounted.sent accounted.failed accounted.dropped
    ?_ (fun _ => accounted.closed drains) (by simp [Delivery.abandon])
  · intro number
    simp only [Delivery.abandon, List.count_append]
    omega
  · rw [Delivery.abandon, List.length_append, ← accounted.abandoned]
    rfl

theorem settle (accounted : s.Accounted) (done : s.worker = .draining none abandoned)
    (empty : s.channel = []) : (s.settle abandoned).Accounted where
  places := by
    have before := accounted.places
    simp only [Delivery.places, held, done, empty, WorkerPhase.inHand, Option.toList_none,
      List.append_nil, List.map_nil] at before
    simpa only [Delivery.places, held, Delivery.settle, empty, WorkerPhase.inHand,
      List.append_nil, List.map_nil, ← List.append_assoc] using before
  sent := accounted.sent
  failed := accounted.failed
  dropped := by
    have counted := accounted.abandoned
    rw [done] at counted
    simp only [Delivery.settle, List.length_append, accounted.dropped, fetchAdd_mod, ← counted,
      WorkerPhase.abandoned]
  abandoned := rfl
  nonEmpty := accounted.nonEmpty
  ordered := by
    have before := accounted.ordered
    simpa only [held, Delivery.settle, done, empty, WorkerPhase.inHand, Option.toList_none,
      List.append_nil] using before
  closed _ := accounted.closed (done ▸ trivial)
  quiet _ := empty

theorem drain (accounted : s.Accounted) (holds : s.worker = .draining (some batch) abandoned) :
    (s.drain batch abandoned).Accounted := by
  have hand : s.worker.inHand = [batch] := by rw [holds]; rfl
  have drains : s.worker.drains := by rw [holds]; trivial
  have some := accounted.batch_nonEmpty
    (by rw [held_of_inHand hand]; exact List.mem_cons_self)
  rw [Delivery.drain, if_neg (by simp [some])]
  split
  · have given := accounted.abandon hand drains
    rwa [holds] at given
  · refine accounted.stay rfl rfl ?_ ?_ (fun _ => accounted.closed drains) nofun
    · rw [held, held, hand]
      rfl
    · rw [holds]
      rfl

end Accounted

/-! ### Runs -/

/-- The steps of a route, one constructor for each branch. -/
inductive Moves (config : DeliveryConfig) (s : Delivery) : DeliveryAction → Delivery → Prop where
  | unmatched (record : TelemetryRecord)
      (none : config.router.laneRequest record config.lane = none) :
      Moves config s (.notify record) s
  | refused (record : TelemetryRecord) (request : ExportRequest) (reason : DropReason)
      (matched : config.router.laneRequest record config.lane = some request)
      (why : reason = .closed ∧ s.closed = true ∨
        reason = .full ∧ config.capacity ≤ s.channel.length) :
      Moves config s (.notify record) (s.refuse request reason)
  | accepted (record : TelemetryRecord) (request : ExportRequest)
      (matched : config.router.laneRequest record config.lane = some request)
      (opened : s.closed = false) : Moves config s (.notify record) (s.accept request)
  | dropSenders : Moves config s .dropSenders { s with sendersGone := true }
  | shutdown : Moves config s .shutdown { s with shutdown := true }
  | expire : Moves config s .expire { s with deadline := true }
  | skip (batch : Batch) (rest : List Batch) (here : s.worker = .receiving)
      (found : s.channel = batch :: rest) (empty : batch.request.isEmpty = true) :
      Moves config s .recv { s with channel := rest }
  | recv (batch : Batch) (rest : List Batch) (here : s.worker = .receiving)
      (found : s.channel = batch :: rest) :
      Moves config s .recv { s with channel := rest, worker := .sending batch {} }
  | leave (action : DeliveryAction) (here : s.worker = .receiving)
      (stops : action = .recv ∨ action = .stop) :
      Moves config s action { s with worker := .stopping none }
  | close (interrupted : Option Batch) (here : s.worker = .stopping interrupted) :
      Moves config s .close { s with closed := true, worker := .draining interrupted 0 }
  | drainHeld (batch : Batch) (abandoned : ℕ)
      (here : s.worker = .draining (some batch) abandoned) :
      Moves config s .next (s.drain batch abandoned)
  | drainNext (batch : Batch) (rest : List Batch) (abandoned : ℕ)
      (here : s.worker = .draining none abandoned) (found : s.channel = batch :: rest) :
      Moves config s .next ({ s with channel := rest }.drain batch abandoned)
  | settle (abandoned : ℕ) (here : s.worker = .draining none abandoned) (empty : s.channel = []) :
      Moves config s .settle (s.settle abandoned)
  | send (action : SendAction) (batch : Batch) (state : Sending) (result : Sending ⊕ SendResult)
      (here : s.worker = .sending batch state)
      (stepped : state.step config.retryMax s.shutdown action = some result) :
      Moves config s (.send action) (s.finishSend batch result)
  | resend (action : SendAction) (batch : Batch) (state : Sending) (abandoned : ℕ)
      (result : Sending ⊕ SendResult) (here : s.worker = .resending batch state abandoned)
      (stepped : state.step 0 s.deadline action = some result) :
      Moves config s (.send action) (s.finishResend batch abandoned result)

theorem moves_of_step {config : DeliveryConfig} {s next : Delivery} {action : DeliveryAction}
    (taken : s.step config action = some next) : Moves config s action next := by
  cases action with
  | notify record =>
      obtain ⟨_, taken⟩ := Option.ite_none_left_eq_some.mp taken
      split at taken
      · rename_i none
        cases taken
        exact .unmatched record none
      · rename_i request matched
        cases taken
        rw [trySend]
        split
        · rename_i closed
          exact .refused record request .closed matched (Or.inl ⟨rfl, closed⟩)
        · rename_i opened
          split
          · rename_i full
            exact .refused record request .full matched (Or.inr ⟨rfl, full⟩)
          · exact .accepted record request matched (Bool.eq_false_iff.mpr opened)
  | dropSenders =>
      cases taken
      exact .dropSenders
  | shutdown =>
      cases taken
      exact .shutdown
  | expire =>
      simp only [step] at taken
      split at taken
      · cases taken
        exact .expire
      · cases taken
        exact .expire
      · cases taken
  | recv =>
      simp only [step] at taken
      split at taken
      · rename_i batch rest here found
        cases taken
        split
        · rename_i empty
          exact .skip batch rest here found empty
        · exact .recv batch rest here found
      · rename_i here _
        obtain ⟨_, taken⟩ := Option.ite_none_right_eq_some.mp taken
        cases taken
        exact .leave _ here (Or.inl rfl)
      · cases taken
  | stop =>
      simp only [step] at taken
      split at taken
      · rename_i here
        obtain ⟨_, taken⟩ := Option.ite_none_right_eq_some.mp taken
        cases taken
        exact .leave _ here (Or.inr rfl)
      · cases taken
  | close =>
      simp only [step] at taken
      split at taken
      · rename_i interrupted here
        cases taken
        exact .close interrupted here
      · cases taken
  | next =>
      simp only [step] at taken
      split at taken
      · rename_i batch abandoned here
        cases taken
        exact .drainHeld batch abandoned here
      · rename_i abandoned batch rest here found
        cases taken
        exact .drainNext batch rest abandoned here found
      · cases taken
  | settle =>
      simp only [step] at taken
      split at taken
      · rename_i abandoned here empty
        cases taken
        exact .settle abandoned here empty
      · cases taken
  | send action =>
      simp only [step] at taken
      split at taken
      · rename_i batch state here
        obtain ⟨result, stepped, rfl⟩ := Option.map_eq_some_iff.mp taken
        exact .send action batch state result here stepped
      · rename_i batch state abandoned here
        obtain ⟨result, stepped, rfl⟩ := Option.map_eq_some_iff.mp taken
        exact .resend action batch state abandoned result here stepped
      · cases taken

variable {config : DeliveryConfig} {s next : Delivery} {action : DeliveryAction}

theorem Accounted.moves (accounted : s.Accounted) (moves : Moves config s action next) :
    next.Accounted := by
  cases moves with
  | unmatched => exact accounted
  | refused record request reason matched =>
      exact accounted.refuse (ProxyRouter.laneRequest_nonEmpty matched) reason
  | accepted record request matched opened =>
      exact accounted.accept (ProxyRouter.laneRequest_nonEmpty matched) opened
  | dropSenders | shutdown | expire =>
      exact accounted.stay rfl rfl rfl rfl accounted.closed accounted.quiet
  | skip batch rest here found empty =>
      have some : batch.request.isEmpty = false :=
        accounted.batch_nonEmpty (by simp [held, found])
      rw [empty] at some
      cases some
  | recv batch rest here found =>
      exact accounted.stay rfl rfl (by simp [held, here, found, WorkerPhase.inHand])
        (by simp [here, WorkerPhase.abandoned]) nofun nofun
  | leave action here =>
      exact accounted.stay rfl rfl (by simp [held, here, WorkerPhase.inHand])
        (by simp [here, WorkerPhase.abandoned]) nofun nofun
  | close interrupted here =>
      exact accounted.stay rfl rfl (by simp [held, here, WorkerPhase.inHand])
        (by simp [here, WorkerPhase.abandoned]) (fun _ => rfl) nofun
  | drainHeld batch abandoned here => exact accounted.drain here
  | drainNext batch rest abandoned here found =>
      have popped : Accounted
          { s with channel := rest, worker := .draining (some batch) abandoned } :=
        accounted.stay rfl rfl (by simp [held, here, found, WorkerPhase.inHand])
          (by simp [here, WorkerPhase.abandoned])
          (fun _ => accounted.closed (by rw [here]; trivial)) nofun
      exact popped.drain rfl
  | settle abandoned here empty => exact accounted.settle here empty
  | send action batch state result here =>
      have hand : s.worker.inHand = [batch] := by rw [here]; rfl
      have none : s.worker.abandoned = 0 := by rw [here]; rfl
      rcases result with state | result
      · exact accounted.carryOn hand state rfl none.symm nofun
      · cases result with
        | sent => exact accounted.countSent hand rfl none.symm nofun nofun
        | failed => exact accounted.countFailed hand rfl none.symm nofun nofun
        | cancelled =>
            exact accounted.stay rfl rfl (by rw [held, held, hand]; rfl) none.symm nofun nofun
  | resend action batch state abandoned result here =>
      have hand : s.worker.inHand = [batch] := by rw [here]; rfl
      have count : s.worker.abandoned = abandoned := by rw [here]; rfl
      have drains : s.worker.drains := by rw [here]; trivial
      rcases result with state | result
      · exact accounted.carryOn hand state rfl count.symm fun _ => drains
      · cases result with
        | sent => exact accounted.countSent hand rfl count.symm (fun _ => drains) nofun
        | failed => exact accounted.countFailed hand rfl count.symm (fun _ => drains) nofun
        | cancelled =>
            have given := accounted.abandon hand drains
            rwa [count] at given

theorem accounted_new : Accounted {} where
  places := List.Perm.refl _
  sent := rfl
  failed := rfl
  dropped := rfl
  abandoned := rfl
  nonEmpty := by simp
  ordered := ⟨by simp [held, WorkerPhase.inHand], List.Pairwise.nil, List.Pairwise.nil, by simp,
    by simp⟩
  closed := nofun
  quiet := nofun

theorem accounted_run {actions : List DeliveryAction} (ran : run config actions = some s) :
    s.Accounted :=
  have reached : runFrom (step config) {} actions = some s := ran
  invariant_run (fun _ _ _ taken accounted => accounted.moves (moves_of_step taken)) actions {} s
    reached accounted_new

theorem Accounted.balance (accounted : s.Accounted) :
    s.log.sent.length + s.log.failed.length + s.log.dropped.length + s.worker.abandoned +
      s.worker.inHand.length + s.channel.length = s.log.offered.length := by
  have counted := accounted.places.length_eq
  simp only [Delivery.places, held, List.length_append, List.length_map, List.length_range]
    at counted
  rw [accounted.abandoned]
  omega

theorem Accounted.places_of_stopped (accounted : s.Accounted) (stopped : s.worker = .stopped) :
    (s.log.sent ++ s.log.failed ++ s.log.dropped).Perm (List.range s.log.offered.length) := by
  have places := accounted.places
  have none := accounted.abandoned
  rw [stopped] at none
  rw [Delivery.places, held, List.eq_nil_of_length_eq_zero none.symm, stopped,
    accounted.quiet stopped] at places
  simpa only [WorkerPhase.inHand, List.append_nil, List.map_nil] using places

/-- While fewer batches are offered than a total can hold, the totals count exactly. -/
theorem Accounted.totals_of_few (accounted : s.Accounted) (few : s.log.offered.length < 2 ^ 64) :
    s.metrics.sentTotal = s.log.sent.length ∧ s.metrics.failedTotal = s.log.failed.length ∧
      s.metrics.droppedTotal = s.log.dropped.length := by
  have balance := accounted.balance
  rw [accounted.sent, accounted.failed, accounted.dropped]
  exact ⟨Nat.mod_eq_of_lt (by omega), Nat.mod_eq_of_lt (by omega), Nat.mod_eq_of_lt (by omega)⟩

/-! ### Why a batch is dropped -/

/-- A batch is dropped for one reason: its channel was full or closed when it was offered, or the
deadline of the drain passed before it was sent. -/
structure Reasoned (s : Delivery) : Prop where
  each : s.log.reasons.map Prod.fst = s.log.dropped
  abandoned : s.log.abandoned ≠ [] → s.deadline = true
  deadline : ∀ number, (number, DropReason.deadline) ∈ s.log.reasons → s.deadline = true

theorem reasoned_new : Reasoned {} :=
  ⟨rfl, fun some => absurd rfl some, fun _ member => absurd member List.not_mem_nil⟩

namespace Reasoned

theorem congr (reasoned : s.Reasoned) (reasons : next.log.reasons = s.log.reasons)
    (dropped : next.log.dropped = s.log.dropped) (abandoned : next.log.abandoned = s.log.abandoned)
    (later : s.deadline = true → next.deadline = true) : next.Reasoned where
  each := by rw [reasons, dropped, reasoned.each]
  abandoned some := later (reasoned.abandoned (abandoned ▸ some))
  deadline number member := later (reasoned.deadline number (reasons ▸ member))

theorem refuse (reasoned : s.Reasoned) (request : ExportRequest) {reason : DropReason}
    (live : reason ≠ .deadline) : (s.refuse request reason).Reasoned where
  each := by simp [Delivery.refuse, reasoned.each]
  abandoned := reasoned.abandoned
  deadline number member := by
    rcases List.mem_append.mp member with before | own
    · exact reasoned.deadline number before
    · exact absurd (Prod.mk.inj (List.mem_singleton.mp own)).2.symm live

theorem abandon (reasoned : s.Reasoned) (batch : Batch) (count : ℕ) (late : s.deadline = true) :
    (s.abandon batch count).Reasoned :=
  ⟨reasoned.each, fun _ => late, reasoned.deadline⟩

theorem drain (reasoned : s.Reasoned) (batch : Batch) (count : ℕ) :
    (s.drain batch count).Reasoned := by
  rw [Delivery.drain]
  split
  · exact reasoned.congr rfl rfl rfl id
  · split
    · rename_i late
      exact reasoned.abandon batch count late
    · exact reasoned.congr rfl rfl rfl id

theorem settle (reasoned : s.Reasoned) (count : ℕ) : (s.settle count).Reasoned where
  each := by simp [Delivery.settle, reasoned.each, Function.comp_def]
  abandoned some := absurd rfl some
  deadline number member := by
    rcases List.mem_append.mp member with before | own
    · exact reasoned.deadline number before
    · obtain ⟨_, late, _⟩ := List.mem_map.mp own
      exact reasoned.abandoned (List.ne_nil_of_mem late)

end Reasoned

theorem late_of_cancelled {retryMax : ℕ} {cancelled : Bool} {state : Sending} {action : SendAction}
    (stepped : state.step retryMax cancelled action = some (.inr .cancelled)) :
    cancelled = true := by
  cases cancelled with
  | true => rfl
  | false =>
      cases action with
      | start | interrupt | wake =>
          simp only [Sending.step] at stepped
          split at stepped <;> simp at stepped
      | complete outcome =>
          simp only [Sending.step] at stepped
          split at stepped
          · simp at stepped
          · simp at stepped
          · split at stepped <;> simp at stepped
          · simp at stepped

theorem Reasoned.moves (reasoned : s.Reasoned) (moves : Moves config s action next) :
    next.Reasoned := by
  cases moves with
  | unmatched => exact reasoned
  | refused record request reason matched why =>
      refine reasoned.refuse request ?_
      rcases why with ⟨rfl, _⟩ | ⟨rfl, _⟩ <;> decide
  | expire => exact reasoned.congr rfl rfl rfl fun _ => rfl
  | accepted | dropSenders | shutdown | skip | recv | leave | close =>
      exact reasoned.congr rfl rfl rfl id
  | drainHeld batch count => exact reasoned.drain batch count
  | drainNext batch rest count =>
      have popped : Reasoned { s with channel := rest } := reasoned.congr rfl rfl rfl id
      exact popped.drain batch count
  | settle count => exact reasoned.settle count
  | send _ batch state result =>
      rcases result with state | result
      · exact reasoned.congr rfl rfl rfl id
      · cases result <;> exact reasoned.congr rfl rfl rfl id
  | resend _ batch state count result here stepped =>
      rcases result with state | result
      · exact reasoned.congr rfl rfl rfl id
      · cases result with
        | cancelled => exact reasoned.abandon batch count (late_of_cancelled stepped)
        | sent | failed => exact reasoned.congr rfl rfl rfl id

/-- A batch is dropped as closed only when it is offered to a closed channel. -/
theorem Moves.closed_reason (moves : Moves config s action next) {number : ℕ}
    (member : (number, DropReason.closed) ∈ next.log.reasons) :
    (number, DropReason.closed) ∈ s.log.reasons ∨
      s.closed = true ∧ ∃ record, action = .notify record := by
  cases moves with
  | refused record request reason matched why =>
      rcases List.mem_append.mp member with before | own
      · exact Or.inl before
      · obtain rfl := (Prod.mk.inj (List.mem_singleton.mp own)).2
        rcases why with ⟨_, closed⟩ | ⟨full, _⟩
        · exact Or.inr ⟨closed, record, rfl⟩
        · cases full
  | drainHeld | drainNext =>
      simp only [drain] at member
      split at member
      · exact Or.inl member
      · split at member <;> exact Or.inl member
  | settle count =>
      rcases List.mem_append.mp member with before | own
      · exact Or.inl before
      · obtain ⟨_, _, late⟩ := List.mem_map.mp own
        cases late
  | send _ batch state result | resend _ batch state count result =>
      rcases result with state | result
      · exact Or.inl member
      · cases result <;> exact Or.inl member
  | _ => exact Or.inl member

/-- What was sent, failed or dropped stays so. -/
structure Extends (s next : Delivery) : Prop where
  sent : s.log.sent <+: next.log.sent
  failed : s.log.failed <+: next.log.failed
  dropped : s.log.dropped <+: next.log.dropped
  attempts : s.log.attempts <+: next.log.attempts

namespace Extends

theorem refl (s : Delivery) : s.Extends s :=
  ⟨List.prefix_rfl, List.prefix_rfl, List.prefix_rfl, List.prefix_rfl⟩

theorem trans {middle : Delivery} (first : s.Extends middle) (second : middle.Extends next) :
    s.Extends next :=
  ⟨first.sent.trans second.sent, first.failed.trans second.failed,
    first.dropped.trans second.dropped, first.attempts.trans second.attempts⟩

theorem of_log (log : next.log = s.log) : s.Extends next := by
  refine ⟨?_, ?_, ?_, ?_⟩ <;> rw [log]

theorem countSent (s : Delivery) (batch : Batch) (worker : WorkerPhase) :
    s.Extends (s.countSent batch worker) :=
  ⟨List.prefix_append _ _, List.prefix_rfl, List.prefix_rfl, List.prefix_rfl⟩

theorem countFailed (s : Delivery) (batch : Batch) (worker : WorkerPhase) :
    s.Extends (s.countFailed batch worker) :=
  ⟨List.prefix_rfl, List.prefix_append _ _, List.prefix_rfl, List.prefix_rfl⟩

theorem carryOn (s : Delivery) (batch : Batch) (state : Sending) (worker : WorkerPhase) :
    s.Extends (s.carryOn batch state worker) := by
  refine ⟨List.prefix_rfl, List.prefix_rfl, List.prefix_rfl, ?_⟩
  simp only [Delivery.carryOn]
  split
  · exact List.prefix_append _ _
  · exact List.prefix_rfl

theorem drain (s : Delivery) (batch : Batch) (abandoned : ℕ) :
    s.Extends (s.drain batch abandoned) := by
  rw [Delivery.drain]
  split
  · exact of_log rfl
  · split
    · exact ⟨List.prefix_rfl, List.prefix_rfl, List.prefix_rfl, List.prefix_rfl⟩
    · exact of_log rfl

theorem of_moves (moves : Moves config s action next) : s.Extends next := by
  cases moves with
  | unmatched => exact refl s
  | refused =>
      exact ⟨List.prefix_rfl, List.prefix_rfl, List.prefix_append _ _, List.prefix_rfl⟩
  | accepted => exact ⟨List.prefix_rfl, List.prefix_rfl, List.prefix_rfl, List.prefix_rfl⟩
  | dropSenders | shutdown | expire | skip | recv | leave | close => exact of_log rfl
  | drainHeld batch abandoned => exact drain s batch abandoned
  | drainNext batch rest abandoned =>
      have taken := drain { s with channel := rest } batch abandoned
      exact ⟨taken.sent, taken.failed, taken.dropped, taken.attempts⟩
  | settle => exact ⟨List.prefix_rfl, List.prefix_rfl, List.prefix_append _ _, List.prefix_rfl⟩
  | send _ batch state result =>
      rcases result with state | result
      · exact carryOn s batch state _
      · cases result with
        | sent => exact countSent s batch _
        | failed => exact countFailed s batch _
        | cancelled => exact of_log rfl
  | resend _ batch state abandoned result =>
      rcases result with state | result
      · exact carryOn s batch state _
      · cases result with
        | sent => exact countSent s batch _
        | failed => exact countFailed s batch _
        | cancelled => exact ⟨List.prefix_rfl, List.prefix_rfl, List.prefix_rfl, List.prefix_rfl⟩

theorem of_run {actions : List DeliveryAction} (ran : runFrom (step config) s actions = some next) :
    s.Extends next :=
  invariant_run (fun _ _ _ taken extends' => extends'.trans (of_moves (moves_of_step taken)))
    actions s next ran (refl s)

end Extends

/-! ### After an interruption -/

/-- An interrupted batch waits to be tried again; past the deadline nothing is tried. -/
def Waits (batch : Batch) (s : Delivery) : Prop :=
  s.worker = .stopping (some batch) ∨ (∃ abandoned, s.worker = .draining (some batch) abandoned) ∨
    (∃ abandoned, s.worker = .resending batch {} abandoned) ∨
    (s.deadline = true ∧ ((∃ abandoned, s.worker = .draining none abandoned) ∨ s.worker = .stopped))

/-- The first attempt after an interruption, if there is any, is at the interrupted batch. -/
def Retries (batch : Batch) (before : List ℕ) (s : Delivery) : Prop :=
  (s.log.attempts = before ∧ Waits batch s) ∨ before ++ [batch.number] <+: s.log.attempts

theorem Waits.phase {batch : Batch} (waits : Waits batch s) :
    s.worker ≠ .receiving ∧ ∀ other state, s.worker ≠ .sending other state := by
  rcases waits with own | ⟨abandoned, own⟩ | ⟨abandoned, own⟩ | ⟨_, ⟨abandoned, own⟩ | own⟩ <;>
    simp [own]

theorem Waits.drain (s : Delivery) {batch : Batch} (abandoned : ℕ)
    (some : batch.request.isEmpty = false) : Waits batch (s.drain batch abandoned) ∧
      (s.drain batch abandoned).log.attempts = s.log.attempts := by
  rw [Delivery.drain, if_neg (by simp [some])]
  split
  · rename_i late
    exact ⟨Or.inr (Or.inr (Or.inr ⟨late, Or.inl ⟨_, rfl⟩⟩)), rfl⟩
  · exact ⟨Or.inr (Or.inr (Or.inl ⟨_, rfl⟩)), rfl⟩

theorem Retries.moves {batch : Batch} {before : List ℕ} (accounted : s.Accounted)
    (moves : Moves config s action next) (retries : Retries batch before s) :
    Retries batch before next := by
  rcases retries with ⟨same, waits⟩ | tried
  · cases moves with
    | unmatched | refused | accepted | dropSenders | shutdown => exact Or.inl ⟨same, waits⟩
    | expire =>
        refine Or.inl ⟨same, ?_⟩
        rcases waits with own | own | own | ⟨_, own⟩
        · exact Or.inl own
        · exact Or.inr (Or.inl own)
        · exact Or.inr (Or.inr (Or.inl own))
        · exact Or.inr (Or.inr (Or.inr ⟨rfl, own⟩))
    | skip _ _ here | recv _ _ here | leave _ here => exact absurd here waits.phase.1
    | send _ _ _ _ here => exact absurd here (waits.phase.2 _ _)
    | close interrupted here =>
        rcases waits with own | ⟨_, own⟩ | ⟨_, own⟩ | ⟨_, ⟨_, own⟩ | own⟩ <;>
          rw [own] at here <;> cases here
        exact Or.inl ⟨same, Or.inr (Or.inl ⟨0, rfl⟩)⟩
    | drainHeld other abandoned here =>
        rcases waits with own | ⟨_, own⟩ | ⟨_, own⟩ | ⟨_, ⟨_, own⟩ | own⟩ <;>
          rw [own] at here <;> cases here
        have some : batch.request.isEmpty = false :=
          accounted.batch_nonEmpty (by simp [held, own, WorkerPhase.inHand])
        obtain ⟨later, log⟩ := Waits.drain s abandoned some
        exact Or.inl ⟨log.trans same, later⟩
    | drainNext other rest abandoned here found =>
        rcases waits with own | ⟨_, own⟩ | ⟨_, own⟩ | ⟨late, ⟨_, own⟩ | own⟩ <;>
          rw [own] at here <;> cases here
        have some : other.request.isEmpty = false :=
          accounted.batch_nonEmpty (by simp [held, found])
        refine Or.inl ⟨?_, Or.inr (Or.inr (Or.inr ⟨?_, Or.inl ⟨abandoned + 1, ?_⟩⟩))⟩ <;>
          simp [Delivery.drain, some, late, abandon, same]
    | settle abandoned here =>
        rcases waits with own | ⟨_, own⟩ | ⟨_, own⟩ | ⟨late, ⟨_, own⟩ | own⟩ <;>
          rw [own] at here <;> cases here
        exact Or.inl ⟨same, Or.inr (Or.inr (Or.inr ⟨late, Or.inr rfl⟩))⟩
    | resend action other state abandoned result here stepped =>
        rcases waits with own | ⟨_, own⟩ | ⟨_, own⟩ | ⟨_, ⟨_, own⟩ | own⟩ <;>
          rw [own] at here <;> cases here
        -- A batch that was just taken can only start, or find the deadline passed.
        cases action with
        | start =>
            obtain rfl := Option.some.inj stepped
            split
            · rename_i late
              exact Or.inl ⟨same, Or.inr (Or.inr (Or.inr ⟨late, Or.inl ⟨_, rfl⟩⟩))⟩
            · refine Or.inr ?_
              rw [← same]
              exact List.prefix_rfl
        | complete | wake | interrupt => cases stepped
  · exact Or.inr (tried.trans (Extends.of_moves moves).attempts)

theorem retries_run {batch : Batch} {actions more : List DeliveryAction} {interrupted : Delivery}
    (ran : run config actions = some interrupted)
    (here : interrupted.worker = .stopping (some batch))
    (later : runFrom (step config) interrupted more = some s) :
    Retries batch interrupted.log.attempts s :=
  (invariant_run
    (fun _ _ _ taken (both : Accounted _ ∧ Retries batch interrupted.log.attempts _) =>
      ⟨both.1.moves (moves_of_step taken), both.2.moves both.1 (moves_of_step taken)⟩)
    more interrupted s later ⟨accounted_run ran, Or.inl ⟨rfl, Or.inl here⟩⟩).2

def request (config : DeliveryConfig) : DeliveryAction → Option ExportRequest
  | .notify record => config.router.laneRequest record config.lane
  | _ => none

theorem Moves.offered (moves : Moves config s action next) :
    next.log.offered = s.log.offered ++ (request config action).toList := by
  cases moves with
  | unmatched record none => simp [request, none]
  | refused record own reason matched | accepted record own matched =>
      simp [request, matched, refuse, accept]
  | dropSenders | shutdown | expire | skip | recv | close | settle => exact (List.append_nil _).symm
  | leave action here stops =>
      rcases stops with rfl | rfl <;> exact (List.append_nil _).symm
  | drainHeld | drainNext =>
      simp only [drain]
      split
      · exact (List.append_nil _).symm
      · split <;> exact (List.append_nil _).symm
  | send _ batch state result | resend _ batch state abandoned result =>
      rcases result with state | result
      · exact (List.append_nil _).symm
      · cases result <;> exact (List.append_nil _).symm

theorem offered_run {actions : List DeliveryAction} (ran : run config actions = some s) :
    s.log.offered = actions.filterMap (request config) := by
  have reached : runFrom (step config) {} actions = some s := ran
  have grows (state : Delivery) (action : DeliveryAction) (next : Delivery)
      (taken : step config state action = some next) :
      next.log.offered = state.log.offered ++ (request config action).toList :=
    (moves_of_step taken).offered
  exact history_run grows actions {} s reached

/-- In every state of every interleaving the requests offered to a route are the ones sent, failed,
dropped, queued, held, or abandoned in the drain and not yet counted, each once; the totals count
them up to their width, and exactly while fewer are offered than a total can hold. No batch leaves
a final list, and with the worker stopped every batch is in one. Attempts start in the order of the
batches, and after an interruption first at the interrupted one. -/
theorem delivery_accounted {actions : List DeliveryAction} (ran : run config actions = some s) :
    s.log.offered = actions.filterMap (request config) ∧
    (∀ request ∈ s.log.offered, request.isEmpty = false) ∧
    s.log.offered.length = s.log.sent.length + s.log.failed.length + s.log.dropped.length +
      s.channel.length + s.worker.inHand.length + s.worker.abandoned ∧
    (s.metrics.sentTotal = s.log.sent.length % 2 ^ 64 ∧
      s.metrics.failedTotal = s.log.failed.length % 2 ^ 64 ∧
      s.metrics.droppedTotal = s.log.dropped.length % 2 ^ 64 ∧
      s.worker.abandoned = s.log.abandoned.length) ∧
    s.log.offered.length ≡ s.metrics.sentTotal + s.metrics.failedTotal + s.metrics.droppedTotal +
      s.channel.length + s.worker.inHand.length + s.worker.abandoned [MOD 2 ^ 64] ∧
    (s.log.offered.length < 2 ^ 64 →
      s.log.offered.length = s.metrics.sentTotal + s.metrics.failedTotal +
        s.metrics.droppedTotal + s.channel.length + s.worker.inHand.length + s.worker.abandoned) ∧
    (s.log.sent ++ s.log.failed ++ s.log.dropped ++ s.log.abandoned ++
      (s.worker.inHand ++ s.channel).map Batch.number).Perm (List.range s.log.offered.length) ∧
    (∀ more next, runFrom (step config) s more = some next →
      s.log.sent <+: next.log.sent ∧ s.log.failed <+: next.log.failed ∧
        s.log.dropped <+: next.log.dropped) ∧
    (s.worker = .stopped →
      (s.log.sent ++ s.log.failed ++ s.log.dropped).Perm (List.range s.log.offered.length)) ∧
    s.log.attempts.Pairwise (· ≤ ·) ∧
    (∀ batch more next, s.worker = .stopping (some batch) →
      runFrom (step config) s more = some next → next.log.attempts = s.log.attempts ∨
        s.log.attempts ++ [batch.number] <+: next.log.attempts) := by
  have accounted := accounted_run ran
  have places : (s.log.sent ++ s.log.failed ++ s.log.dropped ++ s.log.abandoned ++
      (s.worker.inHand ++ s.channel).map Batch.number).Perm (List.range s.log.offered.length) :=
    accounted.places
  have balance := accounted.balance
  refine ⟨offered_run ran, accounted.nonEmpty, by omega,
    ⟨accounted.sent, accounted.failed, accounted.dropped, accounted.abandoned⟩, ?_, ?_, places, ?_,
    ?_, accounted.ordered.attempts, ?_⟩
  · rw [Nat.ModEq, accounted.sent, accounted.failed, accounted.dropped]
    omega
  · intro few
    obtain ⟨sent, failed, dropped⟩ := accounted.totals_of_few few
    omega
  · intro more next later
    have extended := Extends.of_run later
    exact ⟨extended.sent, extended.failed, extended.dropped⟩
  · exact accounted.places_of_stopped
  · intro batch more next here later
    rcases retries_run ran here later with ⟨same, _⟩ | tried
    · exact Or.inl same
    · exact Or.inr tried

def claudeRoute : DeliveryConfig where
  router := .new [{ name := "anthropic", route := {
    name := "anthropic", serviceNames := ["claude-code"], signals := ProxySignal.all,
    transport := .grpc, endpoint := "http://127.0.0.1:4317", headers := [] } }]
  lane := { name := "anthropic", route := {
    name := "anthropic", serviceNames := ["claude-code"], signals := ProxySignal.all,
    transport := .grpc, endpoint := "http://127.0.0.1:4317", headers := [] } }
  capacity := 1
  retryMax := 8

/-- One batch is interrupted and sent in the drain, one is abandoned at the deadline, one finds the
channel full and one finds it closed. -/
def interruptedDelivery : List DeliveryAction :=
  let notify := DeliveryAction.notify
    (.logs { resourceLogs := [ProxyRouter.serviceLogs "claude-code"] })
  [notify, .recv, .send .start, notify, notify, .shutdown, .send .interrupt, .close, notify, .next,
    .send .start, .send (.complete .ok), .expire, .next, .settle]

theorem delivery_accounted_interrupted :
    ∃ s, run claudeRoute interruptedDelivery = some s ∧ s.log.sent = [0] ∧
      s.log.dropped = [2, 3, 1] ∧ s.log.attempts = [0, 0] ∧
      s.log.offered.length = s.metrics.sentTotal + s.metrics.failedTotal +
        s.metrics.droppedTotal := by
  have facts : (run claudeRoute interruptedDelivery).any (fun s =>
      s.log.sent = [0] ∧ s.log.dropped = [2, 3, 1] ∧ s.log.attempts = [0, 0] ∧
        s.log.offered.length = 4 ∧
        s.channel.length + s.worker.inHand.length + s.worker.abandoned = 0) = true := by
    decide +kernel
  obtain ⟨s, ran, facts⟩ := (Option.any_eq_true _ _).mp facts
  obtain ⟨sent, dropped, attempts, few, empty⟩ := of_decide_eq_true facts
  obtain ⟨_, _, _, _, _, exact', _⟩ := delivery_accounted ran
  have total := exact' (by omega)
  exact ⟨s, ran, sent, dropped, attempts, by omega⟩

end Delivery

end OtelLogger
