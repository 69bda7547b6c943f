import OtelLogger.Delivery
import OtelLogger.SinkSteps

/-!
The sink together with the routes of its proxy. The loop of `notify` offers a record to one route
after the other, with the steps of other calls and of the workers in between; the workers are told
to stop when `shutdown` of the sink has returned.
-/

namespace OtelLogger

open Interleaving

/-! ### Workers that were not told to stop -/

namespace Delivery

variable {config : DeliveryConfig} {s next : Delivery} {action : DeliveryAction}

/-- The route takes batches: nobody has told its worker to stop. -/
structure Serves (s : Delivery) : Prop where
  senders : s.sendersGone = false
  unasked : s.shutdown = false
  opened : s.closed = false
  works : s.worker = .receiving ∨ ∃ batch state, s.worker = .sending batch state

theorem serves_new : Serves {} :=
  ⟨rfl, rfl, rfl, Or.inl rfl⟩

theorem not_leaves (serves : s.Serves) (taken : s.step config action = some next)
    (stops : action = .recv ∨ action = .stop) : next.worker ≠ .stopping none := by
  obtain ⟨senders, unasked, _, works⟩ := serves
  rcases stops with rfl | rfl
  · simp only [step, senders, Bool.false_eq_true, if_false] at taken
    split at taken
    · rename_i batch rest here found
      obtain rfl := Option.some.inj taken
      split
      · simp [here]
      · simp
    · simp at taken
    · simp at taken
  · simp only [step, unasked, Bool.false_eq_true, if_false] at taken
    split at taken <;> simp at taken

theorem Serves.step (serves : s.Serves) (taken : s.step config action = some next)
    (unasked : action ≠ .shutdown) (held : action ≠ .dropSenders) : next.Serves := by
  obtain ⟨senders, quiet, opened, works⟩ := serves
  have moves := moves_of_step taken
  cases moves with
  | unmatched | expire => exact ⟨senders, quiet, opened, works⟩
  | refused | accepted => exact ⟨senders, quiet, opened, works⟩
  | dropSenders => exact absurd rfl held
  | shutdown => exact absurd rfl unasked
  | skip batch rest here => exact ⟨senders, quiet, opened, Or.inl here⟩
  | recv batch rest => exact ⟨senders, quiet, opened, Or.inr ⟨batch, {}, rfl⟩⟩
  | leave action here stops =>
      exact absurd rfl (not_leaves ⟨senders, quiet, opened, works⟩ taken stops)
  | close interrupted here => rcases works with own | ⟨_, _, own⟩ <;> simp [own] at here
  | drainHeld batch abandoned here => rcases works with own | ⟨_, _, own⟩ <;> simp [own] at here
  | drainNext batch rest abandoned here =>
      rcases works with own | ⟨_, _, own⟩ <;> simp [own] at here
  | settle abandoned here => rcases works with own | ⟨_, _, own⟩ <;> simp [own] at here
  | resend action batch state abandoned result here =>
      rcases works with own | ⟨_, _, own⟩ <;> simp [own] at here
  | send action batch state result here stepped =>
      rw [quiet] at stepped
      rcases result with state | result
      · exact ⟨senders, quiet, opened, Or.inr ⟨batch, state, rfl⟩⟩
      · cases result with
        | sent | failed => exact ⟨senders, quiet, opened, Or.inl rfl⟩
        | cancelled => exact absurd (late_of_cancelled stepped) Bool.false_ne_true

end Delivery

/-! ### Steps of the sink -/

def SaveTask.notified : SaveTask → Bool
  | notifying | finished true => true
  | _ => false

theorem SaveTask.counted_of_notified {task : SaveTask} (notified : task.notified = true) :
    task.counted = true := by
  cases task with
  | finished ok =>
      cases ok with
      | true => rfl
      | false => simp [SaveTask.notified] at notified
  | notifying => rfl
  | _ => simp [SaveTask.notified] at notified

section Calls

variable {s next : Sink} {call new : RecordCall} {move : CallAction}

theorem RecordCall.Moves.notified (moves : call.Moves s move new) (valid : call.Valid)
    (notified : call.reached SaveTask.notified = true) :
    new.reached SaveTask.notified = true := by
  obtain ⟨task, own, _⟩ := RecordCall.reached_iff.mp notified
  cases moves with
  | takeGuard | refuse | cancel | respond => exact notified
  | spawn holds => simp [valid.task_none (Or.inr holds)] at own
  | fail saves | persist _ saves => simp [RecordCall.reached, saves, SaveTask.notified] at notified
  | ingest counts => simp [RecordCall.reached, counts, SaveTask.notified] at notified
  | queuePretty _ queues => rfl
  | notify => rfl

theorem RecordCall.Moves.finished (moves : call.Moves s move new)
    (done : new.task = some (.finished true)) :
    call.task = some (.finished true) ∨ move = .notify := by
  cases moves with
  | takeGuard | refuse | cancel | respond => exact Or.inl done
  | notify => exact Or.inr rfl
  | _ => simp at done

end Calls

/-! ### The sink and the routes -/

/-- A route and its worker. The calls whose record it was offered are kept for the record. -/
structure LaneState where
  lane : RouteLane
  delivery : Delivery := {}
  heard : List (ℕ × TelemetryRecord) := []

structure PipelineConfig where
  settings : SinkSettings
  router : ProxyRouter
  capacity : ℕ
  retryMax : ℕ

def PipelineConfig.delivery (config : PipelineConfig) (lane : RouteLane) : DeliveryConfig where
  router := config.router
  lane := lane
  capacity := config.capacity
  retryMax := config.retryMax

/-- `visited` is the number of routes that the loop of each call's `notify` is past. -/
structure Pipeline where
  sink : Sink
  lanes : List LaneState
  visited : ℕ → ℕ

inductive PipelineAction where
  | sink (action : SinkAction)
  | offer (id : ℕ)
  | worker (index : ℕ) (action : DeliveryAction)
  | stopProxy

/-- What the worker and the clock do to a route. -/
def DeliveryAction.isWorkers : DeliveryAction → Bool
  | .notify _ | .dropSenders | .shutdown => false
  | _ => true

namespace Pipeline

def opened (config : PipelineConfig) : Pipeline where
  sink := Sink.opened { config.settings with proxy := true }
  lanes := config.router.lanes.map fun lane => { lane := lane }
  visited _ := 0

/-- The call's loop has a route before it. -/
def loops (s : Pipeline) : SinkAction → Bool
  | .act id .notify => s.visited id < s.lanes.length
  | _ => false

def offer (config : PipelineConfig) (s : Pipeline) (id : ℕ) (call : RecordCall)
    (lane : LaneState) : Option Pipeline :=
  if call.task = some .notifying then
    (lane.delivery.step (config.delivery lane.lane) (.notify call.record)).map fun delivery =>
      { s with
        lanes := s.lanes.set (s.visited id)
          { lane with delivery := delivery, heard := lane.heard ++ [(id, call.record)] }
        visited := Function.update s.visited id (s.visited id + 1) }
  else none

def step (config : PipelineConfig) (s : Pipeline) : PipelineAction → Option Pipeline
  | .sink action =>
      if s.loops action then none
      else (s.sink.step action).map fun sink => { s with sink := sink }
  | .offer id =>
      s.sink.calls[id]?.bind fun call =>
        s.lanes[s.visited id]?.bind fun lane => s.offer config id call lane
  | .worker index action =>
      s.lanes[index]?.bind fun lane =>
        if action.isWorkers then
          (lane.delivery.step (config.delivery lane.lane) action).map fun delivery =>
            { s with lanes := s.lanes.set index { lane with delivery := delivery } }
        else none
  | .stopProxy =>
      match s.sink.shutdown with
      | .returned _ =>
          some { s with
            lanes := s.lanes.map fun lane =>
              { lane with delivery := { lane.delivery with shutdown := true } } }
      | _ => none

def run (config : PipelineConfig) (actions : List PipelineAction) : Option Pipeline :=
  runFrom (step config) (opened config) actions

/-! ### What a step can do -/

inductive Moves (config : PipelineConfig) (s : Pipeline) : PipelineAction → Pipeline → Prop where
  | sink (action : SinkAction) (sink : Sink) (taken : s.sink.step action = some sink)
      (last : s.loops action = false) : Moves config s (.sink action) { s with sink := sink }
  | offer (id : ℕ) (call : RecordCall) (lane : LaneState) (delivery : Delivery)
      (found : s.sink.calls[id]? = some call) (here : s.lanes[s.visited id]? = some lane)
      (notifies : call.task = some .notifying)
      (taken : lane.delivery.step (config.delivery lane.lane) (.notify call.record) =
        some delivery) :
      Moves config s (.offer id)
        { s with
          lanes := s.lanes.set (s.visited id)
            { lane with delivery := delivery, heard := lane.heard ++ [(id, call.record)] }
          visited := Function.update s.visited id (s.visited id + 1) }
  | worker (index : ℕ) (action : DeliveryAction) (lane : LaneState) (delivery : Delivery)
      (here : s.lanes[index]? = some lane) (own : action.isWorkers = true)
      (taken : lane.delivery.step (config.delivery lane.lane) action = some delivery) :
      Moves config s (.worker index action)
        { s with lanes := s.lanes.set index { lane with delivery := delivery } }
  | stopProxy (ok : Bool) (returned : s.sink.shutdown = .returned ok) :
      Moves config s .stopProxy
        { s with
          lanes := s.lanes.map fun lane =>
            { lane with delivery := { lane.delivery with shutdown := true } } }

variable {config : PipelineConfig} {s next : Pipeline} {action : PipelineAction}

theorem moves_of_step (taken : s.step config action = some next) : Moves config s action next := by
  cases action with
  | sink action =>
      obtain ⟨last, taken⟩ := Option.ite_none_left_eq_some.mp taken
      obtain ⟨sink, stepped, rfl⟩ := Option.map_eq_some_iff.mp taken
      exact .sink action sink stepped (by simpa using last)
  | offer id =>
      obtain ⟨call, found, taken⟩ := Option.bind_eq_some_iff.mp taken
      obtain ⟨lane, here, taken⟩ := Option.bind_eq_some_iff.mp taken
      obtain ⟨notifies, taken⟩ := Option.ite_none_right_eq_some.mp taken
      obtain ⟨delivery, stepped, rfl⟩ := Option.map_eq_some_iff.mp taken
      exact .offer id call lane delivery found here notifies stepped
  | worker index action =>
      obtain ⟨lane, here, taken⟩ := Option.bind_eq_some_iff.mp taken
      obtain ⟨own, taken⟩ := Option.ite_none_right_eq_some.mp taken
      obtain ⟨delivery, stepped, rfl⟩ := Option.map_eq_some_iff.mp taken
      exact .worker index action lane delivery here own stepped
  | stopProxy =>
      simp only [step] at taken
      split at taken
      · rename_i ok returned
        obtain rfl := Option.some.inj taken
        exact .stopProxy ok returned
      · cases taken

/-! ### What each route was offered -/

def labels (sink : Sink) (id : ℕ) : Option TelemetryRecord :=
  sink.calls[id]?.map RecordCall.record

/-- A route was offered the records of the calls whose loop is past it, and it serves until the
workers are told to stop. -/
structure Fed (config : PipelineConfig) (sink : Sink) (passed : ℕ → Prop) (lane : LaneState) :
    Prop where
  accounted : lane.delivery.Accounted
  reasoned : lane.delivery.Reasoned
  opened : ∀ number, (number, DropReason.closed) ∉ lane.delivery.log.reasons
  offered : lane.delivery.log.offered =
    lane.heard.filterMap fun entry => config.router.laneRequest entry.2 lane.lane
  heard : Numbered lane.heard (labels sink) passed
  serves : lane.delivery.Serves ∨ ∃ ok, sink.shutdown = .returned ok

/-- The loop of a call starts with its last stage, and has visited every route when it ends. -/
structure Looped (s : Pipeline) : Prop where
  bounded : ∀ id, s.visited id ≤ s.lanes.length
  begun : ∀ id, s.visited id ≠ 0 →
    ∃ call, s.sink.calls[id]? = some call ∧ call.reached SaveTask.notified = true
  ended : ∀ id call, s.sink.calls[id]? = some call → call.task = some (.finished true) →
    s.visited id = s.lanes.length

structure Sound (config : PipelineConfig) (s : Pipeline) : Prop where
  coherent : s.sink.Coherent
  locked : s.sink.Locked
  settings : s.sink.settings = { config.settings with proxy := true }
  lanes : s.lanes.map LaneState.lane = config.router.lanes
  looped : s.Looped
  fed : ∀ index lane, s.lanes[index]? = some lane →
    Fed config s.sink (fun id => index < s.visited id) lane

theorem sound_opened (config : PipelineConfig) : Sound config (opened config) where
  coherent := Sink.coherent_opened _
  locked := Sink.locked_opened _
  settings := rfl
  lanes := by simp [opened, Function.comp_def]
  looped := by
    refine ⟨fun id => Nat.zero_le _, fun id begun => absurd rfl begun, ?_⟩
    intro id call found
    simp [opened, Sink.opened] at found
  fed index lane found := by
    rw [opened, List.getElem?_map] at found
    obtain ⟨own, _, rfl⟩ := Option.map_eq_some_iff.mp found
    exact ⟨Delivery.accounted_new, Delivery.reasoned_new, fun _ => List.not_mem_nil, rfl,
      Numbered.empty fun id => Nat.not_lt_zero _, Or.inl Delivery.serves_new⟩

theorem Looped.sink {action : SinkAction} {sink : Sink} (looped : s.Looped)
    (coherent : s.sink.Coherent) (taken : s.sink.step action = some sink)
    (last : s.loops action = false) : ({ s with sink := sink } : Pipeline).Looped where
  bounded := looped.bounded
  begun id begun := by
    obtain ⟨call, found, notified⟩ := looped.begun id begun
    obtain ⟨new, present, _, rfl | ⟨move, _, moves⟩⟩ := Sink.calls_step taken id found
    · exact ⟨new, present, notified⟩
    · exact ⟨new, present,
        moves.notified (coherent.valid call (List.mem_of_getElem? found)) notified⟩
  ended id new present done := by
    cases before : s.sink.calls[id]? with
    | none => simp [Sink.new_call taken present before] at done
    | some call =>
        obtain ⟨other, found, _, own⟩ := Sink.calls_step taken id before
        obtain rfl := Option.some.inj (present.symm.trans found)
        rcases own with rfl | ⟨move, rfl, moves⟩
        · exact looped.ended id _ before done
        · rcases moves.finished done with already | rfl
          · exact looped.ended id call before already
          · have bound := looped.bounded id
            simp only [loops, decide_eq_false_iff_not] at last
            change s.visited id = s.lanes.length
            omega

theorem labels_step {action : SinkAction} {sink : Sink} (taken : s.sink.step action = some sink)
    {id : ℕ} {call : RecordCall} (found : s.sink.calls[id]? = some call) :
    labels sink id = labels s.sink id := by
  obtain ⟨new, present, record, _⟩ := Sink.calls_step taken id found
  simp [labels, found, present, record]

theorem Fed.sink {passed : ℕ → Prop} {lane : LaneState} {action : SinkAction} {sink : Sink}
    (fed : Fed config s.sink passed lane) (taken : s.sink.step action = some sink)
    (begun : ∀ id, passed id → ∃ call, s.sink.calls[id]? = some call) :
    Fed config sink passed lane where
  accounted := fed.accounted
  reasoned := fed.reasoned
  opened := fed.opened
  offered := fed.offered
  heard := by
    refine fed.heard.keep (fun _ => Iff.rfl) fun id own => ?_
    obtain ⟨call, found⟩ := begun id own
    exact labels_step taken found
  serves := by
    rcases fed.serves with serves | ⟨ok, returned⟩
    · exact Or.inl serves
    · exact Or.inr ⟨ok, Sink.returned_step taken returned⟩

theorem Fed.worker {passed : ℕ → Prop} {lane : LaneState} {sink : Sink} {action : DeliveryAction}
    {delivery : Delivery} (fed : Fed config sink passed lane) (own : action.isWorkers = true)
    (taken : lane.delivery.step (config.delivery lane.lane) action = some delivery) :
    Fed config sink passed { lane with delivery := delivery } where
  accounted := fed.accounted.moves (Delivery.moves_of_step taken)
  reasoned := fed.reasoned.moves (Delivery.moves_of_step taken)
  opened number member := by
    rcases (Delivery.moves_of_step taken).closed_reason member with before | ⟨_, record, rfl⟩
    · exact fed.opened number before
    · simp [DeliveryAction.isWorkers] at own
  offered := by
    have grown := (Delivery.moves_of_step taken).offered
    have none : Delivery.request (config.delivery lane.lane) action = none := by
      cases action with
      | notify => simp [DeliveryAction.isWorkers] at own
      | _ => rfl
    rw [none, Option.toList_none, List.append_nil] at grown
    exact grown.trans fed.offered
  heard := fed.heard
  serves := by
    refine fed.serves.imp_left fun serves => serves.step taken ?_ ?_
    · rintro rfl
      simp [DeliveryAction.isWorkers] at own
    · rintro rfl
      simp [DeliveryAction.isWorkers] at own

theorem Fed.offer {passed later : ℕ → Prop} {lane : LaneState} {sink : Sink} {id : ℕ}
    {call : RecordCall} {delivery : Delivery} (fed : Fed config sink passed lane)
    (serves : lane.delivery.Serves) (found : sink.calls[id]? = some call) (fresh : ¬passed id)
    (passes : ∀ number, later number ↔ passed number ∨ number = id)
    (taken : lane.delivery.step (config.delivery lane.lane) (.notify call.record) =
      some delivery) :
    Fed config sink later
      { lane with delivery := delivery, heard := lane.heard ++ [(id, call.record)] } where
  accounted := fed.accounted.moves (Delivery.moves_of_step taken)
  reasoned := fed.reasoned.moves (Delivery.moves_of_step taken)
  opened number member := by
    rcases (Delivery.moves_of_step taken).closed_reason member with before | ⟨closed, _⟩
    · exact fed.opened number before
    · exact absurd (serves.opened.symm.trans closed) Bool.false_ne_true
  offered := by
    rw [List.filterMap_append, ← fed.offered, (Delivery.moves_of_step taken).offered]
    simp only [Delivery.request, PipelineConfig.delivery]
    cases request : config.router.laneRequest call.record lane.lane <;> simp [request]
  heard := fed.heard.pass fresh (by simp [labels, found]) passes
  serves := fed.serves.imp_left fun serves => serves.step taken (by simp) (by simp)

theorem Fed.stop {passed : ℕ → Prop} {lane : LaneState} {sink : Sink} {ok : Bool}
    (fed : Fed config sink passed lane) (returned : sink.shutdown = .returned ok) :
    Fed config sink passed
      { lane with delivery := { lane.delivery with shutdown := true } } where
  accounted := by
    have moves : Delivery.Moves (config.delivery lane.lane) lane.delivery .shutdown
        { lane.delivery with shutdown := true } := .shutdown
    exact fed.accounted.moves moves
  reasoned := fed.reasoned.congr rfl rfl rfl id
  opened := fed.opened
  offered := fed.offered
  heard := fed.heard
  serves := Or.inr ⟨ok, returned⟩

theorem Looped.offer {id : ℕ} {call : RecordCall} {lane new : LaneState} (looped : s.Looped)
    (found : s.sink.calls[id]? = some call) (here : s.lanes[s.visited id]? = some lane)
    (notifies : call.task = some .notifying) :
    ({ s with
        lanes := s.lanes.set (s.visited id) new
        visited := Function.update s.visited id (s.visited id + 1) } : Pipeline).Looped where
  bounded other := by
    have below := lt_of_found here
    have bound := looped.bounded other
    simp only [Function.update_apply, List.length_set]
    split <;> omega
  begun other begun := by
    by_cases same : other = id
    · subst same
      exact ⟨call, found, by simp [RecordCall.reached, notifies, SaveTask.notified]⟩
    · exact looped.begun other (by simpa [Function.update_apply, same] using begun)
  ended other process present done := by
    have apart : other ≠ id := by
      rintro rfl
      obtain rfl := Option.some.inj (present.symm.trans found)
      simp [notifies] at done
    simpa [Function.update_apply, apart] using looped.ended other process present done

theorem Looped.withLanes {lanes : List LaneState} (looped : s.Looped)
    (same : lanes.length = s.lanes.length) : ({ s with lanes := lanes } : Pipeline).Looped :=
  ⟨fun id => same ▸ looped.bounded id, looped.begun,
    fun id call found done => same ▸ looped.ended id call found done⟩

theorem Sound.lanes_set {index : ℕ} {lane : LaneState} (sound : Sound config s)
    (here : s.lanes[index]? = some lane) (delivery : Delivery) (heard : List (ℕ × TelemetryRecord)) :
    (s.lanes.set index { lane with delivery := delivery, heard := heard }).map LaneState.lane =
      config.router.lanes := by
  rw [← sound.lanes]
  apply map_set_of_found LaneState.lane here
  rfl

theorem Sound.idle_of_returned (sound : Sound config s) {ok : Bool}
    (returned : s.sink.shutdown = .returned ok) : s.sink.Idle := by
  intro call member task own
  by_contra running
  have valid := sound.coherent.valid call member
  have closed : s.sink.admission = false := by
    rw [sound.locked.open_iff, returned]
    rfl
  have guarded : call.guard = some true := by
    unfold RecordCall.Valid at valid
    rw [own] at valid
    cases task with
    | finished ok => simp [SaveTask.running] at running
    | _ => exact valid.1
  have reads := sound.locked.reads call member true guarded
  rw [closed] at reads
  cases reads

theorem Sound.serving {index : ℕ} {lane : LaneState} (sound : Sound config s)
    (here : s.lanes[index]? = some lane) {id : ℕ} {call : RecordCall}
    (found : s.sink.calls[id]? = some call) (notifies : call.task = some .notifying) :
    lane.delivery.Serves := by
  rcases (sound.fed index lane here).serves with serves | ⟨ok, returned⟩
  · exact serves
  · have ended := sound.idle_of_returned returned call (List.mem_of_getElem? found) _ notifies
    simp [SaveTask.running] at ended

theorem Sound.step (sound : Sound config s) (taken : s.step config action = some next) :
    Sound config next := by
  have looped := sound.looped
  cases moves_of_step taken with
  | sink action sink stepped last =>
      refine ⟨sound.coherent.step stepped, sound.locked.step stepped,
        (Sink.settings_step stepped).trans sound.settings, sound.lanes,
        looped.sink sound.coherent stepped last, ?_⟩
      intro index lane found
      refine (sound.fed index lane found).sink stepped fun id own => ?_
      obtain ⟨call, present, _⟩ := looped.begun id (by omega)
      exact ⟨call, present⟩
  | offer id call lane delivery found here notifies stepped =>
      refine ⟨sound.coherent, sound.locked, sound.settings,
        sound.lanes_set here _ _,
        looped.offer found here notifies, ?_⟩
      · intro index other present
        rw [getElem?_set_of_found here] at present
        split at present
        · rename_i same
          obtain rfl := Option.some.inj present
          refine (sound.fed _ lane here).offer (sound.serving here found notifies) found (by simp) ?_
            stepped
          intro number
          subst same
          by_cases own : number = id <;> simp [own]
        · rename_i apart
          have fed := sound.fed index other present
          refine ⟨fed.accounted, fed.reasoned, fed.opened, fed.offered,
            fed.heard.keep ?_ fun _ _ => rfl, fed.serves⟩
          intro number
          by_cases own : number = id
          · subst own
            simp only [Function.update_self]
            omega
          · simp [own]
  | worker index action lane delivery here own stepped =>
      refine ⟨sound.coherent, sound.locked, sound.settings,
        sound.lanes_set here _ _,
        looped.withLanes List.length_set, ?_⟩
      · intro place other present
        rw [getElem?_set_of_found here] at present
        split at present
        · rename_i same
          obtain rfl := Option.some.inj present
          exact same ▸ (sound.fed index lane here).worker own stepped
        · exact sound.fed place other present
  | stopProxy ok returned =>
      refine ⟨sound.coherent, sound.locked, sound.settings, ?_,
        looped.withLanes (List.length_map _), ?_⟩
      · rw [← sound.lanes, List.map_map]
        rfl
      · intro index other present
        rw [List.getElem?_map] at present
        obtain ⟨lane, found, rfl⟩ := Option.map_eq_some_iff.mp present
        exact (sound.fed index lane found).stop returned

theorem sound_run {actions : List PipelineAction} (ran : run config actions = some s) :
    Sound config s :=
  invariant_run (fun _ _ _ taken sound => Sound.step sound taken) actions _ _ ran
    (sound_opened config)

/-! ### Accounts -/

/-- The entry is in the log of a call that came so far. -/
theorem Sound.ingested_of_heard {lane : LaneState} (sound : Sound config s)
    (member : lane ∈ s.lanes) {entry : ℕ × TelemetryRecord} (heard : entry ∈ lane.heard) :
    entry ∈ s.sink.ingested := by
  obtain ⟨id, record⟩ := entry
  obtain ⟨index, here⟩ := List.mem_iff_getElem?.mp member
  obtain ⟨past, labelled⟩ := ((sound.fed index lane here).heard.mem id record).mp heard
  obtain ⟨call, found, notified⟩ := sound.looped.begun id (by omega)
  obtain ⟨task, own, notified⟩ := RecordCall.reached_iff.mp notified
  rw [labels, found] at labelled
  obtain rfl : call.record = record := Option.some.inj labelled
  exact sound.coherent.ingested.mem_of_found found
    (RecordCall.reached_iff.mpr ⟨task, own, SaveTask.counted_of_notified notified⟩)

theorem Sound.heard_of_done {lane : LaneState} (sound : Sound config s) (member : lane ∈ s.lanes)
    {id : ℕ} {call : RecordCall} (found : s.sink.calls[id]? = some call)
    (done : call.task = some (.finished true)) : (id, call.record) ∈ lane.heard := by
  obtain ⟨index, here⟩ := List.mem_iff_getElem?.mp member
  refine ((sound.fed index lane here).heard.mem id call.record).mpr ⟨?_, ?_⟩
  · rw [sound.looped.ended id call found done]
    exact lt_of_found here
  · rw [labels, found]
    rfl

theorem Sound.heard_perm {lane : LaneState} (sound : Sound config s) (member : lane ∈ s.lanes)
    (idle : s.sink.Idle) : lane.heard.Perm s.sink.ingested := by
  obtain ⟨index, here⟩ := List.mem_iff_getElem?.mp member
  rw [List.perm_ext_iff_of_nodup (List.Nodup.of_map _ (sound.fed index lane here).heard.once)
    sound.coherent.ingested.once]
  rintro ⟨id, record⟩
  constructor
  · exact sound.ingested_of_heard member
  · intro counted
    obtain ⟨call, found, rfl, passed⟩ := (sound.coherent.ingested.mem id record).mp counted
    obtain ⟨task, own, counts⟩ := RecordCall.reached_iff.mp passed
    have ended := idle call (List.mem_of_getElem? found) task own
    refine sound.heard_of_done member found ?_
    cases task with
    | finished ok =>
        cases ok with
        | true => exact own
        | false => simp [SaveTask.counted] at counts
    | _ => simp [SaveTask.running] at ended

/-- The requests that the entries make for a route. -/
def requests (config : PipelineConfig) (lane : RouteLane)
    (entries : List (ℕ × TelemetryRecord)) : List ExportRequest :=
  entries.filterMap fun entry => config.router.laneRequest entry.2 lane

/-- Each of the requests, by its number, is in one place, and what is dropped has a reason: the
channel was full, or the deadline of the drain has passed. -/
structure Placed (requests : List ExportRequest) (s : Delivery) : Prop where
  places : (s.log.sent ++ s.log.failed ++ s.log.dropped ++ s.log.abandoned ++
    (s.worker.inHand ++ s.channel).map Batch.number).Perm (List.range requests.length)
  held : ∀ batch ∈ s.worker.inHand ++ s.channel, requests[batch.number]? = some batch.request
  dropped : s.log.reasons.map Prod.fst = s.log.dropped
  reasons : ∀ number reason, (number, reason) ∈ s.log.reasons →
    reason = .full ∨ reason = .deadline ∧ s.deadline = true
  sentTotal : s.metrics.sentTotal = s.log.sent.length % 2 ^ 64
  failedTotal : s.metrics.failedTotal = s.log.failed.length % 2 ^ 64
  droppedTotal : s.metrics.droppedTotal = s.log.dropped.length % 2 ^ 64

theorem Fed.placed {sink : Sink} {passed : ℕ → Prop} {lane : LaneState}
    (fed : Fed config sink passed lane) :
    Placed (requests config lane.lane lane.heard) lane.delivery := by
  have same : lane.delivery.log.offered = requests config lane.lane lane.heard := fed.offered
  rw [← same]
  refine ⟨fed.accounted.places, fed.accounted.ordered.requests, fed.reasoned.each, ?_,
    fed.accounted.sent, fed.accounted.failed, fed.accounted.dropped⟩
  intro number reason member
  cases reason with
  | full => exact Or.inl rfl
  | closed => exact absurd member (fed.opened number)
  | deadline => exact Or.inr ⟨rfl, fed.reasoned.deadline number member⟩

/-- In every interleaving of the calls, their loops over the routes, the workers and the
shutdown: a route is offered a record at most once and only after it was counted, a record
whose caller was told that it is saved was offered to every route, and each request is in one
place: sent, failed, dropped for a reason, abandoned, in hand or in the channel. Once every save
task has ended, a worker that stopped has sent, failed or dropped exactly what the saved records
make for its route. -/
theorem pipeline_accounted (ran : run config actions = some s) :
    s.lanes.map LaneState.lane = config.router.lanes ∧
    (∀ lane ∈ s.lanes,
      (lane.heard.map Prod.fst).Nodup ∧
      (∀ entry ∈ lane.heard, entry ∈ s.sink.ingested) ∧
      (∀ id call, s.sink.calls[id]? = some call → call.caller = .returned true →
        (id, call.record) ∈ lane.heard) ∧
      lane.delivery.log.offered = requests config lane.lane lane.heard ∧
      Placed (requests config lane.lane lane.heard) lane.delivery) ∧
    (s.sink.Idle → ∀ lane ∈ s.lanes,
      lane.heard.Perm s.sink.ingested ∧
      (config.settings.jsonl = true → lane.heard.Perm s.sink.written) ∧
      (lane.delivery.worker = .stopped →
        (lane.delivery.log.sent ++ lane.delivery.log.failed ++ lane.delivery.log.dropped).Perm
          (List.range (requests config lane.lane s.sink.ingested).length) ∧
        lane.delivery.metrics.sentTotal + lane.delivery.metrics.failedTotal +
          lane.delivery.metrics.droppedTotal ≡
            (requests config lane.lane s.sink.ingested).length [MOD 2 ^ 64])) := by
  have sound := sound_run ran
  refine ⟨sound.lanes, ?_, ?_⟩
  · intro lane member
    obtain ⟨index, here⟩ := List.mem_iff_getElem?.mp member
    have fed := sound.fed index lane here
    refine ⟨fed.heard.once, fun entry => sound.ingested_of_heard member, ?_, fed.offered,
      fed.placed⟩
    intro id call found answered
    have valid := sound.coherent.valid call (List.mem_of_getElem? found)
    exact sound.heard_of_done member found (valid.returned answered)
  · intro idle lane member
    obtain ⟨index, here⟩ := List.mem_iff_getElem?.mp member
    have fed := sound.fed index lane here
    have heard := sound.heard_perm member idle
    refine ⟨heard, ?_, ?_⟩
    · intro jsonl
      have own : s.sink.settings.jsonl = true := by rw [sound.settings, ← jsonl]
      refine heard.trans (sound.coherent.ingested.perm (sound.coherent.written own) ?_)
      intro call present
      cases own : call.task with
      | none => rw [RecordCall.reached_none own, RecordCall.reached_none own]
      | some task =>
          rw [RecordCall.reached_some own, RecordCall.reached_some own]
          exact SaveTask.counted_of_ended (idle call present task own)
    · intro stopped
      have same : (requests config lane.lane lane.heard).length =
          (requests config lane.lane s.sink.ingested).length :=
        (heard.filterMap _).length_eq
      have places := fed.accounted.places_of_stopped stopped
      rw [fed.offered] at places
      refine ⟨same ▸ places, ?_⟩
      have length := places.length_eq
      simp only [List.length_append, List.length_range] at length
      rw [← same, Nat.ModEq, fed.accounted.sent, fed.accounted.failed, fed.accounted.dropped,
        requests, ← length]
      omega

def oneRoute : PipelineConfig where
  settings := Sink.allOutputs
  router := Delivery.claudeRoute.router
  capacity := 1
  retryMax := 8

def acts (id : ℕ) (actions : List CallAction) : List PipelineAction :=
  actions.map fun action => .sink (.act id action)

def shuts (actions : List ShutdownAction) : List PipelineAction :=
  actions.map fun action => .sink (.shutdown action)

def works (index : ℕ) (actions : List DeliveryAction) : List PipelineAction :=
  actions.map (.worker index)

/-- Two calls whose loops over the route interleave, so that the second finds the channel full;
then the shutdown, in which the worker sends what is left. -/
def fullAtShutdown : List PipelineAction :=
  let record : TelemetryRecord := .logs { resourceLogs := [ProxyRouter.serviceLogs "claude-code"] }
  List.flatten [
    [.sink (.call record), .sink (.call record)],
    acts 0 [.takeGuard, .check, .write true, .ingest],
    acts 1 [.takeGuard, .check, .write true, .ingest, .queuePretty],
    [.offer 1, .sink (.act 0 .queuePretty), .offer 0],
    acts 0 [.notify, .respond],
    acts 1 [.notify, .cancel],
    shuts [.begin, .lock, .close, .startFlush, .endFlush true, .endDrain],
    [.stopProxy],
    works 0 [.stop, .close, .next, .send .start, .send (.complete .ok), .settle]]

theorem pipeline_accounted_fullAtShutdown :
    ∃ s, run oneRoute fullAtShutdown = some s ∧ ∃ lane, s.lanes[0]? = some lane ∧
      lane.heard.map Prod.fst = [1, 0] ∧ lane.heard.Perm s.sink.written ∧
      lane.delivery.metrics.droppedTotal = 1 ∧
      (lane.delivery.log.sent ++ lane.delivery.log.failed ++ lane.delivery.log.dropped).Perm
        (List.range (requests oneRoute lane.lane s.sink.ingested).length) := by
  have facts : (run oneRoute fullAtShutdown).any (fun s =>
      (∀ call ∈ s.sink.calls, call.task.all (fun task => task.running = false) = true) ∧
      (s.lanes[0]?.any fun lane => lane.heard.map Prod.fst = [1, 0] ∧
        lane.delivery.metrics.droppedTotal = 1 ∧
        (match lane.delivery.worker with | .stopped => true | _ => false) = true) = true) = true := by
    decide +kernel
  obtain ⟨s, ran, facts⟩ := (Option.any_eq_true _ _).mp facts
  obtain ⟨ended, facts⟩ := of_decide_eq_true facts
  obtain ⟨lane, here, facts⟩ := (Option.any_eq_true _ _).mp facts
  obtain ⟨heard, dropped, stopped⟩ := of_decide_eq_true facts
  have idle : s.sink.Idle := by
    intro call member task own
    simpa [own] using ended call member
  obtain ⟨_, _, settled⟩ := pipeline_accounted ran
  obtain ⟨_, saved, counted⟩ := settled idle lane (List.mem_of_getElem? here)
  refine ⟨s, ran, lane, here, heard, saved rfl, dropped, (counted ?_).1⟩
  split at stopped
  · assumption
  · cases stopped

/-! ### The channel of a route is open -/

/-- Nothing is offered any more. -/
def Quiet (heard : List (List (ℕ × TelemetryRecord))) (s : Pipeline) : Prop :=
  (∃ ok, s.sink.shutdown = .returned ok) ∧ s.lanes.map LaneState.heard = heard

theorem Quiet.step {heard : List (List (ℕ × TelemetryRecord))} {next : Pipeline}
    {action : PipelineAction} (sound : Sound config s) (taken : s.step config action = some next)
    (quiet : Quiet heard s) : Quiet heard next := by
  obtain ⟨⟨ok, returned⟩, same⟩ := quiet
  cases moves_of_step taken with
  | sink action sink stepped => exact ⟨⟨ok, Sink.returned_step stepped returned⟩, same⟩
  | offer id call lane delivery found here notifies =>
      have ended := sound.idle_of_returned returned call (List.mem_of_getElem? found) _ notifies
      simp [SaveTask.running] at ended
  | worker index action lane delivery here =>
      refine ⟨⟨ok, returned⟩, ?_⟩
      rw [← same]
      apply map_set_of_found LaneState.heard here
      rfl
  | stopProxy =>
      refine ⟨⟨ok, returned⟩, ?_⟩
      rw [← same, List.map_map]
      rfl

/-- In every interleaving: whoever offers a record finds a worker that nobody told to stop and a
channel that is open, so that a request is refused only by a full channel. When the shutdown of
the sink has returned, every save task has ended and no route is offered anything again. -/
theorem offers_find_channel_open (ran : run config actions = some s) :
    (∀ id next, s.step config (.offer id) = some next → ∃ call lane later,
      s.sink.calls[id]? = some call ∧ s.lanes[s.visited id]? = some lane ∧
      next.lanes[s.visited id]? = some later ∧
      lane.delivery.shutdown = false ∧ lane.delivery.closed = false ∧
      later.delivery.metrics.sentTotal = lane.delivery.metrics.sentTotal ∧
      later.delivery.metrics.failedTotal = lane.delivery.metrics.failedTotal ∧
      (later.delivery.metrics.droppedTotal = fetchAdd lane.delivery.metrics.droppedTotal 1 ∧
          later.delivery.channel = lane.delivery.channel ∧
          config.capacity ≤ lane.delivery.channel.length ∧
          config.router.laneRequest call.record lane.lane ≠ none ∨
        later.delivery.metrics.droppedTotal = lane.delivery.metrics.droppedTotal ∧
          later.delivery.channel.map Batch.request = lane.delivery.channel.map Batch.request ++
            (config.router.laneRequest call.record lane.lane).toList ∧
          (config.router.laneRequest call.record lane.lane ≠ none →
            lane.delivery.channel.length < config.capacity))) ∧
    ∀ ok, s.sink.shutdown = .returned ok → s.sink.Idle ∧
      ∀ more later, runFrom (step config) s more = some later →
        later.lanes.map LaneState.heard = s.lanes.map LaneState.heard := by
  have sound := sound_run ran
  refine ⟨?_, ?_⟩
  · intro id next taken
    cases moves_of_step taken with
    | offer _ call lane delivery found here notifies stepped =>
        obtain ⟨senders, unasked, opened, _⟩ := sound.serving here found notifies
        refine ⟨call, lane, _, found, here, by rw [getElem?_set_of_found here, if_pos rfl],
          unasked, opened, ?_⟩
        simp only [Delivery.step, senders, Bool.false_eq_true, if_false,
          PipelineConfig.delivery] at stepped
        cases request : config.router.laneRequest call.record lane.lane with
        | none =>
            simp only [request] at stepped
            obtain rfl := Option.some.inj stepped
            exact ⟨rfl, rfl, Or.inr ⟨rfl, (List.append_nil _).symm, fun some => absurd rfl some⟩⟩
        | some request' =>
            simp only [request] at stepped
            obtain rfl := Option.some.inj stepped
            rw [Delivery.trySend, opened]
            rw [if_neg Bool.false_ne_true]
            split
            · rename_i full
              exact ⟨rfl, rfl, Or.inl ⟨rfl, rfl, full, by simp⟩⟩
            · refine ⟨rfl, rfl, Or.inr ⟨rfl, ?_, fun _ => by omega⟩⟩
              simp [Delivery.accept]
  · intro ok returned
    refine ⟨sound.idle_of_returned returned, ?_⟩
    intro more later reached
    have kept (before : Pipeline) (action : PipelineAction) (following : Pipeline)
        (stepped : before.step config action = some following)
        (held : Sound config before ∧ Quiet (s.lanes.map LaneState.heard) before) :
        Sound config following ∧ Quiet (s.lanes.map LaneState.heard) following :=
      ⟨held.1.step stepped, held.2.step held.1 stepped⟩
    exact (invariant_run kept more _ _ reached ⟨sound, ⟨ok, returned⟩, rfl⟩).2.2

theorem offers_find_channel_open_fullAtShutdown :
    ∃ s, run oneRoute fullAtShutdown = some s ∧ s.sink.shutdown = .returned true ∧ s.sink.Idle := by
  have facts : (run oneRoute fullAtShutdown).any (fun s => s.sink.shutdown = .returned true) =
      true := by
    decide +kernel
  obtain ⟨s, ran, returned⟩ := (Option.any_eq_true _ _).mp facts
  have returned := of_decide_eq_true returned
  exact ⟨s, ran, returned, ((offers_find_channel_open ran).2 true returned).1⟩

end Pipeline

end OtelLogger
