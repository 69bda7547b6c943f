import OtelLogger.DirectoryTexts
import OtelLogger.Installation

/-!
Where the lines of the daily JSONL files come from: each is the record of a request that some
process received, decoded from the body that it came with.
-/

namespace OtelLogger

open Delimited Interleaving

/-! ### Records and the bodies they came in -/

theorem Handler.leave_entry (handler : Handler) (request : Request) (action : RequestAction) :
    (handler.leave request action).entry = handler.entry := by
  unfold Handler.leave
  split <;> rfl

def ServiceAction.arrival : ServiceAction → Option Entry
  | .arrive entry => some entry
  | .receive _ _ | .body _ _ | .call _ _ | .shutdown _ => none

namespace Service

def entries (s : Service) : List Entry :=
  s.handlers.map Handler.entry

def records (s : Service) : List TelemetryRecord :=
  s.sink.calls.map RecordCall.record

variable {config : ServiceConfig} {s next : Service} {action : ServiceAction}
  {arrivals : List Entry} {told : ServiceAction → Prop}

/-- Only an arrival adds a request, and only a body that is decoded adds a record. -/
theorem Moves.entries_records (moves : Moves config s action next) :
    next.entries = s.entries ++ action.arrival.toList ∧
    ((next.records = s.records ∧ next.owners = s.owners) ∨
      ∃ id read entry record, action = .body id read ∧ s.entries[id]? = some entry ∧
        entry.receive config read = .ok record ∧ next.records = s.records ++ [record] ∧
        next.owners = s.owners ++ [id]) := by
  cases moves with
  | arrive entry => exact ⟨by simp [entries, ServiceAction.arrival], Or.inl ⟨rfl, rfl⟩⟩
  | receive id action handler request intake own =>
      have same := map_set_of_found Handler.entry own (handler.leave_entry request action)
      exact ⟨same.trans (List.append_nil _).symm, Or.inl ⟨rfl, rfl⟩⟩
  | refuse id read handler answer intake own =>
      have same := map_set_of_found Handler.entry own
        (show { handler with answer := some answer, refused := some read }.entry = handler.entry from rfl)
      exact ⟨same.trans (List.append_nil _).symm, Or.inl ⟨rfl, rfl⟩⟩
  | record id read handler record intake own decoded =>
      refine ⟨(List.append_nil _).symm,
        Or.inr ⟨id, read, handler.entry, record, rfl, ?_, decoded, ?_, rfl⟩⟩
      · simp [entries, own]
      · simp [records]
  | call id action owner handler call new intake owned own found stepped =>
      have same := map_set_of_found Handler.entry own
        (show (handler.returns new).entry = handler.entry from rfl)
      have record := (RecordCall.moves_of_next stepped).record
      exact ⟨same.trans (List.append_nil _).symm, Or.inl ⟨map_set_of_found _ found record, rfl⟩⟩
  | shutdown action sink shut =>
      refine ⟨(List.append_nil _).symm, Or.inl ⟨?_, rfl⟩⟩
      rw [Sink.shut_eq shut]
      rfl

/-- The requests are those that arrived, and their records came in bodies that were read. -/
structure Received (config : ServiceConfig) (arrivals : List Entry) (told : ServiceAction → Prop)
    (s : Service) : Prop where
  arrived : s.entries = arrivals
  decoded : ∀ (place owner : ℕ) (entry : Entry) (record : TelemetryRecord),
    s.owners[place]? = some owner → arrivals[owner]? = some entry →
    s.records[place]? = some record →
    ∃ read, told (.body owner read) ∧ entry.receive config read = .ok record

theorem Sound.records_length (sound : Sound config s) : s.records.length = s.owners.length :=
  (List.length_map _).trans sound.calls

theorem Sound.known_entry (sound : Sound config s) {place owner : ℕ}
    (owned : s.owners[place]? = some owner) : owner < s.entries.length :=
  (sound.known owner (List.mem_of_getElem? owned)).trans_eq (List.length_map _).symm

theorem received_opened : Received config [] told (opened config) where
  arrived := rfl
  decoded place owner entry record owned := by simp [opened] at owned

theorem Received.mono {also : ServiceAction → Prop} (received : Received config arrivals told s)
    (more : ∀ action, told action → also action) : Received config arrivals also s where
  arrived := received.arrived
  decoded place owner entry record owned own found := by
    obtain ⟨read, here, decoded⟩ := received.decoded place owner entry record owned own found
    exact ⟨read, more _ here, decoded⟩

theorem Received.step (received : Received config arrivals told s) (sound : Sound config s)
    (moves : Moves config s action next)
    (reads : ∀ id read, action = .body id read → told action) :
    Received config (arrivals ++ action.arrival.toList) told next := by
  obtain ⟨rfl, decoded⟩ := received
  obtain ⟨arrived,
    ⟨records, owners⟩ | ⟨id, read, entry, record, rfl, own, taken, records, owners⟩⟩ :=
    moves.entries_records
  · refine ⟨arrived, ?_⟩
    rw [owners, records]
    intro place owner other record owned own found
    rw [List.getElem?_append_left (sound.known_entry owned)] at own
    exact decoded place owner other record owned own found
  · have same : s.entries ++ (ServiceAction.body id read).arrival.toList = s.entries :=
      List.append_nil _
    rw [same] at arrived ⊢
    refine ⟨arrived, ?_⟩
    rw [owners, records]
    intro place owner other found owned here among
    have lengths := sound.records_length
    by_cases before : place < s.owners.length
    · rw [List.getElem?_append_left before] at owned
      rw [List.getElem?_append_left (lengths ▸ before)] at among
      exact decoded place owner other found owned here among
    · rw [List.getElem?_append_right (not_lt.mp before)] at owned
      rw [List.getElem?_append_right (lengths ▸ not_lt.mp before), lengths] at among
      obtain rfl := List.mem_singleton.mp (List.mem_of_getElem? owned)
      obtain rfl := List.mem_singleton.mp (List.mem_of_getElem? among)
      obtain rfl := Option.some.inj (own.symm.trans here)
      exact ⟨read, reads _ _ rfl, taken⟩

end Service

/-! ### The save of a call -/

/-- The write of the line was tried. -/
def RecordCall.Tried (call : RecordCall) : Prop :=
  ∃ task, call.task = some task ∧ task ≠ .saving

theorem RecordCall.Moves.tried {s : Sink} {call new : RecordCall} {action : CallAction}
    (moves : call.Moves s action new) (valid : call.Valid) (tried : call.Tried) : new.Tried := by
  obtain ⟨task, own, done⟩ := tried
  cases moves with
  | takeGuard | refuse | cancel | respond => exact ⟨task, own, done⟩
  | spawn holds => simp [valid.task_none (Or.inr holds)] at own
  | fail | persist | ingest | queuePretty | notify => exact ⟨_, rfl, by simp⟩

theorem RecordCall.Moves.tries {s : Sink} {call new : RecordCall} {ok : Bool}
    (moves : call.Moves s (.write ok) new) : ¬call.Tried ∧ new.Tried := by
  cases moves with
  | fail saves | persist _ saves =>
      refine ⟨?_, _, rfl, by simp⟩
      rintro ⟨task, own, done⟩
      exact done (Option.some.inj (own.symm.trans saves))

namespace Service

variable {config : ServiceConfig} {s next : Service} {action : ServiceAction} {place : ℕ}
  {call : RecordCall}

theorem Sound.tried_step (sound : Sound config s) (moves : Moves config s action next)
    (found : s.sink.calls[place]? = some call) (tried : call.Tried) :
    ∃ call, next.sink.calls[place]? = some call ∧ call.Tried := by
  cases moves with
  | arrive | receive | refuse => exact ⟨call, found, tried⟩
  | record => exact ⟨call, (List.getElem?_append_left (lt_of_found found)).trans found, tried⟩
  | call id move owner handler other new intake owned own here stepped =>
      by_cases same : id = place
      · subst same
        obtain rfl := Option.some.inj (here.symm.trans found)
        have valid := sound.coherent.valid other (List.mem_of_getElem? here)
        exact ⟨new, set_own _ here, (RecordCall.moves_of_next stepped).tried valid tried⟩
      · exact ⟨call, (set_others _ here place (Ne.symm same)).trans found, tried⟩
  | shutdown move sink shut => exact ⟨call, by rw [Sink.shut_eq shut]; exact found, tried⟩

/-- The write of a call is tried when it was not, and then it was. -/
theorem Moves.tries {ok : Bool} (moves : Moves config s (.call place (.write ok)) next) :
    (∀ call, s.sink.calls[place]? = some call → ¬call.Tried) ∧
      ∃ call, next.sink.calls[place]? = some call ∧ call.Tried := by
  cases moves with
  | call id move owner handler other new intake owned own here stepped =>
      obtain ⟨untried, tried⟩ := (RecordCall.moves_of_next stepped).tries
      refine ⟨fun call found => ?_, new, set_own _ here, tried⟩
      obtain rfl := Option.some.inj (here.symm.trans found)
      exact untried

end Service

/-! ### Lines and the requests they came from -/

def InstallationEvent.starts : InstallationEvent → Bool
  | .start _ _ _ _ => true
  | .serve _ | .save _ _ | .beside _ | .sync | .die => false

def InstallationEvent.arrival : InstallationEvent → Option Entry
  | .serve action => action.arrival
  | .start _ _ _ _ | .save _ _ | .beside _ | .sync | .die => none

/-- The text is the line of a request: in the life of one process the request was the one of this
number, its body was read and decoded, and then the record was saved on that day. -/
def Requested (serialize : TelemetryRecord → Except String Bytes)
    (events : List InstallationEvent) (date : NaiveDate) (text : Bytes) : Prop :=
  ∃ (before life after : List InstallationEvent) (settings : DirectorySettings)
    (config : ServiceConfig) (clock later saved : LocalTime) (entry : Entry) (id place : ℕ)
    (read : BodyRead) (record : TelemetryRecord) (body : Bytes),
    events = before ++ .start settings config clock later :: (life ++ .save place saved :: after) ∧
    (∀ event ∈ life, event.starts = false) ∧
    (life.filterMap InstallationEvent.arrival)[id]? = some entry ∧
    .serve (.body id read) ∈ life ∧ saved.date = date ∧
    entry.receive (settings.serviceConfig config) read = .ok record ∧
    serialize record = .ok body ∧ text = body ++ [newline]

theorem Requested.append {serialize : TelemetryRecord → Except String Bytes}
    {events : List InstallationEvent} {date : NaiveDate} {text : Bytes}
    (requested : Requested serialize events date text) (more : List InstallationEvent) :
    Requested serialize (events ++ more) date text := by
  obtain ⟨before, life, after, settings, config, clock, later, saved, entry, id, place, read,
    record, body, rfl, rest⟩ := requested
  exact ⟨before, life, after ++ more, settings, config, clock, later, saved, entry, id, place, read,
    record, body, by simp, rest⟩

namespace Installation

variable {listing : Disk → List String} {serialize : TelemetryRecord → Except String Bytes}
  {s next reached : Installation} {happening : Happening} {happenings : List Happening}
  {events : List InstallationEvent} {date : NaiveDate} {text : Bytes}

/-- What the process has, it was told since it was started. -/
def Traced (events : List InstallationEvent) (s : Installation) : Prop :=
  ∀ process, s.process = some process →
    ∃ (before life : List InstallationEvent) (settings : DirectorySettings)
      (config : ServiceConfig) (clock later : LocalTime),
      events = before ++ .start settings config clock later :: life ∧
      (∀ event ∈ life, event.starts = false) ∧ process.config = settings.serviceConfig config ∧
      Service.Received process.config (life.filterMap InstallationEvent.arrival)
        (fun action => .serve action ∈ life) process.service

/-- The life of a process goes on with a step of its service. -/
theorem Traced.goes_on (traced : Traced events s) (serves : s.Serves) {event : InstallationEvent}
    (goes : event.starts = false) {process : Process} {service : Service}
    (here : s.process = some process)
    (moves : (service = process.service ∧ event.arrival = none) ∨
      ∃ action, Service.Moves process.config process.service action service ∧
        event.arrival = action.arrival ∧ ∀ id read, action = .body id read → event = .serve action)
    (directory : LogDirectory) :
    Traced (events ++ [event])
      { directory := directory, process := some { process with service := service } } := by
  intro other same
  obtain rfl := Option.some.inj same
  obtain ⟨before, life, settings, config, clock, later, rfl, lasts, configured, received⟩ :=
    traced process here
  have last : event ∈ life ++ [event] := List.mem_append_right _ (List.mem_singleton_self _)
  have longer : Service.Received process.config (life.filterMap InstallationEvent.arrival)
      (fun action => .serve action ∈ life ++ [event]) process.service :=
    received.mono fun action told => List.mem_append_left _ told
  refine ⟨before, life ++ [event], settings, config, clock, later, by simp, ?_, configured, ?_⟩
  · rw [List.forall_mem_append, List.forall_mem_singleton]
    exact ⟨lasts, goes⟩
  · have grown : (life ++ [event]).filterMap InstallationEvent.arrival =
        life.filterMap InstallationEvent.arrival ++ event.arrival.toList := by
      cases arrives : event.arrival <;> simp [arrives]
    rw [grown]
    rcases moves with ⟨rfl, silent⟩ | ⟨action, moves, arrives, reads⟩
    · rw [silent]
      simpa using longer
    · rw [arrives]
      exact longer.step (serves process here).1 moves fun id read same => reads id read same ▸ last

theorem Traced.step (traced : Traced events s) (serves : s.Serves)
    (moves : Moves listing serialize s happening next) :
    Traced (events ++ [happening.event]) next := by
  cases moves with
  | start settings config clock later outcomes answer directory answered =>
      intro process here
      obtain ⟨_, same⟩ := Option.ite_none_right_eq_some.mp here
      obtain rfl := Option.some.inj same
      exact ⟨events, [], settings, config, clock, later, rfl, by simp, rfl,
        Service.received_opened⟩
  | serve action outcomes process service here quiet stepped =>
      exact traced.goes_on serves rfl here
        (Or.inr ⟨action, Service.moves_of_step stepped, rfl, fun _ _ _ => rfl⟩) _
  | save id clock outcomes process call body answer directory service here found serialized
      answered stepped =>
      exact traced.goes_on serves rfl here
        (Or.inr ⟨_, Service.moves_of_step stepped, rfl, fun _ _ never => by cases never⟩) _
  | beside event outcomes answer directory =>
      intro process here
      exact traced.goes_on serves rfl here (Or.inl ⟨rfl, rfl⟩) directory process rfl
  | sync outcomes process answer directory service here answered stepped =>
      exact traced.goes_on serves rfl here
        (Or.inr ⟨_, Service.moves_of_step stepped, rfl, fun _ _ never => by cases never⟩) _
  | die => exact fun _ never => by cases never

/-- A line is saved for a request that the process was told of. -/
theorem Traced.requested (traced : Traced events s) (serves : s.Serves)
    (moves : Moves listing serialize s happening next) {occurrence : Occurrence}
    (occurs : s.occurs serialize happening = some occurrence)
    (wrote : occurrence.event.textTo (jsonlName date) = some text) :
    Requested serialize (events ++ [happening.event]) date text := by
  cases moves with
  | serve => cases occurs
  | start | sync | die =>
      obtain rfl := Option.some.inj occurs
      cases wrote
  | beside event outcomes answer directory quiet answered =>
      obtain rfl := Option.some.inj occurs
      cases event with
      | text call =>
          have apart : prettyName call.clock.date ≠ jsonlName date :=
            (jsonlName_ne_prettyName _ _).symm
          simp [DirectoryEvent.textTo, DirectoryEvent.written, apart] at wrote
      | start | line => cases quiet
      | _ => cases wrote
  | save place saved outcomes process call body answer directory service here found serialized =>
      obtain rfl : (⟨.line (recordLine saved body), outcomes⟩ : Occurrence) = occurrence := by
        simpa [Installation.occurs, here, found, serialized, Except.toOption] using occurs
      obtain ⟨same, rfl⟩ : jsonlName (recordLine saved body).date = jsonlName date ∧
          (recordLine saved body).line = text := by
        simpa [DirectoryEvent.textTo, DirectoryEvent.written, Option.filter_some] using wrote
      obtain ⟨before, life, settings, config, clock, later, rfl, lasts, configured, received⟩ :=
        traced process here
      have among : process.service.records[place]? = some call.record := by
        simp [Service.records, found]
      have sound := (serves process here).1
      have owned := List.getElem?_eq_getElem (sound.records_length ▸ lt_of_found among)
      have own := List.getElem?_eq_getElem (received.arrived ▸ sound.known_entry owned)
      obtain ⟨read, told, decoded⟩ := received.decoded place _ _ _ owned own among
      exact ⟨before, life, [], settings, config, clock, later, saved, _, _, place, read,
        call.record, body, by simp, lasts, own, told, dailyPath_injective _ _ same,
        configured ▸ decoded, serialized, rfl⟩

theorem requested_run : ∀ (happenings : List Happening) (s reached : Installation)
    (events : List InstallationEvent), Traced events s → s.Serves →
    run listing serialize s happenings = some reached →
    ∀ text ∈ textsTo (jsonlName date) (occurrences listing serialize s happenings),
      Requested serialize (events ++ happenings.map Happening.event) date text := by
  intro happenings
  induction happenings with
  | nil =>
      intro s reached events _ _ _ text member
      cases member
  | cons happening happenings ih =>
      intro s reached events traced serves ran text member
      obtain ⟨next, taken, rest⟩ := Option.bind_eq_some_iff.mp ran
      have moves := moves_of_step taken
      have later := ih next reached _ (traced.step serves moves) (serves.step taken) rest
      rw [List.append_assoc, List.singleton_append] at later
      rw [occurrences_cons taken, textsTo, List.filterMap_append] at member
      rcases List.mem_append.mp member with first | others
      · obtain ⟨occurrence, occurs, wrote⟩ := List.mem_filterMap.mp first
        rw [List.map_cons, List.append_cons]
        exact (traced.requested serves moves (Option.mem_toList.mp occurs) wrote).append _
      · exact later text others

/-! ### Saves -/

/-- The save of the call was tried, if there is a process. -/
def Tried (place : ℕ) (s : Installation) : Prop :=
  s.Serves ∧ ∀ process, s.process = some process →
    ∃ call, process.service.sink.calls[place]? = some call ∧ call.Tried

theorem Tried.step {place : ℕ} (tried : Tried place s)
    (taken : step listing serialize s happening = some next)
    (goes : happening.event.starts = false) : Tried place next := by
  obtain ⟨serves, tried⟩ := tried
  refine ⟨serves.step taken, ?_⟩
  cases moves_of_step taken with
  | start => cases goes
  | serve action outcomes process service here quiet stepped
  | save id clock outcomes process call body answer directory service here found serialized
      answered stepped
  | sync outcomes process answer directory service here answered stepped =>
      intro other same
      obtain rfl := Option.some.inj same
      obtain ⟨call, found, own⟩ := tried process here
      exact (serves process here).1.tried_step (Service.moves_of_step stepped) found own
  | beside => exact tried
  | die => exact fun _ never => by cases never

/-- Between two saves of one call there is a start, so that they are not of one request. -/
theorem saves_once {initial : Installation} (idle : initial.process = none)
    {before between after : List Happening} {place : ℕ} {first second : LocalTime}
    {outcomes others : List Outcome}
    (ran : run listing serialize initial (before ++ ⟨.save place first, outcomes⟩ ::
      (between ++ ⟨.save place second, others⟩ :: after)) = some reached) :
    ∃ happening ∈ between, happening.event.starts = true := by
  by_contra never
  have goes (happening : Happening) (among : happening ∈ between) :
      happening.event.starts = false := by
    by_contra starts
    exact never ⟨happening, among, by simpa using starts⟩
  rw [run, runFrom_append] at ran
  obtain ⟨s, ranBefore, ran⟩ := Option.bind_eq_some_iff.mp ran
  obtain ⟨next, taken, ran⟩ := Option.bind_eq_some_iff.mp ran
  rw [runFrom_append] at ran
  obtain ⟨later, ranBetween, ran⟩ := Option.bind_eq_some_iff.mp ran
  obtain ⟨_, again, _⟩ := Option.bind_eq_some_iff.mp ran
  have serves : s.Serves :=
    invariant_run (fun _ _ _ taken serves => Serves.step serves taken) before _ s ranBefore
      fun _ here => by simp [idle] at here
  have tried : Tried place next := by
    refine ⟨serves.step taken, ?_⟩
    cases moves_of_step taken with
    | save id clock outcomes process call body answer directory service here found serialized
        answered stepped =>
        intro other same
        obtain rfl := Option.some.inj same
        exact (Service.moves_of_step stepped).tries.2
  obtain ⟨_, tried⟩ := invariant_run_of (fun happening => happening.event.starts = false)
    (fun _ _ _ goes taken tried => Tried.step tried taken goes) between next later goes ranBetween
    tried
  cases moves_of_step again with
  | save id clock outcomes process call body answer directory service here found serialized
      answered stepped =>
      obtain ⟨other, same, own⟩ := tried process here
      exact (Service.moves_of_step stepped).tries.1 other same own

/-- The lines that a run on the disk saves on a day, in their order. -/
def savedLines (listing : Disk → List String) (serialize : TelemetryRecord → Except String Bytes)
    (disk : Disk) (happenings : List Happening) (date : NaiveDate) : List Bytes :=
  textsTo (jsonlName date)
    (occurrences listing serialize { directory := { disk := disk } } happenings)

end Installation

end OtelLogger
