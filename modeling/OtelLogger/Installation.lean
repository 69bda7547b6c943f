import OtelLogger.LogDirectory
import OtelLogger.Service

/-!
The receiver on its log directory, through its lives. A process answers requests while its writer
puts their records into the daily files; it may die between any two steps, or in one, and another
process starts on what it left. A request that was answered with success is on the disk, however
the lives go on, for as long as the retention says.
-/

namespace OtelLogger

open Delimited Interleaving

structure Process where
  config : ServiceConfig
  service : Service

structure Installation where
  directory : LogDirectory
  process : Option Process := none

/-- What happens besides the calls of the JSONL writer that save and sync. -/
def DirectoryEvent.beside : DirectoryEvent → Bool
  | .cleanup _ | .text _ | .flushText | .dryRun _ _ _ => true
  | .start _ _ _ | .line _ | .sync | .stop => false

inductive InstallationEvent where
  | start (settings : DirectorySettings) (config : ServiceConfig) (clock later : LocalTime)
  | serve (action : ServiceAction)
  | save (id : ℕ) (clock : LocalTime)
  | beside (event : DirectoryEvent)
  | sync
  | die

structure Happening where
  event : InstallationEvent
  outcomes : List Outcome := []

/-- The outputs of the sink are those that were opened. -/
def DirectorySettings.serviceConfig (settings : DirectorySettings) (config : ServiceConfig) :
    ServiceConfig :=
  { config with
    sink := { config.sink with jsonl := true, prettyLog := settings.prettyLogDir.isSome } }

def recordLine (clock : LocalTime) (body : Bytes) : LineCall where
  now := clock.now
  offset := clock.offset
  line := body ++ [newline]
  ended := ⟨body, rfl⟩

namespace Installation

section Step

-- `proto_json::to_vec`
variable (listing : Disk → List String) (serialize : TelemetryRecord → Except String Bytes)

/-- The steps of the service that leave the file alone. A record that cannot be serialized is not
written. -/
def apart (service : Service) : ServiceAction → Bool
  | .call id (.write ok) =>
      !ok && service.sink.calls[id]?.any fun call => !(serialize call.record).isOk
  | .shutdown (.endFlush _) => false
  | _ => true

/-- `write_jsonl` and `flush` answer the service what the writer answers. -/
def step (s : Installation) (happening : Happening) : Option Installation :=
  match happening.event with
  | .start settings config clock later =>
      if s.process.isSome then none
      else
        (s.directory.answerTo listing
          ⟨.start settings clock later, happening.outcomes⟩).map fun answered =>
            let config := settings.serviceConfig config
            { directory := answered.2
              process := if answered.1.isOk then some ⟨config, Service.opened config⟩ else none }
  | .serve action =>
      s.process.bind fun process =>
        if apart serialize process.service action then
          (process.service.step process.config action).map fun service =>
            { s with process := some { process with service := service } }
        else none
  | .save id clock =>
      s.process.bind fun process =>
        process.service.sink.calls[id]?.bind fun call =>
          (serialize call.record).toOption.bind fun body =>
            (s.directory.answerTo listing
              ⟨.line (recordLine clock body), happening.outcomes⟩).bind fun answered =>
                (process.service.step process.config (.call id (.write answered.1.isOk))).map
                  fun service =>
                    { directory := answered.2
                      process := some { process with service := service } }
  | .beside event =>
      if event.beside then
        (s.directory.answerTo listing ⟨event, happening.outcomes⟩).map fun answered =>
          { s with directory := answered.2 }
      else none
  | .sync =>
      s.process.bind fun process =>
        (s.directory.answerTo listing ⟨.sync, happening.outcomes⟩).bind fun answered =>
          (process.service.step process.config (.shutdown (.endFlush answered.1.isOk))).map
            fun service =>
              { directory := answered.2, process := some { process with service := service } }
  | .die =>
      (s.directory.answerTo listing ⟨.stop, happening.outcomes⟩).map fun answered =>
        { directory := answered.2 }

def run : Installation → List Happening → Option Installation :=
  runFrom (step listing serialize)

end Step

/-! ### What a step can do -/

variable {listing : Disk → List String} {serialize : TelemetryRecord → Except String Bytes}
  {s next : Installation} {happening : Happening}

/-- The steps, one constructor for each branch. -/
inductive Moves (listing : Disk → List String) (serialize : TelemetryRecord → Except String Bytes)
    (s : Installation) : Happening → Installation → Prop where
  | start (settings : DirectorySettings) (config : ServiceConfig) (clock later : LocalTime)
      (outcomes : List Outcome) (answer : Except IoError Unit) (directory : LogDirectory)
      (answered : s.directory.answerTo listing ⟨.start settings clock later, outcomes⟩ =
        some (answer, directory)) :
      Moves listing serialize s ⟨.start settings config clock later, outcomes⟩
        { directory := directory
          process :=
            if answer.isOk then
              some ⟨settings.serviceConfig config, Service.opened (settings.serviceConfig config)⟩
            else none }
  | serve (action : ServiceAction) (outcomes : List Outcome) (process : Process)
      (service : Service) (here : s.process = some process)
      (quiet : apart serialize process.service action = true)
      (taken : process.service.step process.config action = some service) :
      Moves listing serialize s ⟨.serve action, outcomes⟩
        { s with process := some { process with service := service } }
  | save (id : ℕ) (clock : LocalTime) (outcomes : List Outcome) (process : Process)
      (call : RecordCall) (body : Bytes) (answer : Except IoError Unit)
      (directory : LogDirectory) (service : Service) (here : s.process = some process)
      (found : process.service.sink.calls[id]? = some call)
      (serialized : serialize call.record = .ok body)
      (answered : s.directory.answerTo listing ⟨.line (recordLine clock body), outcomes⟩ =
        some (answer, directory))
      (taken : process.service.step process.config (.call id (.write answer.isOk)) = some service) :
      Moves listing serialize s ⟨.save id clock, outcomes⟩
        { directory := directory, process := some { process with service := service } }
  | beside (event : DirectoryEvent) (outcomes : List Outcome) (answer : Except IoError Unit)
      (directory : LogDirectory) (quiet : event.beside = true)
      (answered : s.directory.answerTo listing ⟨event, outcomes⟩ = some (answer, directory)) :
      Moves listing serialize s ⟨.beside event, outcomes⟩ { s with directory := directory }
  | sync (outcomes : List Outcome) (process : Process) (answer : Except IoError Unit)
      (directory : LogDirectory) (service : Service) (here : s.process = some process)
      (answered : s.directory.answerTo listing ⟨.sync, outcomes⟩ = some (answer, directory))
      (taken : process.service.step process.config (.shutdown (.endFlush answer.isOk)) =
        some service) :
      Moves listing serialize s ⟨.sync, outcomes⟩
        { directory := directory, process := some { process with service := service } }
  | die (outcomes : List Outcome) (answer : Except IoError Unit) (directory : LogDirectory)
      (answered : s.directory.answerTo listing ⟨.stop, outcomes⟩ = some (answer, directory)) :
      Moves listing serialize s ⟨.die, outcomes⟩ { directory := directory }

theorem moves_of_step (taken : step listing serialize s happening = some next) :
    Moves listing serialize s happening next := by
  obtain ⟨event, outcomes⟩ := happening
  cases event with
  | start settings config clock later =>
      obtain ⟨_, taken⟩ := Option.ite_none_left_eq_some.mp taken
      obtain ⟨⟨answer, directory⟩, answered, rfl⟩ := Option.map_eq_some_iff.mp taken
      exact .start settings config clock later outcomes answer directory answered
  | serve action =>
      obtain ⟨process, here, taken⟩ := Option.bind_eq_some_iff.mp taken
      obtain ⟨quiet, taken⟩ := Option.ite_none_right_eq_some.mp taken
      obtain ⟨service, stepped, rfl⟩ := Option.map_eq_some_iff.mp taken
      exact .serve action outcomes process service here quiet stepped
  | save id clock =>
      obtain ⟨process, here, taken⟩ := Option.bind_eq_some_iff.mp taken
      obtain ⟨call, found, taken⟩ := Option.bind_eq_some_iff.mp taken
      obtain ⟨body, serialized, taken⟩ := Option.bind_eq_some_iff.mp taken
      obtain ⟨⟨answer, directory⟩, answered, taken⟩ := Option.bind_eq_some_iff.mp taken
      obtain ⟨service, stepped, rfl⟩ := Option.map_eq_some_iff.mp taken
      have serialized : serialize call.record = .ok body := by
        cases result : serialize call.record with
        | error reason => simp [result, Except.toOption] at serialized
        | ok other => simpa [result, Except.toOption] using serialized
      exact .save id clock outcomes process call body answer directory service here found
        serialized answered stepped
  | beside event =>
      obtain ⟨quiet, taken⟩ := Option.ite_none_right_eq_some.mp taken
      obtain ⟨⟨answer, directory⟩, answered, rfl⟩ := Option.map_eq_some_iff.mp taken
      exact .beside event outcomes answer directory quiet answered
  | sync =>
      obtain ⟨process, here, taken⟩ := Option.bind_eq_some_iff.mp taken
      obtain ⟨⟨answer, directory⟩, answered, taken⟩ := Option.bind_eq_some_iff.mp taken
      obtain ⟨service, stepped, rfl⟩ := Option.map_eq_some_iff.mp taken
      exact .sync outcomes process answer directory service here answered stepped
  | die =>
      simp only [step] at taken
      obtain ⟨⟨answer, directory⟩, answered, rfl⟩ := Option.map_eq_some_iff.mp taken
      exact .die outcomes answer directory answered

end Installation

/-! ### The directory under the installation -/

def InstallationEvent.readings : InstallationEvent → List LocalTime
  | .start _ _ clock later => [clock, later]
  | .save _ clock => [clock]
  | .beside event => event.readings
  | .serve _ | .sync | .die => []

def InstallationEvent.Retains (keepDays : ℕ) : InstallationEvent → Prop
  | .start settings _ _ _ => keepDays ≤ max settings.keepDays 1
  | _ => True

instance (keepDays : ℕ) : DecidablePred (InstallationEvent.Retains keepDays)
  | .start settings _ _ _ => inferInstanceAs (Decidable (keepDays ≤ max settings.keepDays 1))
  | .serve _ | .save _ _ | .beside _ | .sync | .die => inferInstanceAs (Decidable True)

namespace Installation

open LogDirectory (readingsOf)

variable {listing : Disk → List String} {serialize : TelemetryRecord → Except String Bytes}
  {s next reached : Installation} {happening : Happening} {happenings : List Happening}

def clockReadings (happenings : List Happening) : List LocalTime :=
  happenings.flatMap fun happening => happening.event.readings

/-- What a happening is for the directory. -/
def occurs (serialize : TelemetryRecord → Except String Bytes) (s : Installation)
    (happening : Happening) : Option Occurrence :=
  match happening.event with
  | .start settings _ clock later => some ⟨.start settings clock later, happening.outcomes⟩
  | .serve _ => none
  | .save id clock =>
      s.process.bind fun process =>
        process.service.sink.calls[id]?.bind fun call =>
          (serialize call.record).toOption.map fun body =>
            ⟨.line (recordLine clock body), happening.outcomes⟩
  | .beside event => some ⟨event, happening.outcomes⟩
  | .sync => some ⟨.sync, happening.outcomes⟩
  | .die => some ⟨.stop, happening.outcomes⟩

def occurrences (listing : Disk → List String)
    (serialize : TelemetryRecord → Except String Bytes) :
    Installation → List Happening → List Occurrence
  | _, [] => []
  | s, happening :: rest =>
      (s.occurs serialize happening).toList ++
        (step listing serialize s happening).elim [] fun next =>
          occurrences listing serialize next rest

theorem occurrences_cons (taken : step listing serialize s happening = some next) :
    occurrences listing serialize s (happening :: happenings) =
      (s.occurs serialize happening).toList ++ occurrences listing serialize next happenings := by
  rw [occurrences, taken]
  rfl

/-- A step is one of the directory at the same times, or leaves the directory. -/
theorem Moves.directory (keepDays : ℕ) (moves : Moves listing serialize s happening next) :
    (s.occurs serialize happening = none ∧ next.directory = s.directory ∧
        happening.event.readings = []) ∨
      ∃ occurrence answer, s.occurs serialize happening = some occurrence ∧
        s.directory.answerTo listing occurrence = some (answer, next.directory) ∧
        occurrence.event.readings = happening.event.readings ∧
        (happening.event.Retains keepDays → occurrence.event.Retains keepDays) := by
  cases moves with
  | start settings config clock later outcomes answer directory answered =>
      exact Or.inr ⟨_, answer, rfl, answered, rfl, id⟩
  | serve => exact Or.inl ⟨rfl, rfl, rfl⟩
  | save id clock outcomes process call body answer directory service here found serialized
      answered =>
      refine Or.inr ⟨_, answer, ?_, answered, rfl, fun _ => trivial⟩
      simp [occurs, here, found, serialized, Except.toOption]
  | beside event outcomes answer directory quiet answered =>
      refine Or.inr ⟨_, answer, rfl, answered, rfl, fun _ => ?_⟩
      cases event with
      | start => cases quiet
      | _ => trivial
  | sync outcomes process answer directory service here answered =>
      exact Or.inr ⟨_, answer, rfl, answered, rfl, fun _ => trivial⟩
  | die outcomes answer directory answered =>
      exact Or.inr ⟨_, answer, rfl, answered, rfl, fun _ => trivial⟩

/-- A run is a run of the directory at the same times. -/
theorem directory_run (keepDays : ℕ) : ∀ (happenings : List Happening) (s reached : Installation),
    run listing serialize s happenings = some reached →
    LogDirectory.run listing s.directory (occurrences listing serialize s happenings) =
      some reached.directory ∧
    readingsOf (occurrences listing serialize s happenings) = clockReadings happenings ∧
    ((∀ happening ∈ happenings, happening.event.Retains keepDays) →
      ∀ occurrence ∈ occurrences listing serialize s happenings,
        occurrence.event.Retains keepDays) := by
  intro happenings
  induction happenings with
  | nil =>
      intro s reached ran
      obtain rfl := Option.some.inj ran
      exact ⟨rfl, rfl, by simp [occurrences]⟩
  | cons happening happenings ih =>
      intro s reached ran
      obtain ⟨next, taken, rest⟩ := Option.bind_eq_some_iff.mp ran
      obtain ⟨later, times, retained⟩ := ih next reached rest
      rw [occurrences_cons taken, clockReadings, List.flatMap_cons]
      rcases (moves_of_step taken).directory keepDays with
        ⟨none, same, silent⟩ | ⟨occurrence, answer, own, answered, reads, retain⟩
      · rw [none, silent, ← same]
        exact ⟨later, times, fun retains => retained (List.forall_mem_cons.mp retains).2⟩
      · rw [own]
        refine ⟨?_, ?_, fun retains => ?_⟩
        · exact Option.bind_eq_some_iff.mpr
            ⟨next.directory, Option.map_eq_some_iff.mpr ⟨_, answered, rfl⟩, later⟩
        · exact (congrArg (· ++ _) reads).trans (congrArg (happening.event.readings ++ ·) times)
        · obtain ⟨first, others⟩ := List.forall_mem_cons.mp retains
          exact List.forall_mem_cons.mpr ⟨retain first, retained others⟩

/-! ### The process -/

/-- The service of the process is one that saves to the directory. -/
def Serves (s : Installation) : Prop :=
  ∀ process, s.process = some process →
    Service.Sound process.config process.service ∧ process.config.sink.jsonl = true

theorem Serves.step (serves : s.Serves) (taken : step listing serialize s happening = some next) :
    next.Serves := by
  cases moves_of_step taken with
  | start settings config clock later outcomes answer directory answered =>
      intro process here
      obtain ⟨_, same⟩ := Option.ite_none_right_eq_some.mp here
      obtain rfl := Option.some.inj same
      exact ⟨Service.sound_opened _, rfl⟩
  | serve action outcomes process service here quiet stepped
  | save id clock outcomes process call body answer directory service here found serialized
      answered stepped
  | sync outcomes process answer directory service here answered stepped =>
      intro other same
      obtain rfl := Option.some.inj same
      obtain ⟨sound, jsonl⟩ := serves process here
      exact ⟨sound.step stepped, jsonl⟩
  | beside => exact serves
  | die => exact fun _ never => by cases never

/-- The run had a save of that call, of which the line was acknowledged. -/
def SavedIn (listing : Disk → List String) (serialize : TelemetryRecord → Except String Bytes)
    (initial : Installation) (happenings : List Happening) (reached : Installation)
    (entry : ℕ × TelemetryRecord) : Prop :=
  ∃ (before after : List Happening) (clock : LocalTime) (outcomes : List Outcome) (body : Bytes)
    (middle following : Installation),
    happenings = before ++ ⟨.save entry.1 clock, outcomes⟩ :: after ∧
    serialize entry.2 = .ok body ∧ run listing serialize initial before = some middle ∧
    middle.directory.answerTo listing ⟨.line (recordLine clock body), outcomes⟩ =
      some (.ok (), following.directory) ∧
    run listing serialize following after = some reached

/-- A save stays in a run that goes on. -/
theorem SavedIn.continued {initial : Installation} {entry : ℕ × TelemetryRecord}
    (saved : SavedIn listing serialize initial happenings s entry)
    (taken : step listing serialize s happening = some next) :
    SavedIn listing serialize initial (happenings ++ [happening]) next entry := by
  obtain ⟨before, after, clock, outcomes, body, middle, following, rfl, serialized, ran, wrote,
    continued⟩ := saved
  refine ⟨before, after ++ [happening], clock, outcomes, body, middle, following, by simp,
    serialized, ran, wrote, ?_⟩
  rw [run, runFrom_append]
  exact Option.bind_eq_some_iff.mpr ⟨s, continued, by simp [runFrom, taken]⟩

/-- What the sink of the process has written was saved in the run. -/
theorem saved_run {initial : Installation} (idle : initial.process = none) :
    ∀ (happenings : List Happening) (reached : Installation),
      run listing serialize initial happenings = some reached →
      ∀ process, reached.process = some process → ∀ entry ∈ process.service.sink.written,
        SavedIn listing serialize initial happenings reached entry := by
  intro happenings
  induction happenings using List.reverseRecOn with
  | nil =>
      intro reached ran process here
      obtain rfl := Option.some.inj ran
      simp [idle] at here
  | append_singleton happenings happening ih =>
      intro reached ran process here entry written
      rw [run, runFrom_append] at ran
      obtain ⟨s, before, last⟩ := Option.bind_eq_some_iff.mp ran
      obtain ⟨next, taken, same⟩ := Option.bind_eq_some_iff.mp last
      obtain rfl := Option.some.inj same
      have earlier (old : Process) (own : s.process = some old)
          (known : entry ∈ old.service.sink.written) :=
        (ih s before old own entry known).continued taken
      cases moves_of_step taken with
      | start settings config clock later outcomes answer directory answered =>
          obtain ⟨_, same⟩ := Option.ite_none_right_eq_some.mp here
          obtain rfl := Option.some.inj same
          simp [Service.opened, Sink.opened] at written
      | serve action outcomes old service own quiet stepped =>
          obtain rfl := Option.some.inj here
          rcases (Service.moves_of_step stepped).written with same | ⟨id, call, rfl, _⟩
          · exact earlier old own (same ▸ written)
          · cases quiet
      | save id clock outcomes old call body answer directory service own found serialized
          answered stepped =>
          obtain rfl := Option.some.inj here
          rcases (Service.moves_of_step stepped).written with
            same | ⟨place, other, same, there, grown⟩
          · exact earlier old own (same ▸ written)
          · obtain ⟨rfl, wrote⟩ : id = place ∧ answer.isOk = true := by simpa using same
            obtain rfl := Option.some.inj (there.symm.trans found)
            rcases List.mem_append.mp (grown ▸ written) with known | fresh
            · exact earlier old own known
            · obtain rfl := List.mem_singleton.mp fresh
              obtain rfl : answer = .ok () := by
                cases answer with
                | error error => cases wrote
                | ok done => rfl
              exact ⟨happenings, [], clock, outcomes, body, s, _, rfl, serialized, before,
                answered, rfl⟩
      | beside event outcomes answer directory quiet answered => exact earlier process here written
      | sync outcomes old answer directory service own answered stepped =>
          obtain rfl := Option.some.inj here
          rcases (Service.moves_of_step stepped).written with same | ⟨id, call, other, _⟩
          · exact earlier old own (same ▸ written)
          · cases other
      | die => cases here

/-- `to_vec` of batches with nothing in them. -/
def emptyBatch : TelemetryRecord → Except String Bytes
  | .logs { resourceLogs := [] } => .ok (utf8 "\x7b\"resourceLogs\":[]\x7d")
  | .traces { resourceSpans := [] } => .ok (utf8 "\x7b\"resourceSpans\":[]\x7d")
  | .metrics { resourceMetrics := [] } => .ok (utf8 "\x7b\"resourceMetrics\":[]\x7d")
  | _ => .error "not empty"

/-- A body without bytes is a batch with nothing in it. -/
def emptyBodies : ServiceConfig where
  maxInflight := 1
  sink := Sink.allOutputs
  decode _ _ body := if body.isEmpty then .ok (.logs ⟨[]⟩) else .error "invalid"
  decodeGrpc _ _ := .ok (.logs ⟨[]⟩)
  bodyStatus _ := { code := .internal, message := "body" }

def oneRequest : List Happening :=
  [⟨.start LogDirectory.twoDays emptyBodies LogDirectory.morning LogDirectory.morning, []⟩,
    ⟨.serve (.arrive (.http .logs .missing)), []⟩, ⟨.serve (.receive 0 .tryAcquire), []⟩,
    ⟨.serve (.body 0 (.bytes [])), []⟩, ⟨.serve (.call 0 .takeGuard), []⟩,
    ⟨.serve (.call 0 .check), []⟩, ⟨.save 0 LogDirectory.morning, []⟩,
    ⟨.serve (.call 0 .ingest), []⟩, ⟨.serve (.call 0 .queuePretty), []⟩,
    ⟨.serve (.call 0 .notify), []⟩, ⟨.serve (.call 0 .respond), []⟩]

def diesAndStarts : List Happening :=
  [⟨.die, []⟩,
    ⟨.start LogDirectory.twoDays emptyBodies LogDirectory.nextMorning LogDirectory.nextMorning, []⟩]

end Installation

end OtelLogger
