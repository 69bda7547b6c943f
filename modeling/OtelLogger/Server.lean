import OtelLogger.Library.Progress
import OtelLogger.SinkSteps

/-!
The server: two listener tasks, the signal task, and the main task of `run`, over the sink that
the connections record into. The main task waits for whichever comes first, gives the listeners a
grace to finish, and closes the sink.
-/

namespace OtelLogger

open Interleaving

/-- An error with its contexts, the outermost first. -/
abbrev ErrorChain := List String

/-- What an error is logged as. -/
def ErrorChain.outermost (error : ErrorChain) : String :=
  error.headD ""

abbrev TaskResult := Except ErrorChain Unit

namespace TaskResult

def context (text : String) : TaskResult → TaskResult :=
  Except.mapError (text :: ·)

end TaskResult

/-- How a listener task ends; a panicked task leaves its message. -/
inductive TaskEnd where
  | returned (result : TaskResult)
  | panicked (message : String)
  deriving DecidableEq

def joinResult : TaskEnd → TaskResult
  | .returned result => result
  | .panicked message => .error ["task panicked: " ++ message]

/-- The merged result, and what is logged of an error that comes after another. -/
def mergeTaskResult : TaskResult → TaskResult → TaskResult × List String
  | .ok (), next => (next, [])
  | .error first, .ok () => (.error first, [])
  | .error first, .error later => (.error first, [later.outermost])

inductive ListenerKind where
  | grpc
  | http
  deriving DecidableEq

def ListenerKind.taskContext : ListenerKind → String
  | grpc => "gRPC task"
  | http => "HTTP task"

inductive Listener where
  | binding
  | serving
  | ended (result : TaskEnd)
  | aborted

def Listener.abort : Listener → Listener
  | ended result => .ended result
  | _ => aborted

/-- The signal task waits for a first and a second signal. -/
inductive SignalTask where
  | first
  | second
  | finished
  | aborted
  deriving DecidableEq

/-- The listener that the drain waits for next. -/
inductive DrainStage where
  | grpc
  | http
  | drained
  deriving DecidableEq

def DrainStage.awaits : DrainStage → Option (ListenerKind × DrainStage)
  | grpc => some (.grpc, http)
  | http => some (.http, drained)
  | drained => none

inductive ServerMain where
  | selecting
  | draining (result : TaskResult) (stage : DrainStage) (drained : TaskResult)
  | stopping (result : TaskResult)
  | closing (result : TaskResult)
  | returned (result : TaskResult)
  deriving DecidableEq

/-- `done` has the listener whose end the main task selected, if it did; `abandoned` tells that the
drain was given up. -/
structure Server where
  listener : ListenerKind → Listener := fun _ => .binding
  done : ListenerKind → Bool := fun _ => false
  shutdown : Bool := false
  hardExit : Bool := false
  signals : SignalTask := .first
  main : ServerMain := .selecting
  abandoned : Bool := false
  warned : List String := []
  sink : Sink

inductive ListenerMove where
  | bind (result : TaskResult)
  | fail (error : ErrorChain)
  | panic (message : String)
  | drained

inductive ServerAction where
  | listener (kind : ListenerKind) (move : ListenerMove)
  | signal
  | selectTask (kind : ListenerKind)
  | selectCancelled
  | drain
  | hardExit
  | graceExpired
  | beginShutdown
  | sink (action : SinkAction)
  | finish (error : ErrorChain)

/-- Only `run` calls `shutdown`. -/
def SinkAction.begins : SinkAction → Bool
  | shutdown .begin => true
  | _ => false

def Listener.next (shutdown : Bool) : Listener → ListenerMove → Option Listener
  | .binding, .bind (.ok ()) => some .serving
  | .binding, .bind (.error error) => some (.ended (.returned (.error error)))
  | .serving, .fail error => some (.ended (.returned (.error error)))
  | .binding, .panic message | .serving, .panic message => some (.ended (.panicked message))
  | .serving, .drained => if shutdown then some (.ended (.returned (.ok ()))) else none
  | _, _ => none

namespace Server

def opened (settings : SinkSettings) : Server := { sink := Sink.opened settings }

/-- What the handle of an ended listener gives. -/
def report (s : Server) (kind : ListenerKind) : Option TaskResult :=
  match s.listener kind with
  | .ended result => some ((joinResult result).context kind.taskContext)
  | _ => none

/-- The drain goes on at `after`, past a listener whose end was awaited already. -/
def awaitListener (s : Server) (kind : ListenerKind) (result drained : TaskResult)
    (after : DrainStage) : Option Server :=
  if s.done kind then some { s with main := .draining result after drained }
  else
    (s.report kind).map fun next =>
      { s with
        main := .draining result after (mergeTaskResult drained next).1
        warned := s.warned ++ (mergeTaskResult drained next).2 }

/-- Both listeners are aborted, and what the drain has read so far is dropped with it. -/
def abandon (s : Server) (result : TaskResult) : Server :=
  { s with
    listener := fun kind => (s.listener kind).abort
    abandoned := true
    main := .stopping result }

/-- The result of `sink.shutdown`, which fails with `error` if it fails. -/
def closeResult (error : ErrorChain) (ok : Bool) : TaskResult :=
  (if ok then .ok () else .error error : TaskResult).context "shutdown JSONL sink"

def finished (s : Server) (error : ErrorChain) (result : TaskResult) (ok : Bool) : Server :=
  { s with
    main := .returned (mergeTaskResult result (closeResult error ok)).1
    warned := s.warned ++ (mergeTaskResult result (closeResult error ok)).2 }

def step (s : Server) : ServerAction → Option Server
  | .listener kind move =>
      ((s.listener kind).next s.shutdown move).map fun next =>
        { s with listener := Function.update s.listener kind next }
  | .signal =>
      match s.signals with
      | .first => some { s with signals := .second, shutdown := true }
      | .second => some { s with signals := .finished, hardExit := true }
      | _ => none
  | .selectTask kind =>
      match s.main with
      | .selecting =>
          (s.report kind).map fun result =>
            { s with
              done := Function.update s.done kind true
              shutdown := true
              main := .draining result .grpc (.ok ()) }
      | _ => none
  | .selectCancelled =>
      match s.main with
      | .selecting =>
          if s.shutdown then some { s with main := .draining (.ok ()) .grpc (.ok ()) } else none
      | _ => none
  | .drain =>
      match s.main with
      | .draining result stage drained =>
          match stage.awaits with
          | some (kind, after) => s.awaitListener kind result drained after
          | none =>
              some
                { s with
                  main := .stopping (mergeTaskResult result drained).1
                  warned := s.warned ++ (mergeTaskResult result drained).2 }
      | _ => none
  | .hardExit =>
      match s.main with
      | .draining result _ _ => if s.hardExit then some (s.abandon result) else none
      | _ => none
  | .graceExpired =>
      match s.main with
      | .draining result _ _ => some (s.abandon result)
      | _ => none
  | .beginShutdown =>
      match s.main with
      | .stopping result =>
          (s.sink.step (.shutdown .begin)).map fun sink =>
            { s with signals := .aborted, main := .closing result, sink := sink }
      | _ => none
  | .sink action =>
      if action.begins then none
      else (s.sink.step action).map fun sink => { s with sink := sink }
  | .finish error =>
      match s.main, s.sink.shutdown with
      | .closing result, .returned ok => some (s.finished error result ok)
      | _, _ => none

def run (settings : SinkSettings) (actions : List ServerAction) : Option Server :=
  runFrom step (opened settings) actions

/-! ### What a step can do -/

/-- The steps of the server, one constructor for each branch. -/
inductive Moves (s : Server) : ServerAction → Server → Prop where
  | listener (kind : ListenerKind) (move : ListenerMove) (next : Listener)
      (moved : (s.listener kind).next s.shutdown move = some next) :
      Moves s (.listener kind move) { s with listener := Function.update s.listener kind next }
  | firstSignal (waits : s.signals = .first) :
      Moves s .signal { s with signals := .second, shutdown := true }
  | secondSignal (waits : s.signals = .second) :
      Moves s .signal { s with signals := .finished, hardExit := true }
  | selectTask (kind : ListenerKind) (result : TaskResult) (here : s.main = .selecting)
      (ended : s.report kind = some result) :
      Moves s (.selectTask kind)
        { s with
          done := Function.update s.done kind true
          shutdown := true
          main := .draining result .grpc (.ok ()) }
  | selectCancelled (here : s.main = .selecting) (asked : s.shutdown = true) :
      Moves s .selectCancelled { s with main := .draining (.ok ()) .grpc (.ok ()) }
  | skip (result drained : TaskResult) (stage after : DrainStage) (kind : ListenerKind)
      (here : s.main = .draining result stage drained) (due : stage.awaits = some (kind, after))
      (known : s.done kind = true) :
      Moves s .drain { s with main := .draining result after drained }
  | await (result drained next : TaskResult) (stage after : DrainStage) (kind : ListenerKind)
      (here : s.main = .draining result stage drained) (due : stage.awaits = some (kind, after))
      (ended : s.report kind = some next) :
      Moves s .drain
        { s with
          main := .draining result after (mergeTaskResult drained next).1
          warned := s.warned ++ (mergeTaskResult drained next).2 }
  | drained (result drained : TaskResult) (here : s.main = .draining result .drained drained) :
      Moves s .drain
        { s with
          main := .stopping (mergeTaskResult result drained).1
          warned := s.warned ++ (mergeTaskResult result drained).2 }
  | abandon (action : ServerAction) (result drained : TaskResult) (stage : DrainStage)
      (here : s.main = .draining result stage drained)
      (cause : action = .graceExpired ∨ (action = .hardExit ∧ s.hardExit = true)) :
      Moves s action (s.abandon result)
  | beginShutdown (result : TaskResult) (here : s.main = .stopping result)
      (fresh : s.sink.shutdown = .notCalled) :
      Moves s .beginShutdown
        { s with
          signals := .aborted
          main := .closing result
          sink := { s.sink with shutdown := .waiting } }
  | sink (action : SinkAction) (sink : Sink) (later : action.begins = false)
      (moved : s.sink.step action = some sink) :
      Moves s (.sink action) { s with sink := sink }
  | finish (error : ErrorChain) (result : TaskResult) (ok : Bool)
      (here : s.main = .closing result) (shut : s.sink.shutdown = .returned ok) :
      Moves s (.finish error) (s.finished error result ok)

variable {s next : Server} {action : ServerAction}

theorem moves_of_step (taken : s.step action = some next) : s.Moves action next := by
  cases action with
  | listener kind move =>
      obtain ⟨listener, moved, rfl⟩ := Option.map_eq_some_iff.mp taken
      exact .listener kind move listener moved
  | signal =>
      simp only [step] at taken
      split at taken
      · obtain rfl := Option.some.inj taken
        exact .firstSignal ‹_›
      · obtain rfl := Option.some.inj taken
        exact .secondSignal ‹_›
      · cases taken
  | selectTask kind =>
      simp only [step] at taken
      split at taken
      · obtain ⟨result, ended, rfl⟩ := Option.map_eq_some_iff.mp taken
        exact .selectTask kind result ‹_› ended
      · cases taken
  | selectCancelled =>
      simp only [step] at taken
      split at taken
      · obtain ⟨asked, result⟩ := Option.ite_none_right_eq_some.mp taken
        obtain rfl := Option.some.inj result
        exact .selectCancelled ‹_› asked
      · cases taken
  | drain =>
      simp only [step] at taken
      split at taken
      · rename_i result stage drained here
        split at taken
        · rename_i kind after due
          simp only [awaitListener] at taken
          split at taken
          · rename_i known
            obtain rfl := Option.some.inj taken
            exact .skip result drained stage after kind here due known
          · obtain ⟨report, ended, rfl⟩ := Option.map_eq_some_iff.mp taken
            exact .await result drained report stage after kind here due ended
        · rename_i none
          obtain rfl := Option.some.inj taken
          cases stage with
          | drained => exact .drained result drained here
          | grpc | http => cases none
      · cases taken
  | hardExit =>
      simp only [step] at taken
      split at taken
      · rename_i result stage drained here
        obtain ⟨asked, given⟩ := Option.ite_none_right_eq_some.mp taken
        obtain rfl := Option.some.inj given
        exact .abandon .hardExit result drained stage here (Or.inr ⟨rfl, asked⟩)
      · cases taken
  | graceExpired =>
      simp only [step] at taken
      split at taken
      · rename_i result stage drained here
        obtain rfl := Option.some.inj taken
        exact .abandon .graceExpired result drained stage here (Or.inl rfl)
      · cases taken
  | beginShutdown =>
      simp only [step] at taken
      split at taken
      · rename_i result here
        obtain ⟨sink, begun, rfl⟩ := Option.map_eq_some_iff.mp taken
        obtain ⟨fresh, given⟩ := Option.ite_none_right_eq_some.mp begun
        obtain rfl := Option.some.inj given
        exact .beginShutdown result here fresh
      · cases taken
  | sink action =>
      simp only [step] at taken
      split at taken
      · cases taken
      · obtain ⟨sink, moved, rfl⟩ := Option.map_eq_some_iff.mp taken
        exact .sink action sink (by simpa using ‹¬action.begins = true›) moved
  | finish error =>
      simp only [step] at taken
      split at taken
      · rename_i result ok here shut
        obtain rfl := Option.some.inj taken
        exact .finish error result ok here shut
      · cases taken

/-! ### The result -/

end Server

/-- What was read is the result, or was logged because an earlier error is. -/
def Settles (result : TaskResult) (warned : List String) (read : TaskResult) : Prop :=
  ∀ error, read = .error error →
    result = .error error ∨ ((∃ first, result = .error first) ∧ error.outermost ∈ warned)

section Merging

variable {result next read : TaskResult} {warned : List String} {error : ErrorChain}

theorem merge_first (failed : result = .error error) :
    (mergeTaskResult result next).1 = .error error := by
  subst failed
  rcases next with later | done <;> rfl

theorem merge_source (failed : (mergeTaskResult result next).1 = .error error) :
    result = .error error ∨ next = .error error := by
  rcases result with first | done
  · exact Or.inl ((merge_first rfl).symm.trans failed)
  · exact Or.inr failed

/-- The later result settles as the earlier one does: it is the result, or it is logged. -/
theorem settles_merged : Settles (mergeTaskResult result next).1
    (warned ++ (mergeTaskResult result next).2) next := by
  intro error failed
  subst failed
  rcases result with first | done
  · exact Or.inr ⟨⟨first, rfl⟩, List.mem_append_right _ (List.mem_singleton.mpr rfl)⟩
  · exact Or.inl rfl

theorem Settles.merge (settles : Settles result warned read) (next : TaskResult) :
    Settles (mergeTaskResult result next).1 (warned ++ (mergeTaskResult result next).2) read := by
  intro error failed
  rcases settles error failed with own | ⟨⟨first, failed⟩, logged⟩
  · exact Or.inl (merge_first own)
  · exact Or.inr ⟨⟨first, merge_first failed⟩, List.mem_append_left _ logged⟩

theorem Settles.trans (settles : Settles next warned read) : Settles (mergeTaskResult result next).1
    (warned ++ (mergeTaskResult result next).2) read := by
  have merged : Settles (mergeTaskResult result next).1
      (warned ++ (mergeTaskResult result next).2) next := settles_merged
  intro error failed
  rcases settles error failed with own | ⟨⟨first, failed⟩, logged⟩
  · exact merged error own
  · rcases merged first failed with own | own
    · exact Or.inr ⟨⟨first, own⟩, List.mem_append_left _ logged⟩
    · exact Or.inr ⟨own.1, List.mem_append_left _ logged⟩

end Merging

def DrainStage.passed (stage : DrainStage) (kind : ListenerKind) : Bool :=
  match stage, kind with
  | drained, _ => true
  | http, .grpc => true
  | _, _ => false

namespace Server

/-- The errors of the result are errors of listeners. -/
def Sourced (s : Server) (result : TaskResult) : Prop :=
  ∀ error, result = .error error → ∃ kind, s.report kind = some (.error error)

/-- The end of the listener that was selected is in the result. -/
def Chosen (s : Server) (result : TaskResult) : Prop :=
  ∀ kind, s.done kind = true → ∃ read, s.report kind = some read ∧
    ∀ error, read = .error error → result = .error error

structure Gathered (s : Server) (stage : DrainStage) (result drained : TaskResult) : Prop where
  chosen : s.Chosen result
  sourced : s.Sourced result
  ends : s.Sourced drained
  passed : ∀ kind, stage.passed kind = true → s.done kind = false →
    ∃ read, s.report kind = some read ∧ Settles drained s.warned read

structure Concluded (s : Server) (result : TaskResult) (warned : List String) : Prop where
  chosen : s.Chosen result
  sourced : s.Sourced result
  every : s.abandoned = false → ∀ kind, ∃ read, s.report kind = some read ∧
    Settles result warned read

/-- What the main task has read accounts for its result. -/
def Explained (s : Server) : Prop :=
  match s.main with
  | .selecting => ∀ kind, s.done kind = false
  | .draining result stage drained => s.Gathered stage result drained
  | .stopping result | .closing result => s.Concluded result s.warned
  | .returned result => ∃ own warned error ok, s.Concluded own warned ∧
      s.sink.shutdown = .returned ok ∧ result = (mergeTaskResult own (closeResult error ok)).1 ∧
      s.warned = warned ++ (mergeTaskResult own (closeResult error ok)).2

variable {s next : Server} {action : ServerAction} {result drained : TaskResult}
  {stage : DrainStage} {kind : ListenerKind} {warned : List String}

theorem ended_of_report {read : TaskResult} (ended : s.report kind = some read) :
    ∃ last, s.listener kind = .ended last := by
  simp only [report] at ended
  split at ended
  · exact ⟨_, ‹_›⟩
  · cases ended

/-- An end stays what it was. -/
theorem Moves.report (moves : s.Moves action next) {read : TaskResult}
    (ended : s.report kind = some read) : next.report kind = some read := by
  obtain ⟨last, here⟩ := ended_of_report ended
  cases moves with
  | listener other move listener moved =>
      have different : kind ≠ other := by
        rintro rfl
        rw [here] at moved
        cases moved
      simp only [Server.report, Function.update_of_ne different] at ended ⊢
      exact ended
  | abandon =>
      simp only [Server.report, Server.abandon, here, Listener.abort] at ended ⊢
      exact ended
  | _ => exact ended

theorem Sourced.step (sourced : s.Sourced result) (moves : s.Moves action next) :
    next.Sourced result := by
  intro error failed
  obtain ⟨kind, ended⟩ := sourced error failed
  exact ⟨kind, moves.report ended⟩

theorem Sourced.merge (sourced : s.Sourced result) (others : s.Sourced drained) :
    s.Sourced (mergeTaskResult result drained).1 := by
  intro error failed
  rcases merge_source failed with own | own
  · exact sourced error own
  · exact others error own

theorem Chosen.step (chosen : s.Chosen result) (moves : s.Moves action next)
    (same : next.done = s.done) : next.Chosen result := by
  intro kind awaited
  rw [same] at awaited
  obtain ⟨read, ended, first⟩ := chosen kind awaited
  exact ⟨read, moves.report ended, first⟩

theorem Chosen.merge (chosen : s.Chosen result) (other : TaskResult) :
    s.Chosen (mergeTaskResult result other).1 := by
  intro kind awaited
  obtain ⟨read, ended, first⟩ := chosen kind awaited
  exact ⟨read, ended, fun error failed => merge_first (first error failed)⟩

theorem Concluded.step (concluded : s.Concluded result warned) (moves : s.Moves action next)
    (done : next.done = s.done) (abandoned : next.abandoned = s.abandoned) :
    next.Concluded result warned := by
  refine ⟨concluded.chosen.step moves done, concluded.sourced.step moves, ?_⟩
  intro stays kind
  obtain ⟨read, ended, settles⟩ := concluded.every (abandoned ▸ stays) kind
  exact ⟨read, moves.report ended, settles⟩

theorem Gathered.step (gathered : s.Gathered stage result drained) (moves : s.Moves action next)
    (done : next.done = s.done) (warned : next.warned = s.warned) :
    next.Gathered stage result drained := by
  refine ⟨gathered.chosen.step moves done, gathered.sourced.step moves,
    gathered.ends.step moves, ?_⟩
  intro kind passed missed
  rw [done] at missed
  obtain ⟨read, ended, settles⟩ := gathered.passed kind passed missed
  exact ⟨read, moves.report ended, warned ▸ settles⟩

/-- A step that leaves the main task where it is leaves what it has read. -/
theorem Explained.stay (explained : s.Explained) (moves : s.Moves action next)
    (main : next.main = s.main) (done : next.done = s.done)
    (abandoned : next.abandoned = s.abandoned) (warned : next.warned = s.warned)
    (shut : ∀ ok, s.sink.shutdown = .returned ok → next.sink.shutdown = .returned ok) :
    next.Explained := by
  simp only [Explained, main, done, warned] at explained ⊢
  cases here : s.main with
  | selecting =>
      rw [here] at explained
      exact explained
  | draining result stage drained =>
      rw [here] at explained
      exact explained.step moves done warned
  | stopping result | closing result =>
      rw [here] at explained
      exact explained.step moves done abandoned
  | returned result =>
      rw [here] at explained
      obtain ⟨own, before, error, ok, concluded, returned, merged, logged⟩ := explained
      exact ⟨own, before, error, ok, concluded.step moves done abandoned, shut ok returned, merged,
        logged⟩

theorem awaits_passed {after : DrainStage} {other : ListenerKind}
    (due : stage.awaits = some (kind, after)) (passed : after.passed other = true) :
    other = kind ∨ stage.passed other = true := by
  cases stage with
  | grpc =>
      obtain ⟨rfl, rfl⟩ := Prod.mk.inj (Option.some.inj due)
      cases other with
      | grpc => exact Or.inl rfl
      | http => cases passed
  | http =>
      obtain ⟨rfl, rfl⟩ := Prod.mk.inj (Option.some.inj due)
      cases other with
      | grpc => exact Or.inr rfl
      | http => exact Or.inl rfl
  | drained => cases due

theorem Explained.step (explained : s.Explained) (taken : s.step action = some next) :
    next.Explained := by
  have moves := moves_of_step taken
  cases moves_of_step taken with
  | listener | firstSignal | secondSignal =>
      exact explained.stay moves rfl rfl rfl rfl fun _ => id
  | sink action sink later moved =>
      exact explained.stay moves rfl rfl rfl rfl fun _ => Sink.returned_step moved
  | selectTask kind result here ended =>
      simp only [Explained, here] at explained
      have awaited (other : ListenerKind)
          (done : Function.update s.done kind true other = true) : other = kind := by
        by_contra different
        rw [Function.update_of_ne different, explained] at done
        cases done
      refine ⟨?_, ?_, (fun error never => by cases never), fun other passed => ?_⟩
      · intro other done
        obtain rfl := awaited other done
        exact ⟨result, ended, fun _ => id⟩
      · intro error failed
        exact ⟨kind, failed ▸ ended⟩
      · cases other <;> cases passed
  | selectCancelled here asked =>
      simp only [Explained, here] at explained
      have unread : s.Sourced (.ok ()) := fun error never => by cases never
      refine ⟨?_, unread, unread, fun other passed => ?_⟩
      · intro other done
        exact absurd done (by simp [explained other])
      · cases other <;> cases passed
  | skip result drained stage after kind here due known =>
      simp only [Explained, here] at explained
      refine ⟨explained.chosen, explained.sourced, explained.ends, ?_⟩
      intro other passed missed
      rcases awaits_passed due passed with rfl | before
      · exact absurd known (by simpa using missed)
      · exact explained.passed other before missed
  | await result drained read stage after kind here due ended =>
      simp only [Explained, here] at explained
      refine ⟨explained.chosen, explained.sourced, ?_, ?_⟩
      · exact explained.ends.merge fun error failed => ⟨kind, failed ▸ ended⟩
      · intro other passed missed
        rcases awaits_passed due passed with rfl | before
        · exact ⟨read, ended, settles_merged⟩
        · obtain ⟨earlier, own, settles⟩ := explained.passed other before missed
          exact ⟨earlier, own, settles.merge read⟩
  | drained result drained here =>
      simp only [Explained, here] at explained
      refine ⟨explained.chosen.merge drained, explained.sourced.merge explained.ends, ?_⟩
      intro _ kind
      by_cases known : s.done kind = true
      · obtain ⟨read, ended, first⟩ := explained.chosen kind known
        refine ⟨read, ended, Settles.merge ?_ drained⟩
        exact fun error failed => Or.inl (first error failed)
      · obtain ⟨read, ended, settles⟩ := explained.passed kind (by cases kind <;> rfl)
          (by simpa using known)
        exact ⟨read, ended, settles.trans⟩
  | abandon _ result drained stage here =>
      simp only [Explained, here] at explained
      exact ⟨explained.chosen.step moves rfl, explained.sourced.step moves,
        fun never => by cases never⟩
  | beginShutdown result here =>
      simp only [Explained, here] at explained
      exact explained.step moves rfl rfl
  | finish error result ok here shut =>
      simp only [Explained, here] at explained
      exact ⟨result, s.warned, error, ok, explained.step moves rfl rfl, shut, rfl, rfl⟩

/-! ### The sink -/

/-- The main task begins the shutdown of the sink, once. -/
def Closes (s : Server) : Prop :=
  match s.main with
  | .selecting | .draining _ _ _ | .stopping _ => s.sink.shutdown = .notCalled
  | .closing _ => s.sink.shutdown ≠ .notCalled
  | .returned _ => ∃ ok, s.sink.shutdown = .returned ok

structure Sound (s : Server) : Prop where
  coherent : s.sink.Coherent
  locked : s.sink.Locked
  closes : s.Closes
  explained : s.Explained

theorem notCalled_step {sink later : Sink} {action : SinkAction} (kept : action.begins = false)
    (taken : sink.step action = some later) :
    later.shutdown = .notCalled ↔ sink.shutdown = .notCalled := by
  rcases Sink.step_cases taken with
    ⟨record, rfl, rfl⟩ | ⟨id, move, call, new, rfl, _, _, rfl⟩ | ⟨move, rfl, shut⟩
  · rfl
  · exact (Sink.effect_fixed sink id call move).2.2 ▸ Iff.rfl
  · cases move with
    | begin => cases kept
    | lock | close | startFlush | endFlush =>
        obtain ⟨here, given⟩ := Option.ite_none_right_eq_some.mp shut
        obtain rfl := Option.some.inj given
        simp [here]
    | endDrain =>
        simp only [Sink.shut] at shut
        split at shut
        · rename_i flushed here
          obtain rfl := Option.some.inj shut
          simp [here]
        · cases shut

theorem Closes.step (closes : s.Closes) (moves : s.Moves action next) : next.Closes := by
  cases moves with
  | listener | firstSignal | secondSignal => exact closes
  | selectTask _ _ here | selectCancelled here | skip _ _ _ _ _ here | await _ _ _ _ _ _ here
  | drained _ _ here | abandon _ _ _ _ here =>
      simp only [Closes, here] at closes
      exact closes
  | beginShutdown => exact fun never => by cases never
  | finish _ _ ok here shut => exact ⟨ok, shut⟩
  | sink action sink later moved =>
      have same := notCalled_step later moved
      simp only [Closes] at closes ⊢
      split at closes
      · exact same.mpr closes
      · exact same.mpr closes
      · exact same.mpr closes
      · exact fun begun => closes (same.mp begun)
      · obtain ⟨ok, returned⟩ := closes
        exact ⟨ok, Sink.returned_step moved returned⟩

/-- A step of the server is a step of its sink, or leaves the sink as it was. -/
theorem Moves.sinkMoves (moves : s.Moves action next) :
    next.sink = s.sink ∨ ∃ action, s.sink.step action = some next.sink := by
  cases moves with
  | beginShutdown result here fresh =>
      exact Or.inr ⟨.shutdown .begin, by simp only [Sink.step, Sink.shut, if_pos fresh]⟩
  | sink action sink later moved => exact Or.inr ⟨action, moved⟩
  | _ => exact Or.inl rfl

theorem Sound.step (sound : s.Sound) (taken : s.step action = some next) : next.Sound := by
  have moves := moves_of_step taken
  have closes := sound.closes.step moves
  have explained := sound.explained.step taken
  rcases moves.sinkMoves with same | ⟨action, moved⟩
  · exact ⟨same ▸ sound.coherent, same ▸ sound.locked, closes, explained⟩
  · exact ⟨sound.coherent.step moved, sound.locked.step moved, closes, explained⟩

theorem sound_opened (settings : SinkSettings) : (opened settings).Sound where
  coherent := Sink.coherent_opened settings
  locked := Sink.locked_opened settings
  closes := rfl
  explained _ := rfl

section Reachable

variable {settings : SinkSettings} {actions : List ServerAction}

theorem sound_run (ran : run settings actions = some s) : s.Sound :=
  invariant_run (fun _ _ _ taken sound => Sound.step sound taken) actions _ _ ran
    (sound_opened settings)

theorem settings_run (ran : run settings actions = some s) : s.sink.settings = settings := by
  have kept (before : Server) (action : ServerAction) (following : Server)
      (taken : before.step action = some following) (same : before.sink.settings = settings) :
      following.sink.settings = settings := by
    rcases (moves_of_step taken).sinkMoves with still | ⟨action, moved⟩
    · rw [still, same]
    · rw [Sink.settings_step moved, same]
  exact invariant_run kept actions _ _ ran rfl

/-- Once `run` has returned, admission is closed for good: nothing is saved any more. -/
theorem sealed_step (returned : s.main = .returned result) (sound : s.Sound)
    (taken : s.step action = some next) :
    next.main = .returned result ∧ next.sink.saved = s.sink.saved := by
  have closes := sound.closes
  simp only [Closes, returned] at closes
  obtain ⟨ok, shut⟩ := closes
  have closed : s.sink.admission = false := by rw [sound.locked.open_iff, shut]; rfl
  have still : next.main = .returned result := by
    cases moves_of_step taken with
    | listener | firstSignal | secondSignal | sink => exact returned
    | selectTask _ _ here | selectCancelled here | skip _ _ _ _ _ here | await _ _ _ _ _ _ here
    | drained _ _ here | abandon _ _ _ _ here | beginShutdown _ here | finish _ _ _ here =>
        simp [returned] at here
  rcases (moves_of_step taken).sinkMoves with same | ⟨action, moved⟩
  · exact ⟨still, by rw [same]⟩
  · exact ⟨still, (Sink.step_closed sound.coherent sound.locked closed moved).2⟩

/-- However `run` comes to return, it has shut the sink down before: every record admitted is
saved, and what the abandoned connections still do saves nothing, so that no exporter is told
that a record was taken which the file and the totals do not have. -/
theorem returned_seals (ran : run settings actions = some s)
    (returned : s.main = .returned result) :
    s.sink.Idle ∧ (∃ ok, s.sink.shutdown = .returned ok ∧ (result = .ok () → ok = true)) ∧
    ∀ after later, runFrom step s after = some later →
      later.main = .returned result ∧ later.sink.saved = s.sink.saved ∧
      ∀ id call, later.sink.calls[id]? = some call → call.caller = .returned true →
        (id, call.record) ∈ s.sink.ingested ∧
        (settings.jsonl = true → (id, call.record) ∈ s.sink.written) := by
  have sound := sound_run ran
  have closes := sound.closes
  have explained := sound.explained
  simp only [Closes, returned] at closes
  simp only [Explained, returned] at explained
  obtain ⟨own, warned, error, ok, _, shut, merged, _⟩ := explained
  have closed : s.sink.admission = false := by rw [sound.locked.open_iff, shut]; rfl
  refine ⟨?_, ⟨ok, shut, ?_⟩, ?_⟩
  · intro call member task holds
    by_contra running
    have valid := sound.coherent.valid call member
    have guard : call.guard = some true := by
      unfold RecordCall.Valid at valid
      rw [holds] at valid
      cases task with
      | finished ended => simp [SaveTask.running] at running
      | _ => exact valid.1
    have reads := sound.locked.reads call member true guard
    rw [closed] at reads
    cases reads
  · intro good
    subst good
    cases ok with
    | true => rfl
    | false =>
        rcases own with first | done
        · cases merged
        · cases merged
  · intro after later reached
    have kept (before : Server) (action : ServerAction) (following : Server)
        (taken : before.step action = some following)
        (held : before.Sound ∧ before.main = .returned result ∧
          before.sink.saved = s.sink.saved ∧ before.sink.settings = settings) :
        following.Sound ∧ following.main = .returned result ∧
          following.sink.saved = s.sink.saved ∧ following.sink.settings = settings := by
      obtain ⟨beforeSound, here, same, own⟩ := held
      obtain ⟨still, saved⟩ := sealed_step here beforeSound taken
      refine ⟨beforeSound.step taken, still, saved.trans same, ?_⟩
      rcases (moves_of_step taken).sinkMoves with unmoved | ⟨action, moved⟩
      · rw [unmoved, own]
      · rw [Sink.settings_step moved, own]
    obtain ⟨laterSound, still, saved, laterSettings⟩ :=
      invariant_run kept after _ _ reached ⟨sound, returned, rfl, settings_run ran⟩
    refine ⟨still, saved, ?_⟩
    intro id call found answered
    have done := (laterSound.coherent.valid call (List.mem_of_getElem? found)).returned answered
    simp only [Sink.saved, Prod.mk.injEq] at saved
    obtain ⟨written, _, ingested, _⟩ := saved
    rw [← ingested, ← written]
    refine ⟨laterSound.coherent.ingested.mem_of_found found (RecordCall.reached_some done), ?_⟩
    intro jsonl
    rw [← laterSettings] at jsonl
    exact (laterSound.coherent.written jsonl).mem_of_found found (RecordCall.reached_some done)

end Reachable

/-- A bind fails, a connection holds the other listener until the grace is over, a batch is being
saved meanwhile, and the last flush fails. -/
def stuckAtBindFailure : List ServerAction :=
  [.listener .grpc (.bind (.ok ())), .sink (.call (.logs { resourceLogs := [] })),
    .sink (.act 0 .takeGuard), .sink (.act 0 .check),
    .listener .http (.bind (.error ["bind HTTP 0.0.0.0:4318"])), .selectTask .http,
    .graceExpired, .beginShutdown, .sink (.act 0 (.write true)), .sink (.act 0 .ingest),
    .sink (.act 0 .queuePretty), .sink (.act 0 .notify), .sink (.shutdown .lock),
    .sink (.shutdown .close), .sink (.shutdown .startFlush),
    .sink (.shutdown (.endFlush false)), .sink (.shutdown .endDrain), .finish ["fsync"]]

theorem returned_seals_stuck : ∃ s, run Sink.allOutputs stuckAtBindFailure = some s ∧
    s.main = .returned (.error ["HTTP task", "bind HTTP 0.0.0.0:4318"]) ∧
    s.warned = ["shutdown JSONL sink"] ∧ s.sink.written.map Prod.fst = [0] ∧
    s.sink.Idle := by
  have facts : (run Sink.allOutputs stuckAtBindFailure).any (fun s =>
      s.main = .returned (.error ["HTTP task", "bind HTTP 0.0.0.0:4318"]) ∧
      s.warned = ["shutdown JSONL sink"] ∧ s.sink.written.map Prod.fst = [0]) =
        true := by
    decide +kernel
  obtain ⟨s, ran, facts⟩ := (Option.any_eq_true _ _).mp facts
  obtain ⟨returned, warned, written⟩ := of_decide_eq_true facts
  exact ⟨s, ran, returned, warned, written, (returned_seals ran returned).1⟩

section Reachable

variable {settings : SinkSettings} {actions : List ServerAction}

/-- What `run` returns: an error of a listener, else that of the last flush. An error of the
listener that the main task selected is the result. An error of the last flush is the result or was
logged, and when the drain was not given up, so is every error of a listener, by its outermost
context. -/
theorem run_reports (ran : run settings actions = some s)
    (returned : s.main = .returned result) :
    (∀ error, result = .error error → (∃ kind, s.report kind = some (.error error)) ∨
      (s.sink.shutdown = .returned false ∧ error.head? = some "shutdown JSONL sink")) ∧
    (∀ kind error, s.done kind = true → s.report kind = some (.error error) →
      result = .error error) ∧
    (s.sink.shutdown = .returned false →
      (∃ error, result = .error error ∧ error.outermost = "shutdown JSONL sink") ∨
        ((∃ kind error, result = .error error ∧ s.report kind = some (.error error)) ∧
          "shutdown JSONL sink" ∈ s.warned)) ∧
    (s.abandoned = false →
      (∀ kind error, s.report kind = some (.error error) →
        (∃ other first, result = .error first ∧ s.report other = some (.error first)) ∧
        (result = .error error ∨ error.outermost ∈ s.warned)) ∧
      (result = .ok () ↔
        (∀ kind, s.report kind = some (.ok ())) ∧ s.sink.shutdown = .returned true)) := by
  have explained := (sound_run ran).explained
  simp only [Explained, returned] at explained
  obtain ⟨own, before, error, ok, concluded, shut, rfl, logged⟩ := explained
  obtain ⟨chosen, sourced, every⟩ := concluded
  have listeners (stays : s.abandoned = false) (kind : ListenerKind) (failure : ErrorChain)
      (ended : s.report kind = some (.error failure)) :
      (∃ other first, own = .error first ∧ s.report other = some (.error first)) ∧
      (own = .error failure ∨ failure.outermost ∈ before) := by
    obtain ⟨read, same, settles⟩ := every stays kind
    obtain rfl := Option.some.inj (same.symm.trans ended)
    rcases settles failure rfl with first | ⟨⟨first, failed⟩, listed⟩
    · exact ⟨⟨kind, failure, first, ended⟩, Or.inl first⟩
    · obtain ⟨other, ends⟩ := sourced first failed
      exact ⟨⟨other, first, failed, ends⟩, Or.inr listed⟩
  refine ⟨?_, ?_, ?_, fun stays => ⟨?_, ?_⟩⟩
  · intro failure failed
    rcases merge_source failed with first | closed
    · exact Or.inl (sourced failure first)
    · cases ok with
      | true => cases closed
      | false =>
          obtain rfl := Except.error.inj closed
          exact Or.inr ⟨shut, rfl⟩
  · intro kind failure awaited ended
    obtain ⟨read, same, first⟩ := chosen kind awaited
    obtain rfl := Option.some.inj (same.symm.trans ended)
    exact merge_first (first failure rfl)
  · intro unflushed
    obtain rfl : ok = false := Shutdown.returned.inj (shut.symm.trans unflushed)
    rcases own with first | done
    · obtain ⟨kind, ended⟩ := sourced first rfl
      refine Or.inr ⟨⟨kind, first, rfl, ended⟩, ?_⟩
      rw [logged]
      exact List.mem_append_right _ (List.mem_singleton.mpr rfl)
    · exact Or.inl ⟨_, rfl, rfl⟩
  · intro kind failure ended
    obtain ⟨⟨other, first, failed, ends⟩, settled⟩ := listeners stays kind failure ended
    refine ⟨⟨other, first, merge_first failed, ends⟩, ?_⟩
    rw [logged]
    exact settled.imp merge_first (List.mem_append_left _)
  · constructor
    · intro good
      have fine : own = .ok () ∧ ok = true := by
        rcases own with first | done
        · rw [merge_first rfl] at good
          cases good
        · cases ok with
          | true => exact ⟨rfl, rfl⟩
          | false => cases good
      refine ⟨fun kind => ?_, fine.2 ▸ shut⟩
      obtain ⟨read, ended, _⟩ := every stays kind
      rcases read with failure | done
      · obtain ⟨⟨_, first, failed, _⟩, _⟩ := listeners stays kind failure ended
        rw [fine.1] at failed
        cases failed
      · exact ended
    · rintro ⟨ends, flushed⟩
      obtain rfl : ok = true := Shutdown.returned.inj (shut.symm.trans flushed)
      rcases own with first | done
      · obtain ⟨kind, ended⟩ := sourced first rfl
        rw [ends kind] at ended
        cases ended
      · rfl

end Reachable

/-- Both listeners fail to bind. -/
def bothFailToBind : List ServerAction :=
  [.listener .http (.bind (.error ["bind HTTP 0.0.0.0:4318"])),
    .listener .grpc (.bind (.error ["bind gRPC 0.0.0.0:4317"])), .selectTask .http, .drain,
    .drain, .drain, .beginShutdown, .sink (.shutdown .lock), .sink (.shutdown .close),
    .sink (.shutdown .startFlush), .sink (.shutdown (.endFlush true)),
    .sink (.shutdown .endDrain), .finish []]

theorem run_reports_bothFail : ∃ s result, run Sink.allOutputs bothFailToBind = some s ∧
    s.main = .returned result ∧ result = .error ["HTTP task", "bind HTTP 0.0.0.0:4318"] ∧
    "gRPC task" ∈ s.warned := by
  have facts : (run Sink.allOutputs bothFailToBind).any (fun s =>
      s.main = .returned (.error ["HTTP task", "bind HTTP 0.0.0.0:4318"]) ∧
      s.abandoned = false ∧
      s.report .grpc = some (.error ["gRPC task", "bind gRPC 0.0.0.0:4317"])) = true := by
    decide +kernel
  obtain ⟨s, ran, facts⟩ := (Option.any_eq_true _ _).mp facts
  obtain ⟨returned, stays, failed⟩ := of_decide_eq_true facts
  obtain ⟨_, logged⟩ := ((run_reports ran returned).2.2.2 stays).1 .grpc _ failed
  exact ⟨s, _, ran, returned, rfl, logged.resolve_left (by simp)⟩

/-! ### Termination -/

end Server

/-- The steps that wait for no peer: those of the main task and its timer, of the sink's shutdown,
and of the calls that hold a guard. -/
def ServerAction.ours : ServerAction → Bool
  | listener _ _ | signal => false
  | sink (.call _) => false
  | sink (.act _ action) => action.ours
  | _ => true

def DrainStage.left : DrainStage → ℕ
  | grpc => 2
  | http => 1
  | drained => 0

def ServerMain.left : ServerMain → ℕ
  | selecting => 6
  | draining _ stage _ => 3 + stage.left
  | stopping _ => 2
  | closing _ => 1
  | returned _ => 0

def Shutdown.left : Shutdown → ℕ
  | notCalled => 6
  | waiting => 5
  | locked => 4
  | closed => 3
  | flushing => 2
  | draining _ => 1
  | returned _ => 0

namespace Server

def remaining (s : Server) : ℕ :=
  s.main.left + s.sink.shutdown.left + s.sink.remaining

/-- There is a reason to stop: a signal came, or a listener ended. -/
def Requested (s : Server) : Prop :=
  s.main = .selecting → s.shutdown = true ∨ ∃ kind result, s.report kind = some result

def isReturned (s : Server) : Prop :=
  ∃ result, s.main = .returned result

variable {s next : Server} {action : ServerAction}

theorem awaits_left {stage after : DrainStage} {kind : ListenerKind}
    (due : stage.awaits = some (kind, after)) : after.left < stage.left := by
  cases stage with
  | grpc | http =>
      obtain ⟨_, rfl⟩ := Prod.mk.inj (Option.some.inj due)
      simp [DrainStage.left]
  | drained => cases due

theorem shut_left {sink later : Sink} {move : ShutdownAction}
    (taken : sink.step (.shutdown move) = some later) :
    later.shutdown.left < sink.shutdown.left ∧ later.remaining = sink.remaining := by
  have shut : sink.shut move = some later := taken
  have calls : later.calls = sink.calls := by rw [Sink.shut_eq shut]
  refine ⟨?_, by rw [Sink.remaining, Sink.remaining, calls]⟩
  cases move with
  | begin | lock | close | startFlush | endFlush =>
      obtain ⟨here, given⟩ := Option.ite_none_right_eq_some.mp shut
      obtain rfl := Option.some.inj given
      simp [here, Shutdown.left]
  | endDrain =>
      simp only [Sink.shut] at shut
      split at shut
      · rename_i flushed here
        obtain rfl := Option.some.inj shut
        simp [here, Shutdown.left]
      · cases shut

theorem Moves.lowers (moves : s.Moves action next) (sound : s.Sound) (ours : action.ours = true) :
    next.remaining < s.remaining := by
  cases moves with
  | listener | firstSignal | secondSignal => cases ours
  | selectTask _ _ here | selectCancelled here =>
      simp only [remaining, here, ServerMain.left, DrainStage.left]
      omega
  | skip _ _ _ _ _ here due | await _ _ _ _ _ _ here due =>
      have lower := awaits_left due
      simp only [remaining, here, ServerMain.left]
      omega
  | drained _ _ here =>
      simp only [remaining, here, ServerMain.left]
      omega
  | abandon _ _ _ _ here =>
      simp only [remaining, Server.abandon, here, ServerMain.left]
      omega
  | beginShutdown _ here fresh =>
      simp only [remaining, here, fresh, ServerMain.left, Shutdown.left, Sink.remaining]
      omega
  | finish _ _ _ here =>
      simp only [remaining, finished, here, ServerMain.left]
      omega
  | sink action sink later moved =>
      simp only [remaining]
      cases action with
      | call record => cases ours
      | act id action =>
          obtain ⟨lower, same⟩ := Sink.remaining_step sound.coherent ours moved
          rw [same]
          omega
      | shutdown move =>
          obtain ⟨lower, same⟩ := shut_left moved
          omega

theorem Requested.step (requested : s.Requested) (moves : s.Moves action next) :
    next.Requested := by
  intro here
  have still : s.main = .selecting := by
    cases moves with
    | listener | firstSignal | secondSignal | sink => exact here
    | _ => cases here
  rcases requested still with asked | ⟨kind, result, ended⟩
  · left
    cases moves with
    | firstSignal | selectTask => rfl
    | _ => exact asked
  · exact Or.inr ⟨kind, result, moves.report ended⟩

theorem closing_enabled {result : TaskResult} (sound : s.Sound) (here : s.main = .closing result) :
    ∃ action next, action.ours = true ∧ s.step action = some next := by
  have closes := sound.closes
  simp only [Closes, here] at closes
  have shuts (move : ShutdownAction) (later : Sink) (kept : move ≠ .begin)
      (moved : s.sink.shut move = some later) :
      ∃ action next, action.ours = true ∧ s.step action = some next := by
    refine ⟨.sink (.shutdown move), { s with sink := later }, rfl, ?_⟩
    have quiet : ¬(SinkAction.shutdown move).begins = true := by
      cases move with
      | begin => exact absurd rfl kept
      | _ => simp [SinkAction.begins]
    have taken : s.sink.step (.shutdown move) = some later := moved
    rw [Server.step, if_neg quiet, taken]
    rfl
  cases stage : s.sink.shutdown with
  | notCalled => exact absurd stage closes
  | waiting =>
      by_cases free : ∀ call ∈ s.sink.calls, call.guard = none
      · exact shuts .lock _ (by simp) (by rw [Sink.shut, if_pos ⟨stage, free⟩])
      · push Not at free
        obtain ⟨id, move, later, ours, moved⟩ := Sink.progresses sound.coherent free
        refine ⟨.sink (.act id move), { s with sink := later }, ours, ?_⟩
        rw [Server.step, if_neg (by simp [SinkAction.begins]), moved]
        rfl
  | locked => exact shuts .close _ (by simp) (by rw [Sink.shut, if_pos stage])
  | closed => exact shuts .startFlush _ (by simp) (by rw [Sink.shut, if_pos stage])
  | flushing => exact shuts (.endFlush true) _ (by simp) (by rw [Sink.shut, if_pos stage])
  | draining flushed => exact shuts .endDrain _ (by simp) (by rw [Sink.shut, stage])
  | returned ok =>
      refine ⟨.finish [], s.finished [] result ok, rfl, ?_⟩
      rw [Server.step, here, stage]

theorem windsDown : WindsDown step (fun action => action.ours = true)
    (fun s => s.Sound ∧ s.Requested) isReturned remaining where
  lowers s action next held ours taken :=
    ⟨⟨held.1.step taken, held.2.step (moves_of_step taken)⟩,
      (moves_of_step taken).lowers held.1 ours⟩
  enabled s held running := by
    obtain ⟨sound, requested⟩ := held
    cases here : s.main with
    | selecting =>
        rcases requested here with asked | ⟨kind, result, ended⟩
        · exact ⟨.selectCancelled, _, rfl, by rw [Server.step, here, if_pos asked]⟩
        · have step : s.step (.selectTask kind) = some
              { s with
                done := Function.update s.done kind true
                shutdown := true
                main := .draining result .grpc (.ok ()) } := by
            rw [Server.step, here, ended]
            rfl
          exact ⟨_, _, rfl, step⟩
    | draining result stage drained => exact ⟨.graceExpired, _, rfl, by rw [Server.step, here]⟩
    | stopping result =>
        have closes := sound.closes
        simp only [Closes, here] at closes
        have step : s.step .beginShutdown = some
            { s with
              signals := .aborted
              main := .closing result
              sink := { s.sink with shutdown := .waiting } } := by
          rw [Server.step, here, Sink.step, Sink.shut, if_pos closes]
          rfl
        exact ⟨_, _, rfl, step⟩
    | closing result => exact closing_enabled sound here
    | returned result => exact absurd ⟨result, here⟩ running

/-- Once there is a reason to stop, `run` returns by the steps of the process alone: a connection
that never ends, or a listener that never stops, cannot hold it up, in whatever order the steps
are taken. -/
theorem shutdown_completes {settings : SinkSettings} {actions own : List ServerAction}
    {reached : Server} (ran : run settings actions = some s) (requested : s.Requested)
    (ours : ∀ action ∈ own, action.ours = true) (on : runFrom step s own = some reached) :
    ∃ more last, (∀ action ∈ more, action.ours = true) ∧
      runFrom step reached more = some last ∧ last.isReturned ∧
      (own ++ more).length ≤ 12 + 5 * s.sink.calls.length := by
  obtain ⟨more, last, owned, rest, arrived, within⟩ :=
    windsDown.completes ⟨sound_run ran, requested⟩ ours on
  refine ⟨more, last, owned, rest, arrived, within.trans ?_⟩
  have main : s.main.left ≤ 6 := by
    cases s.main with
    | draining _ stage _ => cases stage <;> simp [ServerMain.left, DrainStage.left]
    | _ => simp [ServerMain.left]
  have shut : s.sink.shutdown.left ≤ 6 := by cases s.sink.shutdown <;> simp [Shutdown.left]
  have calls : s.sink.remaining ≤ 5 * s.sink.calls.length := by
    refine (load_le_load fun call _ => call.remaining_le).trans ?_
    simp [load, mul_comm]
  rw [remaining]
  omega

theorem shutdown_completes_stuck : ∃ s reached,
    run Sink.allOutputs (stuckAtBindFailure.take 6) = some s ∧
    runFrom step s [.sink (.act 0 (.write true))] = some reached ∧
    ∃ more last, runFrom step reached more = some last ∧ last.isReturned := by
  have facts : (run Sink.allOutputs (stuckAtBindFailure.take 6)).any (fun s =>
      s.main ≠ .selecting ∧ (runFrom step s [.sink (.act 0 (.write true))]).isSome = true) =
        true := by
    decide +kernel
  obtain ⟨s, ran, facts⟩ := (Option.any_eq_true _ _).mp facts
  obtain ⟨chosen, on⟩ := of_decide_eq_true facts
  obtain ⟨reached, on⟩ := Option.isSome_iff_exists.mp on
  have ours : ∀ action ∈ [ServerAction.sink (.act 0 (.write true))], action.ours = true := by
    simp [ServerAction.ours, CallAction.ours]
  obtain ⟨more, last, _, rest, arrived, _⟩ :=
    shutdown_completes ran (fun here => absurd here chosen) ours on
  exact ⟨s, reached, ran, on, more, last, rest, arrived⟩

end Server

end OtelLogger
