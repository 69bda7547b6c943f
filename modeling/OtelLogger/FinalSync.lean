import OtelLogger.Sink

/-!
The final synchronization. The write guard that `shutdown` takes excludes every admission guard,
and a guard taken afterwards reads that the sink is closed: what is saved at all is saved before
the last flush starts.
-/

namespace OtelLogger

open Interleaving

def Shutdown.admits : Shutdown → Bool
  | notCalled | waiting | locked => true
  | _ => false

/-- The lock as its guards see it. -/
structure Sink.Locked (s : Sink) : Prop where
  open_iff : s.admission = s.shutdown.admits
  reads : ∀ call ∈ s.calls, ∀ value, call.guard = some value → value = s.admission
  exclusive : s.shutdown.writeHeld = true → ∀ call ∈ s.calls, call.guard = none

theorem RecordCall.Moves.guard {s : Sink} {call new : RecordCall} {action : CallAction}
    (moves : call.Moves s action new) :
    new.guard = none ∨ new.guard = call.guard ∨
      (new.guard = some s.admission ∧ s.shutdown.writeHeld = false) := by
  cases moves with
  | takeGuard _ free => exact Or.inr (Or.inr ⟨rfl, free⟩)
  | refuse | fail | notify => exact Or.inl rfl
  | _ => exact Or.inr (Or.inl rfl)

theorem Sink.Locked.shut {s next : Sink} {move : ShutdownAction} (taken : s.shut move = some next)
    (locked : s.Locked) : next.Locked := by
  have calls : next.calls = s.calls := by rw [Sink.shut_eq taken]
  have admitted := locked.open_iff
  cases move with
  | begin =>
      obtain ⟨before, result⟩ := Option.ite_none_right_eq_some.mp taken
      obtain rfl := Option.some.inj result
      rw [before] at admitted
      exact ⟨admitted, locked.reads, fun held => by
        simp [Shutdown.writeHeld] at held⟩
  | lock =>
      obtain ⟨⟨before, free⟩, result⟩ := Option.ite_none_right_eq_some.mp taken
      obtain rfl := Option.some.inj result
      rw [before] at admitted
      exact ⟨admitted, locked.reads, fun _ => free⟩
  | close =>
      obtain ⟨before, result⟩ := Option.ite_none_right_eq_some.mp taken
      obtain rfl := Option.some.inj result
      have free := locked.exclusive (by rw [before]; rfl)
      refine ⟨rfl, ?_, fun _ => free⟩
      intro call member value guard
      simp [free call member] at guard
  | startFlush =>
      obtain ⟨before, result⟩ := Option.ite_none_right_eq_some.mp taken
      obtain rfl := Option.some.inj result
      have free := locked.exclusive (by rw [before]; rfl)
      rw [before] at admitted
      exact ⟨admitted, locked.reads, fun _ => free⟩
  | endFlush ok =>
      obtain ⟨before, result⟩ := Option.ite_none_right_eq_some.mp taken
      obtain rfl := Option.some.inj result
      have free := locked.exclusive (by rw [before]; rfl)
      rw [before] at admitted
      exact ⟨admitted, locked.reads, fun _ => free⟩
  | endDrain =>
      simp only [Sink.shut] at taken
      split at taken
      · rename_i flushed before
        obtain rfl := Option.some.inj taken
        rw [before] at admitted
        exact ⟨admitted, locked.reads, fun held => by simp [Shutdown.writeHeld] at held⟩
      · simp at taken

theorem Sink.Locked.step {s next : Sink} {action : SinkAction}
    (taken : s.step action = some next) (locked : s.Locked) : next.Locked := by
  rcases Sink.step_cases taken with
    ⟨record, rfl, rfl⟩ | ⟨id, move, call, new, rfl, found, moves, rfl⟩ | ⟨move, rfl, shut⟩
  · refine ⟨locked.open_iff, ?_, ?_⟩
    · intro call member value guard
      rcases List.mem_append.mp member with before | own
      · exact locked.reads call before value guard
      · obtain rfl := List.mem_singleton.mp own
        simp at guard
    · intro held call member
      rcases List.mem_append.mp member with before | own
      · exact locked.exclusive held call before
      · obtain rfl := List.mem_singleton.mp own
        rfl
  · obtain ⟨_, admission, shutdown⟩ := Sink.effect_fixed s id call move
    have present := List.mem_of_getElem? found
    have guard := moves.guard
    refine ⟨?_, ?_, ?_⟩
    · change (s.effect id call move).admission = (s.effect id call move).shutdown.admits
      rw [admission, shutdown]
      exact locked.open_iff
    · intro other member value held
      change value = (s.effect id call move).admission
      rw [admission]
      rcases mem_set_of_found member with rfl | before
      · rcases guard with none | same | taken
        · simp [none] at held
        · exact locked.reads call present value (same ▸ held)
        · exact (Option.some.inj (taken.1.symm.trans held)).symm
      · exact locked.reads other before value held
    · intro held other member
      replace held : s.shutdown.writeHeld = true := shutdown ▸ held
      rcases mem_set_of_found member with rfl | before
      · rcases guard with none | same | taken
        · exact none
        · exact same.trans (locked.exclusive held call present)
        · simp [taken.2] at held
      · exact locked.exclusive held other before
  · exact locked.shut shut

theorem Sink.locked_opened (settings : SinkSettings) : (Sink.opened settings).Locked where
  open_iff := rfl
  reads call member := by simp [Sink.opened] at member
  exclusive held := by simp [Sink.opened, Shutdown.writeHeld] at held

theorem Sink.locked_run {settings : SinkSettings} {actions : List SinkAction} {s : Sink}
    (ran : Sink.run settings actions = some s) : s.Locked :=
  invariant_run (fun _ _ _ taken => Sink.Locked.step taken) actions _ _ ran
    (Sink.locked_opened settings)

/-- The actions that write, count or forward a record. -/
def CallAction.saves : CallAction → Bool
  | write _ | ingest | queuePretty | notify => true
  | _ => false

section Saving

variable {s next : Sink} {call new : RecordCall} {action : CallAction} {id : ℕ}

theorem RecordCall.Moves.saving (moves : call.Moves s action new) (valid : call.Valid)
    (saves : action.saves = true) :
    ∃ task, call.task = some task ∧ task.running = true ∧ call.guard = some true := by
  have held {task : SaveTask} (own : call.task = some task) (running : task.running = true) :
      ∃ task, call.task = some task ∧ task.running = true ∧ call.guard = some true := by
    refine ⟨task, own, running, ?_⟩
    unfold Valid at valid
    rw [own] at valid
    cases task with
    | finished ok => simp [SaveTask.running] at running
    | _ => exact valid.1
  cases moves with
  | takeGuard | spawn | refuse | cancel | respond => simp [CallAction.saves] at saves
  | fail own | persist _ own => exact held own rfl
  | ingest counts => exact held counts rfl
  | queuePretty _ queues => exact held queues rfl
  | notify notifies => exact held notifies rfl

theorem Sink.effect_quiet (s : Sink) (id : ℕ) (call : RecordCall)
    (quiet : action.saves = false) : s.effect id call action = s := by
  cases action with
  | write | ingest | queuePretty | notify => simp [CallAction.saves] at quiet
  | _ => rfl

def Sink.saved (s : Sink) :=
  (s.written, s.failed, s.ingested, s.aggregator, s.queued, s.forwarded)

theorem Sink.step_closed {action : SinkAction} (coherent : s.Coherent) (locked : s.Locked)
    (closed : s.admission = false) (taken : s.step action = some next) :
    next.admission = false ∧ next.saved = s.saved := by
  rcases Sink.step_cases taken with
    ⟨record, rfl, rfl⟩ | ⟨id, move, call, new, rfl, found, moves, rfl⟩ | ⟨move, rfl, shut⟩
  · exact ⟨closed, rfl⟩
  · have present := List.mem_of_getElem? found
    have quiet : move.saves = false := by
      by_contra saves
      obtain ⟨task, _, _, guard⟩ := moves.saving (coherent.valid call present) (by simpa using saves)
      have reads := locked.reads call present true guard
      simp [closed] at reads
    rw [Sink.effect_quiet s id call quiet]
    exact ⟨closed, rfl⟩
  · have after := locked.shut shut
    refine ⟨?_, by rw [Sink.shut_eq shut]; rfl⟩
    have before := locked.open_iff
    rw [closed] at before
    rw [after.open_iff]
    cases move with
    | begin | lock =>
        obtain ⟨here, _⟩ := Option.ite_none_right_eq_some.mp shut
        simp [here, Shutdown.admits] at before
    | close | startFlush | endFlush =>
        obtain ⟨_, result⟩ := Option.ite_none_right_eq_some.mp shut
        obtain rfl := Option.some.inj result
        rfl
    | endDrain =>
        simp only [Sink.shut] at shut
        split at shut
        · obtain rfl := Option.some.inj shut
          rfl
        · simp at shut

end Saving

/-! ### Refused calls -/

/-- The call got its guard too late: it has spawned nothing and can only answer with an error. -/
def Sink.Refused (s : Sink) (id : ℕ) : Prop :=
  ∃ call, s.calls[id]? = some call ∧ call.task = none ∧
    ((call.caller = .guarded ∧ call.guard = some false) ∨ call.caller = .returned false)

theorem Sink.Refused.step {s next : Sink} {action : SinkAction} {id : ℕ}
    (taken : s.step action = some next) (refused : s.Refused id) : next.Refused id := by
  obtain ⟨call, found, idle, stage⟩ := refused
  rcases Sink.step_cases taken with
    ⟨record, rfl, rfl⟩ | ⟨other, move, moved, new, rfl, present, moves, rfl⟩ | ⟨move, rfl, shut⟩
  · refine ⟨call, ?_, idle, stage⟩
    rw [List.getElem?_append_left (lt_of_found found)]
    exact found
  · by_cases same : other = id
    · subst same
      obtain rfl := Option.some.inj (present.symm.trans found)
      refine ⟨new, by rw [getElem?_set_of_found present, if_pos rfl], ?_⟩
      cases moves with
      | takeGuard waits | cancel waits =>
          rcases stage with ⟨holds, _⟩ | answered
          · simp [holds] at waits
          · simp [answered] at waits
      | spawn holds admitted =>
          rcases stage with ⟨_, late⟩ | answered
          · simp [late] at admitted
          · simp [answered] at holds
      | refuse => exact ⟨idle, Or.inr rfl⟩
      | fail own | persist _ own | ingest own | queuePretty _ own | notify own =>
          simp [idle] at own
      | respond _ _ own => simp [idle] at own
    · exact ⟨call, by rw [getElem?_set_of_found present, if_neg same, found], idle, stage⟩
  · rw [Sink.shut_eq shut]
    exact ⟨call, found, idle, stage⟩

namespace Sink

section Reachable

variable {settings : SinkSettings} {actions : List SinkAction} {s : Sink}

theorem Refused.unsaved {id : ℕ} (refused : s.Refused id) (coherent : s.Coherent)
    (record : TelemetryRecord) :
    (id, record) ∉ s.written ∧ (id, record) ∉ s.ingested ∧ (id, record) ∉ s.forwarded := by
  obtain ⟨call, found, idle, _⟩ := refused
  have uncounted : (id, record) ∉ s.ingested := by
    intro counted
    have reached := coherent.ingested.passed_of_mem found counted
    simp [RecordCall.reached_none idle] at reached
  refine ⟨?_, uncounted, fun delivered => uncounted (coherent.forwarded _ delivered)⟩
  cases jsonl : s.settings.jsonl with
  | false => simp [coherent.unwritten jsonl]
  | true =>
      intro wrote
      have reached := (coherent.written jsonl).passed_of_mem found wrote
      simp [RecordCall.reached_none idle] at reached

theorem refused_of_late {next : Sink} {id : ℕ} (coherent : s.Coherent)
    (closed : s.admission = false) (taken : s.step (.act id .takeGuard) = some next) :
    next.Refused id := by
  obtain ⟨call, found, moved⟩ := Option.bind_eq_some_iff.mp taken
  obtain ⟨new, stepped, rfl⟩ := Option.map_eq_some_iff.mp moved
  refine ⟨new, by rw [getElem?_set_of_found found, if_pos rfl], ?_⟩
  cases RecordCall.moves_of_next stepped with
  | takeGuard waits =>
      refine ⟨(coherent.valid call (List.mem_of_getElem? found)).task_none (Or.inl waits), ?_⟩
      exact Or.inl ⟨rfl, by rw [closed]⟩

/-- After the write guard was taken, no save task is running. -/
theorem idle_of_exclusive (coherent : s.Coherent)
    (exclusive : ∀ call ∈ s.calls, call.guard = none) : s.Idle := by
  intro call member task own
  have valid := coherent.valid call member
  unfold RecordCall.Valid at valid
  rw [own] at valid
  cases task with
  | finished ok => rfl
  | _ => simp [exclusive call member] at valid

/-- In every interleaving with one shutdown: whatever is saved is saved by a running task whose
guard was taken while admission was open; the final flush starts when every such task has
ended, and after it nothing is saved; and a call that gets its guard after admission was closed
saves nothing and returns an error. -/
theorem nothing_saved_after_sync (ran : run settings actions = some s) :
    (∀ id action next, action.saves = true → s.step (.act id action) = some next →
      ∃ call task, s.calls[id]? = some call ∧ call.task = some task ∧ task.running = true ∧
        call.guard = some true ∧ s.admission = true) ∧
    (∀ next, s.step (.shutdown .startFlush) = some next → s.Idle ∧
      ∀ after later, runFrom step next after = some later → later.saved = s.saved) ∧
    ∀ id next, s.admission = false → s.step (.act id .takeGuard) = some next →
      ∀ after later, runFrom step next after = some later →
        (∃ call, later.calls[id]? = some call ∧
          (call.caller = .returned false ∨ ∃ answered new,
            later.step (.act id .check) = some answered ∧ answered.calls[id]? = some new ∧
              new.caller = .returned false)) ∧
        ∀ record, (id, record) ∉ later.written ∧ (id, record) ∉ later.ingested ∧
          (id, record) ∉ later.forwarded := by
  have coherent := coherent_run ran
  have locked := locked_run ran
  refine ⟨?_, ?_, ?_⟩
  · intro id action next saves taken
    obtain ⟨call, found, new, moves⟩ := act_cases taken
    have present := List.mem_of_getElem? found
    obtain ⟨task, own, running, guard⟩ := moves.saving (coherent.valid call present) saves
    exact ⟨call, task, found, own, running, guard, (locked.reads call present true guard).symm⟩
  · intro next taken
    obtain ⟨closed, result⟩ := Option.ite_none_right_eq_some.mp taken
    refine ⟨idle_of_exclusive coherent (locked.exclusive (by rw [closed]; rfl)), ?_⟩
    have shut : s.admission = false := by rw [locked.open_iff, closed]; rfl
    intro after later reached
    have kept (before : Sink) (action : SinkAction) (following : Sink)
        (stepped : before.step action = some following)
        (held : before.Coherent ∧ before.Locked ∧ before.admission = false ∧
          before.saved = s.saved) :
        following.Coherent ∧ following.Locked ∧ following.admission = false ∧ following.saved = s.saved := by
      obtain ⟨beforeCoherent, beforeLocked, beforeShut, same⟩ := held
      have frozen := step_closed beforeCoherent beforeLocked beforeShut stepped
      exact ⟨beforeCoherent.step stepped, beforeLocked.step stepped, frozen.1,
        frozen.2.trans same⟩
    have frozen := step_closed coherent locked shut taken
    exact (invariant_run kept after _ _ reached
      ⟨coherent.step taken, locked.step taken, frozen.1, frozen.2⟩).2.2.2
  · intro id next closed taken after later reached
    have refused : next.Refused id := refused_of_late coherent closed taken
    have kept (before : Sink) (action : SinkAction) (following : Sink)
        (stepped : before.step action = some following) (held : before.Coherent ∧ before.Refused id) :
        following.Coherent ∧ following.Refused id :=
      ⟨held.1.step stepped, held.2.step stepped⟩
    obtain ⟨laterCoherent, laterRefused⟩ :=
      invariant_run kept after _ _ reached ⟨coherent.step taken, refused⟩
    refine ⟨?_, laterRefused.unsaved laterCoherent⟩
    obtain ⟨call, found, idle, ⟨holds, late⟩ | answered⟩ := laterRefused
    · have answers : call.next later .check =
          some { call with guard := none, caller := .returned false } := by
        simp [RecordCall.next, holds, late]
      refine ⟨call, found, Or.inr ⟨_, { call with guard := none, caller := .returned false },
        step_act found answers, ?_, rfl⟩⟩
      rw [getElem?_set_of_found found, if_pos rfl]
    · exact ⟨call, found, Or.inl answered⟩

end Reachable

/-- A shutdown that waits for a save task whose caller is gone. -/
def shutdownDuringSave : List SinkAction :=
  [.call (.logs { resourceLogs := [] }), .act 0 .takeGuard, .act 0 .check, .shutdown .begin,
    .act 0 .cancel, .act 0 (.write true), .act 0 .ingest, .act 0 .queuePretty, .act 0 .notify,
    .shutdown .lock, .shutdown .close]

theorem nothing_saved_after_sync_cancelled :
    ∃ s next, run allOutputs shutdownDuringSave = some s ∧
      s.step (.shutdown .startFlush) = some next ∧ s.ingested.map Prod.fst = [0] ∧ s.Idle := by
  have facts : (run allOutputs shutdownDuringSave).any (fun s =>
      s.ingested.map Prod.fst = [0] ∧ (s.step (.shutdown .startFlush)).isSome = true) = true := by
    decide +kernel
  obtain ⟨s, ran, facts⟩ := (Option.any_eq_true _ _).mp facts
  obtain ⟨ingested, flushes⟩ := of_decide_eq_true facts
  obtain ⟨next, taken⟩ := Option.isSome_iff_exists.mp flushes
  exact ⟨s, next, ran, taken, ingested, ((nothing_saved_after_sync ran).2.1 next taken).1⟩

end Sink

end OtelLogger
