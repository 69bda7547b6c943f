import OtelLogger.FinalSync

/-!
The sink as the components around it see it: what one of its steps leaves as it was, and how many
steps its tasks still have to take.
-/

namespace OtelLogger

open Interleaving

section Frames

variable {s next : Sink} {call new : RecordCall}

/-- A step of the sink adds a call that waits, or moves one on; the records of calls stay. -/
theorem Sink.calls_step {action : SinkAction} (taken : s.step action = some next) (id : ℕ)
    (found : s.calls[id]? = some call) :
    ∃ new, next.calls[id]? = some new ∧ new.record = call.record ∧
      (new = call ∨ ∃ move, action = .act id move ∧ call.Moves s move new) := by
  rcases Sink.step_cases taken with
    ⟨record, rfl, rfl⟩ | ⟨other, move, moved, new, rfl, present, moves, rfl⟩ | ⟨move, rfl, shut⟩
  · exact ⟨call, (List.getElem?_append_left (lt_of_found found)).trans found, rfl, Or.inl rfl⟩
  · by_cases same : other = id
    · subst same
      obtain rfl := Option.some.inj (present.symm.trans found)
      exact ⟨new, by rw [getElem?_set_of_found present, if_pos rfl], moves.record,
        Or.inr ⟨move, rfl, moves⟩⟩
    · exact ⟨call, by rw [getElem?_set_of_found present, if_neg same, found], rfl, Or.inl rfl⟩
  · rw [Sink.shut_eq shut]
    exact ⟨call, found, rfl, Or.inl rfl⟩

theorem Sink.new_call {action : SinkAction} (taken : s.step action = some next) {id : ℕ}
    (present : next.calls[id]? = some new) (absent : s.calls[id]? = none) :
    new.task = none := by
  rcases Sink.step_cases taken with
    ⟨record, rfl, rfl⟩ | ⟨other, move, moved, set, rfl, found, moves, rfl⟩ | ⟨move, rfl, shut⟩
  · rw [List.getElem?_append, if_neg (by simpa using absent)] at present
    obtain rfl := List.mem_singleton.mp (List.mem_of_getElem? present)
    rfl
  · rw [getElem?_set_of_found found] at present
    split at present
    · rename_i same
      simp [same, absent] at found
    · simp [absent] at present
  · rw [Sink.shut_eq shut] at present
    exact absurd (absent.symm.trans present) (by simp)

theorem Sink.settings_step {action : SinkAction} (taken : s.step action = some next) :
    next.settings = s.settings := by
  rcases Sink.step_cases taken with
    ⟨record, rfl, rfl⟩ | ⟨id, move, call, new, rfl, _, _, rfl⟩ | ⟨move, rfl, shut⟩
  · rfl
  · exact (Sink.effect_fixed s id call move).1
  · rw [Sink.shut_eq shut]

theorem Sink.returned_step {action : SinkAction} (taken : s.step action = some next) {ok : Bool}
    (returned : s.shutdown = .returned ok) : next.shutdown = .returned ok := by
  rcases Sink.step_cases taken with
    ⟨record, rfl, rfl⟩ | ⟨id, move, call, new, rfl, _, _, rfl⟩ | ⟨move, rfl, shut⟩
  · exact returned
  · exact (Sink.effect_fixed s id call move).2.2.trans returned
  · cases move <;> simp [Sink.shut, returned] at shut

/-- What was counted stays counted. -/
theorem Sink.ingested_step {action : SinkAction} (coherent : s.Coherent)
    (taken : s.step action = some next) : s.ingested <+: next.ingested := by
  rcases Sink.step_cases taken with
    ⟨record, rfl, rfl⟩ | ⟨id, move, call, new, rfl, found, moves, rfl⟩ | ⟨move, rfl, shut⟩
  · exact List.prefix_rfl
  · change s.ingested <+: (s.effect id call move).ingested
    rcases moves.counted id (coherent.valid call (List.mem_of_getElem? found)) with
      ⟨_, same, _⟩ | ⟨_, _, grown, _⟩
    · rw [same]
    · rw [grown]
      exact List.prefix_append _ _
  · rw [Sink.shut_eq shut]

end Frames

/-! ### Winding down -/

/-- The steps that the tasks of the process take by themselves; the others wait for a peer. -/
def CallAction.ours : CallAction → Bool
  | check | write _ | ingest | queuePretty | notify => true
  | _ => false

/-- How many steps a call takes until it drops its guard. -/
def RecordCall.remaining (call : RecordCall) : ℕ :=
  match call.task with
  | some .saving => 4
  | some .counting => 3
  | some (.queueing _) => 2
  | some .notifying => 1
  | some (.finished _) => 0
  | none => if call.caller = .guarded then 5 else 0

theorem RecordCall.remaining_le (call : RecordCall) : call.remaining ≤ 5 := by
  unfold RecordCall.remaining
  split <;> try omega
  split <;> omega

section Winding

variable {s next : Sink} {call new : RecordCall} {action : CallAction}

theorem RecordCall.Moves.remaining (moves : call.Moves s action new) (valid : call.Valid)
    (ours : action.ours = true) : new.remaining < call.remaining := by
  cases moves with
  | takeGuard | cancel | respond => cases ours
  | spawn holds | refuse holds =>
      have idle := valid.task_none (Or.inr holds)
      simp [RecordCall.remaining, idle, holds]
  | fail saves | persist _ saves => simp [RecordCall.remaining, saves]
  | ingest counts => simp [RecordCall.remaining, counts]
  | queuePretty _ queues => simp [RecordCall.remaining, queues]
  | notify notifies => simp [RecordCall.remaining, notifies]

/-- A call that holds its guard can go on, whatever its peer does. -/
theorem RecordCall.Valid.progresses (valid : call.Valid) (s : Sink) (held : call.guard ≠ none) :
    ∃ action new, action.ours = true ∧ call.next s action = some new := by
  unfold RecordCall.Valid at valid
  split at valid
  · rcases valid with ⟨guarded, _⟩ | ⟨free, _⟩
    · by_cases admitted : call.guard = some true
      · exact ⟨.check, _, rfl, by rw [RecordCall.next, if_pos guarded, if_pos admitted]⟩
      · exact ⟨.check, _, rfl, by rw [RecordCall.next, if_pos guarded, if_neg admitted]⟩
    · exact absurd free held
  · exact absurd valid.1 held
  · rename_i task running own
    cases task with
    | saving =>
        exact ⟨.write true, _, rfl, by rw [RecordCall.next, if_pos own, if_neg (by simp)]⟩
    | counting => exact ⟨.ingest, _, rfl, by rw [RecordCall.next, if_pos own]⟩
    | queueing samplesPresent =>
        exact ⟨.queuePretty, _, rfl, by rw [RecordCall.next, own]⟩
    | notifying => exact ⟨.notify, _, rfl, by rw [RecordCall.next, if_pos own]⟩
    | finished ok => exact absurd rfl (running ok)

def Sink.remaining (s : Sink) : ℕ :=
  load RecordCall.remaining s.calls

theorem Sink.remaining_step {id : ℕ} (coherent : s.Coherent) (ours : action.ours = true)
    (taken : s.step (.act id action) = some next) :
    next.remaining < s.remaining ∧ next.shutdown = s.shutdown := by
  obtain ⟨call, found, moved⟩ := Option.bind_eq_some_iff.mp taken
  obtain ⟨new, stepped, rfl⟩ := Option.map_eq_some_iff.mp moved
  have valid := coherent.valid call (List.mem_of_getElem? found)
  have less := (RecordCall.moves_of_next stepped).remaining valid ours
  have balance := load_set RecordCall.remaining found new
  refine ⟨?_, (Sink.effect_fixed s id call action).2.2⟩
  simp only [Sink.remaining]
  omega

theorem Sink.progresses (coherent : s.Coherent) (held : ∃ call ∈ s.calls, call.guard ≠ none) :
    ∃ id action next, action.ours = true ∧ s.step (.act id action) = some next := by
  obtain ⟨call, member, held⟩ := held
  obtain ⟨action, new, ours, moved⟩ := (coherent.valid call member).progresses s held
  obtain ⟨id, found⟩ := List.mem_iff_getElem?.mp member
  exact ⟨id, action, _, ours, Sink.step_act found moved⟩

end Winding

end OtelLogger
