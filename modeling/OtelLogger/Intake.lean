import OtelLogger.Library.Interleaving
import OtelLogger.Number

/-!
Bounded intake: requests on their way through `ReceiveLimits::admit`, the body and the save
task. A slot is held by the clones of one permit, wherever they are, and goes back with the last
of them, to the first waiter if there is one.
-/

namespace OtelLogger

open Interleaving

inductive Rejected where
  | busy
  | timedOut
  deriving DecidableEq

inductive AdmitOutcome where
  | admitted
  | rejected (reason : Rejected)
  | cancelled
  deriving DecidableEq

/-- Where the handler of a request is. From `entered` to `leaving` its `WaitingGuard` is live. -/
inductive RequestPhase where
  | arrived
  | full
  | entered (fits : Bool)
  | parked
  | handed
  | leaving (outcome : AdmitOutcome)
  | reading
  | recording
  | joining
  | ending
  | finished
  deriving DecidableEq

/-- `held` counts the clones of the request's permit on the handler's side: its own, the one in
the request's extensions, and the one that `record_with_permit` was given. -/
structure Request where
  phase : RequestPhase := .arrived
  held : ℕ := 0
  saving : Bool := false

inductive RequestAction where
  | tryAcquire
  | enter
  | poll
  | wake
  | expire
  | cancel
  | leave
  | clonePermit
  | dropClone
  | failBody
  | record
  | spawn
  | refuse
  | endSave
  | respond
  | finish
  deriving DecidableEq

inductive IntakeAction where
  | arrive
  | act (id : ℕ) (action : RequestAction)

/-- What a step of a request asks of the semaphore. -/
inductive SlotMove where
  | keep
  | take
  | park
  | unpark
  | giveBack
  deriving DecidableEq

def SlotMove.taken : SlotMove → ℕ
  | take => 1
  | _ => 0

def SlotMove.returned : SlotMove → ℕ
  | giveBack => 1
  | _ => 0

/-- The semaphore, the count of waiting requests, and the requests. -/
structure Intake where
  maxInflight : ℕ
  maxWaiting : ℕ
  free : ℕ
  queue : List ℕ := []
  waiting : ℕ := 0
  requests : List Request := []

def waitingPerInflight : ℕ := 8

namespace Intake

def new (maxInflight : ℕ) : Intake where
  maxInflight := maxInflight
  maxWaiting := min (maxInflight * waitingPerInflight) usizeMax
  free := maxInflight

end Intake

namespace Request

/-- The request without one clone of its permit; the last one gives the slot back. -/
def release (request : Request) : Request × SlotMove :=
  (request, if request.held = 0 ∧ request.saving = false then .giveBack else .keep)

/-- The next stage of a request. A deadline or a cancel finds a waiter parked, or with a slot
already handed to it, which it passes on. -/
def next (s : Intake) (request : Request) : RequestAction → Option (Request × SlotMove)
  | .tryAcquire =>
      if request.phase = .arrived then
        if 0 < s.free then some ({ request with phase := .reading, held := 1 }, .take)
        else some ({ request with phase := .full }, .keep)
      else none
  | .enter =>
      if request.phase = .full then
        some ({ request with phase := .entered (s.waiting + 1 ≤ s.maxWaiting) }, .keep)
      else none
  | .poll =>
      match request.phase with
      | .entered true =>
          if 0 < s.free then
            some ({ request with phase := .leaving .admitted, held := 1 }, .take)
          else some ({ request with phase := .parked }, .park)
      | .entered false => some ({ request with phase := .leaving (.rejected .busy) }, .keep)
      | _ => none
  | .wake =>
      if request.phase = .handed then
        some ({ request with phase := .leaving .admitted, held := 1 }, .keep)
      else none
  | .expire =>
      match request.phase with
      | .parked => some ({ request with phase := .leaving (.rejected .timedOut) }, .unpark)
      | .handed => some ({ request with phase := .leaving (.rejected .timedOut) }, .giveBack)
      | _ => none
  | .cancel =>
      match request.phase with
      | .parked => some ({ request with phase := .leaving .cancelled }, .unpark)
      | .handed => some ({ request with phase := .leaving .cancelled }, .giveBack)
      | .reading | .recording | .joining => some ({ request with phase := .ending }, .keep)
      | _ => none
  | .leave =>
      match request.phase with
      | .leaving .admitted => some ({ request with phase := .reading }, .keep)
      | .leaving _ => some ({ request with phase := .finished }, .keep)
      | _ => none
  | .clonePermit =>
      match request.phase with
      | .reading | .recording | .joining =>
          if 1 ≤ request.held then some ({ request with held := request.held + 1 }, .keep)
          else none
      | _ => none
  | .dropClone =>
      match request.phase with
      | .reading | .recording =>
          if 2 ≤ request.held then some ({ request with held := request.held - 1 }, .keep)
          else none
      | .joining | .ending =>
          if 1 ≤ request.held then some (release { request with held := request.held - 1 })
          else none
      | _ => none
  | .failBody =>
      if request.phase = .reading then some ({ request with phase := .ending }, .keep) else none
  | .record =>
      if request.phase = .reading then some ({ request with phase := .recording }, .keep)
      else none
  | .spawn =>
      if request.phase = .recording then
        some ({ phase := .joining, held := request.held - 1, saving := true }, .keep)
      else none
  | .refuse =>
      if request.phase = .recording then some ({ request with phase := .ending }, .keep)
      else none
  | .endSave =>
      if request.saving = true then some (release { request with saving := false }) else none
  | .respond =>
      if request.phase = .joining ∧ request.saving = false then
        some ({ request with phase := .ending }, .keep)
      else none
  | .finish =>
      if request.phase = .ending ∧ request.held = 0 then
        some ({ request with phase := .finished }, .keep)
      else none

def guardLive (request : Request) : Bool :=
  match request.phase with
  | .entered _ | .parked | .handed | .leaving _ => true
  | _ => false

def permitLive (request : Request) : Bool :=
  request.held ≠ 0 || request.saving

end Request

theorem Request.release_taken (request : Request) : (release request).2.taken = 0 := by
  simp only [release]
  split <;> rfl

theorem Request.release_move (request : Request) :
    (release request).2 ≠ .park ∧ (release request).2 ≠ .unpark := by
  simp only [release]
  split <;> simp

namespace Intake

/-- Gives a slot to a parked request. -/
def handTo (s : Intake) (id : ℕ) : Intake :=
  match s.requests[id]? with
  | none => s
  | some request =>
      { s with requests := s.requests.set id { request with phase := .handed } }

def slotMove (s : Intake) (id : ℕ) : SlotMove → Intake
  | .keep => s
  | .take => { s with free := s.free - 1 }
  | .park => { s with queue := s.queue ++ [id] }
  | .unpark => { s with queue := s.queue.erase id }
  | .giveBack =>
      match s.queue with
      | [] => { s with free := s.free + 1 }
      | waiter :: queue => { s with queue := queue }.handTo waiter

/-- `fetch_add` on entering and `fetch_sub` when the guard is dropped. -/
def countWaiting (waiting : ℕ) : RequestAction → ℕ
  | .enter => waiting + 1
  | .leave => waiting - 1
  | _ => waiting

def step (s : Intake) : IntakeAction → Option Intake
  | .arrive => some { s with requests := s.requests ++ [{}] }
  | .act id action =>
      s.requests[id]?.bind fun request =>
        (request.next s action).map fun next =>
          { s with
            waiting := countWaiting s.waiting action
            requests := s.requests.set id next.1 }.slotMove id next.2

def run (maxInflight : ℕ) (actions : List IntakeAction) : Option Intake :=
  runFrom step (new maxInflight) actions

def count (s : Intake) (property : Request → Bool) : ℕ :=
  load (fun request => (property request).toNat) s.requests

end Intake

/-! ### What a request can do -/

namespace Request

/-- The steps of a request, one constructor for each branch. -/
inductive Moves (s : Intake) (old : Request) : RequestAction → Request → SlotMove → Prop where
  | acquire (here : old.phase = .arrived) (free : 0 < s.free) :
      Moves s old .tryAcquire { old with phase := .reading, held := 1 } .take
  | miss (here : old.phase = .arrived) : Moves s old .tryAcquire { old with phase := .full } .keep
  | enter (here : old.phase = .full) :
      Moves s old .enter { old with phase := .entered (s.waiting + 1 ≤ s.maxWaiting) } .keep
  | pass (here : old.phase = .entered true) (free : 0 < s.free) :
      Moves s old .poll { old with phase := .leaving .admitted, held := 1 } .take
  | park (here : old.phase = .entered true) : Moves s old .poll { old with phase := .parked } .park
  | busy (here : old.phase = .entered false) :
      Moves s old .poll { old with phase := .leaving (.rejected .busy) } .keep
  | wake (here : old.phase = .handed) :
      Moves s old .wake { old with phase := .leaving .admitted, held := 1 } .keep
  | unpark (action : RequestAction) (outcome : AdmitOutcome) (here : old.phase = .parked)
      (stops : (action = .expire ∧ outcome = .rejected .timedOut) ∨
        (action = .cancel ∧ outcome = .cancelled)) :
      Moves s old action { old with phase := .leaving outcome } .unpark
  | passOn (action : RequestAction) (outcome : AdmitOutcome) (here : old.phase = .handed)
      (stops : (action = .expire ∧ outcome = .rejected .timedOut) ∨
        (action = .cancel ∧ outcome = .cancelled)) :
      Moves s old action { old with phase := .leaving outcome } .giveBack
  | stop (action : RequestAction)
      (here : old.phase = .reading ∨ old.phase = .recording ∨ old.phase = .joining)
      (stops : action = .cancel ∨ action = .failBody ∨ action = .refuse ∨ action = .respond) :
      Moves s old action { old with phase := .ending } .keep
  | admitted (here : old.phase = .leaving .admitted) :
      Moves s old .leave { old with phase := .reading } .keep
  | turnedAway (outcome : AdmitOutcome) (here : old.phase = .leaving outcome)
      (refused : outcome ≠ .admitted) :
      Moves s old .leave { old with phase := .finished } .keep
  | clonePermit (here : old.phase = .reading ∨ old.phase = .recording ∨ old.phase = .joining)
      (holds : 1 ≤ old.held) :
      Moves s old .clonePermit { old with held := old.held + 1 } .keep
  | dropSpare (here : old.phase = .reading ∨ old.phase = .recording) (holds : 2 ≤ old.held) :
      Moves s old .dropClone { old with held := old.held - 1 } .keep
  | dropClone (here : old.phase = .joining ∨ old.phase = .ending) (holds : 1 ≤ old.held) :
      Moves s old .dropClone { old with held := old.held - 1 }
        (release { old with held := old.held - 1 }).2
  | record (here : old.phase = .reading) :
      Moves s old .record { old with phase := .recording } .keep
  | spawn (here : old.phase = .recording) :
      Moves s old .spawn { phase := .joining, held := old.held - 1, saving := true } .keep
  | endSave (saves : old.saving = true) :
      Moves s old .endSave { old with saving := false }
        (release { old with saving := false }).2
  | finish (here : old.phase = .ending) (empty : old.held = 0) :
      Moves s old .finish { old with phase := .finished } .keep

theorem moves_of_next {s : Intake} {old new : Request} {action : RequestAction} {move : SlotMove}
    (taken : old.next s action = some (new, move)) : Moves s old action new move := by
  cases action with
  | tryAcquire =>
      obtain ⟨here, taken⟩ := Option.ite_none_right_eq_some.mp taken
      split at taken
      · rename_i free
        cases taken
        exact .acquire here free
      · cases taken
        exact .miss here
  | enter =>
      obtain ⟨here, taken⟩ := Option.ite_none_right_eq_some.mp taken
      cases taken
      exact .enter here
  | poll =>
      simp only [next] at taken
      split at taken
      · rename_i here
        split at taken
        · rename_i free
          cases taken
          exact .pass here free
        · cases taken
          exact .park here
      · rename_i here
        cases taken
        exact .busy here
      · cases taken
  | wake =>
      obtain ⟨here, taken⟩ := Option.ite_none_right_eq_some.mp taken
      cases taken
      exact .wake here
  | expire =>
      simp only [next] at taken
      split at taken <;> rename_i here <;> cases taken
      · exact .unpark _ _ here (Or.inl ⟨rfl, rfl⟩)
      · exact .passOn _ _ here (Or.inl ⟨rfl, rfl⟩)
  | cancel =>
      simp only [next] at taken
      split at taken <;> rename_i here <;> cases taken
      · exact .unpark _ _ here (Or.inr ⟨rfl, rfl⟩)
      · exact .passOn _ _ here (Or.inr ⟨rfl, rfl⟩)
      · exact .stop _ (Or.inl here) (Or.inl rfl)
      · exact .stop _ (Or.inr (Or.inl here)) (Or.inl rfl)
      · exact .stop _ (Or.inr (Or.inr here)) (Or.inl rfl)
  | leave =>
      simp only [next] at taken
      split at taken
      · rename_i here
        cases taken
        exact .admitted here
      · rename_i outcome refused here
        cases taken
        exact .turnedAway outcome here refused
      · cases taken
  | clonePermit =>
      simp only [next] at taken
      split at taken
      · rename_i here
        obtain ⟨holds, taken⟩ := Option.ite_none_right_eq_some.mp taken
        cases taken
        exact .clonePermit (Or.inl here) holds
      · rename_i here
        obtain ⟨holds, taken⟩ := Option.ite_none_right_eq_some.mp taken
        cases taken
        exact .clonePermit (Or.inr (Or.inl here)) holds
      · rename_i here
        obtain ⟨holds, taken⟩ := Option.ite_none_right_eq_some.mp taken
        cases taken
        exact .clonePermit (Or.inr (Or.inr here)) holds
      · cases taken
  | dropClone =>
      simp only [next] at taken
      split at taken
      · rename_i here
        obtain ⟨holds, taken⟩ := Option.ite_none_right_eq_some.mp taken
        cases taken
        exact .dropSpare (Or.inl here) holds
      · rename_i here
        obtain ⟨holds, taken⟩ := Option.ite_none_right_eq_some.mp taken
        cases taken
        exact .dropSpare (Or.inr here) holds
      · rename_i here
        obtain ⟨holds, taken⟩ := Option.ite_none_right_eq_some.mp taken
        cases taken
        exact .dropClone (Or.inl here) holds
      · rename_i here
        obtain ⟨holds, taken⟩ := Option.ite_none_right_eq_some.mp taken
        cases taken
        exact .dropClone (Or.inr here) holds
      · cases taken
  | failBody =>
      obtain ⟨here, taken⟩ := Option.ite_none_right_eq_some.mp taken
      cases taken
      exact .stop _ (Or.inl here) (Or.inr (Or.inl rfl))
  | record =>
      obtain ⟨here, taken⟩ := Option.ite_none_right_eq_some.mp taken
      cases taken
      exact .record here
  | spawn =>
      obtain ⟨here, taken⟩ := Option.ite_none_right_eq_some.mp taken
      cases taken
      exact .spawn here
  | refuse =>
      obtain ⟨here, taken⟩ := Option.ite_none_right_eq_some.mp taken
      cases taken
      exact .stop _ (Or.inr (Or.inl here)) (Or.inr (Or.inr (Or.inl rfl)))
  | endSave =>
      obtain ⟨saves, taken⟩ := Option.ite_none_right_eq_some.mp taken
      cases taken
      exact .endSave saves
  | respond =>
      obtain ⟨⟨here, _⟩, taken⟩ := Option.ite_none_right_eq_some.mp taken
      cases taken
      exact .stop _ (Or.inr (Or.inr here)) (Or.inr (Or.inr (Or.inr rfl)))
  | finish =>
      obtain ⟨⟨here, empty⟩, taken⟩ := Option.ite_none_right_eq_some.mp taken
      cases taken
      exact .finish here empty

/-- The handler holds a clone from the admission until it ends or gives it to the save task. -/
def Valid (request : Request) : Prop :=
  match request.phase with
  | .leaving .admitted | .reading | .recording => 1 ≤ request.held ∧ request.saving = false
  | .joining | .ending => True
  | .finished => request.held = 0
  | _ => request.held = 0 ∧ request.saving = false

/-- The slots a request accounts for: the one of its permit, or one being handed to it. -/
def slots (request : Request) : ℕ :=
  request.permitLive.toNat + (request.phase = .handed : Bool).toNat

/-- A waiter that was let in: its guard counts towards the limit. -/
def letIn (request : Request) : Bool :=
  match request.phase with
  | .entered true | .parked | .handed | .leaving .admitted | .leaving .cancelled
  | .leaving (.rejected .timedOut) => true
  | _ => false

section Moves

variable {s : Intake} {old new : Request} {action : RequestAction} {move : SlotMove}

theorem Moves.valid (moves : Moves s old action new move) (valid : old.Valid) : new.Valid := by
  obtain ⟨phase, held, saving⟩ := old
  cases moves with
  | acquire here | miss here | pass here | park here | busy here | wake here =>
      obtain rfl : phase = _ := here
      simp_all [Valid]
  | enter here =>
      obtain rfl : phase = _ := here
      exact valid
  | unpark action outcome here stops | passOn action outcome here stops =>
      obtain rfl : phase = _ := here
      obtain ⟨_, rfl⟩ | ⟨_, rfl⟩ := stops <;> exact valid
  | stop => trivial
  | admitted here =>
      obtain rfl : phase = _ := here
      exact valid
  | turnedAway outcome here refused =>
      obtain rfl : phase = _ := here
      cases outcome with
      | admitted => exact absurd rfl refused
      | rejected | cancelled => exact valid.1
  | clonePermit here holds =>
      obtain rfl | rfl | rfl : phase = _ ∨ phase = _ ∨ phase = _ := here
      · exact ⟨Nat.le_succ_of_le valid.1, valid.2⟩
      · exact ⟨Nat.le_succ_of_le valid.1, valid.2⟩
      · trivial
  | dropSpare here holds =>
      have stays : 1 ≤ held - 1 := Nat.le_sub_one_of_lt holds
      obtain rfl | rfl : phase = _ ∨ phase = _ := here <;> exact ⟨stays, valid.2⟩
  | dropClone here holds =>
      obtain rfl | rfl : phase = _ ∨ phase = _ := here <;> trivial
  | record here =>
      obtain rfl : phase = _ := here
      exact valid
  | spawn => trivial
  | endSave saves =>
      obtain rfl : saving = true := saves
      cases phase with
      | joining | ending => trivial
      | finished => exact valid
      | leaving outcome => cases outcome <;> simp [Valid] at valid
      | _ => simp [Valid] at valid
  | finish here empty =>
      obtain rfl : phase = _ := here
      exact empty

theorem Moves.free (moves : Moves s old action new .take) : 0 < s.free := by
  generalize asked : SlotMove.take = move at moves
  cases moves with
  | acquire _ free | pass _ free => exact free
  | dropClone | endSave =>
      simp only [release] at asked
      split at asked <;> cases asked
  | _ => cases asked

theorem release_slots (request : Request) (before : request.held ≠ 0 ∨ request.saving = true)
    (fewer : Request) (phase : fewer.phase = request.phase) :
    fewer.slots + (release fewer).2.returned = request.slots := by
  have live : request.permitLive = true := by
    simpa [permitLive] using before
  by_cases last : fewer.held = 0 ∧ fewer.saving = false
  · have gone : fewer.permitLive = false := by simp [permitLive, last.1, last.2]
    simp only [release, if_pos last, Request.slots, gone, live, phase, SlotMove.returned,
      Bool.toNat_false, Bool.toNat_true]
    omega
  · have stays : fewer.permitLive = true := by
      by_contra gone
      exact last (by simpa [permitLive] using gone)
    simp [release, if_neg last, Request.slots, stays, live, phase, SlotMove.returned]

theorem Moves.slots (moves : Moves s old action new move) (valid : old.Valid) :
    new.slots + move.returned = old.slots + move.taken := by
  obtain ⟨phase, held, saving⟩ := old
  cases moves with
  | acquire here | pass here =>
      obtain rfl : phase = _ := here
      obtain ⟨rfl, rfl⟩ : held = 0 ∧ saving = false := valid
      rfl
  | miss here | enter here | park here | busy here | admitted here | record here
  | finish here =>
      obtain rfl : phase = _ := here
      rfl
  | wake here =>
      obtain rfl : phase = _ := here
      obtain ⟨rfl, rfl⟩ : held = 0 ∧ saving = false := valid
      rfl
  | unpark action outcome here | turnedAway outcome here | passOn action outcome here =>
      obtain rfl : phase = _ := here
      rfl
  | stop action here =>
      obtain rfl | rfl | rfl : phase = _ ∨ phase = _ ∨ phase = _ := here <;> rfl
  | clonePermit here holds =>
      have before : held ≠ 0 := Nat.one_le_iff_ne_zero.mp holds
      simp [Request.slots, permitLive, before, SlotMove.returned, SlotMove.taken]
  | dropSpare here holds =>
      replace holds : 2 ≤ held := holds
      have before : held ≠ 0 := by omega
      have after : held - 1 ≠ 0 := by omega
      simp [Request.slots, permitLive, before, after, SlotMove.returned, SlotMove.taken]
  | dropClone here holds =>
      have taken : (release { phase := phase, held := held - 1, saving := saving }).2.taken = 0 :=
        release_taken _
      rw [taken]
      exact release_slots _ (Or.inl (Nat.one_le_iff_ne_zero.mp holds)) _ rfl
  | spawn here =>
      obtain rfl : phase = _ := here
      have before : held ≠ 0 := Nat.one_le_iff_ne_zero.mp valid.1
      simp [Request.slots, permitLive, before, SlotMove.returned, SlotMove.taken]
  | endSave saves =>
      have taken : (release { phase := phase, held := held, saving := false }).2.taken = 0 :=
        release_taken _
      rw [taken]
      exact release_slots _ (Or.inr saves) _ rfl

theorem Moves.parked (moves : Moves s old action new move) :
    (new.phase = .parked → old.phase = .parked ∨ move = .park) ∧
      (old.phase = .parked → new.phase = .parked ∧ move ≠ .park ∨ move = .unpark) ∧
      (move = .park → new.phase = .parked ∧ old.phase ≠ .parked) ∧
      (move = .unpark → new.phase ≠ .parked) := by
  cases moves with
  | acquire here | miss here | enter here | pass here | busy here | wake here | admitted here
  | record here | spawn here | finish here => simp [here]
  | park here => simp [here]
  | unpark | turnedAway _ here | passOn _ _ here => simp_all
  | stop action here => rcases here with here | here | here <;> simp [here]
  | clonePermit here => rcases here with here | here | here <;> simp [here]
  | dropSpare here => rcases here with here | here <;> simp [here]
  | dropClone here =>
      obtain ⟨noPark, noUnpark⟩ := release_move { old with held := old.held - 1 }
      refine ⟨Or.inl, fun waits => Or.inl ⟨waits, noPark⟩, ?_, ?_⟩
      · exact fun parks => absurd parks noPark
      · exact fun unparks => absurd unparks noUnpark
  | endSave =>
      obtain ⟨noPark, noUnpark⟩ := release_move { old with saving := false }
      refine ⟨Or.inl, fun waits => Or.inl ⟨waits, noPark⟩, ?_, ?_⟩
      · exact fun parks => absurd parks noPark
      · exact fun unparks => absurd unparks noUnpark

theorem Moves.guard (moves : Moves s old action new move) :
    new.guardLive.toNat + (action = .leave : Bool).toNat =
      old.guardLive.toNat + (action = .enter : Bool).toNat := by
  cases moves with
  | acquire here | miss here | enter here | pass here | park here | busy here | wake here
  | admitted here | record here | spawn here | finish here | turnedAway _ here =>
      simp [guardLive, here]
  | unpark action outcome here stops | passOn action outcome here stops =>
      obtain ⟨rfl, _⟩ | ⟨rfl, _⟩ := stops <;> simp [guardLive, here]
  | stop action here stops =>
      rcases stops with rfl | rfl | rfl | rfl <;> rcases here with here | here | here <;>
        simp [guardLive, here]
  | clonePermit | dropSpare | dropClone | endSave => rfl

theorem Moves.letIn (moves : Moves s old action new move) :
    (new.letIn = true → old.letIn = true) ∨
      (action = .enter ∧ s.waiting + 1 ≤ s.maxWaiting) := by
  cases moves with
  | acquire here | miss here | busy here | admitted here | record here | spawn here
  | finish here | turnedAway _ here | pass here | park here | wake here =>
      simp [Request.letIn, here]
  | enter here =>
      by_cases fits : s.waiting + 1 ≤ s.maxWaiting
      · exact Or.inr ⟨rfl, fits⟩
      · simp [Request.letIn, fits]
  | unpark action outcome here | passOn action outcome here => simp [Request.letIn, here]
  | stop => exact Or.inl fun letIn => by simp [Request.letIn] at letIn
  | clonePermit | dropSpare | dropClone | endSave => exact Or.inl id

end Moves

end Request

/-! ### Runs of the intake -/

/-- Slots and guards are accounted for, and the queue holds exactly the parked requests. -/
structure Intake.Balanced (s : Intake) : Prop where
  valid : ∀ request ∈ s.requests, request.Valid
  slots : s.free + load Request.slots s.requests = s.maxInflight
  waiting : s.waiting = s.count Request.guardLive
  letIn : s.count Request.letIn ≤ s.maxWaiting
  queue : ∀ id, id ∈ s.queue ↔
    ∃ request, s.requests[id]? = some request ∧ request.phase = .parked
  once : s.queue.Nodup

namespace Intake

variable {s next : Intake} {id : ℕ} {old new : Request} {action : RequestAction}
  {move : SlotMove}

theorem guardLive_of_letIn {request : Request} (letIn : request.letIn = true) :
    request.guardLive = true := by
  simp only [Request.letIn] at letIn
  split at letIn
  all_goals first | exact absurd letIn Bool.false_ne_true | simp [Request.guardLive, *]

theorem letIn_le_guardLive (requests : List Request) :
    load (fun request => request.letIn.toNat) requests ≤
      load (fun request => request.guardLive.toNat) requests :=
  load_le_load fun _ _ => Bool.toNat_le_toNat guardLive_of_letIn

/-- The requests and the counter after a step, before the semaphore acts on it. -/
structure Moved (s : Intake) (id : ℕ) (new : Request) (action : RequestAction) (move : SlotMove) :
    Prop where
  valid : ∀ request ∈ s.requests.set id new, request.Valid
  slots : s.free + load Request.slots (s.requests.set id new) + move.returned =
    s.maxInflight + move.taken
  waiting : countWaiting s.waiting action =
    load (fun request => request.guardLive.toNat) (s.requests.set id new)
  letIn : load (fun request => request.letIn.toNat) (s.requests.set id new) ≤ s.maxWaiting

theorem Balanced.counted (balanced : s.Balanced) (found : s.requests[id]? = some old)
    (moves : Request.Moves s old action new move) :
    countWaiting s.waiting action =
      load (fun request => request.guardLive.toNat) (s.requests.set id new) := by
  have changed := load_set (fun request => request.guardLive.toNat) found new
  have balance := moves.guard
  have bound := weight_le_load (fun request => request.guardLive.toNat) found
  have before := balanced.waiting
  simp only [count] at before
  cases action <;> simp only [countWaiting, reduceCtorEq, decide_false, decide_true,
    Bool.toNat_false, Bool.toNat_true] at balance ⊢ <;> omega

theorem Balanced.moved (balanced : s.Balanced) (found : s.requests[id]? = some old)
    (moves : Request.Moves s old action new move) : Moved s id new action move where
  valid request member := by
    rcases List.mem_or_eq_of_mem_set member with before | rfl
    · exact balanced.valid request before
    · exact moves.valid (balanced.valid old (List.mem_of_getElem? found))
  slots := by
    have changed := load_set Request.slots found new
    have balance := moves.slots (balanced.valid old (List.mem_of_getElem? found))
    have before := balanced.slots
    omega
  waiting := balanced.counted found moves
  letIn := by
    rcases moves.letIn with stays | ⟨rfl, fits⟩
    · have changed := load_set (fun request => request.letIn.toNat) found new
      have before := balanced.letIn
      have fewer := Bool.toNat_le_toNat stays
      simp only [count] at before
      omega
    · have counted := balanced.counted found moves
      have bound := letIn_le_guardLive (s.requests.set id new)
      simp only [countWaiting] at counted
      omega

def advance (s : Intake) (id : ℕ) (new : Request) (action : RequestAction) : Intake :=
  { s with waiting := countWaiting s.waiting action, requests := s.requests.set id new }

theorem step_cases {action : IntakeAction} (taken : s.step action = some next) :
    (action = .arrive ∧ next = { s with requests := s.requests ++ [{}] }) ∨
    ∃ id action_ old new move, action = .act id action_ ∧ s.requests[id]? = some old ∧
      Request.Moves s old action_ new move ∧ next = (s.advance id new action_).slotMove id move := by
  cases action with
  | arrive => exact Or.inl ⟨rfl, (Option.some.inj taken).symm⟩
  | act id action =>
      obtain ⟨old, found, moved⟩ := Option.bind_eq_some_iff.mp taken
      obtain ⟨⟨new, move⟩, stepped, rfl⟩ := Option.map_eq_some_iff.mp moved
      exact Or.inr ⟨id, action, old, new, move, rfl, found, Request.moves_of_next stepped, rfl⟩

theorem parked_set (found : s.requests[id]? = some old) (other : ℕ) :
    (∃ request, (s.requests.set id new)[other]? = some request ∧ request.phase = .parked) ↔
      if id = other then new.phase = .parked
      else ∃ request, s.requests[other]? = some request ∧ request.phase = .parked := by
  rw [getElem?_set_of_found found]
  split <;> simp

theorem Balanced.handTo {waiter : ℕ} {queue : List ℕ}
    (valid : ∀ request ∈ s.requests, request.Valid)
    (slots : s.free + load Request.slots s.requests + 1 = s.maxInflight)
    (waiting : s.waiting = s.count Request.guardLive)
    (letIn : s.count Request.letIn ≤ s.maxWaiting)
    (queued : ∀ id, id ∈ waiter :: queue ↔
      ∃ request, s.requests[id]? = some request ∧ request.phase = .parked)
    (once : (waiter :: queue).Nodup) :
    Balanced ({ s with queue := queue }.handTo waiter) := by
  obtain ⟨request, found, parked⟩ := (queued waiter).mp List.mem_cons_self
  have result : { s with queue := queue }.handTo waiter =
      { s with
        queue := queue, requests := s.requests.set waiter { request with phase := .handed } } := by
    simp [Intake.handTo, found]
  rw [result]
  have own := valid request (List.mem_of_getElem? found)
  obtain ⟨phase, held, saving⟩ := request
  obtain rfl : phase = _ := parked
  obtain ⟨rfl, rfl⟩ : held = 0 ∧ saving = false := own
  refine ⟨?_, ?_, ?_, ?_, ?_, (List.nodup_cons.mp once).2⟩
  · intro request member
    rcases List.mem_or_eq_of_mem_set member with before | rfl
    · exact valid request before
    · exact ⟨rfl, rfl⟩
  · have changed := load_set Request.slots found { phase := .handed }
    have parkedSlots : Request.slots { phase := .parked } = 0 := rfl
    have handedSlots : Request.slots { phase := .handed } = 1 := rfl
    simp only at changed ⊢
    omega
  · have changed := load_set (fun request => request.guardLive.toNat) found
      { phase := .handed }
    simp only [count, Request.guardLive] at waiting changed ⊢
    omega
  · have changed := load_set (fun request => request.letIn.toNat) found
      { phase := .handed }
    simp only [count, Request.letIn] at letIn changed ⊢
    omega
  · intro id
    rw [parked_set found]
    have others := queued id
    split
    · rename_i same
      subst same
      simpa using (List.nodup_cons.mp once).1
    · rename_i different
      rwa [List.mem_cons, or_iff_right (Ne.symm different)] at others

theorem Balanced.slotMove (balanced : s.Balanced) (found : s.requests[id]? = some old)
    (moves : Request.Moves s old action new move) :
    ((s.advance id new action).slotMove id move).Balanced := by
  have moved := balanced.moved found moves
  obtain ⟨parks, stays, joins, leaves⟩ := moves.parked
  have own : id ∈ s.queue ↔ old.phase = .parked := by
    rw [balanced.queue]
    simp [found]
  have queued (other : ℕ) : (∃ request, (s.requests.set id new)[other]? = some request ∧
      request.phase = .parked) ↔ if id = other then new.phase = .parked else other ∈ s.queue := by
    rw [parked_set found, balanced.queue]
  -- The queue is the same when the request neither joins nor leaves it.
  have same (noPark : move ≠ .park) (noUnpark : move ≠ .unpark) (other : ℕ) :
      other ∈ s.queue ↔ ∃ request, (s.requests.set id new)[other]? = some request ∧
        request.phase = .parked := by
    rw [queued]
    split
    · rename_i equal
      subst equal
      rw [own]
      exact ⟨fun waits => ((stays waits).resolve_right noUnpark).1,
        fun waits => (parks waits).resolve_right noPark⟩
    · rfl
  cases move with
  | keep =>
      exact ⟨moved.valid, moved.slots, moved.waiting, moved.letIn, same (by simp) (by simp),
        balanced.once⟩
  | take =>
      have free := moves.free
      have slots := moved.slots
      refine ⟨moved.valid, ?_, moved.waiting, moved.letIn, same (by simp) (by simp),
        balanced.once⟩
      simp only [SlotMove.taken, SlotMove.returned] at slots
      simp only [Intake.slotMove, advance]
      omega
  | park =>
      obtain ⟨now, before⟩ := joins rfl
      refine ⟨moved.valid, moved.slots, moved.waiting, moved.letIn, ?_, ?_⟩
      · intro other
        change other ∈ s.queue ++ [id] ↔ _
        rw [List.mem_append, List.mem_singleton]
        refine Iff.trans ?_ (queued other).symm
        split
        · rename_i equal
          simp [equal, now]
        · rename_i different
          simp [Ne.symm different]
      · change (s.queue ++ [id]).Nodup
        rw [List.nodup_append]
        refine ⟨balanced.once, List.nodup_singleton id, ?_⟩
        rintro other member last only rfl
        rw [List.mem_singleton.mp only] at member
        exact before (own.mp member)
  | unpark =>
      refine ⟨moved.valid, moved.slots, moved.waiting, moved.letIn, ?_, balanced.once.erase id⟩
      intro other
      change other ∈ s.queue.erase id ↔ _
      rw [balanced.once.mem_erase_iff]
      refine Iff.trans ?_ (queued other).symm
      split
      · rename_i equal
        simp [equal, leaves rfl]
      · rename_i different
        simp [Ne.symm different]
  | giveBack =>
      have slots := moved.slots
      simp only [SlotMove.taken, SlotMove.returned] at slots
      have waits := same (by simp) (by simp)
      cases waiters : s.queue with
      | nil =>
          simp only [Intake.slotMove, advance, waiters]
          refine ⟨moved.valid, ?_, moved.waiting, moved.letIn, ?_, List.nodup_nil⟩
          · simp only
            omega
          · rwa [waiters] at waits
      | cons waiter queue =>
          have once := balanced.once
          rw [waiters] at waits once
          simp only [Intake.slotMove, advance, waiters]
          change ({ s.advance id new action with queue := queue }.handTo waiter).Balanced
          exact Balanced.handTo moved.valid slots moved.waiting moved.letIn waits once

theorem Balanced.step {action : IntakeAction} (taken : s.step action = some next)
    (balanced : s.Balanced) : next.Balanced := by
  rcases step_cases taken with ⟨_, rfl⟩ | ⟨id, action, old, new, move, rfl, found, moves, rfl⟩
  · refine ⟨?_, ?_, ?_, ?_, ?_, balanced.once⟩
    · intro request member
      rcases List.mem_append.mp member with before | own
      · exact balanced.valid request before
      · obtain rfl := List.mem_singleton.mp own
        exact ⟨rfl, rfl⟩
    · simpa [Request.slots, Request.permitLive] using balanced.slots
    · simpa [count, Request.guardLive] using balanced.waiting
    · simpa [count, Request.letIn] using balanced.letIn
    · intro id
      rw [balanced.queue]
      exact (exists_concat_iff (by simp) id).symm
  · exact balanced.slotMove found moves

theorem slotMove_limits (s : Intake) (id : ℕ) (move : SlotMove) :
    (s.slotMove id move).maxInflight = s.maxInflight ∧
      (s.slotMove id move).maxWaiting = s.maxWaiting := by
  cases move with
  | keep | take | park | unpark => exact ⟨rfl, rfl⟩
  | giveBack =>
      rw [Intake.slotMove]
      split
      · exact ⟨rfl, rfl⟩
      · rw [Intake.handTo]
        split <;> exact ⟨rfl, rfl⟩

theorem step_limits {action : IntakeAction} (taken : s.step action = some next) :
    next.maxInflight = s.maxInflight ∧ next.maxWaiting = s.maxWaiting := by
  rcases step_cases taken with ⟨_, rfl⟩ | ⟨id, action, old, new, move, rfl, found, moves, rfl⟩
  · exact ⟨rfl, rfl⟩
  · exact slotMove_limits _ id move

theorem balanced_new (maxInflight : ℕ) : (Intake.new maxInflight).Balanced where
  valid := by simp [Intake.new]
  slots := rfl
  waiting := rfl
  letIn := Nat.zero_le _
  queue := by simp [Intake.new]
  once := List.nodup_nil

theorem balanced_run {maxInflight : ℕ} {actions : List IntakeAction}
    (ran : run maxInflight actions = some s) :
    s.Balanced ∧ s.maxInflight = maxInflight ∧ s.maxWaiting = (Intake.new maxInflight).maxWaiting := by
  refine invariant_run (motive := fun s => s.Balanced ∧ s.maxInflight = maxInflight ∧
    s.maxWaiting = (Intake.new maxInflight).maxWaiting) ?_ actions _ s ran
      ⟨balanced_new maxInflight, rfl, rfl⟩
  rintro state action next taken ⟨balanced, inflight, waiting⟩
  obtain ⟨sameInflight, sameWaiting⟩ := step_limits taken
  exact ⟨balanced.step taken, sameInflight.trans inflight, sameWaiting.trans waiting⟩

end Intake

/-! ### Clones and slots -/

namespace Request

def clones (request : Request) : ℕ :=
  request.held + request.saving.toNat

def handed (request : Request) : Bool :=
  request.phase = .handed

def waits (request : Request) : Bool :=
  request.phase = .parked

/-- A call of `admit` waits for its slot, or is on its way out. -/
def admitting (request : Request) : Bool :=
  match request.phase with
  | .full | .entered _ | .parked | .handed | .leaving _ => true
  | _ => false

/-- From the admission to the end of the save task, or to the end of the handler before it. -/
def inside (request : Request) : Bool :=
  match request.phase with
  | .leaving .admitted | .reading | .recording => true
  | _ => request.saving

theorem permitLive_iff (request : Request) : request.permitLive = true ↔ request.clones ≠ 0 := by
  obtain ⟨phase, held, saving⟩ := request
  cases saving <;> simp [permitLive, clones]

theorem permitLive_of_inside {request : Request} (valid : request.Valid)
    (here : request.inside = true) : request.permitLive = true := by
  obtain ⟨phase, held, saving⟩ := request
  rw [permitLive_iff]
  cases phase with
  | reading | recording =>
      have holds : 1 ≤ held := valid.1
      simp only [clones]
      omega
  | leaving outcome =>
      cases outcome with
      | admitted =>
          have holds : 1 ≤ held := valid.1
          simp only [clones]
          omega
      | _ => simp_all [inside, clones]
  | _ => simp_all [inside, clones]

theorem Moves.dropped {s : Intake} {old new : Request} {action : RequestAction} {move : SlotMove}
    (moves : Moves s old action new move) (valid : old.Valid) (fewer : new.clones < old.clones) :
    (action = .dropClone ∨ action = .endSave) ∧ new.clones + 1 = old.clones := by
  obtain ⟨phase, held, saving⟩ := old
  cases moves with
  | dropSpare _ holds | dropClone _ holds =>
      refine ⟨Or.inl rfl, ?_⟩
      simp only [clones] at holds ⊢
      omega
  | endSave saves =>
      obtain rfl : saving = true := saves
      exact ⟨Or.inr rfl, rfl⟩
  | spawn here =>
      obtain rfl : phase = _ := here
      obtain ⟨holds, rfl⟩ : 1 ≤ held ∧ saving = false := valid
      simp only [clones, Bool.toNat_true, Bool.toNat_false] at fewer
      omega
  | acquire here | pass here | wake here =>
      obtain rfl : phase = _ := here
      obtain ⟨rfl, rfl⟩ : held = 0 ∧ saving = false := valid
      exact absurd fewer (Nat.not_lt_zero _)
  | clonePermit =>
      simp only [clones] at fewer
      omega
  | _ => exact absurd fewer (Nat.lt_irrefl _)

end Request

namespace Intake

variable {s next : Intake} {id : ℕ} {old new : Request} {action : RequestAction}

/-- Handing slots about leaves the clones alone. -/
theorem slotMove_clones (s : Intake) (id : ℕ) (move : SlotMove) :
    (s.slotMove id move).requests.map Request.clones = s.requests.map Request.clones := by
  cases move with
  | keep | take | park | unpark => rfl
  | giveBack =>
      rw [Intake.slotMove]
      split
      · rfl
      · rename_i waiter queue waiters
        rw [Intake.handTo]
        split
        · rfl
        · rename_i request found
          have own : (s.requests.map Request.clones)[waiter]? = some request.clones := by
            rw [List.getElem?_map, found]
            rfl
          change (s.requests.set waiter { request with phase := .handed }).map _ = _
          rw [List.map_set]
          refine List.ext_getElem? fun other => ?_
          rw [getElem?_set_of_found own]
          split
          · rename_i equal
            exact (equal ▸ own).symm
          · rfl

theorem count_permitLive (s : Intake) :
    s.count Request.permitLive =
      load (fun clones => (clones ≠ 0 : Bool).toNat) (s.requests.map Request.clones) := by
  rw [load_map, count]
  congr 1
  funext request
  congr 1
  rw [Bool.eq_iff_iff, Request.permitLive_iff, decide_eq_true_iff]

theorem Balanced.accounted (balanced : s.Balanced) :
    s.free + s.count Request.permitLive + s.count Request.handed = s.maxInflight := by
  have slots := balanced.slots
  have split := load_add (fun request => request.permitLive.toNat)
    (fun request => request.handed.toNat) s.requests
  change load Request.slots s.requests = _ at split
  simp only [count]
  omega

/-- A step returns a slot when it drops the last clone of a permit, and only then. -/
theorem Balanced.returned (balanced : s.Balanced) (taken : s.step (.act id action) = some next)
    (found : s.requests[id]? = some old) (after : next.requests[id]? = some new) :
    next.free + next.count Request.handed + (new.clones ≠ 0 : Bool).toNat =
        s.free + s.count Request.handed + (old.clones ≠ 0 : Bool).toNat ∧
      (new.clones < old.clones →
        (action = .dropClone ∨ action = .endSave) ∧ new.clones + 1 = old.clones) := by
  have before := balanced.accounted
  have later := (balanced.step taken).accounted
  rw [(step_limits taken).1] at later
  rcases step_cases taken with ⟨impossible, _⟩ | ⟨_, _, held, moved, move, same, own, moves, rfl⟩
  · cases impossible
  · obtain ⟨rfl, rfl⟩ := IntakeAction.act.inj same
    obtain rfl := Option.some.inj (own.symm.trans found)
    have clones := slotMove_clones (s.advance id moved action) id move
    change _ = (s.requests.set id moved).map _ at clones
    rw [List.map_set] at clones
    have reached : (s.requests.map Request.clones)[id]? = some held.clones := by
      rw [List.getElem?_map, found]
      rfl
    have result : new.clones = moved.clones := by
      have own := congrArg (·[id]?) clones
      simpa [after, getElem?_set_of_found reached] using own
    rw [result]
    refine ⟨?_, moves.dropped (balanced.valid held (List.mem_of_getElem? found))⟩
    have changed := load_set (fun clones => (clones ≠ 0 : Bool).toNat) reached moved.clones
    rw [← clones, ← count_permitLive, ← count_permitLive] at changed
    omega

/-- In every state of every interleaving the free slots, the permits with a live clone and the
slots on their way to a waiter are all the slots there are, so that no more requests are inside;
a slot comes back when the last clone of its permit is dropped; the counter counts the live
guards, and only so many requests wait. -/
theorem admission_bounded {maxInflight : ℕ} {actions : List IntakeAction}
    (ran : run maxInflight actions = some s) :
    s.free + s.count Request.permitLive + s.count Request.handed = maxInflight ∧
    s.count Request.inside ≤ maxInflight ∧
    (∀ id action next old new, s.step (.act id action) = some next →
      s.requests[id]? = some old → next.requests[id]? = some new →
      next.free + next.count Request.handed + (new.clones ≠ 0 : Bool).toNat =
          s.free + s.count Request.handed + (old.clones ≠ 0 : Bool).toNat ∧
        (new.clones < old.clones →
          (action = .dropClone ∨ action = .endSave) ∧ new.clones + 1 = old.clones)) ∧
    s.waiting = s.count Request.guardLive ∧
    s.count Request.waits ≤ (Intake.new maxInflight).maxWaiting ∧
    ((∀ request ∈ s.requests, request.admitting = false) → s.waiting = 0) := by
  obtain ⟨balanced, inflight, waiting⟩ := balanced_run ran
  have accounted := balanced.accounted
  rw [inflight] at accounted
  refine ⟨accounted, ?_, fun _ _ _ _ _ taken => balanced.returned taken, balanced.waiting, ?_, ?_⟩
  · have bound : s.count Request.inside ≤ s.count Request.permitLive :=
      load_le_load fun request member => Bool.toNat_le_toNat
        (Request.permitLive_of_inside (balanced.valid request member))
    omega
  · have bound : s.count Request.waits ≤ s.count Request.letIn :=
      load_le_load fun request _ => Bool.toNat_le_toNat fun parked => by
        simp [Request.letIn, of_decide_eq_true parked]
    exact bound.trans (waiting ▸ balanced.letIn)
  · intro quiet
    rw [balanced.waiting]
    have none : s.count Request.guardLive ≤ load (fun _ => 0) s.requests :=
      load_le_load fun request member => by
        have own := quiet request member
        obtain ⟨phase, held, saving⟩ := request
        cases phase <;> simp_all [Request.admitting, Request.guardLive]
    simpa [load] using none

/-- The handler of the first request is cancelled; its save task keeps the slot, and its end
hands the slot to the second request. -/
def cancelledWhileSaving : List IntakeAction :=
  [.arrive, .act 0 .tryAcquire, .act 0 .clonePermit, .arrive, .act 1 .tryAcquire, .act 1 .enter,
    .act 1 .poll, .act 0 .record, .act 0 .spawn, .act 0 .cancel, .act 0 .dropClone,
    .act 0 .endSave]

theorem admission_bounded_handed :
    ∃ s, run 1 cancelledWhileSaving = some s ∧ s.free = 0 ∧ s.count Request.handed = 1 ∧
      s.count Request.permitLive = 0 ∧ s.count Request.inside ≤ 1 ∧ s.waiting = 1 := by
  have facts : (run 1 cancelledWhileSaving).any (fun s =>
      s.free = 0 ∧ s.count Request.handed = 1 ∧ s.waiting = 1) = true := by
    decide +kernel
  obtain ⟨s, ran, facts⟩ := (Option.any_eq_true _ _).mp facts
  obtain ⟨free, handed, waiting⟩ := of_decide_eq_true facts
  obtain ⟨accounted, bounded, _⟩ := admission_bounded ran
  exact ⟨s, ran, free, handed, by omega, bounded, waiting⟩

end Intake

end OtelLogger
