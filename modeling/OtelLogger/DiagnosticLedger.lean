import OtelLogger.Diagnostics

/-!
Accounting of diagnostic lines: each line that was handed to `write` is on its way, written, or
lost, and each lost line is announced by one note, or its number is in the counter or with the
thread.
-/

namespace OtelLogger

open Interleaving

namespace Diagnostics

def Outgoing.call? : Outgoing → Option ℕ
  | line call _ => some call
  | note _ _ => none

def Outgoing.lost? : Outgoing → Option ℕ
  | line _ _ => none
  | note _ lost => some lost

def Message.call? : Message → Option ℕ
  | line call _ => some call
  | flush => none

def Thread.inHand : Thread → List ℕ
  | receiving => []
  | swapping call _ | noting _ _ call _ _ | lining call _ _ | recounting call _ => [call]

/-- What was taken out of the counter and is neither announced nor put back. -/
def Thread.taken : Thread → ℕ
  | noting _ lost _ _ _ | recounting _ lost => lost
  | _ => 0

/-- Calls of `write` that have neither queued nor counted their line. -/
def inProgress (s : Diagnostics) : ℕ :=
  load (fun call => if call.phase = .returned then 0 else 1) s.calls

def queued (s : Diagnostics) : List ℕ :=
  s.queue.filterMap Message.call?

def written (s : Diagnostics) : List ℕ :=
  (wholes s.laid).filterMap Outgoing.call?

def announced (s : Diagnostics) : List ℕ :=
  (wholes s.laid).filterMap Outgoing.lost?

def placed (s : Diagnostics) : List ℕ :=
  s.queued ++ s.thread.inHand ++ s.written ++ s.lost

/-- What the lines weigh that are somewhere, if each line has a weight of its own. -/
def weighed (weigh : ℕ → ℕ) (s : Diagnostics) : ℕ :=
  loadAt (fun id call => if call.phase = .returned then 0 else weigh id) s.calls +
    (s.placed.map weigh).sum

def handed (weigh : ℕ → ℕ) (s : Diagnostics) : ℕ :=
  ((List.range s.calls.length).map weigh).sum

variable {capacity : ℕ} {s next : Diagnostics} {action : Action}

/-! ### One step -/

@[simp] theorem lined_calls (s : Diagnostics) (call : ℕ) (buf : Bytes) (write : LineWrite) :
    (s.lined call buf write).calls = s.calls := rfl

@[simp] theorem noted_calls (s : Diagnostics) (now : String) (lost call : ℕ) (buf : Bytes)
    (write : LineWrite) : (s.noted now lost call buf write).calls = s.calls := by
  simp only [noted]
  split <;> rfl

theorem lined_weighed (weigh : ℕ → ℕ) {call : ℕ} (buf : Bytes) {write : LineWrite}
    (whole : wholes write.laid =
      if write.state = .returned true then [.line call buf] else [])
    (here : s.thread.inHand = [call]) : weighed weigh (s.lined call buf write) = weighed weigh s := by
  simp only [weighed, lined, placed, queued, written, wholes_append, whole, here]
  cases write.state with
  | waiting place => simp [Thread.inHand]
  | returned ok =>
      cases ok with
      | true => simp [Thread.inHand, Outgoing.call?]; omega
      | false => simp [Thread.inHand]

theorem noted_weighed (weigh : ℕ → ℕ) {now : String} {lost call : ℕ} (buf : Bytes)
    {write : LineWrite}
    (whole : wholes write.laid =
      if write.state = .returned true then [.note now lost] else [])
    (here : s.thread.inHand = [call]) :
    weighed weigh (s.noted now lost call buf write) = weighed weigh s := by
  cases state : write.state with
  | waiting place =>
      simp only [noted, state, weighed, placed, queued, written, wholes_append, whole, here]
      simp [Thread.inHand]
  | returned ok =>
      cases ok with
      | true =>
          have later := lined_weighed weigh buf (writeLine_wholes (.line call buf) write.torn)
            (s := { s with torn := write.torn, laid := s.laid ++ write.laid }) here
          simp only [noted, state]
          rw [later]
          simp [weighed, placed, queued, written, whole, state, Outgoing.call?,
            List.filterMap_cons]
      | false =>
          simp only [noted, state, weighed, placed, queued, written, wholes_append, whole, here]
          simp [Thread.inHand]

/-- A step moves lines about; only a new call brings one in. -/
theorem step_weighed (weigh : ℕ → ℕ) (taken : s.step capacity action = some next) :
    weighed weigh next + handed weigh s = weighed weigh s + handed weigh next := by
  cases moves_of_step taken with
  | call buf =>
      simp [weighed, handed, placed, queued, written, List.range_succ]
      omega
  | queue id call found here room =>
      have moved := loadAt_set
        (fun id (call : WriteCall) => if call.phase = .returned then 0 else weigh id) found
        { call with phase := .returned }
      simp [weighed, handed, placed, queued, written, Message.call?, here] at moved ⊢
      omega
  | refuse id call found here full =>
      have moved := loadAt_set
        (fun id (call : WriteCall) => if call.phase = .returned then 0 else weigh id) found
        { call with phase := .refused }
      simp [weighed, handed, placed, queued, written, here] at moved ⊢
      omega
  | countDropped id call found here =>
      have moved := loadAt_set
        (fun id (call : WriteCall) => if call.phase = .returned then 0 else weigh id) found
        { call with phase := .returned }
      simp [weighed, handed, placed, queued, written, here] at moved ⊢
      omega
  | requestFlush room =>
      simp [weighed, handed, placed, queued, written, Message.call?, List.filterMap_cons]
  | receiveLine call buf queue here head =>
      simp only [weighed, handed, placed, queued, written, here, head]
      simp [Message.call?, Thread.inHand]
      omega
  | receiveFlush queue here head =>
      simp [weighed, handed, placed, queued, written, head, Message.call?, List.filterMap_cons]
  | skipNote now call buf here none =>
      have hand : s.thread.inHand = [call] := by rw [here, Thread.inHand]
      rw [lined_weighed weigh buf (writeLine_wholes _ _) hand, handed, handed, lined_calls]
  | startNote now call buf here some =>
      have hand : s.thread.inHand = [call] := by rw [here, Thread.inHand]
      have same := noted_weighed weigh buf (s := { s with dropped := 0 })
        (writeLine_wholes (.note now s.dropped) s.torn) hand
      rw [same, handed, handed, noted_calls]
      rfl
  | answerNote answer now lost call buf place here within =>
      have hand : s.thread.inHand = [call] := by rw [here, Thread.inHand]
      have same := noted_weighed weigh buf
        (s := { s with out := s.out ++ (place.rest (.note now lost)).take answer.count })
        (lineAnswer_wholes (.note now lost) s.torn place answer) hand
      rw [same, handed, handed, noted_calls]
      rfl
  | answerLine answer call buf place here within =>
      have hand : s.thread.inHand = [call] := by rw [here, Thread.inHand]
      have same := lined_weighed weigh buf
        (s := { s with out := s.out ++ (place.rest (.line call buf)).take answer.count })
        (lineAnswer_wholes (.line call buf) s.torn place answer) hand
      rw [same, handed, handed, lined_calls]
      rfl
  | countAgain call lost here =>
      simp only [weighed, handed, placed, queued, written, here]
      simp [Thread.inHand]
      omega

/-- What is lost is announced, in the counter, or with the thread. -/
def Counted (s : Diagnostics) : Prop :=
  s.lost.length = s.announced.sum + s.dropped + s.thread.taken

theorem lined_counted {call : ℕ} {buf : Bytes} {write : LineWrite}
    (whole : wholes write.laid =
      if write.state = .returned true then [.line call buf] else [])
    (counted : s.lost.length = s.announced.sum + s.dropped) :
    Counted (s.lined call buf write) := by
  simp only [announced] at counted
  simp only [Counted, lined, announced, wholes_append, whole]
  cases write.state with
  | waiting place => simpa [Thread.taken] using counted
  | returned ok =>
      cases ok with
      | true => simpa [Thread.taken, Outgoing.lost?, List.filterMap_cons] using counted
      | false => simpa [Thread.taken] using counted

theorem noted_counted {now : String} {lost call : ℕ} {buf : Bytes} {write : LineWrite}
    (whole : wholes write.laid =
      if write.state = .returned true then [.note now lost] else [])
    (counted : s.lost.length = s.announced.sum + s.dropped + lost) :
    Counted (s.noted now lost call buf write) := by
  cases state : write.state with
  | waiting place =>
      simp only [announced] at counted
      simp [noted, state, Counted, announced, whole, Thread.taken, counted]
  | returned ok =>
      cases ok with
      | true =>
          simp only [noted, state]
          refine lined_counted (writeLine_wholes (.line call buf) write.torn) ?_
          simp only [announced] at counted
          simp only [announced, wholes_append, whole, state, if_true, List.filterMap_append,
            List.sum_append, List.filterMap_cons, List.filterMap_nil, Outgoing.lost?,
            List.sum_singleton]
          omega
      | false =>
          simp only [announced] at counted
          simp [noted, state, Counted, announced, whole, Thread.taken, counted]

theorem Counted.step (counted : Counted s) (fits : s.counterFits action = true)
    (taken : s.step capacity action = some next) : Counted next := by
  unfold Counted at counted
  cases moves_of_step taken with
  | call buf => exact counted
  | queue id call found here room => exact counted
  | refuse id call found here full => exact counted
  | countDropped id call found here =>
      have sum := fetchAdd_of_fits (of_decide_eq_true fits)
      simp only [Counted, List.length_append, List.length_singleton, sum, announced]
      simp only [announced] at counted
      omega
  | requestFlush room => exact counted
  | receiveLine call buf queue here head =>
      rw [here] at counted
      exact counted
  | receiveFlush queue here head => exact counted
  | skipNote now call buf here none =>
      rw [here] at counted
      exact lined_counted (writeLine_wholes _ _) counted
  | startNote now call buf here some =>
      rw [here] at counted
      exact noted_counted (writeLine_wholes _ _) counted
  | answerNote answer now lost call buf place here within =>
      rw [here] at counted
      exact noted_counted (lineAnswer_wholes _ _ _ _) counted
  | answerLine answer call buf place here within =>
      rw [here] at counted
      exact lined_counted (lineAnswer_wholes _ _ _ _) counted
  | countAgain call lost here =>
      simp only [counterFits, here, decide_eq_true_eq] at fits
      have exactly : saturatingAdd lost 1 = lost + 1 := by
        unfold saturatingAdd
        omega
      have sum : fetchAdd s.dropped (lost + 1) = s.dropped + (lost + 1) :=
        fetchAdd_of_fits (by omega)
      rw [here, Thread.taken] at counted
      simp only [Counted, List.length_append, List.length_singleton, exactly, sum, announced,
        Thread.taken]
      simp only [announced] at counted
      omega

/-! ### What a written line has seen announced -/

/-- The first `early` lost lines are announced, or the line that was received after them is not
written: it is lost, or the thread holds it and has their number in its reach. -/
inductive Promised (early line : ℕ) (s : Diagnostics) : Prop where
  | announced (kept : early ≤ s.announced.sum)
  | lost (member : line ∈ s.lost)
  | recounting (lost : ℕ) (here : s.thread = .recounting line lost)
  | swapping (buf : Bytes) (here : s.thread = .swapping line buf)
      (kept : early ≤ s.announced.sum + s.dropped)
  | noting (now : String) (lost : ℕ) (buf : Bytes) (place : LinePlace)
      (here : s.thread = .noting now lost line buf place) (kept : early ≤ s.announced.sum + lost)

theorem lined_promised {early line call : ℕ} (buf : Bytes) (write : LineWrite)
    (kept : early ≤ s.announced.sum) : Promised early line (s.lined call buf write) := by
  refine .announced (kept.trans ?_)
  simp only [announced, lined, wholes_append, List.filterMap_append, List.sum_append]
  omega

theorem noted_promised {early line lost : ℕ} (now : String) (buf : Bytes) {write : LineWrite}
    (whole : wholes write.laid =
      if write.state = .returned true then [.note now lost] else [])
    (kept : early ≤ s.announced.sum + lost) :
    Promised early line (s.noted now lost line buf write) := by
  cases state : write.state with
  | waiting place =>
      refine .noting now lost buf place (by simp [noted, state]) ?_
      simp only [announced] at kept
      simpa [noted, state, announced, whole] using kept
  | returned ok =>
      cases ok with
      | true =>
          simp only [noted, state]
          refine lined_promised buf _ ?_
          simp only [announced] at kept
          simpa [announced, whole, state, List.filterMap_cons, Outgoing.lost?] using kept
      | false => exact .recounting lost (by simp [noted, state])

theorem lined_grows (s : Diagnostics) (call : ℕ) (buf : Bytes) (write : LineWrite) :
    s.laid <+: (s.lined call buf write).laid ∧ (s.lined call buf write).lost = s.lost :=
  ⟨List.prefix_append _ _, rfl⟩

theorem noted_grows (s : Diagnostics) (now : String) (lost call : ℕ) (buf : Bytes)
    (write : LineWrite) :
    s.laid <+: (s.noted now lost call buf write).laid ∧
      (s.noted now lost call buf write).lost = s.lost := by
  simp only [noted]
  split
  · exact ⟨List.prefix_append _ _, rfl⟩
  · have later := lined_grows { s with torn := write.torn, laid := s.laid ++ write.laid } call buf
      (writeLine (.line call buf) write.torn)
    exact ⟨(List.prefix_append _ _).trans later.1, rfl⟩
  · exact ⟨List.prefix_append _ _, rfl⟩

theorem step_grows (taken : s.step capacity action = some next) :
    s.laid <+: next.laid ∧ s.lost <+: next.lost := by
  cases moves_of_step taken with
  | call | queue | refuse | requestFlush | receiveLine | receiveFlush =>
      exact ⟨List.prefix_rfl, List.prefix_rfl⟩
  | countDropped => exact ⟨List.prefix_rfl, List.prefix_append _ _⟩
  | countAgain => exact ⟨List.prefix_rfl, List.prefix_append _ _⟩
  | skipNote | answerLine => exact ⟨List.prefix_append _ _, List.prefix_rfl⟩
  | startNote now call buf here some =>
      obtain ⟨laid, lost⟩ := noted_grows { s with dropped := 0 } now s.dropped call buf
        (writeLine (.note now s.dropped) s.torn)
      exact ⟨laid, by rw [lost]⟩
  | answerNote answer now lost call buf place here within =>
      obtain ⟨laid, same⟩ := noted_grows
        { s with out := s.out ++ (place.rest (.note now lost)).take answer.count } now lost call buf
        (lineAnswer (.note now lost) s.torn place answer)
      exact ⟨laid, by rw [same]⟩

theorem announced_sum_le (grows : s.laid <+: next.laid) :
    s.announced.sum ≤ next.announced.sum := by
  obtain ⟨more, laid⟩ := grows
  simp only [announced, ← laid, wholes_append, List.filterMap_append, List.sum_append]
  omega

/-- Whatever leaves the thread alone keeps the promise. -/
theorem Promised.keep {early line : ℕ} (promised : Promised early line s)
    (thread : next.thread = s.thread) (laid : next.laid = s.laid)
    (lost : s.lost <+: next.lost) (dropped : s.dropped ≤ next.dropped) :
    Promised early line next := by
  have same : next.announced.sum = s.announced.sum := by
    rw [Diagnostics.announced, laid, Diagnostics.announced]
  cases promised with
  | announced kept => exact .announced (same ▸ kept)
  | lost member => exact .lost (lost.subset member)
  | recounting lost here => exact .recounting lost (thread.trans here)
  | swapping buf here kept => exact .swapping buf (thread.trans here) (by omega)
  | noting now lost buf place here kept =>
      exact .noting now lost buf place (thread.trans here) (by omega)

theorem Promised.step {early line : ℕ} (promised : Promised early line s)
    (fits : s.counterFits action = true) (taken : s.step capacity action = some next) :
    Promised early line next := by
  have grows := step_grows taken
  have ahead : early ≤ s.announced.sum → Promised early line next := fun kept =>
    .announced (kept.trans (announced_sum_le grows.1))
  have gone : line ∈ s.lost → Promised early line next := fun member =>
    .lost (grows.2.subset member)
  cases moves_of_step taken with
  | call | queue | refuse | requestFlush =>
      exact promised.keep rfl rfl List.prefix_rfl le_rfl
  | countDropped id call found here =>
      have sum := fetchAdd_of_fits (of_decide_eq_true fits)
      refine promised.keep rfl rfl (List.prefix_append _ _) ?_
      dsimp only
      omega
  | receiveLine call buf queue here head =>
      cases promised with
      | announced kept => exact ahead kept
      | lost member => exact gone member
      | recounting _ own | swapping _ own | noting _ _ _ _ own => simp [here] at own
  | receiveFlush queue here head => exact promised.keep rfl rfl List.prefix_rfl le_rfl
  | skipNote now call buf here none =>
      cases promised with
      | announced kept => exact ahead kept
      | lost member => exact gone member
      | swapping _ own kept => exact lined_promised buf _ (by omega)
      | recounting _ own | noting _ _ _ _ own => simp [here] at own
  | startNote now call buf here some =>
      cases promised with
      | announced kept => exact ahead kept
      | lost member => exact gone member
      | swapping _ own kept =>
          obtain ⟨rfl, rfl⟩ := Thread.swapping.inj (here.symm.trans own)
          exact noted_promised now buf (writeLine_wholes _ _) kept
      | recounting _ own | noting _ _ _ _ own => simp [here] at own
  | answerNote answer now lost call buf place here within =>
      cases promised with
      | announced kept => exact ahead kept
      | lost member => exact gone member
      | noting _ _ _ _ own kept =>
          obtain ⟨rfl, rfl, rfl, rfl, rfl⟩ := Thread.noting.inj (here.symm.trans own)
          exact noted_promised now buf (lineAnswer_wholes _ _ _ _) kept
      | recounting _ own | swapping _ own => simp [here] at own
  | answerLine answer call buf place here within =>
      cases promised with
      | announced kept => exact ahead kept
      | lost member => exact gone member
      | recounting _ own | swapping _ own | noting _ _ _ _ own => simp [here] at own
  | countAgain call lost here =>
      cases promised with
      | announced kept => exact ahead kept
      | lost member => exact gone member
      | recounting _ own =>
          obtain ⟨rfl, rfl⟩ := Thread.recounting.inj (here.symm.trans own)
          exact .lost (List.mem_append_right _ (List.mem_singleton_self _))
      | swapping _ own | noting _ _ _ _ own => simp [here] at own

/-! ### Whole runs -/

structure Balanced (s : Diagnostics) : Prop where
  balance : ∀ weigh : ℕ → ℕ, weighed weigh s = handed weigh s
  counted : Counted s

theorem balanced_run {actions : List Action}
    (ran : runFrom (restrict counterFits (step capacity)) {} actions = some s) : Balanced s := by
  refine invariant_run ?_ actions {} s ran ⟨fun weigh => rfl, by unfold Counted; rfl⟩
  intro state action next taken balanced
  obtain ⟨fits, taken⟩ := restrict_eq_some.mp taken
  refine ⟨fun weigh => ?_, balanced.counted.step fits taken⟩
  have before := balanced.balance weigh
  have moved := step_weighed weigh taken
  omega

theorem sum_marks (id : ℕ) (ids : List ℕ) :
    (ids.map fun other => if other = id then 1 else 0).sum = ids.count id := by
  induction ids with
  | nil => rfl
  | cons other ids ih =>
      rw [List.map_cons, List.sum_cons, ih, List.count_cons]
      simp only [beq_iff_eq]
      omega

/-- No line is in two places, or in one place twice. -/
theorem Balanced.placed_nodup (balanced : Balanced s) : s.placed.Nodup := by
  rw [List.nodup_iff_count_le_one]
  intro id
  have all := balanced.balance fun other => if other = id then 1 else 0
  rw [weighed, handed, sum_marks, sum_marks] at all
  have once := List.nodup_iff_count_le_one.mp (List.nodup_range (n := s.calls.length)) id
  omega

theorem Balanced.handed_eq (balanced : Balanced s) :
    s.calls.length = s.inProgress + s.queued.length + s.thread.inHand.length +
      s.written.length + s.lost.length := by
  have all := balanced.balance fun _ => 1
  rw [weighed, handed, loadAt_unnumbered, ← inProgress] at all
  simp only [placed, List.map_const', List.sum_replicate, List.length_append, List.length_range,
    smul_eq_mul, mul_one] at all
  omega

theorem flatten_splitLengths (lengths : List ℕ) (items : List ℕ) :
    (lengths.splitLengths items).flatten = items.take lengths.sum := by
  induction lengths generalizing items with
  | nil => simp
  | cons length lengths ih =>
      rw [List.splitLengths_cons, List.flatten_cons, ih, List.sum_cons, List.take_add]

theorem Balanced.not_written {line : ℕ} (balanced : Balanced s)
    (other : line ∈ s.thread.inHand ∨ line ∈ s.lost) : line ∉ s.written := by
  have once := balanced.placed_nodup
  simp only [placed, List.nodup_append, List.mem_append] at once
  intro member
  rcases other with held | gone
  · exact once.1.2.2 line (Or.inr held) line member rfl
  · exact once.2.2 line (Or.inr member) line gone rfl

theorem Balanced.announced_of_promised {early line : ℕ} (balanced : Balanced s)
    (promised : Promised early line s) (member : line ∈ s.written) :
    early ≤ s.announced.sum := by
  cases promised with
  | announced kept => exact kept
  | lost gone => exact absurd member (balanced.not_written (Or.inr gone))
  | recounting _ here | swapping _ here | noting _ _ _ _ here =>
      refine absurd member (balanced.not_written (Or.inl ?_))
      rw [here]
      exact List.mem_singleton_self line

/-- From the moment a line is received, the lines lost before are promised to be announced. -/
theorem Balanced.promised_of_receive {line : ℕ} {buf : Bytes} (balanced : Balanced s)
    (head : s.queue.head? = some (.line line buf))
    (taken : s.step capacity .receive = some next) : Promised s.lost.length line next := by
  have counted := balanced.counted
  unfold Counted at counted
  cases moves_of_step taken with
  | receiveLine call other queue here found =>
      obtain ⟨rfl, rfl⟩ : call = line ∧ other = buf := by simpa [found] using head
      have none : s.thread.taken = 0 := by
        rw [here]
        rfl
      refine .swapping other rfl ?_
      rw [counted, none]
      exact le_rfl
  | receiveFlush queue here found => simp [found] at head

/-- Every line handed to `write` is in exactly one place. Each note stands for so many lost lines
as it says, and once a line is written, each line that was lost before this one was received is
in exactly one note. -/
theorem losses_accounted {actions : List Action}
    (ran : runFrom (restrict counterFits (step capacity)) {} actions = some s) :
    s.calls.length =
        s.inProgress + s.queued.length + s.thread.inHand.length + s.written.length +
          s.announced.sum + s.dropped + s.thread.taken ∧
      (s.announced.splitLengths s.lost).map List.length = s.announced ∧
      ∀ before after early line buf, actions = before ++ .receive :: after →
        runFrom (restrict counterFits (step capacity)) {} before = some early →
        early.queue.head? = some (.line line buf) → line ∈ s.written →
          ∀ call ∈ early.lost, (s.announced.splitLengths s.lost).flatten.count call = 1 := by
  have balanced := balanced_run ran
  have counted := balanced.counted
  unfold Counted at counted
  refine ⟨?_, List.map_splitLengths_length _ _ (by omega), ?_⟩
  · have handed := balanced.handed_eq
    omega
  intro before after early line buf whole ranBefore head written call member
  rw [whole, runFrom_append, ranBefore, Option.bind_some] at ran
  -- The promise made when the line was received is kept to the end of the run.
  have promised : Promised early.lost.length line s := by
    rw [runFrom, Option.bind_eq_some_iff] at ran
    obtain ⟨received, taken, rest⟩ := ran
    refine invariant_run ?_ after received s rest
      ((balanced_run ranBefore).promised_of_receive head (restrict_eq_some.mp taken).2)
    intro state action next taken promised
    obtain ⟨fits, taken⟩ := restrict_eq_some.mp taken
    exact promised.step fits taken
  have grows : early.lost <+: s.lost := by
    refine invariant_run (motive := fun state => early.lost <+: state.lost) ?_ _ early s ran
      List.prefix_rfl
    intro state action next taken grown
    exact grown.trans (step_grows (restrict_eq_some.mp taken).2).2
  have announced := balanced.announced_of_promised promised written
  have once : s.lost.Nodup := by
    have all := balanced.placed_nodup
    rw [placed, List.nodup_append] at all
    exact all.2.1
  rw [flatten_splitLengths]
  refine List.count_eq_one_of_mem (once.sublist (List.take_sublist _ _)) ?_
  have reached : early.lost <+: s.lost.take s.announced.sum :=
    List.prefix_take_iff.mpr ⟨grows, announced⟩
  exact reached.subset member

/-- The second line finds the queue full, and the first is lost because its note cannot be
written. -/
def lossyStart : List Action :=
  [.call [97, 10], .trySend 0 true, .call [98, 10], .trySend 1 false, .countDropped 1, .receive,
    .swap "now", .answer .failed, .countAgain, .call [99, 10], .trySend 2 true]

/-- The third line is written, after a note that the output takes in two parts. -/
def lossyEnd : List Action :=
  [.swap "now", .answer (.accepted 3), .answer .interrupted,
    .answer (.accepted ((droppedNote "now" 2).length - 3)), .answer (.accepted 2)]

theorem losses_accounted_lossy :
    ∃ s, runFrom (restrict counterFits (step 1)) {} (lossyStart ++ .receive :: lossyEnd) = some s ∧
      s.written = [2] ∧ s.announced = [2] ∧
      s.calls.length = s.inProgress + s.queued.length + s.thread.inHand.length +
        s.written.length + s.announced.sum + s.dropped + s.thread.taken ∧
      (s.announced.splitLengths s.lost).flatten.count 0 = 1 ∧
      (s.announced.splitLengths s.lost).flatten.count 1 = 1 := by
  have start : (runFrom (restrict counterFits (step 1)) {} lossyStart).any (fun s =>
      s.queue.head? = some (.line 2 [99, 10]) ∧ s.lost = [1, 0]) = true := by
    decide +kernel
  have facts : (runFrom (restrict counterFits (step 1)) {}
      (lossyStart ++ .receive :: lossyEnd)).any (fun s =>
        s.written = [2] ∧ s.announced = [2]) = true := by
    decide +kernel
  obtain ⟨early, ranEarly, start⟩ := (Option.any_eq_true _ _).mp start
  obtain ⟨s, ran, facts⟩ := (Option.any_eq_true _ _).mp facts
  obtain ⟨head, lost⟩ := of_decide_eq_true start
  obtain ⟨written, announced⟩ := of_decide_eq_true facts
  obtain ⟨all, _, once⟩ := losses_accounted ran
  have each := once lossyStart lossyEnd early 2 [99, 10] rfl ranEarly head (by simp [written])
  rw [lost] at each
  exact ⟨s, ran, written, announced, all, each 0 (by simp), each 1 (by simp)⟩

end Diagnostics

end OtelLogger
