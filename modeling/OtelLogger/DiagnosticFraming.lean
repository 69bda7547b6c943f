import OtelLogger.DiagnosticLedger
import OtelLogger.Library.Delimited

/-!
Framing of the diagnostics output: what was laid down in it is a sequence of whole messages,
fragments of messages, and the newlines that end a fragment, so that every whole message starts a
line.
-/

namespace OtelLogger

open Interleaving
open Delimited

namespace Diagnostics

def text (laid : List Piece) : Bytes :=
  (laid.map Piece.bytes).flatten

@[simp] theorem text_nil : text [] = [] := rfl

@[simp] theorem text_append (first second : List Piece) :
    text (first ++ second) = text first ++ text second := by
  simp [text]

@[simp] theorem text_cons (piece : Piece) (laid : List Piece) :
    text (piece :: laid) = piece.bytes ++ text laid := by
  simp [text]

/-- What the call of `write_counting` under way has written. -/
def LineState.sent (message : Outgoing) : LineState → Bytes
  | waiting place => (place.buf message).take place.written
  | returned _ => []

def Thread.sent : Thread → Bytes
  | noting now lost _ _ place => (LineState.waiting place).sent (.note now lost)
  | lining call buf place => (LineState.waiting place).sent (.line call buf)
  | _ => []

/-- The output ends in a fragment that no newline has ended. -/
def EndsTorn (laid : List Piece) : Prop :=
  ∃ before message written, laid = before ++ [.fragment message written]

/-! ### What `write_line` lays down -/

/-- A sequence of pieces in which whole messages start lines, and the flag that goes with it. -/
structure Framing (laid : List Piece) (torn : Bool) : Prop where
  starts : ∀ before message after, laid = before ++ .whole message :: after →
    Complete newline (text before)
  fragments : ∀ message written, .fragment message written ∈ laid →
    0 < written ∧ written < message.bytes.length
  torn_iff : torn = true ↔ EndsTorn laid
  ended : torn = false → Complete newline (text laid)

namespace Framing

variable {laid : List Piece} {torn : Bool} {message : Outgoing}

theorem empty : Framing [] false where
  starts before message after split := by simp at split
  fragments message written member := by simp at member
  torn_iff := by simp [EndsTorn]
  ended _ := Or.inl rfl

theorem concat_split {piece : Piece} {before after : List Piece}
    (split : laid ++ [piece] = before ++ .whole message :: after) :
    (∃ rest, laid = before ++ .whole message :: rest) ∨
      (before = laid ∧ piece = .whole message) := by
  rcases List.eq_nil_or_concat after with rfl | ⟨rest, last, rfl⟩
  · obtain ⟨rfl, same⟩ := List.append_inj' split rfl
    exact Or.inr ⟨rfl, List.singleton_inj.mp same⟩
  · rw [List.concat_eq_append, ← List.cons_append, ← List.append_assoc] at split
    exact Or.inl ⟨rest, (List.append_inj' split rfl).1⟩

theorem endsTorn_concat {piece : Piece} :
    EndsTorn (laid ++ [piece]) ↔ ∃ message written, piece = .fragment message written := by
  constructor
  · rintro ⟨before, message, written, same⟩
    exact ⟨message, written, List.singleton_inj.mp (List.append_inj' same rfl).2⟩
  · rintro ⟨message, written, rfl⟩
    exact ⟨laid, message, written, rfl⟩

theorem whole (framing : Framing laid false) (line : Complete newline message.bytes) :
    Framing (laid ++ [.whole message]) false where
  starts before other after split := by
    rcases concat_split split with ⟨rest, earlier⟩ | ⟨rfl, _⟩
    · exact framing.starts before other rest earlier
    · exact framing.ended rfl
  fragments other written member := by
    refine framing.fragments other written ?_
    simpa using member
  torn_iff := by simp [endsTorn_concat]
  ended _ := by
    rw [text_append, text_cons, text_nil, List.append_nil]
    exact (framing.ended rfl).append line

theorem fragment (framing : Framing laid false) {written : ℕ} (some : 0 < written)
    (proper : written < message.bytes.length) :
    Framing (laid ++ [.fragment message written]) true where
  starts before other after split := by
    rcases concat_split split with ⟨rest, earlier⟩ | ⟨_, impossible⟩
    · exact framing.starts before other rest earlier
    · cases impossible
  fragments other amount member := by
    rcases List.mem_append.mp member with earlier | last
    · exact framing.fragments other amount earlier
    · obtain ⟨rfl, rfl⟩ : other = message ∧ amount = written := by simpa using last
      exact ⟨some, proper⟩
  torn_iff := by simp [endsTorn_concat]
  ended whole := by cases whole

theorem repair (framing : Framing laid torn) : Framing (laid ++ [.repair]) false where
  starts before other after split := by
    rcases concat_split split with ⟨rest, earlier⟩ | ⟨_, impossible⟩
    · exact framing.starts before other rest earlier
    · cases impossible
  fragments other written member := by
    refine framing.fragments other written ?_
    simpa using member
  torn_iff := by simp [endsTorn_concat]
  ended _ := Or.inr ⟨text laid, by simp [Piece.bytes]⟩

end Framing

namespace Counting

def text (buf : Bytes) : Counting → Bytes
  | again written => buf.take written
  | returned (.ok ()) => buf
  | returned (.error written) => buf.take written

/-- A round, and a failure, leave something to write. -/
def Short (buf : Bytes) : Counting → Prop
  | again written => written < buf.length
  | returned (.ok ()) => True
  | returned (.error written) => written < buf.length

end Counting

theorem writeCounting_short (buf : Bytes) (written : ℕ) :
    (writeCounting buf written).Short buf := by
  unfold writeCounting
  split
  · assumption
  · trivial

theorem writeCounting_text {buf : Bytes} {written : ℕ} (within : written ≤ buf.length) :
    (writeCounting buf written).text buf = buf.take written := by
  unfold writeCounting
  split
  · rfl
  · have all : written = buf.length := by omega
    rw [all, List.take_length]
    rfl

theorem countAnswer_short {buf : Bytes} {written : ℕ} (short : written < buf.length)
    (answer : WriteAnswer) : (countAnswer buf written answer).Short buf := by
  cases answer with
  | accepted n =>
      simp only [countAnswer]
      split
      · exact short
      · exact writeCounting_short buf _
  | interrupted => exact writeCounting_short buf _
  | failed => exact short

theorem countAnswer_text {buf : Bytes} {written : ℕ} (short : written < buf.length)
    {answer : WriteAnswer} (within : answer.within (buf.drop written).length = true) :
    (countAnswer buf written answer).text buf =
      buf.take written ++ (buf.drop written).take answer.count := by
  cases answer with
  | accepted n =>
      simp only [countAnswer, WriteAnswer.count]
      split
      · rename_i zero
        subst zero
        simp [Counting.text]
      · have bound : written + n ≤ buf.length := by
          simp only [WriteAnswer.within, List.length_drop, decide_eq_true_eq] at within
          omega
        rw [writeCounting_text bound, List.take_add]
  | interrupted => simp [countAnswer, WriteAnswer.count, writeCounting_text short.le]
  | failed => simp [countAnswer, WriteAnswer.count, Counting.text]

/-- `write_line` waits with bytes left to write; it mends a line as long as one is torn. -/
def LinePlace.Fits (message : Outgoing) (torn : Bool) (place : LinePlace) : Prop :=
  place.written < (place.buf message).length ∧
    match place with
    | mending _ => torn = true
    | body _ => torn = false

/-- What a `write_line` so far, after `laid`, has to do with the bytes it brought. -/
structure LineWrite.Frames (write : LineWrite) (message : Outgoing) (laid : List Piece)
    (brought : Bytes) : Prop where
  brought_eq : text write.laid ++ write.state.sent message = brought
  framing : Framing (laid ++ write.laid) write.torn
  place : ∀ place, write.state = .waiting place → place.Fits message write.torn

section Lines

variable {message : Outgoing} {laid : List Piece}

theorem writeBody_frames (framing : Framing laid false) (line : Complete newline message.bytes)
    {counting : Counting} (short : counting.Short message.bytes) :
    (writeBody message false counting).Frames message laid (counting.text message.bytes) := by
  cases counting with
  | again written =>
      refine ⟨List.nil_append _, ?_, ?_⟩
      · simpa [writeBody] using framing
      · rintro place same
        cases same
        exact ⟨short, rfl⟩
  | returned result =>
      cases result with
      | ok value =>
          refine ⟨?_, framing.whole line, fun place impossible => by cases impossible⟩
          simp [writeBody, LineState.sent, Counting.text, Piece.bytes]
      | error written =>
          by_cases some : 0 < written
          · refine ⟨?_, ?_, fun place impossible => by cases impossible⟩
            · simp [writeBody, some, LineState.sent, Counting.text, Piece.bytes]
            · simpa [writeBody, some] using framing.fragment some short
          · have none : written = 0 := by omega
            subst none
            refine ⟨?_, ?_, fun place impossible => by cases impossible⟩
            · simp [writeBody, LineState.sent, Counting.text]
            · simpa [writeBody] using framing

theorem mendLine_frames (framing : Framing laid true) (line : Complete newline message.bytes)
    {counting : Counting} (short : counting.Short [newline]) :
    (mendLine message true counting).Frames message laid (counting.text [newline]) := by
  cases counting with
  | again written =>
      refine ⟨List.nil_append _, ?_, ?_⟩
      · simpa [mendLine] using framing
      · rintro place same
        cases same
        exact ⟨short, rfl⟩
  | returned result =>
      cases result with
      | ok value =>
          have body := writeBody_frames framing.repair line (writeCounting_short message.bytes 0)
          rw [writeCounting_text (Nat.zero_le _)] at body
          refine ⟨?_, ?_, body.place⟩
          · have brought := body.brought_eq
            simp only [mendLine, text_cons, Piece.bytes, List.append_assoc, brought]
            simp [Counting.text]
          · simpa [mendLine] using body.framing
      | error written =>
          have none : written = 0 := by
            simp only [Counting.Short, List.length_singleton] at short
            omega
          subst none
          refine ⟨rfl, ?_, fun place impossible => by cases impossible⟩
          simpa [mendLine] using framing

theorem writeLine_frames {torn : Bool} (framing : Framing laid torn)
    (line : Complete newline message.bytes) :
    (writeLine message torn).Frames message laid [] := by
  cases torn with
  | true =>
      have mended := mendLine_frames framing line (writeCounting_short [newline] 0)
      rwa [writeCounting_text (Nat.zero_le _)] at mended
  | false =>
      have body := writeBody_frames framing line (writeCounting_short message.bytes 0)
      rwa [writeCounting_text (Nat.zero_le _)] at body

theorem lineAnswer_frames {torn : Bool} {place : LinePlace} {answer : WriteAnswer}
    (framing : Framing laid torn) (line : Complete newline message.bytes)
    (fits : place.Fits message torn) (within : answer.within (place.rest message).length = true) :
    (lineAnswer message torn place answer).Frames message laid
      ((LineState.waiting place).sent message ++ (place.rest message).take answer.count) := by
  obtain ⟨short, stage⟩ := fits
  cases place with
  | mending written =>
      subst stage
      change written < [newline].length at short
      change answer.within ([newline].drop written).length = true at within
      have mended := mendLine_frames framing line (countAnswer_short short answer)
      rwa [countAnswer_text short within] at mended
  | body written =>
      subst stage
      change written < message.bytes.length at short
      change answer.within (message.bytes.drop written).length = true at within
      have body := writeBody_frames framing line (countAnswer_short short answer)
      rwa [countAnswer_text short within] at body

end Lines

theorem droppedNote_complete (now : String) (lost : ℕ) :
    Complete newline (droppedNote now lost) := by
  have last : utf8 " 行捨てました\n" = utf8 " 行捨てました" ++ [newline] := by decide
  rw [droppedNote, utf8_append, last, ← List.append_assoc]
  exact Or.inr ⟨_, rfl⟩

/-! ### Steps and runs -/

def Thread.Waits (torn : Bool) : Thread → Prop
  | noting now lost _ _ place => place.Fits (.note now lost) torn
  | lining call buf place => place.Fits (.line call buf) torn
  | _ => True

def Thread.buf? : Thread → Option Bytes
  | swapping _ buf | noting _ _ _ buf _ | lining _ buf _ => some buf
  | _ => none

/-- Every buffer on its way to the output ends in a newline. -/
structure Lines (s : Diagnostics) : Prop where
  calls : ∀ call ∈ s.calls, Complete newline call.buf
  queue : ∀ call buf, .line call buf ∈ s.queue → Complete newline buf
  thread : ∀ buf ∈ s.thread.buf?, Complete newline buf

structure Framed (s : Diagnostics) : Prop where
  out : s.out = text s.laid ++ s.thread.sent
  framing : Framing s.laid s.torn
  waits : s.thread.Waits s.torn
  lines : Lines s

variable {capacity : ℕ} {s next : Diagnostics} {action : Action}

theorem LineWrite.Frames.out_eq {message : Outgoing} {write : LineWrite} {laid : List Piece}
    {brought out : Bytes} (frames : write.Frames message laid brought)
    (before : out = text laid ++ brought) :
    out = text (laid ++ write.laid) ++ write.state.sent message := by
  rw [text_append, List.append_assoc, frames.brought_eq]
  exact before

theorem lined_framed {call : ℕ} {buf brought : Bytes} {write : LineWrite}
    (frames : write.Frames (.line call buf) s.laid brought) (out : s.out = text s.laid ++ brought)
    (lines : Lines s) (line : Complete newline buf) : Framed (s.lined call buf write) := by
  have whole : (s.lined call buf write).out =
      text (s.laid ++ write.laid) ++ write.state.sent (.line call buf) := frames.out_eq out
  cases state : write.state with
  | waiting place =>
      rw [state] at whole
      have thread : (s.lined call buf write).thread = .lining call buf place := by
        simp only [lined, state]
      refine ⟨?_, frames.framing, ?_, lines.calls, lines.queue, ?_⟩
      · rw [thread]
        exact whole
      · rw [thread]
        exact frames.place place state
      · rw [thread]
        rintro other same
        exact Option.some.inj same ▸ line
  | returned ok =>
      rw [state] at whole
      have thread : (s.lined call buf write).thread = .receiving ∨
          (s.lined call buf write).thread = .recounting call 0 := by
        simp only [lined, state]
        cases ok <;> simp
      refine ⟨?_, frames.framing, ?_, lines.calls, lines.queue, ?_⟩
      · rcases thread with thread | thread <;> exact thread ▸ whole
      · rcases thread with thread | thread <;> exact thread ▸ trivial
      · intro other same
        rcases thread with thread | thread <;> simp [thread, Thread.buf?] at same

theorem noted_framed {now : String} {lost call : ℕ} {buf brought : Bytes} {write : LineWrite}
    (frames : write.Frames (.note now lost) s.laid brought) (out : s.out = text s.laid ++ brought)
    (lines : Lines s) (line : Complete newline buf) :
    Framed (s.noted now lost call buf write) := by
  have whole := frames.out_eq out
  cases state : write.state with
  | waiting place =>
      rw [state] at whole
      simp only [noted, state]
      exact ⟨whole, frames.framing, frames.place place state, lines.calls, lines.queue,
        fun other same => Option.some.inj same ▸ line⟩
  | returned ok =>
      rw [state] at whole
      cases ok with
      | true =>
          simp only [noted, state]
          exact lined_framed (writeLine_frames frames.framing line) whole
            ⟨lines.calls, lines.queue, lines.thread⟩ line
      | false =>
          simp only [noted, state]
          exact ⟨whole, frames.framing, trivial, lines.calls, lines.queue,
            fun other same => by simp [Thread.buf?] at same⟩

theorem Lines.set {id : ℕ} {call : WriteCall} {phase : WritePhase} (lines : Lines s)
    (found : s.calls[id]? = some call) :
    ∀ other ∈ s.calls.set id { call with phase := phase }, Complete newline other.buf := by
  intro other member
  rcases List.mem_or_eq_of_mem_set member with earlier | rfl
  · exact lines.calls other earlier
  · exact lines.calls call (List.mem_of_getElem? found)

theorem Framed.step (framed : Framed s) (taken : s.step capacity action = some next)
    (line : ∀ buf, action = .call buf → Complete newline buf) : Framed next := by
  obtain ⟨out, framing, waits, lines⟩ := framed
  cases moves_of_step taken with
  | call buf =>
      refine ⟨out, framing, waits, ?_, lines.queue, lines.thread⟩
      intro call member
      rcases List.mem_append.mp member with earlier | last
      · exact lines.calls call earlier
      · rw [List.mem_singleton.mp last]
        exact line buf rfl
  | queue id call found here room =>
      refine ⟨out, framing, waits, lines.set found, ?_, lines.thread⟩
      intro other buf member
      rcases List.mem_append.mp member with earlier | last
      · exact lines.queue other buf earlier
      · obtain ⟨rfl, rfl⟩ := Message.line.inj (List.mem_singleton.mp last)
        exact lines.calls call (List.mem_of_getElem? found)
  | refuse id call found here full =>
      exact ⟨out, framing, waits, lines.set found, lines.queue, lines.thread⟩
  | countDropped id call found here =>
      exact ⟨out, framing, waits, lines.set found, lines.queue, lines.thread⟩
  | requestFlush room =>
      refine ⟨out, framing, waits, lines.calls, ?_, lines.thread⟩
      intro call buf member
      exact lines.queue call buf (by simpa using member)
  | receiveLine call buf queue here head =>
      rw [here] at out
      refine ⟨out, framing, trivial, lines.calls, ?_, ?_⟩
      · intro other rest member
        exact lines.queue other rest (by rw [head]; exact List.mem_cons_of_mem _ member)
      · rintro other same
        obtain rfl := Option.some.inj same
        exact lines.queue call buf (by rw [head]; exact List.mem_cons_self)
  | receiveFlush queue here head =>
      refine ⟨out, framing, waits, lines.calls, ?_, lines.thread⟩
      intro other rest member
      exact lines.queue other rest (by rw [head]; exact List.mem_cons_of_mem _ member)
  | skipNote now call buf here none =>
      rw [here] at out
      have own := lines.thread buf (by rw [here]; rfl)
      exact lined_framed (writeLine_frames framing own) out lines own
  | startNote now call buf here some =>
      rw [here] at out
      have own := lines.thread buf (by rw [here]; rfl)
      exact noted_framed (writeLine_frames framing (droppedNote_complete _ _)) out
        ⟨lines.calls, lines.queue, lines.thread⟩ own
  | answerNote answer now lost call buf place here within =>
      rw [here] at out waits
      have own := lines.thread buf (by rw [here]; rfl)
      refine noted_framed (lineAnswer_frames framing (droppedNote_complete _ _) waits within) ?_
        ⟨lines.calls, lines.queue, lines.thread⟩ own
      rw [← List.append_assoc, out]
      rfl
  | answerLine answer call buf place here within =>
      rw [here] at out waits
      have own := lines.thread buf (by rw [here]; rfl)
      refine lined_framed (lineAnswer_frames framing own waits within) ?_
        ⟨lines.calls, lines.queue, lines.thread⟩ own
      rw [← List.append_assoc, out]
      rfl
  | countAgain call lost here =>
      rw [here] at out
      exact ⟨out, framing, trivial, lines.calls, lines.queue, fun other same => by
        simp [Thread.buf?] at same⟩

/-- The lines that were queued are those done with, the one in hand and those in the queue. -/
def Ordered (s : Diagnostics) : Prop :=
  ∃ settled, s.accepted = settled ++ s.thread.inHand ++ s.queued ∧ s.written.Sublist settled

theorem lined_ordered {call : ℕ} (buf : Bytes) {write : LineWrite} {settled : List ℕ}
    (whole : wholes write.laid =
      if write.state = .returned true then [.line call buf] else [])
    (accepted : s.accepted = settled ++ [call] ++ s.queued) (kept : s.written.Sublist settled) :
    Ordered (s.lined call buf write) := by
  have same : (s.lined call buf write).written =
      s.written ++ (wholes write.laid).filterMap Outgoing.call? := by
    simp [written, lined]
  cases state : write.state with
  | waiting place =>
      refine ⟨settled, ?_, ?_⟩
      · simp only [lined, state]
        exact accepted
      · simpa [same, whole, state] using kept
  | returned ok =>
      cases ok with
      | true =>
          refine ⟨settled ++ [call], ?_, ?_⟩
          · simp only [lined, state, Thread.inHand, List.append_nil]
            exact accepted
          · simp only [same, whole, state]
            exact kept.append (List.Sublist.refl _)
      | false =>
          refine ⟨settled, ?_, ?_⟩
          · simp only [lined, state]
            exact accepted
          · simpa [same, whole, state] using kept

theorem noted_ordered {now : String} {lost call : ℕ} (buf : Bytes) {write : LineWrite}
    {settled : List ℕ}
    (whole : wholes write.laid =
      if write.state = .returned true then [.note now lost] else [])
    (accepted : s.accepted = settled ++ [call] ++ s.queued) (kept : s.written.Sublist settled) :
    Ordered (s.noted now lost call buf write) := by
  have same : (wholes write.laid).filterMap Outgoing.call? = [] := by
    rw [whole]
    split <;> rfl
  have unchanged : ((wholes (s.laid ++ write.laid)).filterMap Outgoing.call?).Sublist settled := by
    rw [wholes_append, List.filterMap_append, same, List.append_nil]
    exact kept
  cases state : write.state with
  | waiting place =>
      simp only [noted, state]
      exact ⟨settled, accepted, unchanged⟩
  | returned ok =>
      cases ok with
      | true =>
          simp only [noted, state]
          exact lined_ordered buf (writeLine_wholes _ _) accepted unchanged
      | false =>
          simp only [noted, state]
          exact ⟨settled, accepted, unchanged⟩

theorem Ordered.step (ordered : Ordered s) (taken : s.step capacity action = some next) :
    Ordered next := by
  obtain ⟨settled, accepted, kept⟩ := ordered
  cases moves_of_step taken with
  | call | refuse | countDropped => exact ⟨settled, accepted, kept⟩
  | queue id call found here room =>
      refine ⟨settled, ?_, kept⟩
      simp only [accepted, queued, List.filterMap_append, List.append_assoc]
      rfl
  | requestFlush room =>
      refine ⟨settled, ?_, kept⟩
      simpa [queued, Message.call?, List.filterMap_cons] using accepted
  | receiveLine call buf queue here head =>
      refine ⟨settled, ?_, kept⟩
      simp only [accepted, queued, here, head]
      simp [Thread.inHand, Message.call?]
  | receiveFlush queue here head =>
      refine ⟨settled, ?_, kept⟩
      simpa [queued, head, Message.call?, List.filterMap_cons] using accepted
  | skipNote now call buf here none =>
      rw [here] at accepted
      exact lined_ordered buf (writeLine_wholes _ _) accepted kept
  | startNote now call buf here some =>
      rw [here] at accepted
      exact noted_ordered buf (writeLine_wholes _ _) accepted kept
  | answerNote answer now lost call buf place here within =>
      rw [here] at accepted
      exact noted_ordered buf (lineAnswer_wholes _ _ _ _) accepted kept
  | answerLine answer call buf place here within =>
      rw [here] at accepted
      exact lined_ordered buf (lineAnswer_wholes _ _ _ _) accepted kept
  | countAgain call lost here =>
      refine ⟨settled ++ [call], ?_, kept.trans (List.sublist_append_left _ _)⟩
      simp only [accepted, here]
      simp [Thread.inHand, queued]

/-- Every message that was written whole starts the output or a line and lies there in one piece,
the lines in the order in which they were queued. Between two messages the flag tells whether the
output ends in an unfinished part of a message. -/
theorem messages_framed {actions : List Action}
    (ran : runFrom (step capacity) {} actions = some s)
    (lines : ∀ buf, .call buf ∈ actions → ∃ body, buf = body ++ [newline]) :
    (∀ before message after, s.laid = before ++ .whole message :: after →
      Complete newline (text before) ∧ text before ++ message.bytes <+: s.out) ∧
    s.written.Sublist s.accepted ∧
    (s.thread.sent = [] → (s.torn = true ↔ ∃ before message written,
      s.laid = before ++ [.fragment message written] ∧ 0 < written ∧
        written < message.bytes.length ∧
        s.out = text before ++ message.bytes.take written)) := by
  have framed : Framed s := by
    have start : Framed {} := ⟨rfl, Framing.empty, trivial, by simp, by simp, by simp [Thread.buf?]⟩
    refine invariant_run_of (· ∈ actions) ?_ actions {} s
      (fun action member => member) ran start
    intro state action next member taken framed
    refine framed.step taken ?_
    rintro buf rfl
    exact Or.inr (lines buf member)
  have ordered : Ordered s :=
    invariant_run (fun state action next taken ordered => Ordered.step ordered taken) actions {} s
      ran ⟨[], rfl, List.Sublist.refl _⟩
  refine ⟨?_, ?_, ?_⟩
  · intro before message after split
    refine ⟨framed.framing.starts before message after split, ?_⟩
    rw [framed.out, split, text_append, text_cons]
    exact ⟨text after ++ s.thread.sent, by simp [Piece.bytes]⟩
  · obtain ⟨settled, accepted, kept⟩ := ordered
    rw [accepted, List.append_assoc]
    exact kept.trans (List.sublist_append_left _ _)
  · intro idle
    have out := framed.out
    rw [idle, List.append_nil] at out
    rw [framed.framing.torn_iff]
    constructor
    · rintro ⟨before, message, written, last⟩
      obtain ⟨some, proper⟩ := framed.framing.fragments message written (by simp [last])
      refine ⟨before, message, written, last, some, proper, ?_⟩
      rw [out, last]
      simp [Piece.bytes]
    · rintro ⟨before, message, written, last, _⟩
      exact ⟨before, message, written, last⟩

/-- The output fails in the middle of the first line and before the newline that would end it. -/
def tornRun : List Action :=
  [.call [97, 98, 10], .trySend 0 true, .call [99, 10], .trySend 1 true, .receive, .swap "now",
    .answer (.accepted 2), .answer .failed, .countAgain, .receive, .swap "now", .answer .failed,
    .countAgain]

theorem messages_framed_torn :
    ∃ s, runFrom (step 4) {} tornRun = some s ∧ s.torn = true ∧ s.out = [97, 98] ∧
      ∃ before message written, s.laid = before ++ [.fragment message written] ∧ 0 < written ∧
        written < message.bytes.length ∧ s.out = text before ++ message.bytes.take written := by
  have facts : (runFrom (step 4) {} tornRun).any (fun s =>
      s.torn = true ∧ s.out = [97, 98] ∧ s.thread.sent = []) = true := by
    decide +kernel
  obtain ⟨s, ran, facts⟩ := (Option.any_eq_true _ _).mp facts
  obtain ⟨torn, out, idle⟩ := of_decide_eq_true facts
  have lines : ∀ buf, .call buf ∈ tornRun → ∃ body, buf = body ++ [newline] := by
    intro buf member
    have either : buf = [97, 98, 10] ∨ buf = [99, 10] := by simpa [tornRun] using member
    rcases either with rfl | rfl
    · exact ⟨[97, 98], rfl⟩
    · exact ⟨[99], rfl⟩
  obtain ⟨_, _, flag⟩ := messages_framed ran lines
  exact ⟨s, ran, torn, out, (flag idle).mp torn⟩

end Diagnostics

end OtelLogger
