import OtelLogger.Conversations

/-!
Conversation isolation. A run made of conversational messages counts for every conversation what
the run of that conversation's own messages alone would count.
-/

namespace OtelLogger

open Std (ExtTreeMap TransOrd LawfulEqOrd)
open Accounting

noncomputable def AgentStats.usage (agentStats : AgentStats) : Bucket →₀ ModelStats :=
  mapTotal agentStats.buckets fun _ (entry : BucketStats) =>
    Finsupp.single entry.toBucket entry.stats

theorem Represents.usage {agentStats : AgentStats} {ledger : Bucket →₀ ModelStats}
    (represents : Represents agentStats ledger) : agentStats.usage = ledger :=
  represents.holds.mapTotal_single

theorem CodexTracks.pendingSse_eq {g other : AggregatorInner} {books otherBooks : CodexBooks}
    (tracks : CodexTracks g books) (otherTracks : CodexTracks other otherBooks) {id : String}
    (same : books.pending id = otherBooks.pending id) :
    g.codexPendingSse[id]? = other.codexPendingSse[id]? := by
  rw [tracks.pending_apply, otherTracks.pending_apply] at same
  have empty {entries : ExtTreeMap Bucket ModelStats} (occupied : Occupied entries)
      (zero : ledgerOf entries = 0) : entries = ∅ := by
    have none : Occupied (∅ : ExtTreeMap Bucket ModelStats) := fun _ _ missing => by
      simp at missing
    exact occupied.ext none (zero.trans ledgerOf_empty.symm)
  cases found : g.codexPendingSse[id]? with
  | none =>
      cases otherFound : other.codexPendingSse[id]? with
      | none => rfl
      | some entries =>
          obtain ⟨occupied, present⟩ := otherTracks.occupied id entries otherFound
          rw [found, otherFound] at same
          exact absurd (empty occupied (by simpa using same.symm)) present
  | some entries =>
      obtain ⟨occupied, present⟩ := tracks.occupied id entries found
      cases otherFound : other.codexPendingSse[id]? with
      | none =>
          rw [found, otherFound] at same
          exact absurd (empty occupied (by simpa using same)) present
      | some others =>
          rw [found, otherFound] at same
          exact congrArg some (occupied.ext (otherTracks.occupied id others otherFound).1 same)

def Message.conversation : Message → Option String
  | .log _ record => conversationId record.attributes
  | .spanEvent _ event => conversationId event.attributes
  | .requestSpan _ _ attrs => conversationId attrs
  | .numberPoint _ _ _ _ => none
  | .histogramPoint _ _ _ _ => none

/-- Completions and session starts that carry a conversation, and spans with or without one. -/
def Message.Conversational : Message → Prop
  | .log service record =>
      isCodexService service = true ∧ conversationId record.attributes ≠ none
  | .spanEvent _ event => conversationId event.attributes ≠ none
  | .requestSpan _ _ _ => True
  | .numberPoint _ _ _ _ => False
  | .histogramPoint _ _ _ _ => False

instance : DecidablePred Message.Conversational := fun message =>
  match message with
  | .log _ _ => inferInstanceAs (Decidable (_ ∧ _))
  | .spanEvent _ _ => inferInstanceAs (Decidable (_ ≠ _))
  | .requestSpan _ _ _ => inferInstanceAs (Decidable True)
  | .numberPoint _ _ _ _ => inferInstanceAs (Decidable False)
  | .histogramPoint _ _ _ _ => inferInstanceAs (Decidable False)

def conversations (calls : List Call) : Finset String :=
  ((calls.flatMap Call.messages).filterMap Message.conversation).toFinset

/-- The messages of one conversation, each in a call of its own. -/
def ownCalls (calls : List Call) (id : String) : List Call :=
  (Projection.eventsOf Message.conversation id (calls.flatMap Call.messages)).map Message.call

theorem extractSessionFromAttrs_conversation (service : String) {attrs : List KeyValue}
    {session : CodexSession} (found : extractSessionFromAttrs attrs = some session) :
    (Step.session service session).conversation = conversationId attrs := by
  unfold extractSessionFromAttrs at found
  dsimp only at found
  split at found
  · simp at found
  · rw [← Option.some.inj found, Step.conversation, conversationId]
    cases stringAttr attrs "conversation.id" with
    | none => rfl
    | some id =>
        by_cases empty : id = ""
        · simp [empty, Option.filter]
        · simp [empty, Option.filter]

theorem Message.steps_carries {message : Message} {step : Step} (member : step ∈ message.steps)
    (codex : step.isClaude = false) : step.conversation = message.conversation := by
  cases message with
  | log service record =>
      simp only [Message.steps] at member
      split at member
      · obtain rfl := List.mem_singleton.mp member
        simp [Step.isClaude] at codex
      · split at member
        · simp only [List.mem_append, List.mem_map, Option.mem_toList,
            List.mem_singleton] at member
          obtain ⟨started, found, rfl⟩ | rfl := member
          · rw [extractCodexConversationStarts, Option.ite_none_right_eq_some] at found
            exact extractSessionFromAttrs_conversation service found.2
          · rfl
        · simp at member
  | spanEvent service event =>
      rw [Message.steps, List.mem_ite_nil_right] at member
      obtain ⟨started, found, rfl⟩ := List.mem_map.mp member.2
      exact extractSessionFromAttrs_conversation service (Option.mem_toList.mp found)
  | requestSpan service name attrs =>
      rw [Message.steps, List.mem_ite_nil_right] at member
      obtain rfl := List.mem_singleton.mp member.2
      rfl
  | numberPoint service metric temporality dp =>
      obtain rfl | rfl | rfl := Message.numberPoint_steps member <;> rfl
  | histogramPoint service metric temporality dp =>
      obtain rfl | rfl := Message.histogramPoint_steps member <;> rfl

theorem Message.steps_conversation {message : Message} (conversational : message.Conversational)
    {step : Step} (member : step ∈ message.steps) :
    step.conversation = message.conversation ∧ step.Conversational := by
  have sent := member
  cases message with
  | log service record =>
      obtain ⟨codex, identified⟩ := conversational
      simp only [Message.log_steps codex, List.mem_append, List.mem_map, Option.mem_toList,
        List.mem_singleton] at sent
      obtain ⟨started, _, rfl⟩ | rfl := sent
      · have own := Message.steps_carries member rfl
        exact ⟨own, fun none => identified (own.symm.trans none)⟩
      · exact ⟨rfl, identified⟩
  | spanEvent service event =>
      rw [Message.steps, List.mem_ite_nil_right] at sent
      obtain ⟨started, _, rfl⟩ := List.mem_map.mp sent.2
      have own := Message.steps_carries member rfl
      exact ⟨own, fun none => conversational (own.symm.trans none)⟩
  | requestSpan service name attrs =>
      rw [Message.steps, List.mem_ite_nil_right] at sent
      obtain rfl := List.mem_singleton.mp sent.2
      exact ⟨rfl, trivial⟩
  | numberPoint service metric temporality dp => exact conversational.elim
  | histogramPoint service metric temporality dp => exact conversational.elim

theorem conversational_steps {calls : List Call}
    (conversational : ∀ message ∈ calls.flatMap Call.messages, message.Conversational) :
    ∀ step ∈ calls.flatMap Call.steps, step.Conversational := by
  intro step member
  rw [Call.steps_flatMap, List.mem_flatMap] at member
  obtain ⟨message, carried, member⟩ := member
  exact (Message.steps_conversation (conversational message carried) member).2

theorem ownCalls_steps {calls : List Call}
    (conversational : ∀ message ∈ calls.flatMap Call.messages, message.Conversational)
    (id : String) : (ownCalls calls id).flatMap Call.steps =
      Projection.eventsOf Step.conversation id (calls.flatMap Call.steps) := by
  rw [ownCalls, List.flatMap_map, Call.steps_flatMap calls]
  simp only [Message.call_steps]
  exact (Projection.eventsOf_flatMap fun message sent step member =>
    (Message.steps_conversation (conversational message sent) member).1).symm

theorem offered_filter_le (keep : Step → Bool) (steps : List Step) :
    offered (steps.filter keep) ≤ offered steps := by
  induction steps with
  | nil => rfl
  | cons step steps ih =>
      rw [List.filter_cons]
      split
      · exact add_le_add_right ih step.sample
      · exact ih.trans (le_add_self (a := offered steps) (b := step.sample))

/-- Isolation: whatever the others send, a conversation is counted as if it were alone. -/
theorem Aggregator.conversations_isolated (calls : List Call) (exactCounts : NonSaturating calls)
    (conversational : ∀ message ∈ calls.flatMap Call.messages, message.Conversational) :
    Holds ((run calls).agent agentCodex).buckets
        (∑ id ∈ conversations calls, ((run (ownCalls calls id)).agent agentCodex).usage) ∧
      ∀ id : String,
        (run calls).codexPendingSse[id]? = (run (ownCalls calls id)).codexPendingSse[id]? ∧
        (run calls).codexSessions[id]? = (run (ownCalls calls id)).codexSessions[id]? := by
  have steps := conversational_steps conversational
  have own (id : String) (step : Step)
      (member : step ∈ Projection.eventsOf Step.conversation id (calls.flatMap Call.steps)) :
      step.Conversational := steps step (List.mem_of_mem_filter member)
  have tracks := codexTracks_run _ exactCounts
  have ownTracks (id : String) :=
    codexTracks_run (Projection.eventsOf Step.conversation id (calls.flatMap Call.steps))
      (exactCounts.of_le (offered_filter_le _ _))
  have assembled := assembled_run _ steps
  have ownAssembled (id : String) := assembled_run _ (own id)
  simp only [run_eq, ownCalls_steps conversational]
  refine ⟨?_, fun id => ⟨?_, ?_⟩⟩
  · have complete : ∀ step ∈ calls.flatMap Call.steps, ∀ id, step.conversation = some id →
        id ∈ conversations calls := by
      intro step member id carried
      rw [Call.steps_flatMap, List.mem_flatMap] at member
      obtain ⟨message, sent, member⟩ := member
      rw [(Message.steps_conversation (conversational message sent) member).1] at carried
      rw [conversations, List.mem_toFinset, List.mem_filterMap]
      exact ⟨message, sent, carried⟩
    have usage (id : String) :
        ((runSteps (Projection.eventsOf Step.conversation id (calls.flatMap Call.steps))).agent
          agentCodex).usage = (conversationOf id (calls.flatMap Call.steps)).usage := by
      rw [(ownTracks id).represents.usage, (ownAssembled id).ledger {id}, Finset.sum_singleton,
        conversationOf, Projection.localRun_eventsOf]
      · rfl
      · intro step member other carried
        have mine : step.conversation = some id := by
          simpa [Projection.eventsOf] using (List.mem_filter.mp member).2
        rw [mine] at carried
        rw [← Option.some.inj carried]
        exact Finset.mem_singleton_self id
    simp only [usage]
    rw [← assembled.ledger (conversations calls) complete]
    exact tracks.represents.holds
  · apply tracks.pendingSse_eq (ownTracks id)
    rw [assembled.pending, (ownAssembled id).pending, conversationOf, conversationOf,
      Projection.localRun_eventsOf]
  · rw [assembled.sessions, (ownAssembled id).sessions, conversationOf, conversationOf,
      Projection.localRun_eventsOf]

theorem Aggregator.conversations_isolated_shared_model :
    let calls := [(completionMessage "a" "gpt-5" 7).call, (startsMessage "b" "azure" "high").call,
      (completionMessage "b" "gpt-5" 5).call]
    Holds ((run calls).agent agentCodex).buckets
        (∑ id ∈ conversations calls, ((run (ownCalls calls id)).agent agentCodex).usage) ∧
      ∀ id : String,
        (run calls).codexPendingSse[id]? = (run (ownCalls calls id)).codexPendingSse[id]? ∧
        (run calls).codexSessions[id]? = (run (ownCalls calls id)).codexSessions[id]? := by
  intro calls
  refine conversations_isolated calls ?_ (by decide)
  intro counter
  cases counter <;> decide

end OtelLogger
