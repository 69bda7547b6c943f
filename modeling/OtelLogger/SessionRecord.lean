import OtelLogger.Conversations

/-!
What is known of a conversation. Session messages reach the record of their conversation by two
ways that merge it differently, and still each field of the record is the last value that any
message of the conversation carried for it.
-/

namespace OtelLogger

open Std (ExtTreeMap TransOrd LawfulEqOrd)
open Accounting

/-! ### The session a step brings -/

/-- Sessions are stored under the id they carry. -/
def Keyed (g : AggregatorInner) : Prop :=
  ∀ (id : String) (session : CodexSession), g.codexSessions[id]? = some session →
    session.conversationId = id ∧ id ≠ ""

/-- The session that a step brings to a conversation. -/
def Step.meets (g : AggregatorInner) (id : String) : Step → Option CodexSession
  | .session _ started => if started.conversationId = id ∧ id ≠ "" then some started else none
  | .requestSpan _ attrs =>
      if conversationId attrs = some id then
        (requestEffort attrs).map fun effort => spanSession g id effort attrs
      else none
  | _ => none

theorem conversationId_ne_empty {attrs : List KeyValue} {id : String}
    (carried : conversationId attrs = some id) : id ≠ "" := by
  rw [conversationId, Option.filter_eq_some_iff] at carried
  simpa using carried.2

theorem spanSession_id {g : AggregatorInner} (keyed : Keyed g) (id effort : String)
    (attrs : List KeyValue) : (spanSession g id effort attrs).conversationId = id := by
  unfold spanSession
  split
  · rename_i session found
    exact (keyed id session found).1
  · rfl

theorem updateCodexSessionWithLast_session (g : AggregatorInner) (service : String)
    (session : CodexSession) (updateLast : Bool) (id : String) :
    (updateCodexSessionWithLast g service session updateLast).1.codexSessions[id]? =
      if session.conversationId = id ∧ id ≠ "" then
        some (completeSession g.codexSessions[id]? session)
      else g.codexSessions[id]? := by
  rw [updateCodexSessionWithLast_sessions]
  by_cases named : session.conversationId ≠ ""
  · rw [if_pos named, lookup_insert]
    by_cases own : session.conversationId = id
    · subst own
      rw [if_pos rfl, if_pos ⟨rfl, named⟩, sessionAfter, if_pos named]
    · rw [if_neg own, if_neg fun same => own same.1]
  · rw [if_neg named, if_neg]
    rintro ⟨rfl, identified⟩
    exact named identified

theorem requestSpan_sessions_of_none {g : AggregatorInner} {service : String}
    {attrs : List KeyValue} (idle : requestEffort attrs = none ∨ conversationId attrs = none) :
    (Step.apply g (.requestSpan service attrs)).1.codexSessions = g.codexSessions := by
  simp only [Step.apply, ingestRequestSpan, if_true, updateCodexEffortFromRequestAttrs]
  cases requested : requestEffort attrs with
  | none => rfl
  | some effort =>
      cases carried : conversationId attrs with
      | none => exact (updateCodexLastEffort_only g service effort).sessions
      | some id => simp [requested, carried] at idle

theorem requestSpan_apply_of_some {g : AggregatorInner} {service id effort : String}
    {attrs : List KeyValue} (requested : requestEffort attrs = some effort)
    (carried : conversationId attrs = some id) :
    (Step.apply g (.requestSpan service attrs)).1 =
      (updateCodexSessionWithLast g service (spanSession g id effort attrs)
        (match codexLastSession g service with
          | none => true
          | some last => last.conversationId = (spanSession g id effort attrs).conversationId)).1 := by
  cases last : codexLastSession g service <;>
    simp only [Step.apply, ingestRequestSpan, if_true, updateCodexEffortFromRequestAttrs,
      requested, carried, last]

theorem Step.apply_session {g : AggregatorInner} (keyed : Keyed g) (step : Step) (id : String) :
    (step.apply g).1.codexSessions[id]? =
      match step.meets g id with
      | some brought => some (completeSession g.codexSessions[id]? brought)
      | none => g.codexSessions[id]? := by
  cases step with
  | session service started =>
      have updated := updateCodexSessionWithLast_session g service started true id
      simp only [Step.apply, ingestSession, updateCodexSession, Step.meets, updated]
      split <;> rfl
  | completion service log =>
      exact congrArg (fun sessions : ExtTreeMap String CodexSession => sessions[id]?)
        (ingestSseCompletion_sessions g service log).1
  | requestSpan service attrs =>
      cases requested : requestEffort attrs with
      | none =>
          rw [requestSpan_sessions_of_none (Or.inl requested), Step.meets, requested]
          simp
      | some effort =>
          cases carried : conversationId attrs with
          | none =>
              rw [requestSpan_sessions_of_none (Or.inr carried), Step.meets, carried]
              simp
          | some other =>
              rw [requestSpan_apply_of_some requested carried, updateCodexSessionWithLast_session,
                spanSession_id keyed, Step.meets, carried, requested]
              by_cases same : other = id
              · subst same
                simp [conversationId_ne_empty carried]
              · simp [same]
  | codexTokens service dp | turnCount service dp | duration service dp =>
      rw [(Step.apply_conversationsKept _ rfl g).sessions]
      rfl
  | claudeLog log | claudeTokens dp | claudeCost dp =>
      rw [(Step.apply_claudeOnly _ rfl g).sessions]
      rfl

theorem Step.meets_id {g : AggregatorInner} (keyed : Keyed g) {step : Step} {id : String}
    {brought : CodexSession} (meets : step.meets g id = some brought) :
    brought.conversationId = id ∧ id ≠ "" := by
  cases step with
  | session service started =>
      rw [Step.meets, Option.ite_none_right_eq_some] at meets
      exact Option.some.inj meets.2 ▸ meets.1
  | requestSpan service attrs =>
      rw [Step.meets, Option.ite_none_right_eq_some, Option.map_eq_some_iff] at meets
      obtain ⟨carried, effort, _, rfl⟩ := meets
      exact ⟨spanSession_id keyed id effort attrs, conversationId_ne_empty carried⟩
  | _ => simp [Step.meets] at meets

theorem completeSession_id (previous : Option CodexSession) (session : CodexSession) :
    (completeSession previous session).conversationId = session.conversationId := by
  cases previous <;> rfl

theorem Keyed.apply {g : AggregatorInner} (keyed : Keyed g) (step : Step) :
    Keyed (step.apply g).1 := by
  intro id session found
  rw [step.apply_session keyed id] at found
  cases meets : step.meets g id with
  | none =>
      rw [meets] at found
      exact keyed id session found
  | some brought =>
      rw [meets] at found
      obtain rfl := Option.some.inj found
      rw [completeSession_id]
      exact Step.meets_id keyed meets

theorem Keyed.run (steps : List Step) : Keyed (Aggregator.runSteps steps) := by
  induction steps using List.reverseRecOn with
  | nil =>
      intro id session found
      simp [Aggregator.new] at found
  | append_singleton steps step ih =>
      rw [Aggregator.runSteps_concat]
      exact ih.apply step

/-! ### Session messages -/

/-- The attributes of a session message: a conversation start, or a request span. -/
inductive SessionMessage where
  | starts (attrs : List KeyValue)
  | span (attrs : List KeyValue)

namespace SessionMessage

def known (attrs : List KeyValue) (key : String) : Option String :=
  (stringAttr attrs key).filter (· ≠ "")

/-- The effort that a message carries, if it is not empty. -/
def effort : SessionMessage → Option String
  | starts attrs => known attrs "reasoning_effort"
  | span attrs => known attrs "codex.request.reasoning_effort"

def provider : SessionMessage → Option String
  | starts attrs => known attrs "provider_name"
  | span _ => none

def startsModel : SessionMessage → Option String
  | starts attrs => known attrs "model"
  | span _ => none

def spanModel : SessionMessage → String
  | starts _ => ""
  | span attrs => (stringAttr attrs "model").getD ""

def last (field : SessionMessage → Option String) (messages : List SessionMessage) :
    Option String :=
  (messages.filterMap field).getLast?

theorem last_concat (field : SessionMessage → Option String) (messages : List SessionMessage)
    (message : SessionMessage) :
    last field (messages ++ [message]) = (field message).or (last field messages) := by
  rw [last, last, List.filterMap_append, List.getLast?_append]
  cases carried : field message <;> simp [carried]

/-- What messages of a conversation, in this order, say of it. -/
def sessionOf (id : String) (messages : List SessionMessage) : CodexSession where
  conversationId := id
  provider := (last provider messages).getD providerOpenai
  model := (last startsModel messages).getD ((messages.head?.map spanModel).getD "")
  effort := (last effort messages).getD ""
  providerConfirmed := (last provider messages).isSome

/-- The session that a message brings, given the one on record. -/
def session (id : String) (previous : Option CodexSession) : SessionMessage → CodexSession
  | starts attrs =>
      { conversationId := id
        provider := (providerAttr attrs).getD providerOpenai
        model := (stringAttr attrs "model").getD ""
        effort := (stringAttr attrs "reasoning_effort").getD ""
        providerConfirmed := (providerAttr attrs).isSome }
  | span attrs =>
      Conversation.spanSessionOf previous id ((requestEffort attrs).getD "") attrs

theorem getD_known (attrs : List KeyValue) (key : String) :
    (known attrs key).getD "" = (stringAttr attrs key).getD "" := by
  unfold known
  cases stringAttr attrs key with
  | none => rfl
  | some text => by_cases empty : text = "" <;> simp [Option.filter, empty]

theorem ite_known (attrs : List KeyValue) (key other : String) :
    (if (stringAttr attrs key).getD "" = "" then other else (stringAttr attrs key).getD "") =
      (known attrs key).getD other := by
  unfold known
  cases stringAttr attrs key with
  | none => rfl
  | some text => by_cases empty : text = "" <;> simp [Option.filter, empty]

theorem sessionOf_singleton (id : String) (message : SessionMessage) :
    sessionOf id [message] = message.session id none := by
  have only (field : SessionMessage → Option String) :
      last field [message] = field message := by
    have carried := last_concat field [] message
    rw [List.nil_append] at carried
    rw [carried]
    exact Option.or_none
  unfold sessionOf
  simp only [only, List.head?_cons, Option.map_some, Option.getD_some]
  cases message with
  | starts attrs =>
      simp only [provider, startsModel, effort, spanModel, getD_known, session]
      rfl
  | span attrs => rfl

/-- Both ways of merging a message into the record keep the last value of each field. -/
theorem sessionOf_concat (id : String) {messages : List SessionMessage} (earlier : messages ≠ [])
    (message : SessionMessage) :
    sessionOf id (messages ++ [message]) =
      completeSession (some (sessionOf id messages))
        (message.session id (some (sessionOf id messages))) := by
  have head : (messages ++ [message]).head? = messages.head? := by
    rw [List.head?_append, Option.or_eq_left_of_isSome]
    rwa [Option.isSome_iff_ne_none, ne_eq, List.head?_eq_none_iff]
  cases message with
  | starts attrs =>
      dsimp only [sessionOf, session, completeSession]
      simp only [last_concat, head, provider, startsModel, effort, ite_known,
        CodexSession.mk.injEq, true_and]
      refine ⟨?_, ?_, ?_, ?_⟩
      · change ((providerAttr attrs).or (last provider messages)).getD providerOpenai = _
        cases named : providerAttr attrs with
        | none => cases before : last provider messages <;> simp
        | some name => simp
      · cases known attrs "model" <;> rfl
      · cases known attrs "reasoning_effort" <;> rfl
      · change ((providerAttr attrs).or (last provider messages)).isSome = _
        cases providerAttr attrs <;> simp
  | span attrs =>
      have carried : (requestEffort attrs).getD "" = (known attrs
          "codex.request.reasoning_effort").getD "" := rfl
      simp only [sessionOf, session, completeSession, Conversation.spanSessionOf, last_concat,
        head, provider, startsModel, effort, carried, CodexSession.mk.injEq, Option.none_or,
        ite_self, Bool.or_self, true_and, and_true]
      rw [getD_known, ite_known]
      cases known attrs "codex.request.reasoning_effort" <;> rfl

end SessionMessage

/-- Whether a log is a conversation start, by its body, event name or `event.name`. -/
def startsConversation (log : LogRecord) : Bool :=
  (match log.body.bind AnyValue.value with
    | some (.stringValue body) => decide (body = conversationStarts)
    | _ => false) || otelEventMatches log.eventName log.attributes conversationStarts

/-- The session message of a conversation that a message of the run is. -/
def Message.sessionMessage (id : String) : Message → Option SessionMessage
  | .log service record =>
      if isCodexService service ∧ startsConversation record ∧
          conversationId record.attributes = some id then
        some (.starts record.attributes)
      else none
  | .spanEvent service event =>
      if isCodexService service ∧
          otelEventMatches event.name event.attributes conversationStarts ∧
          conversationId event.attributes = some id then
        some (.starts event.attributes)
      else none
  | .requestSpan service name attrs =>
      if isCodexService service ∧ name = "handle_responses" ∧ conversationId attrs = some id ∧
          (requestEffort attrs).isSome then
        some (.span attrs)
      else none
  | _ => none

theorem extractSessionFromAttrs_session {attrs : List KeyValue} {id : String}
    (carried : conversationId attrs = some id) (previous : Option CodexSession) :
    extractSessionFromAttrs attrs = some ((SessionMessage.starts attrs).session id previous) := by
  have named := conversationId_ne_empty carried
  have own : (stringAttr attrs "conversation.id").getD "" = id := by
    rw [conversationId, Option.filter_eq_some_iff] at carried
    rw [carried.1, Option.getD_some]
  simp only [extractSessionFromAttrs, own, named, false_and, if_false, SessionMessage.session]

theorem extractSessionFromAttrs_id {attrs : List KeyValue} {session : CodexSession} {id : String}
    (found : extractSessionFromAttrs attrs = some session)
    (own : session.conversationId = id ∧ id ≠ "") : conversationId attrs = some id := by
  obtain ⟨rfl, named⟩ := own
  simp only [extractSessionFromAttrs] at found
  split at found
  · simp at found
  · rw [← Option.some.inj found] at named ⊢
    dsimp only at named ⊢
    rw [conversationId, Option.filter_eq_some_iff]
    cases carried : stringAttr attrs "conversation.id" with
    | none => simp [carried] at named
    | some id => simpa [carried] using named

theorem applyAll_starts (g : AggregatorInner) (service : String)
    (attrs : List KeyValue) (id : String) :
    (applyAll g ((extractSessionFromAttrs attrs).toList.map
        (Step.session service))).1.codexSessions[id]? =
      if conversationId attrs = some id then
        some (completeSession g.codexSessions[id]?
          ((SessionMessage.starts attrs).session id g.codexSessions[id]?))
      else g.codexSessions[id]? := by
  rw [applyAll_sessions]
  by_cases carried : conversationId attrs = some id
  · have found := extractSessionFromAttrs_session carried g.codexSessions[id]?
    have own : ((SessionMessage.starts attrs).session id g.codexSessions[id]?).conversationId = id :=
      rfl
    rw [if_pos carried, found]
    dsimp only [Step.ingestSession, updateCodexSession]
    rw [updateCodexSessionWithLast_session, own, if_pos ⟨rfl, conversationId_ne_empty carried⟩]
  · rw [if_neg carried]
    cases found : extractSessionFromAttrs attrs with
    | none => rfl
    | some session =>
        dsimp only [Step.ingestSession, updateCodexSession]
        rw [updateCodexSessionWithLast_session, if_neg]
        exact fun own => carried (extractSessionFromAttrs_id found own)

theorem extractCodexConversationStarts_eq (log : LogRecord) :
    extractCodexConversationStarts log =
      if startsConversation log then extractSessionFromAttrs log.attributes else none := rfl

theorem applyAll_unmet {g : AggregatorInner} (keyed : Keyed g) {steps : List Step} {id : String}
    (unmet : ∀ step ∈ steps, ∀ g, Step.meets g id step = none) :
    (applyAll g steps).1.codexSessions[id]? = g.codexSessions[id]? := by
  refine (@forEach_invariant _ _ Step.apply
    (fun state => Keyed state ∧ state.codexSessions[id]? = g.codexSessions[id]?) steps ?_ g
    ⟨keyed, rfl⟩).2
  rintro state step member ⟨stateKeyed, same⟩
  refine ⟨stateKeyed.apply step, ?_⟩
  rw [step.apply_session stateKeyed, unmet step member]
  exact same

/-- A message changes the record of a conversation only as its session message. -/
theorem Message.process_session {g : AggregatorInner} (keyed : Keyed g) (message : Message)
    (id : String) :
    (message.process g).1.codexSessions[id]? =
      match message.sessionMessage id with
      | some brought =>
          some (completeSession g.codexSessions[id]? (brought.session id g.codexSessions[id]?))
      | none => g.codexSessions[id]? := by
  rw [Message.process_eq]
  cases message with
  | log service record =>
      by_cases codex : isCodexService service = true
      · have completed := (ingestSseCompletion_sessions
          (applyAll g ((extractCodexConversationStarts record).toList.map
            (Step.session service))).1 service record).1
        rw [Message.log_steps codex, applyAll, forEach_append, forEach_singleton]
        simp only [Step.apply]
        rw [← applyAll, completed, extractCodexConversationStarts_eq, Message.sessionMessage]
        by_cases starts : startsConversation record = true
        · rw [if_pos starts, applyAll_starts]
          by_cases carried : conversationId record.attributes = some id
          · rw [if_pos carried, if_pos ⟨codex, starts, carried⟩]
          · rw [if_neg carried, if_neg fun own => carried own.2.2]
        · rw [if_neg starts, if_neg fun own => starts own.2.1]
          rfl
      · rw [Message.sessionMessage, if_neg fun own => codex own.1, Message.steps]
        refine applyAll_unmet keyed fun step member g => ?_
        rw [if_neg codex, List.mem_ite_nil_right, List.mem_singleton] at member
        rw [member.2]
        rfl
  | spanEvent service event =>
      rw [Message.sessionMessage, Message.steps]
      by_cases starts : (isCodexService service &&
          otelEventMatches event.name event.attributes conversationStarts) = true
      · rw [if_pos starts, applyAll_starts]
        rw [Bool.and_eq_true_iff] at starts
        by_cases carried : conversationId event.attributes = some id
        · rw [if_pos carried, if_pos ⟨starts.1, starts.2, carried⟩]
        · rw [if_neg carried, if_neg fun own => carried own.2.2]
      · rw [if_neg starts, if_neg fun own => starts (Bool.and_eq_true_iff.mpr ⟨own.1, own.2.1⟩)]
        rfl
  | requestSpan service name attrs =>
      rw [Message.sessionMessage, Message.steps]
      by_cases request : (isCodexService service && decide (name = "handle_responses")) = true
      · rw [if_pos request, applyAll_singleton, Step.apply_session keyed, Step.meets]
        rw [Bool.and_eq_true_iff, decide_eq_true_eq] at request
        cases requested : requestEffort attrs with
        | none => simp
        | some effort =>
            by_cases carried : conversationId attrs = some id
            · rw [if_pos carried, if_pos ⟨request.1, request.2, carried, rfl⟩]
              simp only [Option.map_some, SessionMessage.session, requested, Option.getD_some]
              rfl
            · rw [if_neg carried, if_neg fun own => carried own.2.2.1]
      · rw [if_neg request, if_neg]
        · rfl
        · exact fun own => request (Bool.and_eq_true_iff.mpr ⟨own.1, decide_eq_true own.2.1⟩)
  | numberPoint service metric temporality dp =>
      refine applyAll_unmet keyed fun step member g => ?_
      obtain rfl | rfl | rfl := Message.numberPoint_steps member <;> rfl
  | histogramPoint service metric temporality dp =>
      refine applyAll_unmet keyed fun step member g => ?_
      obtain rfl | rfl := Message.histogramPoint_steps member <;> rfl

namespace Aggregator

def sessionMessages (id : String) (calls : List Call) : List SessionMessage :=
  (calls.flatMap Call.messages).filterMap (Message.sessionMessage id)

theorem runMessages_session (id : String) (messages : List Message) :
    (runMessages messages).codexSessions[id]? =
      if messages.filterMap (Message.sessionMessage id) = [] then none
      else some (SessionMessage.sessionOf id
        (messages.filterMap (Message.sessionMessage id))) := by
  induction messages using List.reverseRecOn with
  | nil => simp [runMessages, processAll, new]
  | append_singleton messages message ih =>
      have keyed : Keyed (runMessages messages) := by
        rw [runMessages_eq]
        exact Keyed.run _
      rw [runMessages_concat, message.process_session keyed, ih, List.filterMap_append]
      cases brought : message.sessionMessage id with
      | none => simp [brought]
      | some own =>
          have single : List.filterMap (Message.sessionMessage id) [message] = [own] := by
            simp [brought]
          rw [single]
          generalize messages.filterMap (Message.sessionMessage id) = earlier
          have occupied : earlier ++ [own] ≠ [] :=
            List.append_ne_nil_of_right_ne_nil _ (List.cons_ne_nil _ _)
          dsimp only
          rw [if_neg occupied]
          by_cases first : earlier = []
          · rw [if_pos first, first, List.nil_append, SessionMessage.sessionOf_singleton]
            rfl
          · rw [if_neg first, SessionMessage.sessionOf_concat id first]

/-- The record of a conversation holds the last value that its messages carried for each field,
and there is one as soon as there is such a message. -/
theorem session_last_known (calls : List Call) (id : String) :
    (run calls).codexSessions[id]? =
      if sessionMessages id calls = [] then none
      else some (SessionMessage.sessionOf id (sessionMessages id calls)) := by
  rw [run_eq_runMessages]
  exact runMessages_session id _

end Aggregator

end OtelLogger
