import OtelLogger.SessionMessages

/-!
Exporters send a batch again when its answer is late, so a session message may come twice in a
row. The second time it finds the session on record, its usage moved and the fallback set, and
changes nothing.
-/

namespace OtelLogger

open Std (ExtTreeMap TransOrd LawfulEqOrd)
open Accounting

/-! ### Usage that is where it belongs -/

theorem pendingDestination_idem (provider effort : String) (bucket : Bucket) :
    pendingDestination provider effort (pendingDestination provider effort bucket) =
      pendingDestination provider effort bucket := by
  unfold pendingDestination
  simp only [Bucket.fromParts_model, Bucket.fromParts_effort]
  apply Bucket.ext
  · rfl
  · exact nonEmpty_idem _
  · simp only [Bucket.fromParts_effort]
    by_cases own : bucket.effort = unknown
    · simp [own]
    · simp [own, nonEmpty_of_ne bucket.named.2.2]

theorem movePending_fixed {provider effort : String} {entries : List (Bucket × ModelStats)}
    (fixed : ∀ entry ∈ entries, pendingDestination provider effort entry.1 = entry.1)
    (g : AggregatorInner) : movePending provider effort g entries = g := by
  induction entries with
  | nil => rfl
  | cons entry entries ih =>
      have here := fixed entry List.mem_cons_self
      rw [movePending_cons, if_neg (not_not.mpr here.symm)]
      exact ih fun other member => fixed other (List.mem_cons_of_mem _ member)

section Tracked

variable {g : AggregatorInner} {books : CodexBooks}

theorem CodexTracks.keepPending_fixed (tracks : CodexTracks g books) {id : String}
    {entries : ExtTreeMap Bucket ModelStats} (found : g.codexPendingSse[id]? = some entries)
    {provider effort : String} {providerConfirmed : Bool}
    (fixed : ∀ bucket ∈ entries, pendingDestination provider effort bucket = bucket ∧
      CodexBooks.StaysPending providerConfirmed bucket) :
    keepPending provider effort providerConfirmed ∅ entries.toList = entries := by
  obtain ⟨entriesOccupied, _⟩ := tracks.occupied id entries found
  have occupied : ∀ entry ∈ entries.toList, entry.2 ≠ 0 := fun entry member =>
    entriesOccupied entry.1 entry.2 (ExtTreeMap.mem_toList_iff_getElem?_eq_some.mp member)
  have amounts : books.pending id = entriesLedger entries.toList := by
    rw [tracks.pending_apply, found]
    rfl
  have none : Occupied (∅ : ExtTreeMap Bucket ModelStats) := fun _ _ missing => by
    simp at missing
  have total := tracks.represents.fits
  rw [books.pending_split id, amounts, map_add] at total
  obtain ⟨keptOccupied, keptLedger⟩ := keepPending_spec provider effort providerConfirmed
    entries.toList ∅ occupied none (by simpa using total.of_add)
  have own : entriesLedger entries.toList = ledgerOf entries := rfl
  have present (bucket : Bucket) (amount : ledgerOf entries bucket ≠ 0) : bucket ∈ entries := by
    rw [← ExtTreeMap.isSome_getElem?_iff_mem]
    by_contra absent
    rw [Option.not_isSome_iff_eq_none] at absent
    rw [ledgerOf_apply, absent] at amount
    exact amount rfl
  apply keptOccupied.ext entriesOccupied
  rw [keptLedger, ledgerOf_empty, zero_add, own,
    mapDomain_eq_self fun bucket amount => (fixed bucket (present bucket amount)).1,
    Finsupp.filter_eq_self_iff]
  exact fun bucket amount => (fixed bucket (present bucket amount)).2

/-- Merging does nothing when all that is pending is kept where it is. -/
theorem CodexTracks.mergeConversationPending_fixed (tracks : CodexTracks g books)
    {provider id effort : String} {providerConfirmed : Bool}
    (fixed : ∀ bucket ∈ g.pendingOf id, pendingDestination provider effort bucket = bucket ∧
      CodexBooks.StaysPending providerConfirmed bucket) :
    OtelLogger.mergeConversationPending g provider id effort providerConfirmed = (g, false) := by
  have still : (OtelLogger.mergeConversationPending g provider id effort providerConfirmed).2 =
      false := by
    rw [← Bool.not_eq_true, mergeConversationPending_moved]
    rintro ⟨bucket, member, moves⟩
    exact moves (fixed bucket member).1
  refine Prod.ext ?_ still
  cases found : g.codexPendingSse[id]? with
  | none => simp [OtelLogger.mergeConversationPending, found]
  | some entries =>
      have pendingOf : g.pendingOf id = entries := by
        simp [AggregatorInner.pendingOf, found]
      rw [pendingOf] at fixed
      have listed : ∀ entry ∈ entries.toList,
          pendingDestination provider effort entry.1 = entry.1 := by
        intro entry member
        refine (fixed entry.1 ?_).1
        rw [← ExtTreeMap.isSome_getElem?_iff_mem,
          ExtTreeMap.mem_toList_iff_getElem?_eq_some.mp member]
        rfl
      have occupied : entries.isEmpty = false := by
        rw [← Bool.not_eq_true, ExtTreeMap.isEmpty_iff]
        exact (tracks.occupied id entries found).2
      rw [mergeConversationPending_of_some found, movePending_fixed listed,
        tracks.keepPending_fixed found fixed, occupied]
      simp only [Bool.false_eq_true, if_false, insert_erase_eq_self found]

/-- Once the usage of no conversation has its effort, none of it is left to move. -/
theorem CodexBooks.assignEffort_unassigned (books : CodexBooks) {provider model effort : String}
    (known : ¬(model = "" ∨ effort = "" ∨ effort = unknown)) :
    (books.assignEffort provider model effort).unassigned
      (Bucket.fromParts provider model unknown) = 0 := by
  have targetEffort : (Bucket.fromParts provider model effort).effort ≠ unknown := by
    rw [not_or, not_or] at known
    rw [Bucket.fromParts_effort, nonEmpty_of_ne known.2.1]
    exact known.2.2
  have different : Bucket.fromParts provider model effort ≠
      Bucket.fromParts provider model unknown := by
    intro same
    rw [same, Bucket.fromParts_effort, nonEmpty_unknown] at targetEffort
    exact targetEffort rfl
  rw [CodexBooks.assignEffort, if_neg known]
  dsimp only
  rw [mapDomain_redirect, Finsupp.add_apply, Finsupp.erase_same, zero_add,
    Finsupp.single_eq_of_ne' different]

theorem CodexTracks.mergeLegacyUnknown_fixed (tracks : CodexTracks g books)
    {provider model effort : String}
    (assigned : ¬(model = "" ∨ effort = "" ∨ effort = unknown) →
      books.unassigned (Bucket.fromParts provider model unknown) = 0) :
    OtelLogger.mergeLegacyUnknown g provider model effort = (g, false) := by
  unfold OtelLogger.mergeLegacyUnknown
  split
  · rfl
  · rename_i known
    dsimp only
    split
    · rfl
    · split
      · rfl
      · rename_i sourceStats found
        have sourceEffort : (Bucket.fromParts provider model unknown).effort = unknown := by
          rw [Bucket.fromParts_effort, nonEmpty_unknown]
        have stored : sourceStats.stats =
            books.ledger (Bucket.fromParts provider model unknown) := by
          rw [← tracks.codexAmount_eq, AggregatorInner.codexAmount]
          obtain ⟨agentStats, agent, entry⟩ := Option.bind_eq_some_iff.mp found
          have own : g.agent agentCodex = agentStats := by
            simp [AggregatorInner.agent, agent]
          rw [own, entry]
          rfl
        rw [stored, tracks.movable_eq sourceEffort, assigned known,
          ModelStats.hasAnyValue_eq_false.mpr rfl]
        rfl

end Tracked

/-! ### Sessions that are on record -/

theorem completeSession_again (previous : Option CodexSession) (session : CodexSession) :
    completeSession (some (completeSession previous session)) session =
      completeSession previous session := by
  obtain ⟨id, provider, model, effort, confirmed⟩ := session
  cases previous with
  | none => simp [completeSession]
  | some known =>
      simp only [completeSession, CodexSession.mk.injEq, true_and]
      refine ⟨?_, ?_, ?_, ?_⟩
      · cases confirmed <;> cases known.providerConfirmed <;> rfl
      · split <;> rfl
      · split <;> rfl
      · cases confirmed <;> cases known.providerConfirmed <;> rfl

theorem completeSession_effort (previous : Option CodexSession) {session : CodexSession}
    (carried : session.effort ≠ "") : (completeSession previous session).effort = session.effort := by
  cases previous with
  | none => rfl
  | some known => exact if_neg carried

section Again

variable {g : AggregatorInner} {books : CodexBooks}

/-- A session that completes to what is on record changes nothing, once usage was resolved. -/
theorem CodexTracks.updateCodexSessionWithLast_again (tracks : CodexTracks g books)
    (service : String) {session again : CodexSession} {updateLast againLast : Bool}
    (named : session.conversationId ≠ "")
    (sameId : again.conversationId = session.conversationId)
    (known : completeSession (some (sessionAfter g session)) again = sessionAfter g session)
    (last : againLast = true →
      (OtelLogger.updateCodexSessionWithLast g service session
          updateLast).1.codexLastSessions[service]? =
        some (sessionAfter g session)) :
    OtelLogger.updateCodexSessionWithLast
        (OtelLogger.updateCodexSessionWithLast g service session updateLast).1 service again
        againLast =
      ((OtelLogger.updateCodexSessionWithLast g service session updateLast).1, false) := by
  have found : (OtelLogger.updateCodexSessionWithLast g service session
        updateLast).1.codexSessions[session.conversationId]? = some (sessionAfter g session) := by
    rw [updateCodexSessionWithLast_session, if_pos ⟨rfl, named⟩, sessionAfter, if_pos named]
  have resolved := tracks.updateCodexSessionWithLast service session updateLast
  rw [CodexBooks.mergeSession, CodexBooks.merge, sessionAfter_id, if_pos named] at resolved
  have settled := tracks.resolved_pending resolved
  generalize (OtelLogger.updateCodexSessionWithLast g service session updateLast).1 = next at *
  have after : sessionAfter next again = sessionAfter g session := by
    rw [← known, sessionAfter, sameId, if_pos named, found]
  have remembered : OtelLogger.rememberSession next service again againLast = next := by
    simp only [OtelLogger.rememberSession, after]
    rw [sessionAfter_id, if_pos named, insert_eq_self found]
    cases againLast with
    | false => rfl
    | true => simp only [if_true, insert_eq_self (last rfl)]
  rw [updateCodexSessionWithLast_eq, remembered, after, mergeCodexPendingSse, sessionAfter_id,
    if_pos named]
  apply resolved.mergeConversationPending_fixed
  intro bucket member
  rw [← ExtTreeMap.isSome_getElem?_iff_mem, Option.isSome_iff_exists] at member
  obtain ⟨stats, entry⟩ := member
  obtain ⟨stays, ⟨source, _, rfl⟩, _⟩ := (settled bucket stats).mp entry
  exact ⟨pendingDestination_idem _ _ _, stays⟩

theorem CodexTracks.session_again (tracks : CodexTracks g books) (service : String)
    (started : CodexSession) :
    Step.ingestSession service (Step.ingestSession service g started).1 started =
      ((Step.ingestSession service g started).1, 0) := by
  have again : OtelLogger.updateCodexSessionWithLast
        (OtelLogger.updateCodexSessionWithLast g service started true).1 service started true =
      ((OtelLogger.updateCodexSessionWithLast g service started true).1, false) := by
    have last : (OtelLogger.updateCodexSessionWithLast g service started
        true).1.codexLastSessions[service]? = some (sessionAfter g started) := by
      rw [updateCodexSessionWithLast_lastSessions, if_pos rfl, ExtTreeMap.getElem?_insert_self]
    by_cases named : started.conversationId = ""
    · have unchanged (state : AggregatorInner) : sessionAfter state started = started :=
        if_neg (not_not.mpr named)
      have resolved := tracks.updateCodexSessionWithLast service started true
      rw [unchanged] at last
      rw [unchanged, CodexBooks.mergeSession, CodexBooks.merge, if_neg (not_not.mpr named)]
        at resolved
      generalize (OtelLogger.updateCodexSessionWithLast g service started true).1 = next at *
      have remembered : OtelLogger.rememberSession next service started true = next := by
        simp only [OtelLogger.rememberSession, unchanged, if_true, insert_eq_self last]
        rw [if_neg (not_not.mpr named)]
      rw [updateCodexSessionWithLast_eq, remembered, unchanged, mergeCodexPendingSse,
        if_neg (not_not.mpr named)]
      exact resolved.mergeLegacyUnknown_fixed fun known => books.assignEffort_unassigned known
    · refine tracks.updateCodexSessionWithLast_again service named rfl ?_ fun _ => last
      rw [sessionAfter, if_pos named]
      exact completeSession_again _ started
  simp only [Step.ingestSession, updateCodexSession, again]
  rfl

theorem updateCodexLastEffort_again (g : AggregatorInner) (service effort : String) :
    updateCodexLastEffort (updateCodexLastEffort g service effort).1 service effort =
      ((updateCodexLastEffort g service effort).1, false) := by
  have settled {next : AggregatorInner} {last : CodexSession}
      (known : next.codexLastSessions[service]? = some last) (same : last.effort = effort) :
      updateCodexLastEffort next service effort = (next, false) := by
    simp only [updateCodexLastEffort, codexLastSession, known, Option.getD_some, same, if_true]
  by_cases same : ((codexLastSession g service).getD
      { conversationId := "", provider := providerOpenai, model := "", effort := "",
        providerConfirmed := false }).effort = effort
  · have kept : updateCodexLastEffort g service effort = (g, false) := if_pos same
    rw [kept, kept]
  · obtain ⟨last, own⟩ : ∃ last : CodexSession,
        (updateCodexLastEffort g service effort).1.codexLastSessions[service]? =
          some { last with effort := effort } := by
      unfold updateCodexLastEffort
      dsimp only
      rw [if_neg same]
      split
      · rw [(mergeCodexPendingSse_only _ _ _ _ _ _).lastSessions]
        exact ⟨_, ExtTreeMap.getElem?_insert_self⟩
      · exact ⟨_, ExtTreeMap.getElem?_insert_self⟩
    exact settled own rfl

/-- Whether a request span of a conversation becomes the last session of its service. -/
def replacesLast (g : AggregatorInner) (service id : String) : Bool :=
  match codexLastSession g service with
  | none => true
  | some last => last.conversationId = id

theorem CodexTracks.span_again (tracks : CodexTracks g books) (keyed : Keyed g)
    (service : String) {attrs : List KeyValue} {id effort : String}
    (carried : conversationId attrs = some id) (requested : requestEffort attrs = some effort) :
    let next := (OtelLogger.updateCodexSessionWithLast g service (spanSession g id effort attrs)
      (replacesLast g service id)).1
    OtelLogger.updateCodexSessionWithLast next service (spanSession next id effort attrs)
        (replacesLast next service id) = (next, false) := by
  intro next
  have named := conversationId_ne_empty carried
  have ownId : (spanSession g id effort attrs).conversationId = id := spanSession_id keyed id effort attrs
  have ownEffort : (sessionAfter g (spanSession g id effort attrs)).effort = effort := by
    have effortOf : (spanSession g id effort attrs).effort = effort := by
      unfold spanSession
      split <;> rfl
    have occupied : effort ≠ "" := by
      rw [requestEffort, Option.filter_eq_some_iff] at requested
      simpa using requested.2
    rw [sessionAfter, if_pos (by rwa [ownId]), completeSession_effort _ (by rwa [effortOf]),
      effortOf]
  have found : next.codexSessions[id]? =
      some (sessionAfter g (spanSession g id effort attrs)) := by
    rw [updateCodexSessionWithLast_session, if_pos ⟨ownId, named⟩, sessionAfter, ownId,
      if_pos named]
  have same : spanSession next id effort attrs =
      sessionAfter g (spanSession g id effort attrs) := by
    generalize sessionAfter g (spanSession g id effort attrs) = known at ownEffort found
    have kept : spanSession next id effort attrs = { known with effort := effort } := by
      simp only [spanSession, found]
    rw [kept, ← ownEffort]
  rw [same]
  refine tracks.updateCodexSessionWithLast_again service (by rwa [ownId]) (sessionAfter_id g _)
    (completeSession_again none _) fun replaces => ?_
  change next.codexLastSessions[service]? = _
  have lastSessions : next.codexLastSessions = _ :=
    updateCodexSessionWithLast_lastSessions g service _ _
  rw [lastSessions]
  by_cases first : replacesLast g service id = true
  · rw [if_pos first, ExtTreeMap.getElem?_insert_self]
  · rw [if_neg first] at lastSessions
    refine absurd ?_ first
    rwa [replacesLast, codexLastSession, lastSessions] at replaces

theorem CodexTracks.requestSpan_again (tracks : CodexTracks g books) (keyed : Keyed g)
    (service : String) (attrs : List KeyValue) :
    updateCodexEffortFromRequestAttrs (updateCodexEffortFromRequestAttrs g service attrs).1
        service attrs =
      ((updateCodexEffortFromRequestAttrs g service attrs).1, false) := by
  cases requested : requestEffort attrs with
  | none => simp only [updateCodexEffortFromRequestAttrs, requested]
  | some effort =>
      cases carried : conversationId attrs with
      | none =>
          simp only [updateCodexEffortFromRequestAttrs, requested, carried]
          exact updateCodexLastEffort_again g service effort
      | some id =>
          have request {state : AggregatorInner} (stateKeyed : Keyed state) :
              updateCodexEffortFromRequestAttrs state service attrs =
                OtelLogger.updateCodexSessionWithLast state service
                  (spanSession state id effort attrs) (replacesLast state service id) := by
            cases last : codexLastSession state service <;>
              simp only [updateCodexEffortFromRequestAttrs, requested, carried, replacesLast,
                spanSession_id stateKeyed, last]
          have nextKeyed : Keyed (updateCodexEffortFromRequestAttrs g service attrs).1 := by
            have stepped := keyed.apply (.requestSpan service attrs)
            simpa only [Step.apply, ingestRequestSpan, if_true] using stepped
          rw [request nextKeyed, request keyed]
          exact tracks.span_again keyed service carried requested

end Again

/-! ### Redelivered messages -/

/-- The session messages of Codex: a log or span event that starts a conversation, the log
without usage of its own, and a request span. -/
inductive Message.IsSession : Message → Prop
  | log {service : String} {record : LogRecord} (codex : isCodexService service = true)
      (starts : startsConversation record = true)
      (incomplete : codexSseStats record.attributes = none) : IsSession (.log service record)
  | spanEvent {service : String} {event : SpanEvent} (codex : isCodexService service = true)
      (starts : otelEventMatches event.name event.attributes conversationStarts = true) :
      IsSession (.spanEvent service event)
  | requestSpan {service : String} {attrs : List KeyValue}
      (codex : isCodexService service = true) :
      IsSession (.requestSpan service "handle_responses" attrs)

namespace Aggregator

/-- A session message that comes twice in a row counts once. -/
theorem session_message_idempotent (calls : List Call) (exactCounts : NonSaturating calls)
    {message : Message} (session : message.IsSession) :
    let once := message.process (run calls)
    message.process once.1 = (once.1, 0) := by
  intro once
  have tracks : CodexTracks (run calls) (booksOf (calls.flatMap Call.steps)) := by
    rw [run_eq]
    exact codexTracks_run _ exactCounts
  have keyed : Keyed (run calls) := by
    rw [run_eq]
    exact Keyed.run _
  cases session with
  | @log service record codex starts incomplete =>
      have brings (g : AggregatorInner) : Message.process g (.log service record) =
          match extractSessionFromAttrs record.attributes with
          | none => (g, 0)
          | some started => Step.ingestSession service g started := by
        have silent (state : AggregatorInner) :
            ingestSseCompletion service state record = (state, 0) := by
          simp only [ingestSseCompletion, extractCodexSseResponseCompleted, incomplete,
            Option.map_none]
        simp only [Message.process, ingestLogRecord, ne_serviceClaude codex, if_false,
          ingestCodexLog, codex, if_true, silent, ingestConversationStarts,
          extractCodexConversationStarts_eq, starts]
        cases extractSessionFromAttrs record.attributes <;> rfl
      simp only [once, brings]
      cases extractSessionFromAttrs record.attributes with
      | none => rfl
      | some started => exact tracks.session_again service started
  | @spanEvent service event codex starts =>
      simp only [once, Message.process, codex, if_true, ingestSpanEvent, starts]
      cases extractSessionFromAttrs event.attributes with
      | none => rfl
      | some started => exact tracks.session_again service started
  | @requestSpan service attrs codex =>
      have responds (g : AggregatorInner) :
          Message.process g (.requestSpan service "handle_responses" attrs) =
            let updated := updateCodexEffortFromRequestAttrs g service attrs
            (updated.1, if updated.2 then 1 else 0) := by
        rw [Message.process, if_pos codex, ingestRequestSpan, if_pos rfl]
      simp only [once, responds, tracks.requestSpan_again keyed service attrs]
      rfl

/-- A request span whose effort moves the usage of its conversation moves it once. -/
theorem session_message_idempotent_span :
    let message := Message.requestSpan serviceCodexTui "handle_responses"
      [textAttr "conversation.id" "c", textAttr "codex.request.reasoning_effort" "high"]
    let once := message.process (run [(completionMessage "c" "gpt-5" 7).call])
    once.2 = 1 ∧ message.process once.1 = (once.1, 0) := by
  have counts : NonSaturating [(completionMessage "c" "gpt-5" 7).call] := by
    intro counter
    cases counter <;> decide
  have session : (Message.requestSpan serviceCodexTui "handle_responses"
      [textAttr "conversation.id" "c",
        textAttr "codex.request.reasoning_effort" "high"]).IsSession :=
    .requestSpan (by decide)
  exact ⟨by decide +kernel, session_message_idempotent _ counts session⟩

end Aggregator

end OtelLogger
