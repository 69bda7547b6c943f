import OtelLogger.Runs
import OtelLogger.Library.Projection

/-!
Conversations as machines of their own. A conversation knows its session, what it has pending
and what is settled for it; every message that carries its id is one step of it, and messages of
others and messages without an id are none. The books of a run are the conversations put
together, so what one conversation's usage is counted as depends on its own messages alone.
-/

namespace OtelLogger

open Std (ExtTreeMap TransOrd LawfulEqOrd)
open Accounting

/-- What the messages of one conversation add up to. -/
structure Conversation where
  session : Option CodexSession
  pending : Bucket →₀ ModelStats
  settled : Bucket →₀ ModelStats

namespace Conversation

noncomputable def initial : Conversation := ⟨none, 0, 0⟩

/-- A session message moves everything pending and settles what is known. -/
noncomputable def meet (conversation : Conversation) (session : CodexSession) : Conversation :=
  let moved := Finsupp.mapDomain (pendingDestination session.provider session.effort)
    conversation.pending
  { session := some session
    pending := moved.filter (CodexBooks.StaysPending session.providerConfirmed)
    settled := conversation.settled +
      moved.filter fun bucket => ¬CodexBooks.StaysPending session.providerConfirmed bucket }

/-- A completion is counted under the session known so far. -/
noncomputable def complete (conversation : Conversation) (attrs : List KeyValue)
    (stats : ModelStats) : Conversation :=
  let bucket := codexSseBucket conversation.session attrs
  if providerUnconfirmed conversation.session ∨ bucket.effort = unknown then
    { conversation with pending := conversation.pending + Finsupp.single bucket stats }
  else { conversation with settled := conversation.settled + Finsupp.single bucket stats }

def spanSessionOf (previous : Option CodexSession) (id effort : String)
    (attrs : List KeyValue) : CodexSession :=
  match previous with
  | some session => { session with effort := effort }
  | none =>
      { conversationId := id
        provider := providerOpenai
        model := (stringAttr attrs "model").getD ""
        effort := effort
        providerConfirmed := false }

noncomputable def step (id : String) (conversation : Conversation) : Step → Conversation
  | .session _ started => conversation.meet (completeSession conversation.session started)
  | .completion _ log =>
      match codexSseStats log.attributes with
      | none => conversation
      | some stats => conversation.complete log.attributes stats
  | .requestSpan _ attrs =>
      match requestEffort attrs with
      | none => conversation
      | some effort =>
          conversation.meet (completeSession conversation.session
            (spanSessionOf conversation.session id effort attrs))
  | _ => conversation

end Conversation

def Step.conversation : Step → Option String
  | .session _ started => if started.conversationId = "" then none else some started.conversationId
  | .completion _ log => conversationId log.attributes
  | .requestSpan _ attrs => conversationId attrs
  | _ => none

/-- Session messages and completions that carry an id, and request spans with or without one. -/
def Step.Conversational (step : Step) : Prop :=
  match step with
  | .session _ _ | .completion _ _ => step.conversation ≠ none
  | .requestSpan _ _ => True
  | _ => False

noncomputable def conversationOf (id : String) (steps : List Step) : Conversation :=
  Projection.localRun Step.conversation Conversation.step Conversation.initial id steps

/-! ### Sessions -/

theorem updateCodexSessionWithLast_sessions (g : AggregatorInner) (service : String)
    (session : CodexSession) (updateLast : Bool) :
    (updateCodexSessionWithLast g service session updateLast).1.codexSessions =
      if session.conversationId ≠ "" then
        g.codexSessions.insert session.conversationId (sessionAfter g session)
      else g.codexSessions := by
  rw [updateCodexSessionWithLast_eq, (mergeCodexPendingSse_only _ _ _ _ _ _).sessions,
    rememberSession, sessionAfter_id]

theorem ingestSseCompletion_sessions (g : AggregatorInner) (service : String) (log : LogRecord) :
    (ingestSseCompletion service g log).1.codexSessions = g.codexSessions ∧
      (ingestSseCompletion service g log).1.codexLastSessions = g.codexLastSessions := by
  unfold ingestSseCompletion
  split
  · exact ⟨rfl, rfl⟩
  · rename_i parsed _
    dsimp only
    split
    · exact ⟨rfl, rfl⟩
    · cases parsed.pendingConversationId <;> exact ⟨rfl, rfl⟩

/-- The state and the books are the conversations put together. -/
structure Assembled (steps : List Step) (g : AggregatorInner) (books : CodexBooks) : Prop where
  sessions : ∀ id : String, g.codexSessions[id]? = (conversationOf id steps).session
  keyed : ∀ (id : String) (session : CodexSession), g.codexSessions[id]? = some session →
    session.conversationId = id ∧ id ≠ ""
  pending : ∀ id, books.pending id = (conversationOf id steps).pending
  settled : ∀ id, books.settled id = (conversationOf id steps).settled
  unassigned : books.unassigned = 0
  sources : ∀ model : String, g.codexTokenSources[model]? ≠ some .metrics

theorem Assembled.new : Assembled [] Aggregator.new CodexBooks.empty where
  sessions id := by simp [Aggregator.new, conversationOf, Conversation.initial]
  keyed id session found := by simp [Aggregator.new] at found
  pending id := rfl
  settled id := rfl
  unassigned := rfl
  sources model := by simp [Aggregator.new]

section Step

variable {steps : List Step} {g : AggregatorInner} {books : CodexBooks}

theorem conversationOf_own {step : Step} {id : String} (own : step.conversation = some id)
    (steps : List Step) :
    conversationOf id (steps ++ [step]) = (conversationOf id steps).step id step :=
  Projection.localRun_concat_own _ _ _ own steps

theorem conversationOf_other {step : Step} {id : String} (other : step.conversation ≠ some id)
    (steps : List Step) : conversationOf id (steps ++ [step]) = conversationOf id steps :=
  Projection.localRun_concat_other _ _ _ other steps

theorem Assembled.meet (assembled : Assembled steps g books) {step : Step} {id service : String}
    {session : CodexSession} {updateLast : Bool} (own : step.conversation = some id)
    (identified : session.conversationId = id) (named : id ≠ "")
    (meets : (conversationOf id steps).step id step = (conversationOf id steps).meet
      (completeSession (conversationOf id steps).session session)) :
    Assembled (steps ++ [step]) (updateCodexSessionWithLast g service session updateLast).1
      (books.mergeSession (sessionAfter g session)) := by
  have after : sessionAfter g session =
      completeSession (conversationOf id steps).session session := by
    rw [sessionAfter, if_pos (by rwa [identified]), identified, assembled.sessions]
  have afterId : (sessionAfter g session).conversationId = id := by
    rw [sessionAfter_id, identified]
  have stored := updateCodexSessionWithLast_sessions g service session updateLast
  rw [identified, if_pos named] at stored
  have merged : books.mergeSession (sessionAfter g session) =
      books.resolve id (sessionAfter g session).provider (sessionAfter g session).effort
        (sessionAfter g session).providerConfirmed := by
    rw [CodexBooks.mergeSession, CodexBooks.merge, afterId, if_pos named]
  have others (other : String) (different : other ≠ id) :
      conversationOf other (steps ++ [step]) = conversationOf other steps := by
    apply conversationOf_other
    rw [own]
    exact fun same => different (Option.some.inj same).symm
  refine ⟨?_, ?_, ?_, ?_, ?_, ?_⟩
  · intro other
    rw [stored, ExtTreeMap.getElem?_insert]
    by_cases same : other = id
    · subst other
      rw [conversationOf_own own, meets, ← after]
      simp [Conversation.meet]
    · rw [others other same, ← assembled.sessions]
      simp [Ne.symm same]
  · intro other found present
    rw [stored, lookup_insert] at present
    split at present
    · rename_i same
      subst other
      rw [← Option.some.inj present]
      exact ⟨afterId, named⟩
    · exact assembled.keyed other found present
  · intro other
    rw [merged]
    by_cases same : other = id
    · subst other
      rw [conversationOf_own own, meets, ← after, books.resolve_pending_self, assembled.pending]
      rfl
    · rw [others other same, (books.resolve_other _ _ _ same).1, assembled.pending]
  · intro other
    rw [merged]
    by_cases same : other = id
    · subst other
      rw [conversationOf_own own, meets, ← after, books.resolve_settled_self, assembled.pending,
        assembled.settled]
      rfl
    · rw [others other same, (books.resolve_other _ _ _ same).2, assembled.settled]
  · rw [merged]
    exact assembled.unassigned
  · rw [updateCodexSessionWithLast_tokenSources]
    exact assembled.sources

theorem Assembled.idle (assembled : Assembled steps g books) {step : Step}
    {next : AggregatorInner} (sessions : next.codexSessions = g.codexSessions)
    (sources : next.codexTokenSources = g.codexTokenSources)
    (still : ∀ id, conversationOf id (steps ++ [step]) = conversationOf id steps) :
    Assembled (steps ++ [step]) next books where
  sessions id := by rw [sessions, still, assembled.sessions]
  keyed := sessions ▸ assembled.keyed
  pending id := by rw [still, assembled.pending]
  settled id := by rw [still, assembled.settled]
  unassigned := assembled.unassigned
  sources := sources ▸ assembled.sources

theorem Assembled.assignEffort (assembled : Assembled steps g books)
    (provider model effort : String) : books.assignEffort provider model effort = books := by
  unfold CodexBooks.assignEffort
  split
  · rfl
  · rw [assembled.unassigned, Finsupp.mapDomain_zero]
    exact CodexBooks.ext rfl rfl assembled.unassigned.symm

theorem Assembled.requestSpan (assembled : Assembled steps g books) (service : String)
    (attrs : List KeyValue) :
    Assembled (steps ++ [.requestSpan service attrs])
      (Step.apply g (.requestSpan service attrs)).1
      (requestSpanBooks g books service attrs) := by
  have sources := requestSpan_tokenSources g service attrs
  simp only [Step.apply, ingestRequestSpan, if_true, updateCodexEffortFromRequestAttrs,
    requestSpanBooks] at sources ⊢
  cases requested : requestEffort attrs with
  | none =>
      refine assembled.idle rfl rfl fun id => ?_
      by_cases own : (Step.requestSpan service attrs).conversation = some id
      · rw [conversationOf_own own, Conversation.step, requested]
      · exact conversationOf_other own steps
  | some effort =>
      cases carried : conversationId attrs with
      | none =>
          rw [requested, carried] at sources
          have still (id : String) : conversationOf id (steps ++ [.requestSpan service attrs]) =
              conversationOf id steps := by
            apply conversationOf_other
            simp [Step.conversation, carried]
          have unchanged : (if ((codexLastSession g service).getD
                { conversationId := "", provider := providerOpenai, model := "", effort := "",
                  providerConfirmed := false }).effort = effort ∨
              ((codexLastSession g service).getD
                { conversationId := "", provider := providerOpenai, model := "", effort := "",
                  providerConfirmed := false }).conversationId ≠ "" then books
            else books.assignEffort ((codexLastSession g service).getD
                { conversationId := "", provider := providerOpenai, model := "", effort := "",
                  providerConfirmed := false }).provider
              ((codexLastSession g service).getD
                { conversationId := "", provider := providerOpenai, model := "", effort := "",
                  providerConfirmed := false }).model effort) = books := by
            split
            · rfl
            · exact assembled.assignEffort _ _ _
          simp only [unchanged]
          exact assembled.idle (updateCodexLastEffort_only g service effort).sessions sources still
      | some id =>
          have own : (Step.requestSpan service attrs).conversation = some id := carried
          have named : id ≠ "" := by
            rw [conversationId, Option.filter_eq_some_iff] at carried
            simpa using carried.2
          have session : spanSession g id effort attrs =
              Conversation.spanSessionOf (conversationOf id steps).session id effort attrs := by
            rw [spanSession, assembled.sessions]
            rfl
          apply assembled.meet own _ named
          · rw [Conversation.step, requested, session]
          · unfold spanSession
            split
            · rename_i found
              exact (assembled.keyed id _ found).1
            · rfl

theorem Assembled.sseSession (assembled : Assembled steps g books) {service id : String}
    {attrs : List KeyValue} (carried : conversationId attrs = some id) :
    codexSseSession g service attrs = (conversationOf id steps).session := by
  simp only [codexSseSession, carried]
  exact assembled.sessions id

theorem Assembled.complete (assembled : Assembled steps g books) {step : Step} {id : String}
    {attrs : List KeyValue} {stats : ModelStats} {next : AggregatorInner}
    {parsed : CodexSseExtraction} (own : step.conversation = some id)
    (completes : (conversationOf id steps).step id step =
      (conversationOf id steps).complete attrs stats)
    (sessions : next.codexSessions = g.codexSessions)
    (sources : ∀ model : String, next.codexTokenSources[model]? ≠ some .metrics)
    (bucket : parsed.bucket = codexSseBucket (conversationOf id steps).session attrs)
    (sample : parsed.stats = stats)
    (pendingIff : parsed.pendingConversationId = some id ↔
      providerUnconfirmed (conversationOf id steps).session = true ∨
        parsed.bucket.effort = unknown) :
    Assembled (steps ++ [step]) next (books.complete (some id) parsed) := by
  have others (other : String) (different : other ≠ id) :
      conversationOf other (steps ++ [step]) = conversationOf other steps := by
    apply conversationOf_other
    rw [own]
    exact fun same => different (Option.some.inj same).symm
  have session (other : String) : (conversationOf other (steps ++ [step])).session =
      (conversationOf other steps).session := by
    by_cases same : other = id
    · subst other
      rw [conversationOf_own own, completes, Conversation.complete]
      split <;> rfl
    · rw [others other same]
  have keptSessions (other : String) :
      next.codexSessions[other]? = (conversationOf other (steps ++ [step])).session := by
    rw [sessions, session, assembled.sessions]
  have after := conversationOf_own own steps
  rw [completes, Conversation.complete, ← bucket, ← sample] at after
  unfold CodexBooks.complete
  by_cases pending : parsed.pendingConversationId = some id
  · simp only [if_pos pending]
    rw [if_pos (pendingIff.mp pending)] at after
    refine ⟨keptSessions, sessions ▸ assembled.keyed, ?_, ?_, assembled.unassigned, sources⟩
    · intro other
      by_cases same : other = id
      · subst other
        rw [after, CodexBooks.addPending, Finsupp.add_apply, Finsupp.single_eq_same,
          assembled.pending]
      · rw [others other same, CodexBooks.addPending, Finsupp.add_apply,
          Finsupp.single_eq_of_ne same, add_zero, assembled.pending]
    · intro other
      by_cases same : other = id
      · subst other
        rw [after]
        exact assembled.settled _
      · rw [others other same]
        exact assembled.settled other
  · simp only [if_neg pending]
    rw [if_neg fun unsure => pending (pendingIff.mpr unsure)] at after
    refine ⟨keptSessions, sessions ▸ assembled.keyed, ?_, ?_, assembled.unassigned, sources⟩
    · intro other
      by_cases same : other = id
      · subst other
        rw [after]
        exact assembled.pending _
      · rw [others other same]
        exact assembled.pending other
    · intro other
      by_cases same : other = id
      · subst other
        rw [after, CodexBooks.addSettled, Finsupp.add_apply, Finsupp.single_eq_same,
          assembled.settled]
      · rw [others other same, CodexBooks.addSettled, Finsupp.add_apply,
          Finsupp.single_eq_of_ne same, add_zero, assembled.settled]

theorem Assembled.completion (assembled : Assembled steps g books) (service : String)
    (log : LogRecord) (identified : conversationId log.attributes ≠ none) :
    Assembled (steps ++ [.completion service log]) (Step.apply g (.completion service log)).1
      ((Step.completion service log).books g books) := by
  obtain ⟨id, carried⟩ := Option.ne_none_iff_exists'.mp identified
  have own : (Step.completion service log).conversation = some id := carried
  have sessions := (ingestSseCompletion_sessions g service log).1
  simp only [Step.apply, Step.books, carried]
  cases samples : codexSseStats log.attributes with
  | none =>
      have extracted : extractCodexSseResponseCompleted g service log = none := by
        simp [extractCodexSseResponseCompleted, samples]
      simp only [ingestSseCompletion, extracted]
      refine assembled.idle rfl rfl fun other => ?_
      by_cases mine : (Step.completion service log).conversation = some other
      · rw [conversationOf_own mine, Conversation.step, samples]
      · exact conversationOf_other mine steps
  | some stats =>
      obtain ⟨parsed, extracted⟩ : ∃ parsed,
          extractCodexSseResponseCompleted g service log = some parsed := by
        simp [extractCodexSseResponseCompleted, samples]
      have parts := extracted
      rw [extractCodexSseResponseCompleted, samples, Option.map_some, Option.some.injEq,
        assembled.sseSession carried, carried] at parts
      have uncounted := assembled.sources (codexTokenSourceKey parsed.bucket.model)
      have sources (model : String) :
          (ingestSseCompletion service g log).1.codexTokenSources[model]? ≠ some .metrics := by
        simp only [ingestSseCompletion, extracted, if_neg uncounted]
        cases parsed.pendingConversationId with
        | none =>
            simp only [addPending, ExtTreeMap.getElem?_insert]
            split
            · simp
            · exact assembled.sources model
        | some pendingId =>
            simp only [addPending, ExtTreeMap.getElem?_insert]
            split
            · simp
            · exact assembled.sources model
      simp only [extracted, if_neg uncounted]
      have completes : (conversationOf id steps).step id (.completion service log) =
          (conversationOf id steps).complete log.attributes stats := by
        simp only [Conversation.step, samples]
      refine assembled.complete own completes sessions sources ?_ ?_ ?_
      · rw [← parts]
      · rw [← parts]
      · rw [← parts]
        dsimp only
        split
        · rename_i unsure
          simpa using unsure
        · rename_i sure
          simpa using sure

end Step

theorem assembled_run (steps : List Step) (conversational : ∀ step ∈ steps, step.Conversational) :
    Assembled steps (Aggregator.runSteps steps) (Aggregator.booksOf steps) := by
  induction steps using List.reverseRecOn with
  | nil => exact Assembled.new
  | append_singleton steps step ih =>
      have assembled := ih fun earlier member =>
        conversational earlier (List.mem_append_left _ member)
      have carries := conversational step (List.mem_append_right _ List.mem_cons_self)
      rw [Aggregator.runSteps_concat, Aggregator.booksOf_concat]
      cases step with
      | session service started =>
          have named : started.conversationId ≠ "" := by
            intro empty
            simp [Step.Conversational, Step.conversation, empty] at carries
          have own : (Step.session service started).conversation =
              some started.conversationId := by
            simp [Step.conversation, named]
          exact assembled.meet own rfl named rfl
      | completion service log => exact assembled.completion service log carries
      | requestSpan service attrs => exact assembled.requestSpan service attrs
      | _ => exact carries.elim

/-! ### Usage -/

noncomputable def Conversation.usage (conversation : Conversation) : Bucket →₀ ModelStats :=
  conversation.pending + conversation.settled

theorem degree_eq_sum {M : Type*} [AddCommMonoid M] (ledgers : String →₀ M) (ids : Finset String)
    (outside : ∀ id, id ∉ ids → ledgers id = 0) :
    Finsupp.degree ledgers = ∑ id ∈ ids, ledgers id := by
  rw [Finsupp.degree_apply]
  apply Finset.sum_subset
  · intro id present
    by_contra absent
    exact Finsupp.mem_support_iff.mp present (outside id absent)
  · intro id _ absent
    exact Finsupp.notMem_support_iff.mp absent

theorem Assembled.ledger {steps : List Step} {g : AggregatorInner} {books : CodexBooks}
    (assembled : Assembled steps g books) (ids : Finset String)
    (complete : ∀ step ∈ steps, ∀ id, step.conversation = some id → id ∈ ids) :
    books.ledger = ∑ id ∈ ids, (conversationOf id steps).usage := by
  have outside (id : String) (absent : id ∉ ids) :
      conversationOf id steps = Conversation.initial :=
    Projection.localRun_of_absent _ _ _ fun step member own =>
      absent (complete step member id own)
  rw [CodexBooks.ledger, assembled.unassigned, add_zero, degree_eq_sum books.pending ids,
    degree_eq_sum books.settled ids, ← Finset.sum_add_distrib]
  · apply Finset.sum_congr rfl
    intro id _
    rw [assembled.pending, assembled.settled]
    rfl
  · intro id absent
    rw [assembled.settled, outside id absent]
    rfl
  · intro id absent
    rw [assembled.pending, outside id absent]
    rfl

end OtelLogger
