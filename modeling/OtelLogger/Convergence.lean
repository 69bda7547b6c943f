import OtelLogger.Isolation

/-!
Late session metadata. When all that is said about a conversation agrees, its usage ends up in
the same buckets in whatever order completions, request spans and session starts arrive: what
is pending always still has to go where the conversation's attributes send it.
-/

namespace OtelLogger

open Std (ExtTreeMap TransOrd LawfulEqOrd)
open Accounting

/-- The attributes that all messages of a conversation agree on. -/
structure ConversationAttrs where
  provider : Option String
  effort : String
  provider_named : provider ≠ some ""
  effort_named : effort ≠ ""
  effort_known : effort ≠ unknown

def ownModel (carried : List KeyValue) : Option String :=
  ((stringAttr carried "model").filter (· ≠ "")).or ((stringAttr carried "slug").filter (· ≠ ""))

def ownEffort (carried : List KeyValue) : Option String :=
  (stringAttr carried "model_reasoning_effort").filter (· ≠ "")

namespace ConversationAttrs

variable (attrs : ConversationAttrs)

def resolvedProvider : String :=
  attrs.provider.getD providerOpenai

def bucket (carried : List KeyValue) : Bucket :=
  Bucket.fromParts attrs.resolvedProvider ((ownModel carried).getD "")
    ((ownEffort carried).getD attrs.effort)

/-- Where usage of the conversation that is counted in a bucket belongs. -/
def destination (source : Bucket) : Bucket :=
  pendingDestination attrs.resolvedProvider attrs.effort source

/-- A session that does not contradict the attributes. -/
structure Admits (session : CodexSession) : Prop where
  effort : session.effort = attrs.effort
  confirmed : session.providerConfirmed = true → attrs.provider = some session.provider

def Knows (session : Option CodexSession) : Prop :=
  session.map CodexSession.provider = some attrs.resolvedProvider

theorem resolvedProvider_of_confirmed {session : CodexSession} (admitted : attrs.Admits session)
    (confirmed : session.providerConfirmed = true) :
    session.provider = attrs.resolvedProvider := by
  rw [resolvedProvider, admitted.confirmed confirmed]
  rfl

theorem pendingDestination_effort {session : CodexSession} (admitted : attrs.Admits session)
    (source : Bucket) :
    (pendingDestination session.provider session.effort source).effort =
      if source.effort = unknown then attrs.effort else source.effort := by
  rw [pendingDestination, Bucket.fromParts_effort, admitted.effort,
    nonEmpty_of_ne attrs.effort_named]
  split
  · exact nonEmpty_of_ne attrs.effort_named
  · exact nonEmpty_of_ne source.named.2.2

theorem pendingDestination_known {session : CodexSession} (admitted : attrs.Admits session)
    (source : Bucket) :
    (pendingDestination session.provider session.effort source).effort ≠ unknown := by
  rw [attrs.pendingDestination_effort admitted]
  split
  · exact attrs.effort_known
  · assumption

/-- A move that an admitted session asks for leaves the final destination as it is. -/
theorem destination_pendingDestination {session : CodexSession}
    (admitted : attrs.Admits session) (source : Bucket) :
    attrs.destination (pendingDestination session.provider session.effort source) =
      attrs.destination source := by
  have model : (pendingDestination session.provider session.effort source).model =
      source.model := by
    rw [pendingDestination, Bucket.fromParts_model, nonEmpty_of_ne source.named.2.1]
  conv_lhs => rw [destination, pendingDestination]
  rw [if_neg (attrs.pendingDestination_known admitted source), model,
    attrs.pendingDestination_effort admitted, destination, pendingDestination,
    nonEmpty_of_ne attrs.effort_named]

theorem destination_of_knows {session : CodexSession} (admitted : attrs.Admits session)
    (known : session.provider = attrs.resolvedProvider) (source : Bucket) :
    pendingDestination session.provider session.effort source = attrs.destination source := by
  rw [destination, known, admitted.effort]

theorem codexSseBucket_eq {carried : List KeyValue} (named : ownModel carried ≠ none)
    (session : Option CodexSession) :
    codexSseBucket session carried =
      Bucket.fromParts (codexProviderFromSession session) ((ownModel carried).getD "")
        ((ownEffort carried).getD (codexEffortFromSession session)) := by
  obtain ⟨model, own⟩ := Option.ne_none_iff_exists'.mp named
  rw [codexSseBucket, ← Option.or_assoc, ← ownModel, own]
  rfl

theorem destination_codexSseBucket {session : Option CodexSession} {carried : List KeyValue}
    (admitted : ∀ known, session = some known → attrs.Admits known)
    (named : ownModel carried ≠ none) (effortKnown : ownEffort carried ≠ some unknown) :
    attrs.destination (codexSseBucket session carried) = attrs.bucket carried := by
  rw [codexSseBucket_eq named, destination, pendingDestination, bucket]
  have effort : (if nonEmpty ((ownEffort carried).getD (codexEffortFromSession session)) = unknown
      then nonEmpty attrs.effort
      else nonEmpty ((ownEffort carried).getD (codexEffortFromSession session))) =
      nonEmpty ((ownEffort carried).getD attrs.effort) := by
    cases own : ownEffort carried with
    | some effort =>
        have filled : effort ≠ "" := by
          rw [ownEffort, Option.filter_eq_some_iff] at own
          simpa using own.2
        have known : effort ≠ unknown := fun same => effortKnown (own.trans (congrArg some same))
        simp only [Option.getD_some, nonEmpty_of_ne filled, if_neg known]
    | none =>
        cases session with
        | none =>
            have blank : nonEmpty (codexEffortFromSession none) = unknown := rfl
            simp only [Option.getD_none, blank, if_true]
        | some session =>
            have own : codexEffortFromSession (some session) = attrs.effort :=
              (admitted session rfl).effort
            simp only [Option.getD_none, own, ite_self]
  apply Bucket.ext
  · rfl
  · exact nonEmpty_idem _
  · exact (congrArg nonEmpty effort).trans (nonEmpty_idem _)

theorem codexSseBucket_of_knows {session : CodexSession} {carried : List KeyValue}
    (admitted : attrs.Admits session) (known : session.provider = attrs.resolvedProvider)
    (named : ownModel carried ≠ none) :
    codexSseBucket (some session) carried = attrs.bucket carried := by
  rw [codexSseBucket_eq named, bucket, ← known, ← admitted.effort]
  rfl

end ConversationAttrs

/-! ### One conversation -/

/-- The conversation's usage leads to what was delivered to it, and is already there once the
provider is known. -/
structure Converging (attrs : ConversationAttrs) (delivered : Bucket →₀ ModelStats)
    (conversation : Conversation) : Prop where
  admitted : ∀ session, conversation.session = some session → attrs.Admits session
  amounts : Finsupp.mapDomain attrs.destination conversation.pending + conversation.settled =
    delivered
  arrived : attrs.Knows conversation.session →
    Finsupp.mapDomain attrs.destination conversation.pending = conversation.pending

namespace Converging

variable {attrs : ConversationAttrs} {delivered : Bucket →₀ ModelStats}
  {conversation : Conversation}

theorem initial : Converging attrs 0 Conversation.initial where
  admitted session found := by simp [Conversation.initial] at found
  amounts := by simp [Conversation.initial]
  arrived known := by simp [Conversation.initial, ConversationAttrs.Knows] at known

theorem knows_some {session : CodexSession} :
    attrs.Knows (some session) ↔ session.provider = attrs.resolvedProvider := by
  simp [ConversationAttrs.Knows]

theorem meet (converging : Converging attrs delivered conversation) {session : CodexSession}
    (admitted : attrs.Admits session) :
    Converging attrs delivered (conversation.meet session) := by
  have onTheWay : Finsupp.mapDomain attrs.destination
      (Finsupp.mapDomain (pendingDestination session.provider session.effort)
        conversation.pending) = Finsupp.mapDomain attrs.destination conversation.pending := by
    rw [← Finsupp.mapDomain_comp]
    congr 1
    funext source
    exact attrs.destination_pendingDestination admitted source
  have there (known : session.provider = attrs.resolvedProvider) :
      Finsupp.mapDomain (pendingDestination session.provider session.effort)
        conversation.pending = Finsupp.mapDomain attrs.destination conversation.pending := by
    congr 1
    funext source
    exact attrs.destination_of_knows admitted known source
  have only (met : CodexSession) (found : (conversation.meet session).session = some met) :
      attrs.Admits met := by
    obtain rfl := Option.some.inj found
    exact admitted
  cases confirmed : session.providerConfirmed with
  | false =>
      have pending : (conversation.meet session).pending = Finsupp.mapDomain
          (pendingDestination session.provider session.effort) conversation.pending := by
        rw [Conversation.meet, confirmed]
        exact (Finsupp.filter_eq_self_iff _ _).mpr fun bucket _ => Or.inl rfl
      have settled : (conversation.meet session).settled = conversation.settled := by
        simp only [Conversation.meet, confirmed]
        rw [(Finsupp.filter_eq_zero_iff _ _).mpr, add_zero]
        exact fun bucket moved => absurd (Or.inl rfl) moved
      refine ⟨only, ?_, ?_⟩
      · rw [pending, settled, onTheWay]
        exact converging.amounts
      · intro known
        rw [pending, onTheWay, there (knows_some.mp known)]
  | true =>
      have provider := attrs.resolvedProvider_of_confirmed admitted confirmed
      have pending : (conversation.meet session).pending = 0 := by
        simp only [Conversation.meet, confirmed]
        apply (Finsupp.filter_eq_zero_iff _ _).mpr
        intro bucket stays
        have unknownEffort : bucket.effort = unknown := stays.resolve_left (by decide)
        apply Finsupp.mapDomain_of_notMem_range
        rintro ⟨source, rfl⟩
        exact attrs.pendingDestination_known admitted source unknownEffort
      have settled : (conversation.meet session).settled =
          conversation.settled + Finsupp.mapDomain attrs.destination conversation.pending := by
        simp only [Conversation.meet, confirmed, there provider]
        congr 1
        apply (Finsupp.filter_eq_self_iff _ _).mpr
        intro bucket present stays
        have unknownEffort : bucket.effort = unknown := stays.resolve_left (by decide)
        apply present
        apply Finsupp.mapDomain_of_notMem_range
        rintro ⟨source, rfl⟩
        rw [← attrs.destination_of_knows admitted provider] at unknownEffort
        exact attrs.pendingDestination_known admitted source unknownEffort
      refine ⟨only, ?_, ?_⟩
      · rw [pending, settled, Finsupp.mapDomain_zero, zero_add, add_comm]
        exact converging.amounts
      · rw [pending, Finsupp.mapDomain_zero]
        exact fun _ => rfl

theorem complete (converging : Converging attrs delivered conversation)
    {carried : List KeyValue} (named : ownModel carried ≠ none)
    (effortKnown : ownEffort carried ≠ some unknown) (stats : ModelStats) :
    Converging attrs (delivered + Finsupp.single (attrs.bucket carried) stats)
      (conversation.complete carried stats) := by
  have leads := attrs.destination_codexSseBucket converging.admitted named effortKnown
  have direct (known : attrs.Knows conversation.session) :
      codexSseBucket conversation.session carried = attrs.bucket carried := by
    cases found : conversation.session with
    | none => simp [found, ConversationAttrs.Knows] at known
    | some session =>
        rw [found, knows_some] at known
        exact attrs.codexSseBucket_of_knows (converging.admitted session found) known named
  unfold Conversation.complete
  dsimp only
  split
  · refine ⟨converging.admitted, ?_, fun known => ?_⟩
    · rw [Finsupp.mapDomain_add, Finsupp.mapDomain_single, leads, add_right_comm,
        converging.amounts]
    · rw [Finsupp.mapDomain_add, Finsupp.mapDomain_single, leads, converging.arrived known,
        direct known]
  · rename_i settles
    have known : attrs.Knows conversation.session := by
      cases found : conversation.session with
      | none => simp [found, providerUnconfirmed] at settles
      | some session =>
          rw [knows_some]
          apply attrs.resolvedProvider_of_confirmed (converging.admitted session found)
          simp only [found, providerUnconfirmed, not_or] at settles
          simpa using settles.1
    refine ⟨converging.admitted, ?_, converging.arrived⟩
    rw [direct known, ← add_assoc, converging.amounts]

/-- Once the provider is known, everything delivered has arrived. -/
theorem usage_eq (converging : Converging attrs delivered conversation)
    (known : attrs.Knows conversation.session) : conversation.usage = delivered := by
  rw [Conversation.usage, ← converging.arrived known, converging.amounts]

theorem usage_eq_zero (converging : Converging attrs 0 conversation) :
    conversation.usage = 0 := by
  have parts (bucket : Bucket) := ModelStats.zero_of_add
    ((Finsupp.add_apply _ _ _).symm.trans (DFunLike.congr_fun converging.amounts bucket))
  have settled : conversation.settled = 0 := Finsupp.ext fun bucket => (parts bucket).2
  have moved : Finsupp.mapDomain attrs.destination conversation.pending = 0 :=
    Finsupp.ext fun bucket => (parts bucket).1
  have total : Finsupp.degree conversation.pending = 0 := by
    rw [← degree_mapDomain attrs.destination, moved, map_zero]
  have pending : conversation.pending = 0 := by
    ext1 bucket
    have least := apply_le_degree conversation.pending bucket
    rw [total] at least
    exact nonpos_iff_eq_zero.mp least
  rw [Conversation.usage, pending, settled, add_zero]

end Converging

/-! ### Sessions -/

namespace ConversationAttrs

variable {attrs : ConversationAttrs} {previous : Option CodexSession}

/-- A session start with exactly the conversation's attributes. -/
structure Starts (attrs : ConversationAttrs) (session : CodexSession) : Prop where
  provider : session.provider = attrs.resolvedProvider
  confirmed : session.providerConfirmed = attrs.provider.isSome
  effort : session.effort = attrs.effort

theorem Starts.provider_eq {session : CodexSession} (starts : attrs.Starts session)
    (some_provider : attrs.provider.isSome = true) : attrs.provider = some session.provider := by
  rw [starts.provider, resolvedProvider]
  obtain ⟨provider, found⟩ := Option.isSome_iff_exists.mp some_provider
  rw [found]
  rfl

theorem Admits.confirmed_isSome {session : CodexSession} (admitted : attrs.Admits session)
    (confirmed : session.providerConfirmed = true) : attrs.provider.isSome = true := by
  rw [admitted.confirmed confirmed]
  rfl

theorem completeSession_starts (admitted : ∀ known, previous = some known → attrs.Admits known)
    {session : CodexSession} (starts : attrs.Starts session) :
    attrs.Admits (completeSession previous session) ∧
      attrs.Knows (some (completeSession previous session)) := by
  have own : attrs.Admits session :=
    ⟨starts.effort, fun confirmed => starts.provider_eq (starts.confirmed.symm.trans confirmed)⟩
  cases previous with
  | none => exact ⟨own, Converging.knows_some.mpr starts.provider⟩
  | some known =>
      have named : session.effort ≠ "" := starts.effort ▸ attrs.effort_named
      have kept : (!session.providerConfirmed && known.providerConfirmed) = false := by
        cases confirmed : known.providerConfirmed with
        | false => exact Bool.and_false _
        | true =>
            rw [starts.confirmed, (admitted known rfl).confirmed_isSome confirmed]
            rfl
      have provider : (completeSession (some known) session).provider = session.provider := by
        simp only [completeSession, kept, Bool.false_eq_true, if_false]
      refine ⟨⟨?_, ?_⟩, ?_⟩
      · simp only [completeSession, if_neg named]
        exact starts.effort
      · intro confirmed
        rw [provider]
        apply starts.provider_eq
        simp only [completeSession, Bool.or_eq_true] at confirmed
        rcases confirmed with confirmed | confirmed
        · rwa [starts.confirmed] at confirmed
        · exact (admitted known rfl).confirmed_isSome confirmed
      · rw [Converging.knows_some, provider, starts.provider]

theorem completeSession_span (admitted : ∀ known, previous = some known → attrs.Admits known)
    (id : String) (carried : List KeyValue) :
    attrs.Admits (completeSession previous
        (Conversation.spanSessionOf previous id attrs.effort carried)) ∧
      (attrs.Knows previous → attrs.Knows (some (completeSession previous
        (Conversation.spanSessionOf previous id attrs.effort carried)))) := by
  cases previous with
  | none =>
      refine ⟨⟨rfl, fun confirmed => ?_⟩, fun known => ?_⟩
      · exact absurd confirmed Bool.false_ne_true
      · simp [Knows] at known
  | some known =>
      have provider : (completeSession (some known) (Conversation.spanSessionOf (some known) id
          attrs.effort carried)).provider = known.provider := by
        cases confirmed : known.providerConfirmed <;>
          simp [completeSession, Conversation.spanSessionOf, confirmed]
      refine ⟨⟨?_, ?_⟩, ?_⟩
      · exact if_neg attrs.effort_named
      · intro confirmed
        rw [provider]
        apply (admitted known rfl).confirmed
        simpa [completeSession, Conversation.spanSessionOf] using confirmed
      · rw [Converging.knows_some, Converging.knows_some, provider]
        exact fun same => same

end ConversationAttrs

/-! ### Steps -/

section Late

variable (attrsOf : String → ConversationAttrs)

/-- Steps whose messages agree with the attributes of their conversations. -/
def Step.Late : Step → Prop
  | .session _ started =>
      started.conversationId ≠ "" ∧ (attrsOf started.conversationId).Starts started
  | .completion _ log =>
      conversationId log.attributes ≠ none ∧
        (codexSseStats log.attributes ≠ none →
          ownModel log.attributes ≠ none ∧ ownEffort log.attributes ≠ some unknown)
  | .requestSpan _ attrs =>
      ∀ id effort, conversationId attrs = some id → requestEffort attrs = some effort →
        effort = (attrsOf id).effort
  | _ => False

/-- What a completion delivers to its conversation. -/
noncomputable def deliveredBy (carried : List KeyValue) : Bucket →₀ ModelStats :=
  match conversationId carried, codexSseStats carried with
  | some id, some stats => Finsupp.single ((attrsOf id).bucket carried) stats
  | _, _ => 0

noncomputable def Step.delivered : Step → Bucket →₀ ModelStats
  | .completion _ log => deliveredBy attrsOf log.attributes
  | _ => 0

variable {attrsOf}

theorem Step.Late.conversational {step : Step} (late : step.Late attrsOf) :
    step.Conversational := by
  cases step with
  | session service started => simp [Step.Conversational, Step.conversation, late.1]
  | completion service log => exact late.1
  | requestSpan service attrs => trivial
  | _ => exact late.elim

theorem Converging.step {id : String} {delivered : Bucket →₀ ModelStats}
    {conversation : Conversation} (converging : Converging (attrsOf id) delivered conversation)
    {step : Step} (late : step.Late attrsOf) (own : step.conversation = some id) :
    Converging (attrsOf id) (delivered + step.delivered attrsOf) (conversation.step id step) := by
  cases step with
  | session service started =>
      obtain rfl : started.conversationId = id := by
        simpa [Step.conversation, late.1] using own
      have nothing : (Step.session service started).delivered attrsOf = 0 := rfl
      rw [nothing, add_zero]
      exact converging.meet
        (ConversationAttrs.completeSession_starts converging.admitted late.2).1
  | completion service log =>
      have carried : OtelLogger.conversationId log.attributes = some id := own
      simp only [Step.delivered, deliveredBy, Conversation.step, carried]
      cases samples : codexSseStats log.attributes with
      | none =>
          simp only [add_zero]
          exact converging
      | some stats =>
          obtain ⟨named, effortKnown⟩ := late.2 (by simp [samples])
          exact converging.complete named effortKnown stats
  | requestSpan service attrs =>
      simp only [Step.delivered, Conversation.step, add_zero]
      cases requested : requestEffort attrs with
      | none => exact converging
      | some effort =>
          obtain rfl := late id effort own requested
          exact converging.meet
            (ConversationAttrs.completeSession_span converging.admitted id attrs).1
  | _ => exact late.elim

def Step.startsSession (id : String) : Step → Prop
  | .session _ started => started.conversationId = id
  | _ => False

theorem knows_step {id : String} {delivered : Bucket →₀ ModelStats}
    {conversation : Conversation} (converging : Converging (attrsOf id) delivered conversation)
    {step : Step} (late : step.Late attrsOf) (own : step.conversation = some id)
    (known : (attrsOf id).Knows conversation.session ∨ step.startsSession id) :
    (attrsOf id).Knows (conversation.step id step).session := by
  cases step with
  | session service started =>
      obtain rfl : started.conversationId = id := by
        simpa [Step.conversation, late.1] using own
      exact (ConversationAttrs.completeSession_starts converging.admitted late.2).2
  | completion service log =>
      have before := known.resolve_right fun starts => starts
      simp only [Conversation.step]
      split
      · exact before
      · unfold Conversation.complete
        dsimp only
        split <;> exact before
  | requestSpan service attrs =>
      have before := known.resolve_right fun starts => starts
      simp only [Conversation.step]
      cases requested : requestEffort attrs with
      | none => exact before
      | some effort =>
          obtain rfl := late id effort own requested
          exact (ConversationAttrs.completeSession_span converging.admitted id attrs).2 before
  | _ => exact late.elim

noncomputable def deliveredTo (attrsOf : String → ConversationAttrs) (id : String)
    (steps : List Step) : Bucket →₀ ModelStats :=
  ((Projection.eventsOf Step.conversation id steps).map (Step.delivered attrsOf)).sum

theorem converging_run (id : String) (steps : List Step)
    (late : ∀ step ∈ steps, step.Late attrsOf) :
    Converging (attrsOf id) (deliveredTo attrsOf id steps) (conversationOf id steps) ∧
      ((∃ step ∈ steps, step.startsSession id ∧ step.conversation = some id) →
        (attrsOf id).Knows (conversationOf id steps).session) := by
  induction steps using List.reverseRecOn with
  | nil => exact ⟨Converging.initial, by simp⟩
  | append_singleton steps step ih =>
      obtain ⟨converging, knows⟩ := ih fun earlier member =>
        late earlier (List.mem_append_left _ member)
      have last := late step (List.mem_append_right _ List.mem_cons_self)
      by_cases own : step.conversation = some id
      · rw [deliveredTo, Projection.eventsOf_concat_own own, List.map_append, List.sum_append,
          List.map_singleton, List.sum_singleton, conversationOf_own own]
        refine ⟨converging.step last own, ?_⟩
        rintro ⟨starting, member, starts, mine⟩
        apply knows_step converging last own
        rcases List.mem_append.mp member with earlier | now
        · exact Or.inl (knows ⟨starting, earlier, starts, mine⟩)
        · obtain rfl := List.mem_singleton.mp now
          exact Or.inr starts
      · rw [deliveredTo, Projection.eventsOf_concat_other own, conversationOf_other own]
        refine ⟨converging, ?_⟩
        rintro ⟨starting, member, starts, mine⟩
        rcases List.mem_append.mp member with earlier | now
        · exact knows ⟨starting, earlier, starts, mine⟩
        · obtain rfl := List.mem_singleton.mp now
          exact absurd mine own

/-! ### Messages -/

/-- The attributes of a session start agree with those of the conversation. -/
def ConversationAttrs.Carried (attrs : ConversationAttrs) (carried : List KeyValue) : Prop :=
  providerAttr carried = attrs.provider ∧
    stringAttr carried "reasoning_effort" = some attrs.effort

/-- Messages that agree with the attributes of their conversations. -/
def Message.Late (attrsOf : String → ConversationAttrs) : Message → Prop
  | .log service record =>
      isCodexService service = true ∧ ∃ id, conversationId record.attributes = some id ∧
        (extractCodexConversationStarts record ≠ none →
          (attrsOf id).Carried record.attributes) ∧
        (codexSseStats record.attributes ≠ none →
          ownModel record.attributes ≠ none ∧ ownEffort record.attributes ≠ some unknown)
  | .spanEvent _ event =>
      ∃ id, conversationId event.attributes = some id ∧
        (otelEventMatches event.name event.attributes conversationStarts = true →
          (attrsOf id).Carried event.attributes)
  | .requestSpan _ name attrs =>
      name = "handle_responses" → ∀ id effort, conversationId attrs = some id →
        requestEffort attrs = some effort → effort = (attrsOf id).effort
  | .numberPoint _ _ _ _ => False
  | .histogramPoint _ _ _ _ => False

def Message.Starts (id : String) : Message → Prop
  | .log service record =>
      isCodexService service = true ∧ conversationId record.attributes = some id ∧
        extractCodexConversationStarts record ≠ none
  | .spanEvent service event =>
      isCodexService service = true ∧ conversationId event.attributes = some id ∧
        otelEventMatches event.name event.attributes conversationStarts = true
  | _ => False

noncomputable def Message.delivered (attrsOf : String → ConversationAttrs) :
    Message → Bucket →₀ ModelStats
  | .log _ record => deliveredBy attrsOf record.attributes
  | _ => 0

theorem extractSessionFromAttrs_starts {attrs : ConversationAttrs} {carried : List KeyValue}
    {session : CodexSession} (agrees : attrs.Carried carried)
    (found : extractSessionFromAttrs carried = some session) : attrs.Starts session := by
  unfold extractSessionFromAttrs at found
  dsimp only at found
  split at found
  · simp at found
  · rw [← Option.some.inj found]
    refine ⟨?_, ?_, ?_⟩
    · rw [agrees.1]
      rfl
    · rw [agrees.1]
    · rw [agrees.2]
      rfl

theorem Message.Late.steps {message : Message} (late : message.Late attrsOf) {step : Step}
    (member : step ∈ message.steps) : step.Late attrsOf := by
  have named {carried : List KeyValue} {id : String}
      (own : conversationId carried = some id) : id ≠ "" := by
    rw [conversationId, Option.filter_eq_some_iff] at own
    simpa using own.2
  have started {service id : String} {carried : List KeyValue} {session : CodexSession}
      (own : conversationId carried = some id) (agrees : (attrsOf id).Carried carried)
      (found : extractSessionFromAttrs carried = some session) :
      (Step.session service session).Late attrsOf := by
    have carries := extractSessionFromAttrs_conversation service found
    rw [own, Step.conversation] at carries
    split at carries
    · simp at carries
    · obtain rfl := Option.some.inj carries
      exact ⟨named own, extractSessionFromAttrs_starts agrees found⟩
  cases message with
  | log service record =>
      obtain ⟨codex, id, own, starts, completes⟩ := late
      simp only [Message.log_steps codex, List.mem_append, List.mem_map, Option.mem_toList,
        List.mem_singleton] at member
      obtain ⟨session, found, rfl⟩ | rfl := member
      · have agrees := starts (by rw [found]; simp)
        rw [extractCodexConversationStarts, Option.ite_none_right_eq_some] at found
        exact started own agrees found.2
      · exact ⟨by rw [own]; simp, completes⟩
  | spanEvent service event =>
      obtain ⟨id, own, starts⟩ := late
      simp only [Message.steps] at member
      split at member
      · rename_i matching
        simp only [List.mem_map, Option.mem_toList] at member
        obtain ⟨session, found, rfl⟩ := member
        rw [Bool.and_eq_true] at matching
        exact started own (starts matching.2) found
      · simp at member
  | requestSpan service name attrs =>
      simp only [Message.steps] at member
      split at member
      · rename_i matching
        obtain rfl := List.mem_singleton.mp member
        rw [Bool.and_eq_true, decide_eq_true_eq] at matching
        exact late matching.2
      · simp at member
  | numberPoint service metric temporality dp => exact late.elim
  | histogramPoint service metric temporality dp => exact late.elim

theorem Message.delivered_steps {message : Message} (late : message.Late attrsOf) :
    (message.steps.map (Step.delivered attrsOf)).sum = message.delivered attrsOf := by
  have sessions (service : String) (session : Option CodexSession) :
      ((session.toList.map (Step.session service)).map (Step.delivered attrsOf)).sum = 0 := by
    cases session with
    | none => rfl
    | some session => exact List.sum_singleton
  cases message with
  | log service record =>
      rw [Message.log_steps late.1, List.map_append, List.sum_append, sessions, zero_add]
      exact List.sum_singleton
  | spanEvent service event =>
      simp only [Message.steps]
      split
      · exact sessions service _
      · rfl
  | requestSpan service name attrs =>
      simp only [Message.steps]
      split
      · exact List.sum_singleton
      · rfl
  | numberPoint service metric temporality dp => exact late.elim
  | histogramPoint service metric temporality dp => exact late.elim

theorem Message.Late.conversational {message : Message} (late : message.Late attrsOf) :
    message.Conversational := by
  cases message with
  | log service record =>
      obtain ⟨codex, id, own, _⟩ := late
      exact ⟨codex, by rw [own]; simp⟩
  | spanEvent service event =>
      obtain ⟨id, own, _⟩ := late
      exact fun none => by simp [own] at none
  | requestSpan service name attrs => trivial
  | numberPoint service metric temporality dp => exact late.elim
  | histogramPoint service metric temporality dp => exact late.elim

theorem Message.Starts.step {message : Message} {id : String} (starts : message.Starts id) :
    ∃ step ∈ message.steps, step.startsSession id ∧ step.conversation = some id := by
  have start {service : String} {carried : List KeyValue} {session : CodexSession}
      (own : conversationId carried = some id)
      (found : extractSessionFromAttrs carried = some session) :
      (Step.session service session).startsSession id ∧
        (Step.session service session).conversation = some id := by
    have carries := (extractSessionFromAttrs_conversation service found).trans own
    refine ⟨?_, carries⟩
    rw [Step.conversation] at carries
    split at carries
    · simp at carries
    · exact Option.some.inj carries
  cases message with
  | log service record =>
      obtain ⟨codex, own, starting⟩ := starts
      obtain ⟨session, found⟩ := Option.ne_none_iff_exists'.mp starting
      refine ⟨.session service session, ?_, ?_⟩
      · simp [Message.log_steps codex, found]
      · rw [extractCodexConversationStarts, Option.ite_none_right_eq_some] at found
        exact start own found.2
  | spanEvent service event =>
      obtain ⟨codex, own, starting⟩ := starts
      cases found : extractSessionFromAttrs event.attributes with
      | none =>
          unfold extractSessionFromAttrs at found
          dsimp only at found
          split at found
          · rename_i blank
            rw [conversationId, Option.filter_eq_some_iff] at own
            simp [own.1] at blank
            simp [blank.1] at own
          · simp at found
      | some session =>
          refine ⟨.session service session, ?_, start own found⟩
          simp [Message.steps, codex, starting, found]
  | _ => exact starts.elim

def Message.Completes (id : String) : Message → Prop
  | .log _ record =>
      conversationId record.attributes = some id ∧ codexSseStats record.attributes ≠ none
  | _ => False

theorem Message.completes_of_delivered {message : Message} (late : message.Late attrsOf)
    {step : Step} (member : step ∈ message.steps) (delivers : step.delivered attrsOf ≠ 0)
    {id : String} (own : step.conversation = some id) : message.Completes id := by
  cases message with
  | log service record =>
      simp only [Message.log_steps late.1, List.mem_append, List.mem_map, Option.mem_toList,
        List.mem_singleton] at member
      obtain ⟨session, _, rfl⟩ | rfl := member
      · exact absurd rfl delivers
      · have carried : conversationId record.attributes = some id := own
        refine ⟨carried, fun empty => delivers ?_⟩
        simp only [Step.delivered, deliveredBy, carried, empty]
  | spanEvent service event =>
      simp only [Message.steps] at member
      split at member
      · simp only [List.mem_map, Option.mem_toList] at member
        obtain ⟨session, _, rfl⟩ := member
        exact absurd rfl delivers
      · simp at member
  | requestSpan service name attrs =>
      simp only [Message.steps] at member
      split at member
      · obtain rfl := List.mem_singleton.mp member
        exact absurd rfl delivers
      · simp at member
  | numberPoint service metric temporality dp => exact late.elim
  | histogramPoint service metric temporality dp => exact late.elim

theorem delivered_owned {step : Step} (delivers : step.delivered attrsOf ≠ 0) :
    ∃ id, step.conversation = some id := by
  cases step with
  | completion service log =>
      rw [← Option.ne_none_iff_exists']
      intro none
      have carried : OtelLogger.conversationId log.attributes = Option.none := none
      exact delivers (by simp only [Step.delivered, deliveredBy, carried])
  | _ => exact absurd rfl delivers

theorem delivered_ledger {calls : List Call}
    (late : ∀ message ∈ calls.flatMap Call.messages, message.Late attrsOf)
    (started : ∀ id, (∃ message ∈ calls.flatMap Call.messages, message.Completes id) →
      ∃ message ∈ calls.flatMap Call.messages, message.Starts id) :
    (Aggregator.booksOf (calls.flatMap Call.steps)).ledger =
      ((calls.flatMap Call.messages).map (Message.delivered attrsOf)).sum := by
  have origin (step : Step) (member : step ∈ calls.flatMap Call.steps) :
      ∃ message ∈ calls.flatMap Call.messages, step ∈ message.steps := by
    rwa [Call.steps_flatMap, List.mem_flatMap] at member
  have lateSteps : ∀ step ∈ calls.flatMap Call.steps, step.Late attrsOf := by
    intro step member
    obtain ⟨message, sent, member⟩ := origin step member
    exact (late message sent).steps member
  have owned (step : Step) (member : step ∈ calls.flatMap Call.steps) (id : String)
      (own : step.conversation = some id) : id ∈ conversations calls := by
    obtain ⟨message, sent, member⟩ := origin step member
    rw [(Message.steps_conversation (late message sent).conversational member).1] at own
    rw [conversations, List.mem_toFinset, List.mem_filterMap]
    exact ⟨message, sent, own⟩
  have assembled := assembled_run _ fun step member => (lateSteps step member).conversational
  have usage (id : String) : (conversationOf id (calls.flatMap Call.steps)).usage =
      deliveredTo attrsOf id (calls.flatMap Call.steps) := by
    obtain ⟨converging, knows⟩ := converging_run id _ lateSteps
    by_cases nothing : ∀ step ∈ Projection.eventsOf Step.conversation id
        (calls.flatMap Call.steps), step.delivered attrsOf = 0
    · have zero : deliveredTo attrsOf id (calls.flatMap Call.steps) = 0 := by
        apply List.sum_eq_zero
        intro amount delivering
        obtain ⟨step, member, rfl⟩ := List.mem_map.mp delivering
        exact nothing step member
      rw [zero] at converging ⊢
      exact converging.usage_eq_zero
    · push Not at nothing
      obtain ⟨step, member, delivers⟩ := nothing
      obtain ⟨member, own⟩ := List.mem_filter.mp member
      obtain ⟨message, sent, member⟩ := origin step member
      have completes := Message.completes_of_delivered (late message sent) member delivers
        (by simpa using own)
      obtain ⟨start, startSent, starts⟩ := started id ⟨message, sent, completes⟩
      obtain ⟨starting, startMember, startFacts⟩ := starts.step
      refine converging.usage_eq (knows ⟨starting, ?_, startFacts⟩)
      rw [Call.steps_flatMap, List.mem_flatMap]
      exact ⟨start, startSent, startMember⟩
  rw [assembled.ledger (conversations calls) owned]
  simp only [usage, deliveredTo]
  rw [Projection.sum_eventsOf]
  · rw [Call.steps_flatMap, List.map_flatMap, List.flatMap_def, List.sum_flatten, List.map_map]
    congr 1
    apply List.map_congr_left
    intro message sent
    exact Message.delivered_steps (late message sent)
  · intro step member
    by_cases delivers : step.delivered attrsOf = 0
    · exact Or.inr delivers
    · obtain ⟨id, own⟩ := delivered_owned delivers
      exact Or.inl ⟨id, owned step member id own, own⟩

end Late

/-- Whatever the order, every completion is counted under its conversation's attributes. -/
theorem Aggregator.late_metadata_converges (attrsOf : String → ConversationAttrs)
    (calls : List Call) (exactCounts : NonSaturating calls)
    (late : ∀ message ∈ calls.flatMap Call.messages, message.Late attrsOf)
    (started : ∀ id, (∃ message ∈ calls.flatMap Call.messages, message.Completes id) →
      ∃ message ∈ calls.flatMap Call.messages, message.Starts id) :
    Holds ((run calls).agent agentCodex).buckets
        ((calls.flatMap Call.messages).map (Message.delivered attrsOf)).sum ∧
      ∀ other : List Call,
        (other.flatMap Call.messages).Perm (calls.flatMap Call.messages) →
        ((run other).agent agentCodex).buckets = ((run calls).agent agentCodex).buckets := by
  have holds (calls : List Call) (exactCounts : NonSaturating calls)
      (late : ∀ message ∈ calls.flatMap Call.messages, message.Late attrsOf)
      (started : ∀ id, (∃ message ∈ calls.flatMap Call.messages, message.Completes id) →
        ∃ message ∈ calls.flatMap Call.messages, message.Starts id) :
      Holds ((run calls).agent agentCodex).buckets
        ((calls.flatMap Call.messages).map (Message.delivered attrsOf)).sum := by
    have tracks := codexTracks_run _ exactCounts
    rw [run_eq, ← delivered_ledger late started]
    exact tracks.represents.holds
  refine ⟨holds calls exactCounts late started, fun other reordered => ?_⟩
  have otherHolds := holds other (exactCounts.perm reordered)
    (fun message member => late message (reordered.mem_iff.mp member))
    (fun id completed => by
      simp only [reordered.mem_iff] at completed ⊢
      exact started id completed)
  rw [(reordered.map _).sum_eq] at otherHolds
  exact otherHolds.unique (holds calls exactCounts late started)

/-- A completion that arrives before its session start, and the other way round. -/
theorem Aggregator.late_metadata_converges_start :
    ((run [(completionMessage "c" "gpt-5" 7).call,
      (startsMessage "c" "azure" "high").call]).agent agentCodex).buckets =
    ((run [(startsMessage "c" "azure" "high").call,
      (completionMessage "c" "gpt-5" 7).call]).agent agentCodex).buckets := by
  let attrs : ConversationAttrs := ⟨some "azure", "high", by decide, by decide, by decide⟩
  let start := startsMessage "c" "azure" "high"
  let completion := completionMessage "c" "gpt-5" 7
  have sent : [start.call, completion.call].flatMap Call.messages = [start, completion] := by
    rw [List.flatMap_cons, List.flatMap_singleton]
    exact congrArg₂ _ (Message.log_call_messages _ _) (Message.log_call_messages _ _)
  have counts : NonSaturating [start.call, completion.call] := by
    intro counter
    cases counter <;> decide
  have reordered : ([completion.call, start.call].flatMap Call.messages).Perm
      ([start.call, completion.call].flatMap Call.messages) := List.Perm.swap start completion []
  refine (late_metadata_converges (fun _ => attrs) [start.call, completion.call] counts ?_ ?_).2
    [completion.call, start.call] reordered
  · rw [sent]
    intro message member
    rcases List.mem_pair.mp member with rfl | rfl
    · exact ⟨rfl, "c", rfl, fun _ => ⟨rfl, rfl⟩, fun accepted => absurd (by decide) accepted⟩
    · exact ⟨rfl, "c", rfl, fun starts => absurd (by decide) starts, fun _ => by decide⟩
  · rintro id ⟨message, member, completes⟩
    rw [sent] at member ⊢
    refine ⟨start, List.mem_cons_self, rfl, ?_, by decide⟩
    rcases List.mem_pair.mp member with rfl | rfl
    · exact completes.1
    · exact completes.1

end OtelLogger
