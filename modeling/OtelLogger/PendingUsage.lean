import OtelLogger.SessionRecord

/-!
What stays pending. A conversation's pending usage changes in two ways only: a completion adds to
it, and a session message keeps the part of it that is still unresolved. Once a session is
resolved, only completions that themselves name the effort `unknown` are kept back.
-/

namespace OtelLogger

open Std (ExtTreeMap TransOrd LawfulEqOrd)
open Accounting

/-- The pending usage that a session leaves. -/
def keptUnder (session : CodexSession) (pending : Option (ExtTreeMap Bucket ModelStats)) :
    Option (ExtTreeMap Bucket ModelStats) :=
  pending.bind fun entries =>
    let kept := keepPending session.provider session.effort session.providerConfirmed ∅
      entries.toList
    if kept.isEmpty then none else some kept

/-- The usage that a step adds to what a conversation has pending. -/
def Step.pends (g : AggregatorInner) (id : String) : Step → Option (Bucket × ModelStats)
  | .completion service log =>
      (extractCodexSseResponseCompleted g service log).bind fun parsed =>
        if parsed.pendingConversationId = some id ∧
            g.codexTokenSources[codexTokenSourceKey parsed.bucket.model]? ≠ some .metrics then
          some (parsed.bucket, parsed.stats)
        else none
  | _ => none

theorem mergeConversationPending_pending (g : AggregatorInner) (session : CodexSession)
    (id : String) :
    (mergeConversationPending g session.provider session.conversationId session.effort
        session.providerConfirmed).1.codexPendingSse[id]? =
      if session.conversationId = id then keptUnder session g.codexPendingSse[id]?
      else g.codexPendingSse[id]? := by
  cases found : g.codexPendingSse[session.conversationId]? with
  | none =>
      simp only [mergeConversationPending, found]
      split
      · rename_i same
        rw [← same, found]
        rfl
      · rfl
  | some entries =>
      rw [mergeConversationPending_of_some found]
      dsimp only
      by_cases same : session.conversationId = id
      · rw [if_pos same, ← same, found, keptUnder]
        dsimp only [Option.bind_some]
        split
        · rw [ExtTreeMap.getElem?_erase_self]
        · rw [ExtTreeMap.getElem?_insert_self]
      · rw [if_neg same]
        split
        · rw [lookup_erase, if_neg same]
        · rw [lookup_insert, if_neg same, lookup_erase, if_neg same]

theorem mergeLegacyUnknown_pending (g : AggregatorInner) (provider model effort : String) :
    (mergeLegacyUnknown g provider model effort).1.codexPendingSse = g.codexPendingSse := by
  unfold mergeLegacyUnknown
  split
  · rfl
  · dsimp only
    split
    · rfl
    · split
      · rfl
      · split
        · rw [moveCodexBucketStats_eq]
        · rfl

theorem updateCodexSessionWithLast_pending (g : AggregatorInner) (service : String)
    (session : CodexSession) (updateLast : Bool) (id : String) :
    (updateCodexSessionWithLast g service session updateLast).1.codexPendingSse[id]? =
      if session.conversationId = id ∧ id ≠ "" then
        keptUnder (completeSession g.codexSessions[id]? session) g.codexPendingSse[id]?
      else g.codexPendingSse[id]? := by
  rw [updateCodexSessionWithLast_eq, mergeCodexPendingSse]
  by_cases named : session.conversationId ≠ ""
  · rw [if_pos (by rwa [sessionAfter_id]), mergeConversationPending_pending, sessionAfter_id]
    by_cases own : session.conversationId = id
    · subst own
      rw [if_pos rfl, if_pos ⟨rfl, named⟩, sessionAfter, if_pos named]
      rfl
    · rw [if_neg own, if_neg fun same => own same.1]
      rfl
  · rw [if_neg (by rwa [sessionAfter_id]), mergeLegacyUnknown_pending, if_neg]
    · rfl
    · rintro ⟨rfl, identified⟩
      exact named identified

theorem updateCodexLastEffort_pending (g : AggregatorInner) (service effort : String) :
    (updateCodexLastEffort g service effort).1.codexPendingSse = g.codexPendingSse := by
  simp only [updateCodexLastEffort]
  split
  · rfl
  · split
    · rw [mergeCodexPendingSse, if_neg (by simp), mergeLegacyUnknown_pending]
    · rfl

theorem ingestSseCompletion_pending (g : AggregatorInner) (service : String) (log : LogRecord)
    (id : String) :
    (ingestSseCompletion service g log).1.codexPendingSse[id]? =
      match (Step.completion service log).pends g id with
      | some (bucket, stats) => some (addAmount (g.codexPendingSse[id]?.getD ∅) bucket stats)
      | none => g.codexPendingSse[id]? := by
  unfold ingestSseCompletion
  simp only [Step.pends]
  cases extracted : extractCodexSseResponseCompleted g service log with
  | none => rfl
  | some parsed =>
      simp only [Option.bind_some]
      by_cases counted :
          g.codexTokenSources[codexTokenSourceKey parsed.bucket.model]? = some .metrics
      · simp only [counted, ne_eq, not_true_eq_false, and_false, if_true, if_false]
      · simp only [counted, ne_eq, not_false_eq_true, and_true, if_false]
        cases pending : parsed.pendingConversationId with
        | none => simp [addPending, recordInto]
        | some other =>
            simp only [addPending, recordInto, Option.some.injEq]
            rw [ExtTreeMap.getElem?_insert]
            by_cases same : other = id
            · subst same
              simp
            · simp [same]

theorem Step.apply_pending {g : AggregatorInner} (keyed : Keyed g) (step : Step) (id : String) :
    (step.apply g).1.codexPendingSse[id]? =
      match step.meets g id with
      | some brought =>
          keptUnder (completeSession g.codexSessions[id]? brought) g.codexPendingSse[id]?
      | none =>
          match step.pends g id with
          | some (bucket, stats) => some (addAmount (g.codexPendingSse[id]?.getD ∅) bucket stats)
          | none => g.codexPendingSse[id]? := by
  cases step with
  | session service started =>
      have updated := updateCodexSessionWithLast_pending g service started true id
      simp only [Step.apply, ingestSession, updateCodexSession, Step.meets, updated]
      split <;> rfl
  | completion service log => exact ingestSseCompletion_pending g service log id
  | requestSpan service attrs =>
      cases requested : requestEffort attrs with
      | none =>
          simp only [Step.apply, ingestRequestSpan, if_true, updateCodexEffortFromRequestAttrs,
            requested, Step.meets, Option.map_none, ite_self]
          rfl
      | some effort =>
          cases carried : conversationId attrs with
          | none =>
              simp only [Step.apply, ingestRequestSpan, if_true,
                updateCodexEffortFromRequestAttrs, requested, carried, Step.meets, reduceCtorEq,
                if_false, updateCodexLastEffort_pending]
              rfl
          | some other =>
              rw [requestSpan_apply_of_some requested carried, updateCodexSessionWithLast_pending,
                spanSession_id keyed, Step.meets, carried, requested]
              by_cases same : other = id
              · subst same
                simp [conversationId_ne_empty carried]
              · simp [same, Step.pends]
  | codexTokens service dp | turnCount service dp | duration service dp =>
      rw [(Step.apply_conversationsKept _ rfl g).pendingSse]
      rfl
  | claudeLog log | claudeTokens dp | claudeCost dp =>
      rw [(Step.apply_claudeOnly _ rfl g).pendingSse]
      rfl

/-! ### Resolved conversations -/

/-- The provider came with a message, and the effort is known. -/
structure CodexSession.Resolved (session : CodexSession) : Prop where
  provider : session.providerConfirmed = true
  effort : session.effort ≠ "" ∧ session.effort ≠ unknown

/-- A session message of the conversation. -/
def Step.Updates (id : String) : Step → Prop
  | .session _ started => started.conversationId = id ∧ id ≠ ""
  | .requestSpan _ attrs => conversationId attrs = some id ∧ requestEffort attrs ≠ none
  | _ => False

/-- A counted completion of the conversation that itself names the effort `unknown`. -/
def Step.CompletesUnknown (g : AggregatorInner) (id : String) : Step → Prop
  | .completion service log =>
      conversationId log.attributes = some id ∧
        stringAttr log.attributes "model_reasoning_effort" = some unknown ∧
        (Step.apply g (.completion service log)).2 = 1
  | _ => False

/-- There was such a completion since the last session message of the conversation. -/
def UnknownSince (id : String) (steps : List Step) : Prop :=
  ∃ before step later, steps = before ++ step :: later ∧
    step.CompletesUnknown (Aggregator.runSteps before) id ∧ ∀ other ∈ later, ¬other.Updates id

theorem unknownSince_concat (id : String) (steps : List Step) (step : Step) :
    UnknownSince id (steps ++ [step]) ↔
      step.CompletesUnknown (Aggregator.runSteps steps) id ∨
        UnknownSince id steps ∧ ¬step.Updates id := by
  constructor
  · rintro ⟨before, completion, later, split, completes, quiet⟩
    rcases List.eq_nil_or_concat later with rfl | ⟨earlier, last, rfl⟩
    · obtain ⟨rfl, same⟩ := List.append_inj' split rfl
      obtain rfl := List.singleton_inj.mp same
      exact Or.inl completes
    · rw [List.concat_eq_append] at split quiet
      rw [← List.cons_append, ← List.append_assoc] at split
      obtain ⟨rfl, same⟩ := List.append_inj' split rfl
      obtain rfl := List.singleton_inj.mp same
      refine Or.inr ⟨⟨before, completion, earlier, rfl, completes, ?_⟩, quiet step (by simp)⟩
      exact fun other member => quiet other (List.mem_append_left _ member)
  · rintro (completes | ⟨⟨before, completion, later, rfl, completes, quiet⟩, still⟩)
    · exact ⟨steps, step, [], rfl, completes, fun _ member => absurd member List.not_mem_nil⟩
    · refine ⟨before, completion, later ++ [step], by simp, completes, ?_⟩
      intro other member
      rcases List.mem_append.mp member with earlier | last
      · exact quiet other earlier
      · exact List.mem_singleton.mp last ▸ still

theorem Step.updates_iff (g : AggregatorInner) (id : String) (step : Step) :
    step.Updates id ↔ step.meets g id ≠ none := by
  cases step with
  | session service started => simp [Step.Updates, Step.meets]
  | requestSpan service attrs => simp [Step.Updates, Step.meets]
  | _ => simp [Step.Updates, Step.meets]

theorem pendingDestination_ne_unknown {effort : String} (named : effort ≠ "")
    (known : effort ≠ unknown) (provider : String) (source : Bucket) :
    (pendingDestination provider effort source).effort ≠ unknown := by
  rw [pendingDestination, Bucket.fromParts_effort, nonEmpty_of_ne named]
  split
  · rwa [nonEmpty_of_ne named]
  · rename_i own
    rwa [nonEmpty_of_ne source.named.2.2]

theorem keepPending_resolved {session : CodexSession} (resolved : session.Resolved)
    (entries : List (Bucket × ModelStats)) :
    keepPending session.provider session.effort session.providerConfirmed ∅ entries = ∅ := by
  have settled (entry : Bucket × ModelStats) : ¬(!session.providerConfirmed ||
      decide ((pendingDestination session.provider session.effort entry.1).effort =
        unknown)) = true := by
    simp [resolved.provider, pendingDestination_ne_unknown resolved.effort.1 resolved.effort.2]
  induction entries with
  | nil => rfl
  | cons entry entries ih =>
      rw [keepPending, List.foldl_cons, if_neg (settled entry)]
      exact ih

theorem codexSseBucket_effort_iff {session : CodexSession} (resolved : session.Resolved)
    (attrs : List KeyValue) :
    (codexSseBucket (some session) attrs).effort = unknown ↔
      stringAttr attrs "model_reasoning_effort" = some unknown := by
  have named : unknown ≠ "" := by decide
  rw [codexSseBucket, Bucket.fromParts_effort]
  cases carried : stringAttr attrs "model_reasoning_effort" with
  | none =>
      have own : nonEmpty session.effort ≠ unknown := by
        rw [nonEmpty_of_ne resolved.effort.1]
        exact resolved.effort.2
      simpa [codexEffortFromSession] using own
  | some effort =>
      by_cases empty : effort = ""
      · have own : nonEmpty session.effort ≠ unknown := by
          rw [nonEmpty_of_ne resolved.effort.1]
          exact resolved.effort.2
        simpa [codexEffortFromSession, Option.filter, empty, Ne.symm named] using own
      · simp [Option.filter, empty, nonEmpty_of_ne empty]

theorem ingestSseCompletion_count (g : AggregatorInner) (service : String) (log : LogRecord) :
    (ingestSseCompletion service g log).2 = 1 ↔
      ∃ parsed, extractCodexSseResponseCompleted g service log = some parsed ∧
        g.codexTokenSources[codexTokenSourceKey parsed.bucket.model]? ≠ some .metrics := by
  unfold ingestSseCompletion
  cases extracted : extractCodexSseResponseCompleted g service log with
  | none => simp
  | some parsed =>
      simp only [Option.some.injEq, exists_eq_left']
      split
      · rename_i counted
        simp [counted]
      · rename_i counted
        simp [counted]

theorem Step.pends_completion {g : AggregatorInner} {id : String} {step : Step}
    {usage : Bucket × ModelStats} (pends : step.pends g id = some usage) :
    ∃ service log parsed, step = .completion service log ∧
      extractCodexSseResponseCompleted g service log = some parsed ∧
      g.codexTokenSources[codexTokenSourceKey parsed.bucket.model]? ≠ some .metrics ∧
      conversationId log.attributes = some id ∧ parsed.pendingConversationId = some id ∧
      usage = (parsed.bucket, parsed.stats) := by
  cases step with
  | completion service log =>
      obtain ⟨parsed, extracted, pends⟩ := Option.bind_eq_some_iff.mp pends
      rw [Option.ite_none_right_eq_some] at pends
      obtain ⟨⟨pending, uncounted⟩, same⟩ := pends
      obtain ⟨_, _, own, _⟩ := extract_facts extracted
      have carried : conversationId log.attributes = some id := by
        rcases own with none | own
        · simp [none] at pending
        · exact own.symm.trans pending
      exact ⟨service, log, parsed, rfl, extracted, uncounted, carried, pending,
        (Option.some.inj same).symm⟩
  | _ => simp [Step.pends] at pends

section Resolved

variable {g : AggregatorInner} {id : String} {known : CodexSession}

/-- Under a resolved session, what a completion keeps pending is what it calls `unknown` itself. -/
theorem extract_resolved (found : g.codexSessions[id]? = some known) (resolved : known.Resolved)
    {service : String} {log : LogRecord} (carried : conversationId log.attributes = some id)
    {parsed : CodexSseExtraction}
    (extracted : extractCodexSseResponseCompleted g service log = some parsed) :
    (parsed.bucket.effort = unknown ↔
      stringAttr log.attributes "model_reasoning_effort" = some unknown) ∧
      (parsed.pendingConversationId = some id ↔ parsed.bucket.effort = unknown) := by
  rw [extractCodexSseResponseCompleted, Option.map_eq_some_iff] at extracted
  obtain ⟨stats, _, rfl⟩ := extracted
  have session : codexSseSession g service log.attributes = some known := by
    simp only [codexSseSession, carried, found]
  simp only [session, carried]
  refine ⟨codexSseBucket_effort_iff resolved _, ?_⟩
  simp [providerUnconfirmed, resolved.provider]

theorem Step.pends_unknown (found : g.codexSessions[id]? = some known)
    (resolved : known.Resolved) {step : Step} {usage : Bucket × ModelStats}
    (pends : step.pends g id = some usage) : usage.1.effort = unknown := by
  obtain ⟨service, log, parsed, rfl, extracted, _, carried, pending, rfl⟩ :=
    Step.pends_completion pends
  exact (extract_resolved found resolved carried extracted).2.mp pending

theorem Step.completesUnknown_iff (found : g.codexSessions[id]? = some known)
    (resolved : known.Resolved) (step : Step) :
    step.CompletesUnknown g id ↔ step.pends g id ≠ none := by
  constructor
  · intro completes
    cases step with
    | completion service log =>
        obtain ⟨carried, named, counted⟩ := completes
        obtain ⟨parsed, extracted, uncounted⟩ :=
          (ingestSseCompletion_count g service log).mp counted
        obtain ⟨effort, pending⟩ := extract_resolved found resolved carried extracted
        rw [Step.pends, extracted, Option.bind_some,
          if_pos ⟨pending.mpr (effort.mpr named), uncounted⟩]
        exact Option.some_ne_none _
    | _ => exact completes.elim
  · intro pends
    obtain ⟨usage, pends⟩ := Option.ne_none_iff_exists'.mp pends
    obtain ⟨service, log, parsed, rfl, extracted, uncounted, carried, pending, _⟩ :=
      Step.pends_completion pends
    obtain ⟨effort, kept⟩ := extract_resolved found resolved carried extracted
    exact ⟨carried, effort.mp (kept.mp pending),
      (ingestSseCompletion_count g service log).mpr ⟨parsed, extracted, uncounted⟩⟩

end Resolved

theorem addAmount_mem {amounts : ExtTreeMap Bucket ModelStats} {bucket other : Bucket}
    {stats : ModelStats} (member : other ∈ addAmount amounts bucket stats) :
    other = bucket ∨ other ∈ amounts := by
  rw [addAmount, ExtTreeMap.mem_insert, Std.compare_eq_iff_eq] at member
  exact member.imp_left Eq.symm

namespace Aggregator

/-- In a resolved conversation exactly the completions since its last session message that call
their own effort `unknown` are pending, and nothing of another effort is. -/
theorem runSteps_resolved (id : String) (steps : List Step) (session : CodexSession)
    (found : (runSteps steps).codexSessions[id]? = some session) (resolved : session.Resolved) :
    ((runSteps steps).codexPendingSse[id]? ≠ none ↔ UnknownSince id steps) ∧
      ∀ (entries : ExtTreeMap Bucket ModelStats) (bucket : Bucket),
        (runSteps steps).codexPendingSse[id]? = some entries → bucket ∈ entries →
        bucket.effort = unknown := by
  induction steps using List.reverseRecOn generalizing session with
  | nil => simp [new] at found
  | append_singleton steps step ih =>
      have keyed := Keyed.run steps
      rw [runSteps_concat, step.apply_session keyed id] at found
      rw [runSteps_concat, step.apply_pending keyed id, unknownSince_concat,
        step.updates_iff (runSteps steps) id]
      cases meets : step.meets (runSteps steps) id with
      | some brought =>
          rw [meets] at found
          obtain rfl := Option.some.inj found
          have nothing : keptUnder (completeSession (runSteps steps).codexSessions[id]? brought)
              (runSteps steps).codexPendingSse[id]? = none := by
            unfold keptUnder
            cases (runSteps steps).codexPendingSse[id]? with
            | none => rfl
            | some entries => simp [keepPending_resolved resolved]
          have silent : ¬step.CompletesUnknown (runSteps steps) id := by
            cases step with
            | completion service log => simp [Step.meets] at meets
            | _ => exact fun completes => completes
          simp [nothing, silent]
      | none =>
          rw [meets] at found
          obtain ⟨before, named⟩ := ih session found resolved
          rw [step.completesUnknown_iff found resolved]
          cases pends : step.pends (runSteps steps) id with
          | none => exact ⟨by simp [before], named⟩
          | some usage =>
              refine ⟨by simp, ?_⟩
              rintro entries bucket same member
              obtain rfl := Option.some.inj same
              rcases addAmount_mem member with rfl | earlier
              · exact Step.pends_unknown found resolved pends
              · cases present : (runSteps steps).codexPendingSse[id]? with
                | none => simp [present] at earlier
                | some entries =>
                    rw [present] at earlier
                    exact named entries bucket present earlier

theorem pending_of_resolved (calls : List Call) (id : String) (session : CodexSession)
    (found : (run calls).codexSessions[id]? = some session) (resolved : session.Resolved) :
    ((run calls).codexPendingSse[id]? ≠ none ↔ UnknownSince id (calls.flatMap Call.steps)) ∧
      ∀ (entries : ExtTreeMap Bucket ModelStats) (bucket : Bucket),
        (run calls).codexPendingSse[id]? = some entries → bucket ∈ entries →
        bucket.effort = unknown := by
  rw [run_eq] at found ⊢
  exact runSteps_resolved id _ session found resolved

/-- A session that is resolved, and then a completion that calls its own effort `unknown`. -/
def unknownCompletion : List Call :=
  [(startsMessage "c" "azure" "high").call,
    (Message.log serviceCodexTui
      { body := none
        eventName := ""
        attributes :=
          [textAttr "event.name" "codex.sse_event", textAttr "event.kind" "response.completed",
            textAttr "conversation.id" "c", textAttr "model_reasoning_effort" "unknown",
            integerAttr "input_token_count" 5] }).call]

theorem pending_of_resolved_unknown :
    ∃ (entries : ExtTreeMap Bucket ModelStats) (bucket : Bucket),
      (run unknownCompletion).codexPendingSse["c"]? = some entries ∧ bucket ∈ entries ∧
      bucket.effort = unknown ∧ UnknownSince "c" (unknownCompletion.flatMap Call.steps) := by
  obtain ⟨pends, named⟩ := pending_of_resolved unknownCompletion "c"
    { conversationId := "c", provider := "azure", model := "", effort := "high",
      providerConfirmed := true } (by decide +kernel) ⟨rfl, by decide, by decide⟩
  have pending : ((run unknownCompletion).codexPendingSse["c"]?.any fun entries =>
      0 < entries.keys.length) = true := by
    decide +kernel
  obtain ⟨entries, found, filled⟩ := (Option.any_eq_true _ _).mp pending
  obtain ⟨bucket, member⟩ := List.exists_mem_of_length_pos (of_decide_eq_true filled)
  have member := ExtTreeMap.mem_keys.mp member
  exact ⟨entries, bucket, found, member, named entries bucket found member,
    pends.mp (by simp [found])⟩

/-- The completion is kept pending under the resolved session. -/
theorem resolved_kept_pending :
    ¬∀ (calls : List Call) (id : String) (session : CodexSession),
      (run calls).codexSessions[id]? = some session → session.Resolved →
      (run calls).codexPendingSse[id]? = none := by
  intro claim
  have nothing := claim unknownCompletion "c"
    { conversationId := "c", provider := "azure", model := "", effort := "high",
      providerConfirmed := true } (by decide +kernel) ⟨rfl, by decide, by decide⟩
  have pending : (run unknownCompletion).codexPendingSse["c"]?.isSome = true := by decide +kernel
  rw [nothing] at pending
  exact absurd pending Bool.false_ne_true

end Aggregator

end OtelLogger
