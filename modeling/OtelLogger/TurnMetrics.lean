import OtelLogger.Isolation
import OtelLogger.Redelivery

/-!
Turn metrics carry no conversation. They are counted under the last session of their service, and
what that is depends on the messages of the service alone, as long as no conversation is shared:
each service counts its turns as if it were the only one.
-/

namespace OtelLogger

open Std (ExtTreeMap TransOrd LawfulEqOrd)
open Accounting Noninterference

/-! ### The last session of a service -/

/-- The last session of a service after one of its request spans. -/
def lastAfterSpan (g : AggregatorInner) (service : String) (attrs : List KeyValue) :
    Option CodexSession :=
  match requestEffort attrs with
  | none => g.codexLastSessions[service]?
  | some effort =>
      match conversationId attrs with
      | none =>
          let last := (codexLastSession g service).getD
            { conversationId := "", provider := providerOpenai, model := "", effort := "",
              providerConfirmed := false }
          if last.effort = effort then g.codexLastSessions[service]?
          else some { last with effort := effort }
      | some id =>
          if replacesLast g service id then
            some (sessionAfter g (spanSession g id effort attrs))
          else g.codexLastSessions[service]?

def Step.lastAfter (g : AggregatorInner) (service : String) : Step → Option CodexSession
  | .session own started =>
      if own = service then some (sessionAfter g started) else g.codexLastSessions[service]?
  | .requestSpan own attrs =>
      if own = service then lastAfterSpan g service attrs else g.codexLastSessions[service]?
  | _ => g.codexLastSessions[service]?

section Last

variable {g : AggregatorInner}

theorem updateCodexLastEffort_last (g : AggregatorInner) (own effort service : String) :
    (updateCodexLastEffort g own effort).1.codexLastSessions[service]? =
      if own = service then
        let last := (codexLastSession g own).getD
          { conversationId := "", provider := providerOpenai, model := "", effort := "",
            providerConfirmed := false }
        if last.effort = effort then g.codexLastSessions[service]?
        else some { last with effort := effort }
      else g.codexLastSessions[service]? := by
  unfold updateCodexLastEffort
  generalize (codexLastSession g own).getD _ = last
  dsimp only
  by_cases same : last.effort = effort
  · rw [if_pos same, if_pos same, ite_self]
  · rw [if_neg same, if_neg same]
    have remembered : (g.codexLastSessions.insert own { last with effort := effort })[service]? =
        if own = service then some { last with effort := effort }
        else g.codexLastSessions[service]? := lookup_insert _ _ _ _
    split
    · rw [(mergeCodexPendingSse_only _ _ _ _ _ _).lastSessions]
      exact remembered
    · exact remembered

theorem requestSpan_last (keyed : Keyed g) (own service : String) (attrs : List KeyValue) :
    (Step.apply g (.requestSpan own attrs)).1.codexLastSessions[service]? =
      (Step.requestSpan own attrs).lastAfter g service := by
  simp only [Step.lastAfter, lastAfterSpan]
  cases requested : requestEffort attrs with
  | none =>
      simp only [Step.apply, ingestRequestSpan, if_true, updateCodexEffortFromRequestAttrs,
        requested, ite_self]
  | some effort =>
      cases carried : conversationId attrs with
      | none =>
          have updated := updateCodexLastEffort_last g own effort service
          simp only [Step.apply, ingestRequestSpan, if_true, updateCodexEffortFromRequestAttrs,
            requested, carried, updated]
          split
          · rename_i same
            rw [same]
          · rfl
      | some id =>
          rw [requestSpan_apply_of_some requested carried, updateCodexSessionWithLast_lastSessions,
            spanSession_id keyed]
          change (if replacesLast g own id = true then _ else g.codexLastSessions)[service]? = _
          dsimp only
          by_cases replaces : replacesLast g own id = true
          · rw [if_pos replaces, lookup_insert]
            split
            · rename_i same
              rw [same] at replaces
              rw [if_pos replaces]
            · rfl
          · rw [if_neg replaces]
            split
            · rename_i same
              rw [same] at replaces
              rw [if_neg replaces]
            · rfl

theorem Step.apply_last (keyed : Keyed g) (step : Step) (service : String) :
    (step.apply g).1.codexLastSessions[service]? = step.lastAfter g service := by
  cases step with
  | session own started =>
      simp only [Step.apply, ingestSession, updateCodexSession, Step.lastAfter,
        updateCodexSessionWithLast_lastSessions, if_true]
      exact lookup_insert _ _ _ _
  | requestSpan own attrs => exact requestSpan_last keyed own service attrs
  | completion own log =>
      exact congrArg (fun sessions : ExtTreeMap String CodexSession => sessions[service]?)
        (ingestSseCompletion_sessions g own log).2
  | codexTokens own dp | turnCount own dp | duration own dp =>
      rw [(Step.apply_conversationsKept _ rfl g).lastSessions]
      rfl
  | claudeLog log | claudeTokens dp | claudeCost dp =>
      rw [(Step.apply_claudeOnly _ rfl g).lastSessions]
      rfl

end Last

/-! ### What a service sees -/

/-- A service owns the conversations that its messages carry. -/
structure Owned (owns : String → String → Prop) (step : Step) : Prop where
  codex : step.isClaude = false → isCodexService step.service = true
  starts : ∀ (service : String) (started : CodexSession), step = .session service started →
    started.conversationId ≠ ""
  owned : ∀ id, step.conversation = some id → owns step.service id

/-- Two states look the same to a service: its last session and its conversations are the same. -/
structure ServiceSame (owns : String → String → Prop) (service : String)
    (g t : AggregatorInner) : Prop where
  keyed : Keyed g
  otherKeyed : Keyed t
  last : g.codexLastSessions[service]? = t.codexLastSessions[service]?
  sessions : ∀ id, owns service id → g.codexSessions[id]? = t.codexSessions[id]?

section View

variable {owns : String → String → Prop} {service : String} {g t : AggregatorInner}

theorem Step.meets_conversation {step : Step} {id : String} {brought : CodexSession}
    (meets : step.meets g id = some brought) : step.conversation = some id := by
  cases step with
  | session own started =>
      rw [Step.meets, Option.ite_none_right_eq_some] at meets
      obtain ⟨⟨rfl, named⟩, _⟩ := meets
      rw [Step.conversation, if_neg named]
  | requestSpan own attrs =>
      rw [Step.meets, Option.ite_none_right_eq_some] at meets
      exact meets.1
  | _ => simp [Step.meets] at meets

theorem Step.lastAfter_other {step : Step} (other : step.service ≠ service) :
    step.lastAfter g service = g.codexLastSessions[service]? := by
  cases step with
  | session own started => exact if_neg other
  | requestSpan own attrs => exact if_neg other
  | _ => rfl

/-- A step of another service leaves what a service sees alone. -/
theorem ServiceSame.respects (apart : ∀ first second id, owns first id → owns second id →
      first = second) {step : Step} (owned : Owned owns step) (other : step.service ≠ service)
    (same : ServiceSame owns service g t) : ServiceSame owns service (step.apply g).1 t where
  keyed := same.keyed.apply step
  otherKeyed := same.otherKeyed
  last := by
    rw [step.apply_last same.keyed, Step.lastAfter_other other]
    exact same.last
  sessions id mine := by
    rw [step.apply_session same.keyed]
    cases meets : step.meets g id with
    | none => exact same.sessions id mine
    | some brought =>
        exact absurd (apart _ _ id (owned.owned id (Step.meets_conversation meets)) mine) other

theorem ServiceSame.spanSession (same : ServiceSame owns service g t) {id : String}
    (mine : owns service id) (effort : String) (attrs : List KeyValue) :
    spanSession g id effort attrs = spanSession t id effort attrs := by
  rw [OtelLogger.spanSession, OtelLogger.spanSession, same.sessions id mine]

theorem ServiceSame.meets (same : ServiceSame owns service g t) {step : Step} {id : String}
    (mine : owns service id) : step.meets g id = step.meets t id := by
  cases step with
  | requestSpan own attrs => simp only [Step.meets, same.spanSession mine]
  | _ => rfl

theorem ServiceSame.sessionAfter (same : ServiceSame owns service g t) {session : CodexSession}
    (mine : session.conversationId ≠ "" → owns service session.conversationId) :
    sessionAfter g session = sessionAfter t session := by
  unfold OtelLogger.sessionAfter
  split
  · rename_i named
    rw [same.sessions _ (mine named)]
  · rfl

theorem ServiceSame.lastAfter (same : ServiceSame owns service g t) {step : Step}
    (owned : Owned owns step) (own : step.service = service) :
    step.lastAfter g service = step.lastAfter t service := by
  cases step with
  | session other started =>
      obtain rfl : other = service := own
      simp only [Step.lastAfter, if_true]
      rw [same.sessionAfter]
      intro named
      exact owned.owned _ (if_neg named)
  | requestSpan other attrs =>
      obtain rfl : other = service := own
      simp only [Step.lastAfter, if_true, lastAfterSpan, replacesLast, codexLastSession, same.last]
      cases requestEffort attrs with
      | none => rfl
      | some effort =>
          cases carried : conversationId attrs with
          | none => rfl
          | some id =>
              have mine : owns other id := owned.owned id carried
              have known : (OtelLogger.spanSession t id effort attrs).conversationId ≠ "" →
                  owns other (OtelLogger.spanSession t id effort attrs).conversationId := by
                intro _
                rwa [spanSession_id same.otherKeyed]
              dsimp only
              rw [same.spanSession mine, same.sessionAfter known]
              rfl
  | _ => exact same.last

/-- A step of the service does the same to states that look the same to it. -/
theorem ServiceSame.consistent {step : Step} (owned : Owned owns step)
    (own : step.service = service) (same : ServiceSame owns service g t) :
    ServiceSame owns service (step.apply g).1 (step.apply t).1 where
  keyed := same.keyed.apply step
  otherKeyed := same.otherKeyed.apply step
  last := by
    rw [step.apply_last same.keyed, step.apply_last same.otherKeyed]
    exact same.lastAfter owned own
  sessions id mine := by
    rw [step.apply_session same.keyed, step.apply_session same.otherKeyed, same.meets mine,
      same.sessions id mine]

theorem ServiceSame.unwinding (apart : ∀ first second id, owns first id → owns second id →
      first = second) (service : String) :
    Unwinding (fun g step => (Step.apply g step).1) (Owned owns) (·.service = service)
      (ServiceSame owns service) where
  respects owned other same := same.respects apart owned other
  consistent owned own same := same.consistent owned own

end View

/-! ### Turns are counted in the open -/

/-- The amounts of a turn counter, bucket by bucket. -/
noncomputable def turns (counter : Counter) : (Bucket →₀ ModelStats) →+ (Bucket →₀ ℕ) :=
  Finsupp.mapRange.addMonoidHom (ModelStats.counterHom counter)

/-- Turns belong to no conversation, so session metadata cannot move them. -/
structure TurnsUnassigned (counter : Counter) (books : CodexBooks) : Prop where
  pending : ∀ id, turns counter (books.pending id) = 0
  settled : ∀ id, turns counter (books.settled id) = 0

/-- A last session without a conversation has no model. -/
def NamelessLast (g : AggregatorInner) : Prop :=
  ∀ (service : String) (last : CodexSession), g.codexLastSessions[service]? = some last →
    last.conversationId = "" → last.model = ""

section Turns

variable {counter : Counter} {books : CodexBooks} {g t : AggregatorInner}

theorem turns_apply (counter : Counter) (ledger : Bucket →₀ ModelStats) (bucket : Bucket) :
    turns counter ledger bucket = (ledger bucket).counter counter := rfl

theorem turns_single {bucket : Bucket} {stats : ModelStats} (turnless : stats.counter counter = 0) :
    turns counter (Finsupp.single bucket stats) = 0 := by
  rw [turns, Finsupp.mapRange.addMonoidHom_apply, Finsupp.mapRange_single,
    ModelStats.counterHom_apply, turnless, Finsupp.single_zero]

theorem turns_mapDomain {ledger : Bucket →₀ ModelStats} (turnless : turns counter ledger = 0)
    (destination : Bucket → Bucket) : turns counter (Finsupp.mapDomain destination ledger) = 0 := by
  have moved := Finsupp.mapDomain_mapRange destination ledger (ModelStats.counterHom counter)
    (map_zero _) (map_add _)
  exact moved.symm.trans ((congrArg (Finsupp.mapDomain destination) turnless).trans
    Finsupp.mapDomain_zero)

theorem turns_filter {ledger : Bucket →₀ ModelStats} (turnless : turns counter ledger = 0)
    (part : Bucket → Prop) [DecidablePred part] : turns counter (ledger.filter part) = 0 := by
  ext bucket
  rw [turns_apply, Finsupp.filter_apply]
  split
  · rw [← turns_apply, turnless]
  · exact ModelStats.counter_zero counter

theorem turns_degree {ledgers : String →₀ Bucket →₀ ModelStats}
    (turnless : ∀ id, turns counter (ledgers id) = 0) :
    turns counter (Finsupp.degree ledgers) = 0 := by
  rw [Finsupp.degree_apply, map_sum]
  exact Finset.sum_eq_zero fun id _ => turnless id

theorem TurnsUnassigned.ledger (unassigned : TurnsUnassigned counter books) :
    turns counter books.ledger = turns counter books.unassigned := by
  rw [CodexBooks.ledger, map_add, map_add, turns_degree unassigned.pending,
    turns_degree unassigned.settled, zero_add, zero_add]

theorem TurnsUnassigned.resolve (unassigned : TurnsUnassigned counter books)
    (id provider effort : String) (providerConfirmed : Bool) :
    TurnsUnassigned counter (books.resolve id provider effort providerConfirmed) := by
  have moved := turns_mapDomain (unassigned.pending id) (pendingDestination provider effort)
  constructor
  · intro other
    by_cases own : other = id
    · rw [own, books.resolve_pending_self]
      exact turns_filter moved _
    · rw [(books.resolve_other provider effort providerConfirmed own).1]
      exact unassigned.pending other
  · intro other
    by_cases own : other = id
    · rw [own, books.resolve_settled_self, map_add, unassigned.settled id, zero_add]
      exact turns_filter moved _
    · rw [(books.resolve_other provider effort providerConfirmed own).2]
      exact unassigned.settled other

theorem TurnsUnassigned.assignEffort (unassigned : TurnsUnassigned counter books)
    (provider model effort : String) :
    TurnsUnassigned counter (books.assignEffort provider model effort) := by
  unfold CodexBooks.assignEffort
  split
  · exact unassigned
  · exact ⟨unassigned.pending, unassigned.settled⟩

theorem TurnsUnassigned.mergeSession (unassigned : TurnsUnassigned counter books)
    (session : CodexSession) : TurnsUnassigned counter (books.mergeSession session) := by
  unfold CodexBooks.mergeSession CodexBooks.merge
  split
  · exact unassigned.resolve _ _ _ _
  · exact unassigned.assignEffort _ _ _

theorem TurnsUnassigned.moved (unassigned : TurnsUnassigned counter books) (g : AggregatorInner)
    (step : Step) : TurnsUnassigned counter (step.moved g books) := by
  cases step with
  | session service started => exact unassigned.mergeSession _
  | requestSpan service attrs =>
      simp only [Step.moved, requestSpanBooks]
      split
      · exact unassigned
      · split
        · exact unassigned.mergeSession _
        · split
          · exact unassigned
          · exact unassigned.assignEffort _ _ _
  | _ => exact unassigned

theorem turns_add_single {ledgers : String →₀ Bucket →₀ ModelStats}
    (turnless : ∀ id, turns counter (ledgers id) = 0) (id : String) {bucket : Bucket}
    {stats : ModelStats} (none : stats.counter counter = 0) (other : String) :
    turns counter ((ledgers + Finsupp.single id (Finsupp.single bucket stats)) other) = 0 := by
  rw [Finsupp.add_apply, map_add, turnless other, zero_add, Finsupp.single_apply]
  split
  · exact turns_single none
  · exact map_zero _

theorem TurnsUnassigned.complete (unassigned : TurnsUnassigned counter books) (id : Option String)
    {parsed : CodexSseExtraction} (turnless : parsed.stats.counter counter = 0) :
    TurnsUnassigned counter (books.complete id parsed) := by
  unfold CodexBooks.complete
  split
  · exact ⟨unassigned.pending, unassigned.settled⟩
  · split
    · exact ⟨turns_add_single unassigned.pending _ turnless, unassigned.settled⟩
    · exact ⟨unassigned.pending, turns_add_single unassigned.settled _ turnless⟩

theorem TurnsUnassigned.countPoint (unassigned : TurnsUnassigned counter books) (bucket : Bucket)
    (value : ℕ) (stats : ModelStats) :
    TurnsUnassigned counter (books.countPoint bucket value stats) := by
  unfold CodexBooks.countPoint
  split
  · exact unassigned
  · exact ⟨unassigned.pending, unassigned.settled⟩

theorem codexSseStats_usageOnly {attrs : List KeyValue} {stats : ModelStats}
    (found : codexSseStats attrs = some stats) : UsageOnly stats := by
  unfold codexSseStats at found
  dsimp only at found
  split at found
  · simp at found
  · split at found
    · simp at found
    · split at found
      · simp at found
      · obtain rfl := Option.some.inj found
        exact ⟨rfl, rfl⟩

theorem codexTokenStats_usageOnly {dp : HistogramDataPoint} {stats : ModelStats}
    (found : codexTokenStats dp = some stats) : UsageOnly stats := by
  unfold codexTokenStats at found
  dsimp only at found
  split at found <;> simp only [Option.some.injEq, reduceCtorEq] at found
  all_goals
    rw [← found]
    exact ⟨rfl, rfl⟩

theorem TurnsUnassigned.apply (unassigned : TurnsUnassigned counter books)
    (turn : counter.isToken = false) (g : AggregatorInner) (step : Step) :
    TurnsUnassigned counter (step.books g books) := by
  cases step with
  | session service started => exact unassigned.moved g (.session service started)
  | requestSpan service attrs => exact unassigned.moved g (.requestSpan service attrs)
  | completion service log =>
      simp only [Step.books]
      cases found : extractCodexSseResponseCompleted g service log with
      | none => exact unassigned
      | some parsed =>
          dsimp only
          split
          · exact unassigned
          · exact unassigned.complete _
              ((codexSseStats_usageOnly (extract_facts found).1).counter_eq_zero turn)
  | codexTokens service dp =>
      simp only [Step.books]
      split
      · exact unassigned
      · cases codexTokenStats dp with
        | none => exact unassigned
        | some stats => exact unassigned.countPoint _ _ _
  | turnCount service dp | duration service dp => exact unassigned.countPoint _ _ _
  | claudeLog log | claudeTokens dp | claudeCost dp => exact unassigned

/-! ### What a step counts -/

theorem NamelessLast.getD (nameless : NamelessLast g) {service : String}
    (unnamed : ((codexLastSession g service).getD
      { conversationId := "", provider := providerOpenai, model := "", effort := "",
        providerConfirmed := false }).conversationId = "") :
    ((codexLastSession g service).getD
      { conversationId := "", provider := providerOpenai, model := "", effort := "",
        providerConfirmed := false }).model = "" := by
  rw [codexLastSession] at unnamed ⊢
  cases present : g.codexLastSessions[service]? with
  | none => rfl
  | some previous =>
      rw [present, Option.getD_some] at unnamed
      exact nameless service previous present unnamed

theorem NamelessLast.span (nameless : NamelessLast g) (keyed : Keyed g) {service : String}
    {attrs : List KeyValue} {last : CodexSession}
    (found : lastAfterSpan g service attrs = some last) (unnamed : last.conversationId = "") :
    last.model = "" := by
  unfold lastAfterSpan at found
  split at found
  · exact nameless service last found unnamed
  · split at found
    · dsimp only at found
      split at found
      · exact nameless service last found unnamed
      · obtain rfl := Option.some.inj found
        exact nameless.getD unnamed
    · rename_i id carried
      split at found
      · obtain rfl := Option.some.inj found
        rw [sessionAfter_id, spanSession_id keyed] at unnamed
        exact absurd unnamed (conversationId_ne_empty carried)
      · exact nameless service last found unnamed

theorem NamelessLast.apply {owns : String → String → Prop} (nameless : NamelessLast g)
    (keyed : Keyed g) {step : Step} (owned : Owned owns step) :
    NamelessLast (step.apply g).1 := by
  intro service last found unnamed
  rw [step.apply_last keyed] at found
  cases step with
  | session own started =>
      rw [Step.lastAfter] at found
      split at found
      · obtain rfl := Option.some.inj found
        rw [sessionAfter_id] at unnamed
        exact absurd unnamed (owned.starts own started rfl)
      · exact nameless service last found unnamed
  | requestSpan own attrs =>
      rw [Step.lastAfter] at found
      split at found
      · exact nameless.span keyed found unnamed
      · exact nameless service last found unnamed
  | _ => exact nameless service last found unnamed

theorem CodexBooks.mergeSession_unassigned (books : CodexBooks) {session : CodexSession}
    (named : session.conversationId ≠ "") :
    (books.mergeSession session).unassigned = books.unassigned := by
  rw [mergeSession, merge, if_pos named]
  rfl

theorem Step.moved_unassigned {owns : String → String → Prop} (nameless : NamelessLast g)
    (keyed : Keyed g) {step : Step} (owned : Owned owns step) (books : CodexBooks) :
    (step.moved g books).unassigned = books.unassigned := by
  cases step with
  | session service started =>
      apply books.mergeSession_unassigned
      rw [sessionAfter_id]
      exact owned.starts service started rfl
  | requestSpan service attrs =>
      simp only [Step.moved, requestSpanBooks]
      split
      · rfl
      · split
        · rename_i id carried
          apply books.mergeSession_unassigned
          rw [sessionAfter_id, spanSession_id keyed]
          exact conversationId_ne_empty carried
        · split
          · rfl
          · rename_i effort _ _ moves
            rw [not_or, not_not] at moves
            rw [CodexBooks.assignEffort, if_pos (Or.inl (nameless.getD moves.2))]
  | _ => rfl

theorem Step.countedLedger_turnless {step : Step} (silent : step.sample.counter counter = 0) :
    turns counter (step.countedLedger g) = 0 := by
  ext bucket
  have covered := (apply_le_degree (step.countedLedger g) bucket).trans (step.counted_le g)
  have bound := ModelStats.counter_le covered counter
  rw [silent] at bound
  exact Nat.le_zero.mp bound

/-- What a step adds to the turns is decided by what its service sees. -/
theorem ServiceSame.counts {owns : String → String → Prop} {step : Step}
    (same : ServiceSame owns step.service g t) (turn : counter.isToken = false) :
    turns counter (step.countedLedger g) = turns counter (step.countedLedger t) := by
  have bucket (service : String) (attrs : List KeyValue) (own : step.service = service) :
      codexMetricBucket g service attrs = codexMetricBucket t service attrs := by
    subst own
    simp only [codexMetricBucket, codexProvider, codexEffort, codexLastSession, same.last]
  cases step with
  | completion service log =>
      have silent : (Step.completion service log).sample.counter counter = 0 := by
        rw [Step.sample]
        cases found : codexSseStats log.attributes with
        | none => exact ModelStats.counter_zero counter
        | some stats => exact (codexSseStats_usageOnly found).counter_eq_zero turn
      rw [Step.countedLedger_turnless silent, Step.countedLedger_turnless silent]
  | codexTokens service dp =>
      have silent : (Step.codexTokens service dp).sample.counter counter = 0 := by
        rw [Step.sample]
        cases found : codexTokenStats dp with
        | none => exact ModelStats.counter_zero counter
        | some stats => exact (codexTokenStats_usageOnly found).counter_eq_zero turn
      rw [Step.countedLedger_turnless silent, Step.countedLedger_turnless silent]
  | turnCount service dp | duration service dp =>
      simp only [Step.countedLedger, Step.counted, bucket service dp.attributes rfl]
  | _ => rfl

end Turns

/-! ### Runs -/

def codexServices : Finset String :=
  {serviceCodexTui, serviceCodexExec, serviceCodexAppServer, serviceCodexMcpServer,
    serviceCodexDesktop, serviceCodexExecServer}

theorem mem_codexServices {service : String} :
    service ∈ codexServices ↔ isCodexService service = true := by
  simp [codexServices, isCodexService, or_assoc]

namespace Aggregator

section Runs

variable {owns : String → String → Prop} {steps : List Step} {counter : Counter}

theorem namelessLast_run (owned : ∀ step ∈ steps, Owned owns step) :
    NamelessLast (runSteps steps) := by
  induction steps using List.reverseRecOn with
  | nil => exact fun service last found => by simp [runSteps, applyAll, new] at found
  | append_singleton steps step ih =>
      rw [runSteps_concat]
      refine (ih fun other member => owned other (List.mem_append_left _ member)).apply
        (Keyed.run steps) (owned step ?_)
      exact List.mem_append_right _ (List.mem_singleton_self step)

theorem turnsUnassigned_run (turn : counter.isToken = false) (steps : List Step) :
    TurnsUnassigned counter (booksOf steps) := by
  induction steps using List.reverseRecOn with
  | nil => exact ⟨fun _ => map_zero _, fun _ => map_zero _⟩
  | append_singleton steps step ih =>
      rw [booksOf_concat]
      exact ih.apply turn _ step

/-- The turns of a run are those that its steps count, each where it counts them. -/
theorem booksOf_turns (turn : counter.isToken = false) (owned : ∀ step ∈ steps, Owned owns step) :
    turns counter (booksOf steps).ledger =
      amounts (fun g step => (Step.apply g step).1)
        (fun g step => turns counter (step.countedLedger g)) new steps := by
  induction steps using List.reverseRecOn with
  | nil =>
      rw [(turnsUnassigned_run turn []).ledger]
      exact map_zero _
  | append_singleton steps step ih =>
      have before := fun other member => owned other (List.mem_append_left [step] member)
      have here := owned step (List.mem_append_right _ (List.mem_singleton_self step))
      have unassigned := turnsUnassigned_run turn steps
      rw [booksOf_concat, step.books_ledger, map_add, (unassigned.moved _ step).ledger,
        Step.moved_unassigned (namelessLast_run before) (Keyed.run steps) here,
        ← unassigned.ledger, ih before, amounts_concat, ← runSteps_eq_foldl]

theorem booksOf_turns_sum (turn : counter.isToken = false)
    (apart : ∀ first second id, owns first id → owns second id → first = second)
    (owned : ∀ step ∈ steps, Owned owns step) :
    turns counter (booksOf steps).ledger = ∑ service ∈ codexServices,
      turns counter (booksOf (steps.filter (·.service = service))).ledger := by
  have same (service : String) : ServiceSame owns service new new :=
    ⟨Keyed.run [], Keyed.run [], rfl, fun _ _ => rfl⟩
  have outside {step : Step} (owned : Owned owns step) (foreign : step.service ∉ codexServices)
      (g : AggregatorInner) : turns counter (step.countedLedger g) = 0 := by
    cases claude : step.isClaude with
    | false => exact absurd (mem_codexServices.mpr (owned.codex claude)) foreign
    | true =>
        cases step with
        | claudeLog log | claudeTokens dp | claudeCost dp => exact map_zero _
        | _ => simp [Step.isClaude] at claude
  rw [booksOf_turns turn owned, amounts_eq_sum (ServiceSame.unwinding apart)
    (fun _ looks => looks.counts turn) outside same owned]
  refine Finset.sum_congr rfl fun service _ => ?_
  exact (booksOf_turns turn fun step member => owned step (List.mem_of_mem_filter member)).symm

end Runs

end Aggregator

/-! ### Requests of one service -/

def Message.startsConversation : Message → Bool
  | .log service record => isCodexService service && OtelLogger.startsConversation record
  | .spanEvent service event =>
      isCodexService service && otelEventMatches event.name event.attributes conversationStarts
  | _ => false

/-- Codex services share no conversation, and every conversation start carries its own. -/
structure ServicesApart (calls : List Call) : Prop where
  starts : ∀ message ∈ calls.flatMap Call.messages, message.startsConversation = true →
    message.conversation ≠ none
  apart : ∀ first ∈ calls.flatMap Call.messages, ∀ second ∈ calls.flatMap Call.messages,
    isCodexService first.service = true → isCodexService second.service = true →
      first.conversation ≠ none → first.conversation = second.conversation →
        first.service = second.service

/-- The conversations that the messages of a service carry. -/
def carries (calls : List Call) (service id : String) : Prop :=
  ∃ message ∈ calls.flatMap Call.messages, isCodexService message.service = true ∧
    message.service = service ∧ message.conversation = some id

section Requests

variable {calls : List Call}

theorem Message.session_starts {message : Message} {service : String} {started : CodexSession}
    (member : Step.session service started ∈ message.steps) :
    message.startsConversation = true := by
  have codex : isCodexService message.service = true := by
    obtain ⟨_, ⟨claude, _⟩ | ⟨_, codex⟩⟩ := Message.steps_service member
    · simp [Step.isClaude] at claude
    · exact codex
  cases message with
  | log own record =>
      have listed : isCodexService own = true := codex
      simp only [Message.log_steps listed, List.mem_append, List.mem_map, Option.mem_toList,
        List.mem_singleton, reduceCtorEq, or_false] at member
      obtain ⟨_, found, _⟩ := member
      rw [extractCodexConversationStarts_eq, Option.ite_none_right_eq_some] at found
      exact Bool.and_eq_true_iff.mpr ⟨codex, found.1⟩
  | spanEvent own event =>
      rw [Message.steps, List.mem_ite_nil_right] at member
      exact member.1
  | requestSpan own name attrs =>
      rw [Message.steps, List.mem_ite_nil_right, List.mem_singleton] at member
      simp at member
  | numberPoint own metric temporality dp =>
      obtain same | same | same := Message.numberPoint_steps member <;> simp at same
  | histogramPoint own metric temporality dp =>
      obtain same | same := Message.histogramPoint_steps member <;> simp at same

theorem ServicesApart.owned (apart : ServicesApart calls) :
    ∀ step ∈ calls.flatMap Call.steps, Owned (carries calls) step := by
  intro step member
  rw [Call.steps_flatMap, List.mem_flatMap] at member
  obtain ⟨message, sent, member⟩ := member
  obtain ⟨service, agent⟩ := Message.steps_service member
  constructor
  · intro codex
    obtain ⟨claude, _⟩ | ⟨_, own⟩ := agent
    · simp [codex] at claude
    · rwa [service]
  · rintro own started rfl unnamed
    have carried := Message.steps_carries member rfl
    rw [Step.conversation, if_pos unnamed] at carried
    exact apart.starts message sent (Message.session_starts member) carried.symm
  · intro id own
    obtain ⟨claude, _⟩ | ⟨codex, listed⟩ := agent
    · cases step with
      | claudeLog log | claudeTokens dp | claudeCost dp => simp [Step.conversation] at own
      | _ => simp [Step.isClaude] at claude
    · exact ⟨message, sent, listed, service.symm, (Message.steps_carries member codex).symm.trans own⟩

theorem ServicesApart.carries_apart (apart : ServicesApart calls) (first second id : String)
    (left : carries calls first id) (right : carries calls second id) : first = second := by
  obtain ⟨message, sent, codex, rfl, own⟩ := left
  obtain ⟨other, otherSent, otherCodex, rfl, otherOwn⟩ := right
  refine apart.apart message sent other otherSent codex otherCodex ?_ (own.trans otherOwn.symm)
  rw [own]
  exact Option.some_ne_none id

theorem Call.ofServices_steps (calls : List Call) (service : String) :
    (calls.map (·.ofServices (· = service))).flatMap Call.steps =
      (calls.flatMap Call.steps).filter (·.service = service) := by
  rw [List.flatMap_map, List.filter_flatMap]
  refine List.flatMap_congr fun call _ => ?_
  rw [Call.steps, Call.ofServices_messages, Call.steps]
  refine filter_flatMap_eq fun message step member => ?_
  rw [(Message.steps_service member).1]

end Requests

/-- Turn metrics are isolated: each service counts its turns as if it were alone. -/
theorem Aggregator.turn_metrics_isolated (calls : List Call) (exactCounts : NonSaturating calls)
    (apart : ServicesApart calls) (bucket : Bucket) :
    let own (service : String) := run (calls.map (·.ofServices (· = service)))
    ((run calls).codexAmount bucket).requestCount =
        ∑ service ∈ codexServices, ((own service).codexAmount bucket).requestCount ∧
      ((run calls).codexAmount bucket).durationMs =
        ∑ service ∈ codexServices, ((own service).codexAmount bucket).durationMs := by
  intro own
  have isolated (counter : Counter) (turn : counter.isToken = false) :
      ((run calls).codexAmount bucket).counter counter =
        ∑ service ∈ codexServices, ((own service).codexAmount bucket).counter counter := by
    have tracks := codexTracks_run _ exactCounts
    have ownTracks (service : String) :=
      codexTracks_run ((calls.flatMap Call.steps).filter (·.service = service))
        (exactCounts.of_le (offered_filter_le _ _))
    have alone (service : String) : own service =
        runSteps ((calls.flatMap Call.steps).filter (·.service = service)) := by
      rw [← Call.ofServices_steps]
      exact run_eq _
    have sum := DFunLike.congr_fun (booksOf_turns_sum turn apart.carries_apart apart.owned) bucket
    rw [Finsupp.finsetSum_apply] at sum
    rw [run_eq, tracks.codexAmount_eq]
    simp only [alone, (ownTracks _).codexAmount_eq]
    exact sum
  exact ⟨isolated .requestCount rfl, isolated .durationMs rfl⟩

def turnMessage (service model : String) (requestCount : ℤ) : Message :=
  .numberPoint service "codex.conversation.turn.count" deltaTemporality
    { attributes := [textAttr "model" model]
      flags := 0
      value := some (.asInt requestCount) }

theorem Aggregator.turn_metrics_isolated_two_services :
    let calls := [(startsMessage "a" "azure" "high").call,
      (Message.requestSpan serviceCodexExec "handle_responses"
        [textAttr "codex.request.reasoning_effort" "low"]).call,
      (turnMessage serviceCodexTui "gpt-5" 2).call, (turnMessage serviceCodexExec "gpt-5" 3).call]
    let bucket := Bucket.fromParts "azure" "gpt-5" "high"
    ((run calls).codexAmount bucket).requestCount = 2 ∧
      ∑ service ∈ codexServices, ((run (calls.map
        (·.ofServices (· = service)))).codexAmount bucket).requestCount = 2 := by
  intro calls bucket
  have counts : NonSaturating calls := by
    intro counter
    cases counter <;> decide +kernel
  have apart : ServicesApart calls := ⟨by decide +kernel, by decide +kernel⟩
  have counted : ((run calls).codexAmount bucket).requestCount = 2 := by decide +kernel
  exact ⟨counted, (turn_metrics_isolated calls counts apart bucket).1.symm.trans counted⟩

end OtelLogger
