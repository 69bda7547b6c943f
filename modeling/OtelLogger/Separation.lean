import OtelLogger.Runs
import OtelLogger.Library.Noninterference

/-!
The two agents share one state and do not interfere. A step of Claude's telemetry reads and
changes Claude's part of the state, and a step of Codex's telemetry the Codex part, so each agent
counts what it would count if the other's telemetry had never been sent.
-/

namespace OtelLogger

open Std (ExtTreeMap TransOrd LawfulEqOrd)
open Accounting Noninterference

/-! ### The two views -/

structure CodexSame (g t : AggregatorInner) : Prop where
  agent : g.agents[agentCodex]? = t.agents[agentCodex]?
  lastSessions : g.codexLastSessions = t.codexLastSessions
  sessions : g.codexSessions = t.codexSessions
  tokenSources : g.codexTokenSources = t.codexTokenSources
  pendingSse : g.codexPendingSse = t.codexPendingSse

structure ClaudeSame (g t : AggregatorInner) : Prop where
  agent : g.agents[agentClaude]? = t.agents[agentClaude]?
  canonicalModels : g.claudeCanonicalModels = t.claudeCanonicalModels
  metricModels : g.claudeMetricModels = t.claudeMetricModels
  usageSources : g.claudeUsageSources = t.claudeUsageSources
  metricUsage : g.claudeMetricUsage = t.claudeMetricUsage

theorem CodexSame.refl (g : AggregatorInner) : CodexSame g g := ⟨rfl, rfl, rfl, rfl, rfl⟩

theorem ClaudeSame.refl (g : AggregatorInner) : ClaudeSame g g := ⟨rfl, rfl, rfl, rfl, rfl⟩

/-- The other agents are stored as they were. -/
def OtherAgents (name : String) (g next : AggregatorInner) : Prop :=
  ∀ other : String, other ≠ name → next.agents[other]? = g.agents[other]?

namespace OtherAgents

variable {name : String} {g middle next : AggregatorInner}

theorem refl (name : String) (g : AggregatorInner) : OtherAgents name g g :=
  fun _ _ => rfl

theorem trans (left : OtherAgents name g middle) (right : OtherAgents name middle next) :
    OtherAgents name g next :=
  fun other different => (right other different).trans (left other different)

theorem insert (same : next.agents = g.agents.insert name stats) : OtherAgents name g next := by
  intro other different
  rw [same, lookup_insert, if_neg (Ne.symm different)]

end OtherAgents

theorem recordInto_others (g : AggregatorInner) (name : String) (bucket : Bucket)
    (stats : ModelStats) : OtherAgents name g (recordInto g name bucket stats) :=
  OtherAgents.insert rfl

/-! ### Codex steps -/

/-- One operation of Codex on two states that look the same to it. -/
structure CodexMoves (g next other : AggregatorInner) : Prop where
  same : CodexSame next other
  others : OtherAgents agentCodex g next

section Codex

variable {g t : AggregatorInner}

theorem CodexSame.recordInto (same : CodexSame g t) (bucket : Bucket) (stats : ModelStats) :
    CodexMoves g (recordInto g agentCodex bucket stats) (recordInto t agentCodex bucket stats) := by
  refine ⟨⟨?_, same.lastSessions, same.sessions, same.tokenSources, same.pendingSse⟩,
    recordInto_others _ _ _ _⟩
  simp [OtelLogger.recordInto, same.agent]

theorem CodexSame.moveCodexBucketStats (same : CodexSame g t) (source target : Bucket)
    (stats : ModelStats) :
    CodexMoves g (moveCodexBucketStats g source target stats)
      (moveCodexBucketStats t source target stats) := by
  unfold OtelLogger.moveCodexBucketStats
  rw [← same.agent]
  split
  · exact ⟨same, OtherAgents.refl _ _⟩
  · refine ⟨⟨?_, same.lastSessions, same.sessions, same.tokenSources, same.pendingSse⟩,
      OtherAgents.insert rfl⟩
    simp

theorem CodexSame.movePending (same : CodexSame g t) (provider effort : String)
    (entries : List (Bucket × ModelStats)) :
    CodexMoves g (movePending provider effort g entries) (movePending provider effort t entries) := by
  induction entries generalizing g t with
  | nil => exact ⟨same, OtherAgents.refl _ _⟩
  | cons entry entries ih =>
      rw [movePending_cons, movePending_cons]
      split
      · have moved := same.moveCodexBucketStats entry.1
          (pendingDestination provider effort entry.1) entry.2
        have rest := ih moved.same
        exact ⟨rest.same, moved.others.trans rest.others⟩
      · exact ih same

theorem CodexSame.mergeConversationPending (same : CodexSame g t) (provider id effort : String)
    (providerConfirmed : Bool) :
    CodexMoves g (mergeConversationPending g provider id effort providerConfirmed).1
      (mergeConversationPending t provider id effort providerConfirmed).1 := by
  cases found : g.codexPendingSse[id]? with
  | none =>
      have otherFound : t.codexPendingSse[id]? = none := same.pendingSse ▸ found
      simp only [OtelLogger.mergeConversationPending, found, otherFound]
      exact ⟨same, OtherAgents.refl _ _⟩
  | some entries =>
      have otherFound : t.codexPendingSse[id]? = some entries := same.pendingSse ▸ found
      rw [mergeConversationPending_of_some found, mergeConversationPending_of_some otherFound,
        same.pendingSse]
      have moved := same.movePending provider effort entries.toList
      exact ⟨⟨moved.same.agent, moved.same.lastSessions, moved.same.sessions,
        moved.same.tokenSources, rfl⟩, moved.others⟩

theorem CodexSame.mergeLegacyUnknown (same : CodexSame g t) (provider model effort : String) :
    CodexMoves g (mergeLegacyUnknown g provider model effort).1
      (mergeLegacyUnknown t provider model effort).1 := by
  have pending (bucket : Bucket) : sumPendingForBucket g bucket = sumPendingForBucket t bucket := by
    rw [sumPendingForBucket, sumPendingForBucket, same.pendingSse]
  have stays : CodexMoves g g t := ⟨same, OtherAgents.refl _ _⟩
  unfold OtelLogger.mergeLegacyUnknown
  split
  · exact stays
  · dsimp only
    split
    · exact stays
    · rw [← same.agent, ← pending]
      split
      · exact stays
      · split
        · exact same.moveCodexBucketStats _ _ _
        · exact stays

theorem CodexSame.mergeCodexPendingSse (same : CodexSame g t) (provider model id effort : String)
    (providerConfirmed : Bool) :
    CodexMoves g (mergeCodexPendingSse g provider model id effort providerConfirmed).1
      (mergeCodexPendingSse t provider model id effort providerConfirmed).1 := by
  unfold OtelLogger.mergeCodexPendingSse
  split
  · exact same.mergeConversationPending provider id effort providerConfirmed
  · exact same.mergeLegacyUnknown provider model effort

theorem CodexSame.updateCodexSessionWithLast (same : CodexSame g t) (service : String)
    (session : CodexSession) (updateLast : Bool) :
    CodexMoves g (updateCodexSessionWithLast g service session updateLast).1
      (updateCodexSessionWithLast t service session updateLast).1 := by
  have after : sessionAfter g session = sessionAfter t session := by
    rw [sessionAfter, sessionAfter, same.sessions]
  have remembered : CodexSame (rememberSession g service session updateLast)
      (rememberSession t service session updateLast) := by
    refine ⟨same.agent, ?_, ?_, same.tokenSources, same.pendingSse⟩
    · simp only [rememberSession, after, same.lastSessions]
    · simp only [rememberSession, after, same.sessions]
  have merged := remembered.mergeCodexPendingSse (sessionAfter g session).provider
    (sessionAfter g session).model (sessionAfter g session).conversationId
    (sessionAfter g session).effort (sessionAfter g session).providerConfirmed
  rw [updateCodexSessionWithLast_eq, updateCodexSessionWithLast_eq, ← after]
  exact ⟨merged.same, merged.others⟩

theorem CodexSame.updateCodexLastEffort (same : CodexSame g t) (service effort : String) :
    CodexMoves g (updateCodexLastEffort g service effort).1
      (updateCodexLastEffort t service effort).1 := by
  have last : codexLastSession g service = codexLastSession t service := by
    rw [codexLastSession, codexLastSession, same.lastSessions]
  unfold OtelLogger.updateCodexLastEffort
  rw [← last]
  generalize (codexLastSession g service).getD _ = last
  dsimp only
  split
  · exact ⟨same, OtherAgents.refl _ _⟩
  · have remembered : CodexSame
        { g with
          codexLastSessions := g.codexLastSessions.insert service { last with effort := effort } }
        { t with
          codexLastSessions := t.codexLastSessions.insert service { last with effort := effort } } :=
      ⟨same.agent, by simp only [same.lastSessions], same.sessions, same.tokenSources,
        same.pendingSse⟩
    split
    · have merged := remembered.mergeCodexPendingSse last.provider last.model "" effort
        last.providerConfirmed
      exact ⟨merged.same, merged.others⟩
    · exact ⟨remembered, OtherAgents.refl _ _⟩

theorem CodexSame.requestSpan (same : CodexSame g t) (service : String) (attrs : List KeyValue) :
    CodexMoves g (Step.apply g (.requestSpan service attrs)).1
      (Step.apply t (.requestSpan service attrs)).1 := by
  simp only [Step.apply, ingestRequestSpan, if_true, updateCodexEffortFromRequestAttrs]
  cases requestEffort attrs with
  | none => exact ⟨same, OtherAgents.refl _ _⟩
  | some effort =>
      cases conversationId attrs with
      | none => exact same.updateCodexLastEffort service effort
      | some id =>
          have session : spanSession g id effort attrs = spanSession t id effort attrs := by
            rw [spanSession, spanSession, same.sessions]
          simp only [codexLastSession, session, same.lastSessions]
          exact same.updateCodexSessionWithLast service _ _

theorem CodexSame.extract (same : CodexSame g t) (service : String) (log : LogRecord) :
    extractCodexSseResponseCompleted g service log =
      extractCodexSseResponseCompleted t service log := by
  have session : codexSseSession g service log.attributes =
      codexSseSession t service log.attributes := by
    unfold codexSseSession codexLastSession
    rw [same.sessions, same.lastSessions]
  rw [extractCodexSseResponseCompleted, extractCodexSseResponseCompleted, session]

theorem CodexSame.completion (same : CodexSame g t) (service : String) (log : LogRecord) :
    CodexMoves g (ingestSseCompletion service g log).1 (ingestSseCompletion service t log).1 := by
  unfold ingestSseCompletion
  rw [← same.extract]
  split
  · exact ⟨same, OtherAgents.refl _ _⟩
  · rename_i parsed _
    rw [← same.tokenSources]
    dsimp only
    split
    · exact ⟨same, OtherAgents.refl _ _⟩
    · have recorded := same.recordInto parsed.bucket parsed.stats
      cases parsed.pendingConversationId with
      | none =>
          exact ⟨⟨recorded.same.agent, same.lastSessions, same.sessions,
            congrArg (fun sources : ExtTreeMap String CodexTokenSource => sources.insert _ _)
              same.tokenSources, same.pendingSse⟩, recorded.others⟩
      | some id =>
          refine ⟨⟨recorded.same.agent, same.lastSessions, same.sessions,
            congrArg (fun sources : ExtTreeMap String CodexTokenSource => sources.insert _ _)
              same.tokenSources, ?_⟩, recorded.others⟩
          simp only [addPending, OtelLogger.recordInto, same.pendingSse]

theorem CodexSame.metricBucket (same : CodexSame g t) (service : String) (attrs : List KeyValue) :
    codexMetricBucket g service attrs = codexMetricBucket t service attrs := by
  simp only [codexMetricBucket, codexProvider, codexEffort, codexLastSession, same.lastSessions]

theorem CodexSame.turn (same : CodexSame g t) (service : String) (attrs : List KeyValue)
    (value : ℕ) (stats : ModelStats) :
    CodexMoves g (recordCodexTurn service attrs value stats g).1
      (recordCodexTurn service attrs value stats t).1 := by
  unfold recordCodexTurn
  split
  · exact ⟨same, OtherAgents.refl _ _⟩
  · rw [← same.metricBucket]
    exact same.recordInto _ stats

theorem CodexSame.codexTokens (same : CodexSame g t) (service : String)
    (dp : HistogramDataPoint) :
    CodexMoves g (ingestCodexTokenPoint service g dp).1 (ingestCodexTokenPoint service t dp).1 := by
  have stays : CodexMoves g g t := ⟨same, OtherAgents.refl _ _⟩
  unfold ingestCodexTokenPoint
  rw [← same.tokenSources, ← same.metricBucket]
  dsimp only
  split
  · exact stays
  · split
    · exact stays
    · split
      · exact stays
      · rename_i stats _ _
        have recorded := same.recordInto (codexMetricBucket g service dp.attributes) stats
        exact ⟨⟨recorded.same.agent, same.lastSessions, same.sessions,
          congrArg (fun sources : ExtTreeMap String CodexTokenSource => sources.insert _ _)
            same.tokenSources, same.pendingSse⟩, recorded.others⟩

theorem CodexSame.apply (same : CodexSame g t) {step : Step} (codex : step.isClaude = false) :
    CodexMoves g (step.apply g).1 (step.apply t).1 := by
  cases step with
  | session service started => exact same.updateCodexSessionWithLast service started true
  | completion service log => exact same.completion service log
  | requestSpan service attrs => exact same.requestSpan service attrs
  | codexTokens service dp => exact same.codexTokens service dp
  | turnCount service dp => exact same.turn service _ _ _
  | duration service dp => exact same.turn service _ _ _
  | _ => simp [Step.isClaude] at codex

end Codex

/-! ### Claude steps -/

structure ClaudeMoves (g next other : AggregatorInner) : Prop where
  same : ClaudeSame next other
  others : OtherAgents agentClaude g next

section Claude

variable {g t : AggregatorInner}

theorem ClaudeSame.recordInto (same : ClaudeSame g t) (bucket : Bucket) (stats : ModelStats) :
    ClaudeMoves g (recordInto g agentClaude bucket stats)
      (recordInto t agentClaude bucket stats) := by
  refine ⟨⟨?_, same.canonicalModels, same.metricModels, same.usageSources, same.metricUsage⟩,
    recordInto_others _ _ _ _⟩
  simp [OtelLogger.recordInto, same.agent]

theorem ClaudeSame.subtractFrom (same : ClaudeSame g t) (bucket : Bucket) (stats : ModelStats) :
    ClaudeMoves g (subtractFrom g agentClaude bucket stats)
      (subtractFrom t agentClaude bucket stats) := by
  unfold OtelLogger.subtractFrom
  rw [← same.agent]
  split
  · exact ⟨same, OtherAgents.refl _ _⟩
  · refine ⟨⟨?_, same.canonicalModels, same.metricModels, same.usageSources, same.metricUsage⟩,
      OtherAgents.insert rfl⟩
    simp

theorem ClaudeSame.cancelMetricUsage (same : ClaudeSame g t)
    (perBucket : List (Bucket × ModelStats)) :
    ClaudeMoves g (cancelMetricUsage g perBucket) (cancelMetricUsage t perBucket) := by
  induction perBucket generalizing g t with
  | nil => exact ⟨same, OtherAgents.refl _ _⟩
  | cons entry perBucket ih =>
      have subtracted := same.subtractFrom entry.1 entry.2
      have rest := ih subtracted.same
      exact ⟨rest.same, subtracted.others.trans rest.others⟩

theorem ClaudeSame.cancelMetricsOf (same : ClaudeSame g t) (sourceKey : ClaudeUsageKey) :
    ClaudeMoves g (cancelMetricsOf g sourceKey) (cancelMetricsOf t sourceKey) := by
  have erased : ClaudeSame { g with claudeMetricUsage := g.claudeMetricUsage.erase sourceKey }
      { t with claudeMetricUsage := t.claudeMetricUsage.erase sourceKey } :=
    ⟨same.agent, same.canonicalModels, same.metricModels, same.usageSources,
      by simp only [same.metricUsage]⟩
  unfold OtelLogger.cancelMetricsOf
  by_cases sourced : g.claudeUsageSources[sourceKey]? = some .metrics
  · have otherSourced := sourced
    rw [same.usageSources] at otherSourced
    rw [if_pos sourced, if_pos otherSourced]
    cases found : g.claudeMetricUsage[sourceKey]? with
    | none =>
        have otherFound : t.claudeMetricUsage[sourceKey]? = none := same.metricUsage ▸ found
        rw [otherFound]
        exact ⟨same, OtherAgents.refl _ _⟩
    | some perBucket =>
        have otherFound : t.claudeMetricUsage[sourceKey]? = some perBucket :=
          same.metricUsage ▸ found
        rw [otherFound]
        have cancelled := erased.cancelMetricUsage perBucket.toList
        exact ⟨cancelled.same, cancelled.others⟩
  · have otherSourced := sourced
    rw [same.usageSources] at otherSourced
    rw [if_neg sourced, if_neg otherSourced]
    exact ⟨same, OtherAgents.refl _ _⟩

theorem ClaudeSame.recordClaudeLogUsage (same : ClaudeSame g t) (bucket : Bucket)
    (stats : ModelStats) :
    ClaudeMoves g (recordClaudeLogUsage g bucket stats) (recordClaudeLogUsage t bucket stats) := by
  by_cases usage : stats.hasUsage = true
  · have cancelled := same.cancelMetricsOf bucket.usageKey
    have recorded := cancelled.same.recordInto bucket stats
    rw [recordClaudeLogUsage_of_usage usage, recordClaudeLogUsage_of_usage usage]
    refine ⟨⟨recorded.same.agent, recorded.same.canonicalModels, recorded.same.metricModels, ?_,
      recorded.same.metricUsage⟩, cancelled.others.trans recorded.others⟩
    simp only [cancelled.same.usageSources]
  · rw [OtelLogger.recordClaudeLogUsage, OtelLogger.recordClaudeLogUsage, if_neg usage,
      if_neg usage]
    exact ⟨same, OtherAgents.refl _ _⟩

theorem ClaudeSame.ingestClaudeLog (same : ClaudeSame g t) (bucket : Bucket)
    (requestStats usageStats : ModelStats) :
    ClaudeMoves g (ingestClaudeLog g bucket requestStats usageStats)
      (ingestClaudeLog t bucket requestStats usageStats) := by
  have requested := same.recordInto bucket requestStats
  have used := requested.same.recordClaudeLogUsage bucket usageStats
  exact ⟨used.same, requested.others.trans used.others⟩

theorem ClaudeSame.recordClaudeMetricUsage (same : ClaudeSame g t) (bucket : Bucket)
    (stats : ModelStats) :
    ClaudeMoves g (recordClaudeMetricUsage g bucket stats).1
      (recordClaudeMetricUsage t bucket stats).1 := by
  by_cases counted : stats.hasUsage = true ∧ g.claudeUsageSources[bucket.usageKey]? ≠ some .logs
  · have otherCounted := counted
    rw [same.usageSources] at otherCounted
    have recorded := same.recordInto bucket stats
    rw [recordClaudeMetricUsage_of_counted counted,
      recordClaudeMetricUsage_of_counted otherCounted]
    refine ⟨⟨recorded.same.agent, recorded.same.canonicalModels, recorded.same.metricModels, ?_,
      ?_⟩, recorded.others⟩
    · simp only [same.usageSources]
    · simp only [same.metricUsage]
  · have otherCounted := counted
    rw [same.usageSources] at otherCounted
    rw [recordClaudeMetricUsage_of_ignored counted,
      recordClaudeMetricUsage_of_ignored otherCounted]
    exact ⟨same, OtherAgents.refl _ _⟩

theorem ClaudeSame.foldBare (same : ClaudeSame g t) (full : String) :
    ClaudeMoves g (foldBare g full) (foldBare t full) := by
  have canonical : (OtelLogger.foldBare g full).claudeCanonicalModels =
      (OtelLogger.foldBare t full).claudeCanonicalModels := by
    simp only [OtelLogger.foldBare, same.canonicalModels]
  refine ⟨⟨?_, canonical, same.metricModels, same.usageSources, same.metricUsage⟩, ?_⟩
  · unfold OtelLogger.foldBare
    rw [← same.agent]
    cases found : g.agents[agentClaude]? with
    | none => exact same.agent
    | some agentStats => simp
  · cases found : g.agents[agentClaude]? with
    | none =>
        have unchanged : (OtelLogger.foldBare g full).agents = g.agents := by
          simp only [OtelLogger.foldBare, found]
        intro other _
        rw [unchanged]
    | some agentStats =>
        apply OtherAgents.insert
        simp only [OtelLogger.foldBare, found]
        rfl

theorem ClaudeSame.reportModel (same : ClaudeSame g t) (full : String) :
    ClaudeMoves g (reportModel g full) (reportModel t full) := by
  refine ⟨⟨same.agent, same.canonicalModels, ?_, same.usageSources, same.metricUsage⟩,
    OtherAgents.refl _ _⟩
  simp only [OtelLogger.reportModel, same.metricModels]

theorem registerCanonicalClaudeModel_eq (g : AggregatorInner) {full : String}
    (named : full ≠ "") :
    registerCanonicalClaudeModel g full =
      let reported := reportModel g full
      if bareModel full = "" ∨ bareModel full = full then
        { reported with
          claudeCanonicalModels := reported.claudeCanonicalModels.insertIfNew full full }
      else if reported.claudeMetricModels.contains (bareModel full) then reported
      else if reported.claudeCanonicalModels[bareModel full]? = some full then reported
      else foldBare reported full := by
  simp only [registerCanonicalClaudeModel, if_neg named]
  rfl

theorem ClaudeSame.registerCanonicalClaudeModel (same : ClaudeSame g t) {full : String}
    (named : full ≠ "") :
    ClaudeMoves g (registerCanonicalClaudeModel g full)
      (registerCanonicalClaudeModel t full) := by
  have reported := same.reportModel full
  have folded := reported.same.foldBare full
  rw [registerCanonicalClaudeModel_eq g named, registerCanonicalClaudeModel_eq t named]
  dsimp only
  rw [← reported.same.metricModels]
  simp only [← reported.same.canonicalModels]
  split
  · exact ⟨⟨reported.same.agent, rfl, rfl, reported.same.usageSources,
      reported.same.metricUsage⟩, reported.others⟩
  · split
    · exact reported
    · split
      · exact reported
      · exact ⟨folded.same, folded.others⟩

theorem ClaudeSame.point (same : ClaudeSame g t) (attrs : List KeyValue) (stats : ModelStats) :
    ClaudeMoves g
      (OtelLogger.recordClaudeMetricUsage (claudeMetricModel g attrs).1
        (claudeMetricBucket attrs (claudeMetricModel g attrs).2) stats).1
      (OtelLogger.recordClaudeMetricUsage (claudeMetricModel t attrs).1
        (claudeMetricBucket attrs (claudeMetricModel t attrs).2) stats).1 := by
  have registered := same.registerCanonicalClaudeModel
    (nonEmpty_ne ((stringAttr attrs "model").getD ""))
  have measured := registered.same.recordClaudeMetricUsage
    (claudeMetricBucket attrs (nonEmpty ((stringAttr attrs "model").getD ""))) stats
  rw [claudeMetricModel_fst, claudeMetricModel_fst, claudeMetricModel_snd, claudeMetricModel_snd]
  exact ⟨measured.same, registered.others.trans measured.others⟩

theorem ClaudeSame.extract (same : ClaudeSame g t) (log : LogRecord) :
    extractClaudeApiRequestMeta g log = extractClaudeApiRequestMeta t log := by
  simp only [extractClaudeApiRequestMeta, canonicalClaudeModel, same.metricModels,
    same.canonicalModels]

theorem ClaudeSame.apply (same : ClaudeSame g t) {step : Step} (claude : step.isClaude = true) :
    ClaudeMoves g (step.apply g).1 (step.apply t).1 := by
  cases step with
  | claudeLog log =>
      simp only [Step.apply, Step.ingestClaudeApiRequest, ← same.extract log]
      cases extractClaudeApiRequestMeta g log with
      | none => exact ⟨same, OtherAgents.refl _ _⟩
      | some parsed => exact same.ingestClaudeLog _ _ _
  | claudeTokens dp =>
      simp only [Step.apply]
      rw [ingestClaudeTokenPoint_eq, ingestClaudeTokenPoint_eq]
      exact same.point dp.attributes _
  | claudeCost dp =>
      rw [Step.apply, Step.apply, ingestClaudeCostPoint_eq, ingestClaudeCostPoint_eq]
      exact same.point dp.attributes (claudeCostStats dp)
  | _ => simp [Step.isClaude] at claude

end Claude

/-! ### Two runs -/

theorem Step.unwinding_claude :
    Unwinding (fun g step => (Step.apply g step).1) (fun _ => True) (·.isClaude = true)
      ClaudeSame where
  respects {g t step} _ codex same := by
    have codex : step.isClaude = false := by simpa using codex
    have only := step.apply_codexOnly codex g
    have others := ((CodexSame.refl g).apply codex).others
    exact ⟨(others agentClaude agentClaude_ne_agentCodex).trans same.agent,
      only.canonicalModels.trans same.canonicalModels, only.metricModels.trans same.metricModels,
      only.usageSources.trans same.usageSources, only.metricUsage.trans same.metricUsage⟩
  consistent _ claude same := (same.apply claude).same

theorem Step.unwinding_codex :
    Unwinding (fun g step => (Step.apply g step).1) (fun _ => True) (·.isClaude = false)
      CodexSame where
  respects {g t step} _ claude same := by
    have claude : step.isClaude = true := by simpa using claude
    have only := step.apply_claudeOnly claude g
    have others := ((ClaudeSame.refl g).apply claude).others
    exact ⟨(others agentCodex (Ne.symm agentClaude_ne_agentCodex)).trans same.agent,
      only.lastSessions.trans same.lastSessions, only.sessions.trans same.sessions,
      only.tokenSources.trans same.tokenSources, only.pendingSse.trans same.pendingSse⟩
  consistent _ codex same := (same.apply codex).same

namespace Aggregator

theorem runSteps_eq_foldl (steps : List Step) :
    runSteps steps = steps.foldl (fun g step => (step.apply g).1) new := by
  induction steps using List.reverseRecOn with
  | nil => rfl
  | append_singleton steps step ih =>
      rw [runSteps_concat, List.foldl_append, ih]
      rfl

theorem runSteps_claude {first second : List Step}
    (visible : first.filter (·.isClaude = true) = second.filter (·.isClaude = true)) :
    ClaudeSame (runSteps first) (runSteps second) := by
  have trans {s t u : AggregatorInner} (left : ClaudeSame s u) (right : ClaudeSame t u) :
      ClaudeSame s t :=
    ⟨left.agent.trans right.agent.symm, left.canonicalModels.trans right.canonicalModels.symm,
      left.metricModels.trans right.metricModels.symm,
      left.usageSources.trans right.usageSources.symm,
      left.metricUsage.trans right.metricUsage.symm⟩
  rw [runSteps_eq_foldl, runSteps_eq_foldl]
  exact Step.unwinding_claude.run_eq trans (ClaudeSame.refl _) (fun _ _ => trivial)
    (fun _ _ => trivial) visible

theorem runSteps_codex {first second : List Step}
    (visible : first.filter (·.isClaude = false) = second.filter (·.isClaude = false)) :
    CodexSame (runSteps first) (runSteps second) := by
  have trans {s t u : AggregatorInner} (left : CodexSame s u) (right : CodexSame t u) :
      CodexSame s t :=
    ⟨left.agent.trans right.agent.symm, left.lastSessions.trans right.lastSessions.symm,
      left.sessions.trans right.sessions.symm, left.tokenSources.trans right.tokenSources.symm,
      left.pendingSse.trans right.pendingSse.symm⟩
  rw [runSteps_eq_foldl, runSteps_eq_foldl]
  exact Step.unwinding_codex.run_eq trans (CodexSame.refl _) (fun _ _ => trivial)
    (fun _ _ => trivial) visible

end Aggregator

/-! ### Requests of one agent -/

def Message.service : Message → String
  | .log service _ => service
  | .spanEvent service _ => service
  | .requestSpan service _ _ => service
  | .numberPoint service _ _ _ => service
  | .histogramPoint service _ _ _ => service

/-- The service of a step; Claude's steps are those of its one service. -/
def Step.service : Step → String
  | .session service _ => service
  | .completion service _ => service
  | .requestSpan service _ => service
  | .codexTokens service _ => service
  | .turnCount service _ => service
  | .duration service _ => service
  | _ => serviceClaude

theorem Message.steps_service {message : Message} {step : Step} (member : step ∈ message.steps) :
    step.service = message.service ∧
      (step.isClaude = true ∧ message.service = serviceClaude ∨
        step.isClaude = false ∧ isCodexService message.service = true) := by
  cases message with
  | log service record =>
      simp only [Message.steps] at member
      split at member
      · rename_i claude
        obtain rfl := List.mem_singleton.mp member
        exact ⟨claude.symm, Or.inl ⟨rfl, claude⟩⟩
      · split at member
        · rename_i codex
          simp only [List.mem_append, List.mem_map, Option.mem_toList,
            List.mem_singleton] at member
          obtain ⟨started, _, rfl⟩ | rfl := member <;> exact ⟨rfl, Or.inr ⟨rfl, codex⟩⟩
        · simp at member
  | spanEvent service event =>
      rw [Message.steps, List.mem_ite_nil_right] at member
      obtain ⟨matched, member⟩ := member
      obtain ⟨started, _, rfl⟩ := List.mem_map.mp member
      exact ⟨rfl, Or.inr ⟨rfl, (Bool.and_eq_true_iff.mp matched).1⟩⟩
  | requestSpan service name attrs =>
      rw [Message.steps, List.mem_ite_nil_right] at member
      obtain ⟨matched, member⟩ := member
      obtain rfl := List.mem_singleton.mp member
      exact ⟨rfl, Or.inr ⟨rfl, (Bool.and_eq_true_iff.mp matched).1⟩⟩
  | numberPoint service metric temporality dp =>
      simp only [Message.steps] at member
      split at member
      · rename_i claude
        split at member
        · rw [List.mem_ite_nil_right, List.mem_singleton] at member
          obtain ⟨_, rfl⟩ := member
          exact ⟨claude.symm, Or.inl ⟨rfl, claude⟩⟩
        · rw [List.mem_ite_nil_right, List.mem_singleton] at member
          obtain ⟨_, rfl⟩ := member
          exact ⟨claude.symm, Or.inl ⟨rfl, claude⟩⟩
        · simp at member
      · split at member
        · rename_i codex
          split at member
          · rw [List.mem_ite_nil_right, List.mem_singleton] at member
            obtain ⟨_, rfl⟩ := member
            exact ⟨rfl, Or.inr ⟨rfl, codex⟩⟩
          · simp at member
        · simp at member
  | histogramPoint service metric temporality dp =>
      simp only [Message.steps] at member
      split at member
      · rename_i matched
        split at member
        · rw [List.mem_ite_nil_right, List.mem_singleton] at member
          obtain ⟨_, rfl⟩ := member
          exact ⟨rfl, Or.inr ⟨rfl, matched.2⟩⟩
        · rw [List.mem_ite_nil_right, List.mem_singleton] at member
          obtain ⟨_, rfl⟩ := member
          exact ⟨rfl, Or.inr ⟨rfl, matched.2⟩⟩
        · simp at member
      · simp at member

theorem filter_flatMap_eq {α β : Type*} {items : List α} {parts : α → List β}
    {keepItem : α → Bool} {keep : β → Bool}
    (own : ∀ item, ∀ part ∈ parts item, keep part = keepItem item) :
    (items.filter keepItem).flatMap parts = (items.flatMap parts).filter keep := by
  induction items with
  | nil => rfl
  | cons item items ih =>
      rw [List.flatMap_cons, List.filter_append, ← ih]
      by_cases kept : keepItem item = true
      · have whole : (parts item).filter keep = parts item :=
          List.filter_eq_self.mpr fun part member => (own item part member).trans kept
        rw [List.filter_cons_of_pos kept, List.flatMap_cons, whole]
      · have none : (parts item).filter keep = [] :=
          List.filter_eq_nil_iff.mpr fun part member => by rwa [own item part member]
        rw [List.filter_cons_of_neg kept, none, List.nil_append]

/-- The request without the resources of the services that are not chosen. -/
def Call.ofServices (call : Call) (chosen : String → Bool) : Call :=
  match call with
  | .logs req => .logs
      { resourceLogs := req.resourceLogs.filter fun item => chosen (serviceName item.resource) }
  | .traces req => .traces
      { resourceSpans := req.resourceSpans.filter fun item => chosen (serviceName item.resource) }
  | .metrics req => .metrics
      { resourceMetrics :=
          req.resourceMetrics.filter fun item => chosen (serviceName item.resource) }

theorem Call.ofServices_messages (call : Call) (chosen : String → Bool) :
    (call.ofServices chosen).messages =
      call.messages.filter fun message => chosen message.service := by
  cases call with
  | logs req =>
      refine filter_flatMap_eq fun resourceLogs message member => ?_
      obtain ⟨scopeLogs, _, member⟩ := List.mem_flatMap.mp member
      obtain ⟨record, _, rfl⟩ := List.mem_map.mp member
      rfl
  | traces req =>
      refine filter_flatMap_eq fun resourceSpans message member => ?_
      obtain ⟨scopeSpans, _, member⟩ := List.mem_flatMap.mp member
      obtain ⟨span, _, member⟩ := List.mem_flatMap.mp member
      simp only [Span.messages, List.mem_append, List.mem_map, List.mem_singleton] at member
      obtain ⟨event, _, rfl⟩ | rfl := member <;> rfl
  | metrics req =>
      refine filter_flatMap_eq fun resourceMetrics message member => ?_
      obtain ⟨scopeMetrics, _, member⟩ := List.mem_flatMap.mp member
      obtain ⟨metric, _, member⟩ := List.mem_flatMap.mp member
      unfold Metric.messages at member
      split at member
      · obtain ⟨dp, _, rfl⟩ := List.mem_map.mp member
        rfl
      · obtain ⟨dp, _, rfl⟩ := List.mem_map.mp member
        rfl
      · simp at member

/-- The request without the resources of other services than Claude's. -/
def Call.ofClaude (call : Call) : Call :=
  call.ofServices fun service => service = serviceClaude

def Call.ofCodex (call : Call) : Call :=
  call.ofServices isCodexService

theorem Call.ofServices_visible {chosen : String → Bool} {visible : Step → Bool}
    (unchosen : ∀ message : Message, ∀ step ∈ message.steps, visible step = true →
      chosen message.service = true) (call : Call) :
    (call.ofServices chosen).steps.filter visible = call.steps.filter visible := by
  rw [Call.steps, Call.steps, ofServices_messages]
  induction call.messages with
  | nil => rfl
  | cons message messages ih =>
      rw [List.flatMap_cons, List.filter_append, ← ih]
      by_cases kept : chosen message.service = true
      · rw [List.filter_cons_of_pos (by exact kept), List.flatMap_cons, List.filter_append]
      · have none : message.steps.filter visible = [] :=
          List.filter_eq_nil_iff.mpr fun step member seen =>
            kept (unchosen message step member seen)
        rw [List.filter_cons_of_neg (by exact kept), none, List.nil_append]

theorem Message.steps_claude (message : Message) (step : Step) (member : step ∈ message.steps)
    (claude : decide (step.isClaude = true) = true) :
    decide (message.service = serviceClaude) = true := by
  obtain ⟨_, own⟩ | ⟨codex, _⟩ := (Message.steps_service member).2
  · exact decide_eq_true own
  · simp [codex] at claude

theorem Message.steps_codex (message : Message) (step : Step) (member : step ∈ message.steps)
    (codex : decide (step.isClaude = false) = true) : isCodexService message.service = true := by
  obtain ⟨claude, _⟩ | ⟨_, own⟩ := (Message.steps_service member).2
  · simp [claude] at codex
  · exact own

theorem Call.ofClaude_visible (call : Call) :
    call.ofClaude.steps.filter (·.isClaude = true) = call.steps.filter (·.isClaude = true) :=
  call.ofServices_visible Message.steps_claude

theorem Call.ofCodex_visible (call : Call) :
    call.ofCodex.steps.filter (·.isClaude = false) = call.steps.filter (·.isClaude = false) :=
  call.ofServices_visible Message.steps_codex

theorem Call.codex_hidden {call : Call} (codex : call.ofCodex = call) :
    call.steps.filter (·.isClaude = true) = [] := by
  rw [List.filter_eq_nil_iff]
  intro step member claude
  obtain ⟨message, sent, decoded⟩ := List.mem_flatMap.mp member
  rw [← codex, ofCodex, ofServices_messages] at sent
  have service := of_decide_eq_true (Message.steps_claude message step decoded claude)
  exact ne_serviceClaude (List.mem_filter.mp sent).2 service

theorem Call.claude_hidden {call : Call} (claude : call.ofClaude = call) :
    call.steps.filter (·.isClaude = false) = [] := by
  rw [List.filter_eq_nil_iff]
  intro step member codex
  obtain ⟨message, sent, decoded⟩ := List.mem_flatMap.mp member
  rw [← claude, ofClaude, ofServices_messages] at sent
  have service := of_decide_eq_true (List.mem_filter.mp sent).2
  exact ne_serviceClaude (Message.steps_codex message step decoded codex) service

theorem filter_flatMap_congr {α β : Type*} {items : List α} {first second : α → List β}
    {keep : β → Bool} (same : ∀ item ∈ items, (first item).filter keep = (second item).filter keep) :
    (items.flatMap first).filter keep = (items.flatMap second).filter keep := by
  rw [List.filter_flatMap, List.filter_flatMap]
  exact List.flatMap_congr same

namespace Aggregator

theorem run_claude {first second : List Call}
    (visible : (first.flatMap Call.steps).filter (·.isClaude = true) =
      (second.flatMap Call.steps).filter (·.isClaude = true)) :
    (run first).agents[agentClaude]? = (run second).agents[agentClaude]? := by
  rw [run_eq, run_eq]
  exact (runSteps_claude visible).agent

theorem run_codex {first second : List Call}
    (visible : (first.flatMap Call.steps).filter (·.isClaude = false) =
      (second.flatMap Call.steps).filter (·.isClaude = false)) :
    (run first).agents[agentCodex]? = (run second).agents[agentCodex]? := by
  rw [run_eq, run_eq]
  exact (runSteps_codex visible).agent

theorem agents_interleaved {stream : List (Call ⊕ Call)}
    (claude : ∀ call, Sum.inl call ∈ stream → call.ofClaude = call)
    (codex : ∀ call, Sum.inr call ∈ stream → call.ofCodex = call) :
    (run (stream.map (Sum.elim id id))).agents[agentClaude]? =
        (run (stream.filterMap Sum.getLeft?)).agents[agentClaude]? ∧
      (run (stream.map (Sum.elim id id))).agents[agentCodex]? =
        (run (stream.filterMap Sum.getRight?)).agents[agentCodex]? := by
  constructor
  · apply run_claude
    rw [List.flatMap_map, List.filterMap_eq_flatMap_toList, List.flatMap_assoc]
    refine filter_flatMap_congr fun sent member => ?_
    cases sent with
    | inl call => simp
    | inr call => simpa using Call.codex_hidden (codex call member)
  · apply run_codex
    rw [List.flatMap_map, List.filterMap_eq_flatMap_toList, List.flatMap_assoc]
    refine filter_flatMap_congr fun sent member => ?_
    cases sent with
    | inl call => simpa using Call.claude_hidden (claude call member)
    | inr call => simp

/-- Each agent counts what it counts without the other's telemetry, and an interleaving of a
Claude stream and a Codex stream leaves it as its own stream does. -/
theorem agents_separate (calls : List Call) :
    (run calls).agents[agentClaude]? = (run (calls.map Call.ofClaude)).agents[agentClaude]? ∧
      (run calls).agents[agentCodex]? = (run (calls.map Call.ofCodex)).agents[agentCodex]? ∧
      ∀ stream : List (Call ⊕ Call),
        (∀ call, Sum.inl call ∈ stream → call.ofClaude = call) →
        (∀ call, Sum.inr call ∈ stream → call.ofCodex = call) →
        (run (stream.map (Sum.elim id id))).agents[agentClaude]? =
            (run (stream.filterMap Sum.getLeft?)).agents[agentClaude]? ∧
          (run (stream.map (Sum.elim id id))).agents[agentCodex]? =
            (run (stream.filterMap Sum.getRight?)).agents[agentCodex]? := by
  refine ⟨?_, ?_, fun stream claude codex => agents_interleaved claude codex⟩
  · apply run_claude
    rw [List.flatMap_map]
    exact filter_flatMap_congr fun call _ => call.ofClaude_visible.symm
  · apply run_codex
    rw [List.flatMap_map]
    exact filter_flatMap_congr fun call _ => call.ofCodex_visible.symm

theorem agents_separate_requests :
    let claude := (apiRequestMessage "opus" 5).call
    let codex := (codexTokenMessage "gpt" 7).call
    (run [codex, claude, codex]).agents[agentClaude]? = (run [claude]).agents[agentClaude]? ∧
      (run [codex, claude, codex]).agents[agentCodex]? =
        (run [codex, codex]).agents[agentCodex]? := by
  refine (agents_separate []).2.2 [.inr _, .inl _, .inr _] ?_ ?_
  · simp only [List.mem_cons, Sum.inl.injEq, reduceCtorEq, false_or, or_false, List.not_mem_nil]
    rintro call rfl
    rfl
  · simp only [List.mem_cons, Sum.inr.injEq, reduceCtorEq, or_false, false_or, or_self,
      List.not_mem_nil]
    rintro call rfl
    rfl

end Aggregator

end OtelLogger
