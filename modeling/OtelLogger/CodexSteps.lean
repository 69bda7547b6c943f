import OtelLogger.CodexLedger

/-!
Every step as an operation on the books. The state reached by a run whose samples fit keeps the
books that the same run writes: this is the simulation that the theorems about Codex use.
-/

namespace OtelLogger

open Std (ExtTreeMap TransOrd LawfulEqOrd)
open Accounting

def sessionAfter (g : AggregatorInner) (session : CodexSession) : CodexSession :=
  if session.conversationId ≠ "" then
    completeSession g.codexSessions[session.conversationId]? session
  else session

def rememberSession (g : AggregatorInner) (service : String) (session : CodexSession)
    (updateLast : Bool) : AggregatorInner :=
  let session := sessionAfter g session
  { g with
    codexSessions :=
      if session.conversationId ≠ "" then
        g.codexSessions.insert session.conversationId session
      else g.codexSessions
    codexLastSessions :=
      if updateLast then g.codexLastSessions.insert service session else g.codexLastSessions }

theorem sessionAfter_id (g : AggregatorInner) (session : CodexSession) :
    (sessionAfter g session).conversationId = session.conversationId := by
  unfold sessionAfter completeSession
  split
  · split <;> rfl
  · rfl

theorem updateCodexSessionWithLast_eq (g : AggregatorInner) (service : String)
    (session : CodexSession) (updateLast : Bool) :
    updateCodexSessionWithLast g service session updateLast =
      mergeCodexPendingSse (rememberSession g service session updateLast)
        (sessionAfter g session).provider (sessionAfter g session).model
        (sessionAfter g session).conversationId (sessionAfter g session).effort
        (sessionAfter g session).providerConfirmed := by
  have after : (if session.conversationId ≠ "" then
      completeSession g.codexSessions[session.conversationId]? session else session) =
    sessionAfter g session := rfl
  simp only [updateCodexSessionWithLast, rememberSession, after]
  by_cases identified : (sessionAfter g session).conversationId ≠ ""
  · cases updateLast <;> simp only [if_pos identified] <;> rfl
  · cases updateLast <;> simp only [if_neg identified] <;> rfl

namespace CodexBooks

noncomputable def merge (books : CodexBooks) (provider model id effort : String)
    (providerConfirmed : Bool) : CodexBooks :=
  if id ≠ "" then books.resolve id provider effort providerConfirmed
  else books.assignEffort provider model effort

noncomputable def mergeSession (books : CodexBooks) (session : CodexSession) : CodexBooks :=
  books.merge session.provider session.model session.conversationId session.effort
    session.providerConfirmed

/-- An accepted completion is pending for its conversation, settled for it, or unassigned. -/
noncomputable def complete (books : CodexBooks) (id : Option String)
    (parsed : CodexSseExtraction) : CodexBooks :=
  match id with
  | none => books.addUnassigned parsed.bucket parsed.stats
  | some id =>
      if parsed.pendingConversationId = some id then
        books.addPending id parsed.bucket parsed.stats
      else books.addSettled id parsed.bucket parsed.stats

/-- A metric point of a positive value belongs to no conversation. -/
noncomputable def countPoint (books : CodexBooks) (bucket : Bucket) (value : ℕ)
    (stats : ModelStats) : CodexBooks :=
  if value = 0 then books else books.addUnassigned bucket stats

end CodexBooks

/-- The session that a request span with a conversation stands for, if it carries an effort. -/
noncomputable def requestSpanBooks (g : AggregatorInner) (books : CodexBooks) (service : String)
    (attrs : List KeyValue) : CodexBooks :=
  match requestEffort attrs with
  | none => books
  | some effort =>
      match conversationId attrs with
      | some id => books.mergeSession (sessionAfter g (spanSession g id effort attrs))
      | none =>
          let last := (codexLastSession g service).getD
            { conversationId := "", provider := providerOpenai, model := "", effort := "",
              providerConfirmed := false }
          if last.effort = effort ∨ last.conversationId ≠ "" then books
          else books.assignEffort last.provider last.model effort

noncomputable def Step.books (g : AggregatorInner) (books : CodexBooks) : Step → CodexBooks
  | .claudeLog _ => books
  | .claudeTokens _ => books
  | .claudeCost _ => books
  | .session _ started => books.mergeSession (sessionAfter g started)
  | .completion service log =>
      match extractCodexSseResponseCompleted g service log with
      | none => books
      | some parsed =>
          if g.codexTokenSources[codexTokenSourceKey parsed.bucket.model]? = some .metrics then
            books
          else books.complete (conversationId log.attributes) parsed
  | .requestSpan service attrs => requestSpanBooks g books service attrs
  | .codexTokens service dp =>
      if g.codexTokenSources[codexTokenSourceKey (codexMetricModel dp.attributes)]? =
          some .logs then books
      else
        match codexTokenStats dp with
        | none => books
        | some stats =>
            books.countPoint (codexMetricBucket g service dp.attributes) (histogramSumAsU64 dp)
              stats
  | .turnCount service dp =>
      books.countPoint (codexMetricBucket g service dp.attributes) (numberValueAsU64 dp)
        { requestCount := numberValueAsU64 dp }
  | .duration service dp =>
      books.countPoint (codexMetricBucket g service dp.attributes) (histogramSumAsU64 dp)
        { durationMs := histogramSumAsU64 dp }

/-! ### The simulation -/

section Simulation

variable {g : AggregatorInner} {books : CodexBooks}

theorem mergeCodexPendingSse_only (g : AggregatorInner) (provider model id effort : String)
    (providerConfirmed : Bool) :
    BucketsOnly g (mergeCodexPendingSse g provider model id effort providerConfirmed).1 := by
  unfold mergeCodexPendingSse
  split
  · exact mergeConversationPending_only g provider id effort providerConfirmed
  · exact mergeLegacyUnknown_only g provider model effort

theorem CodexTracks.merge (tracks : CodexTracks g books) (provider model id effort : String)
    (providerConfirmed : Bool) :
    CodexTracks (mergeCodexPendingSse g provider model id effort providerConfirmed).1
      (books.merge provider model id effort providerConfirmed) := by
  unfold mergeCodexPendingSse CodexBooks.merge
  split
  · exact tracks.mergeConversationPending provider id effort providerConfirmed
  · exact tracks.mergeLegacyUnknown provider model effort

theorem CodexTracks.rememberSession (tracks : CodexTracks g books) (service : String)
    (session : CodexSession) (updateLast : Bool) :
    CodexTracks (rememberSession g service session updateLast) books :=
  tracks.congr rfl rfl

theorem CodexTracks.updateCodexSessionWithLast (tracks : CodexTracks g books)
    (service : String) (session : CodexSession) (updateLast : Bool) :
    CodexTracks (updateCodexSessionWithLast g service session updateLast).1
      (books.mergeSession (sessionAfter g session)) := by
  rw [updateCodexSessionWithLast_eq]
  exact (tracks.rememberSession service session updateLast).merge _ _ _ _ _

theorem updateCodexSessionWithLast_codexOnly (g : AggregatorInner) (service : String)
    (session : CodexSession) (updateLast : Bool) :
    CodexOnly g (updateCodexSessionWithLast g service session updateLast).1 := by
  rw [updateCodexSessionWithLast_eq]
  have remembered : CodexOnly g (OtelLogger.rememberSession g service session updateLast) :=
    ⟨fun _ _ => rfl, rfl, rfl, rfl, rfl⟩
  exact remembered.trans (mergeCodexPendingSse_only _ _ _ _ _ _).toCodexOnly

theorem CodexTracks.updateCodexLastEffort (tracks : CodexTracks g books)
    (service effort : String) :
    CodexTracks (updateCodexLastEffort g service effort).1
      (let last := (codexLastSession g service).getD
        { conversationId := "", provider := providerOpenai, model := "", effort := "",
          providerConfirmed := false }
      if last.effort = effort ∨ last.conversationId ≠ "" then books
      else books.assignEffort last.provider last.model effort) := by
  unfold OtelLogger.updateCodexLastEffort
  generalize (codexLastSession g service).getD _ = last
  dsimp only
  by_cases same : last.effort = effort
  · rw [if_pos same, if_pos (Or.inl same)]
    exact tracks
  · rw [if_neg same]
    have remembered : CodexTracks
        { g with
          codexLastSessions := g.codexLastSessions.insert service { last with effort := effort } }
        books := tracks.congr rfl rfl
    by_cases anonymous : last.conversationId = ""
    · rw [if_pos anonymous, if_neg (by simp [same, anonymous])]
      have merged := remembered.merge last.provider last.model "" effort last.providerConfirmed
      rwa [CodexBooks.merge, if_neg (by simp)] at merged
    · rw [if_neg anonymous, if_pos (Or.inr anonymous)]
      exact remembered

/-- Besides the last sessions, an effort without a conversation only moves buckets. -/
theorem updateCodexLastEffort_only (g : AggregatorInner) (service effort : String) :
    BucketsOnly
      { g with
        codexLastSessions := (updateCodexLastEffort g service effort).1.codexLastSessions }
      (updateCodexLastEffort g service effort).1 := by
  unfold updateCodexLastEffort
  generalize (codexLastSession g service).getD _ = last
  dsimp only
  split
  · exact BucketsOnly.refl g
  · split
    · rw [(mergeCodexPendingSse_only _ _ _ _ _ _).lastSessions]
      exact mergeCodexPendingSse_only _ _ _ _ _ _
    · exact BucketsOnly.refl _

theorem updateCodexLastEffort_codexOnly (g : AggregatorInner) (service effort : String) :
    CodexOnly g (updateCodexLastEffort g service effort).1 := by
  have remembered : CodexOnly g
      { g with
        codexLastSessions := (updateCodexLastEffort g service effort).1.codexLastSessions } :=
    ⟨fun _ _ => rfl, rfl, rfl, rfl, rfl⟩
  exact remembered.trans (updateCodexLastEffort_only g service effort).toCodexOnly

theorem CodexTracks.requestSpan (tracks : CodexTracks g books) (service : String)
    (attrs : List KeyValue) :
    CodexTracks (Step.apply g (.requestSpan service attrs)).1
      (requestSpanBooks g books service attrs) := by
  simp only [Step.apply, ingestRequestSpan, if_true, updateCodexEffortFromRequestAttrs,
    requestSpanBooks]
  cases requestEffort attrs with
  | none => exact tracks
  | some effort =>
      cases conversationId attrs with
      | none => exact tracks.updateCodexLastEffort service effort
      | some id => exact tracks.updateCodexSessionWithLast service _ _

theorem requestSpan_codexOnly (g : AggregatorInner) (service : String) (attrs : List KeyValue) :
    CodexOnly g (Step.apply g (.requestSpan service attrs)).1 := by
  simp only [Step.apply, ingestRequestSpan, if_true, updateCodexEffortFromRequestAttrs]
  cases requestEffort attrs with
  | none => exact CodexOnly.refl g
  | some effort =>
      cases conversationId attrs with
      | none => exact updateCodexLastEffort_codexOnly g service effort
      | some id => exact updateCodexSessionWithLast_codexOnly g service _ _

theorem extract_facts {service : String} {log : LogRecord} {parsed : CodexSseExtraction}
    (found : extractCodexSseResponseCompleted g service log = some parsed) :
    codexSseStats log.attributes = some parsed.stats ∧ parsed.stats ≠ 0 ∧
      (parsed.pendingConversationId = none ∨
        parsed.pendingConversationId = conversationId log.attributes) ∧
      (parsed.pendingConversationId ≠ conversationId log.attributes →
        parsed.bucket.effort ≠ unknown) := by
  unfold extractCodexSseResponseCompleted at found
  rw [Option.map_eq_some_iff] at found
  obtain ⟨stats, samples, rfl⟩ := found
  refine ⟨samples, ?_, ?_, ?_⟩
  · unfold codexSseStats at samples
    split at samples
    · simp at samples
    · dsimp only at samples
      split at samples
      · simp at samples
      · split at samples
        · simp at samples
        · rename_i used
          rintro zero
          rw [← Option.some.inj samples, ModelStats.ext_iff] at zero
          simp only [ModelStats.zero_inputTokens, ModelStats.zero_outputTokens,
            ModelStats.zero_cacheReadTokens, ModelStats.zero_cacheCreationTokens,
            ModelStats.zero_reasoningOutputTokens] at zero
          exact used ⟨zero.2.1, zero.2.2.1, zero.2.2.2.1, zero.2.2.2.2.1, zero.2.2.2.2.2.1⟩
  · dsimp only
    split
    · exact Or.inr rfl
    · exact Or.inl rfl
  · dsimp only
    split
    · exact fun different => absurd rfl different
    · rename_i resolved
      exact fun _ unknownEffort => resolved (Or.inr unknownEffort)

theorem CodexTracks.completion {service : String} {log : LogRecord}
    (tracks : CodexTracks g books)
    (fits : (Finsupp.degree books.ledger + (Step.completion service log).sample).Fits) :
    CodexTracks (Step.apply g (.completion service log)).1
      ((Step.completion service log).books g books) := by
  simp only [Step.apply, ingestSseCompletion, Step.books]
  cases found : extractCodexSseResponseCompleted g service log with
  | none => exact tracks
  | some parsed =>
      obtain ⟨samples, occupied, pendingId, known⟩ := extract_facts found
      simp only [Step.sample, samples, Option.getD_some] at fits
      dsimp only
      split
      · exact tracks
      · unfold CodexBooks.complete
        cases own : conversationId log.attributes with
        | none =>
            have none : parsed.pendingConversationId = none := by
              rcases pendingId with none | same
              · exact none
              · rw [same, own]
            simp only [none]
            exact (tracks.addUnassigned occupied fits).congr rfl rfl
        | some id =>
            simp only
            split
            · rename_i pending
              simp only [pending]
              exact (tracks.addPending occupied fits).congr rfl rfl
            · rename_i settled
              have none : parsed.pendingConversationId = none := by
                rcases pendingId with none | same
                · exact none
                · exact absurd (same.trans own) settled
              simp only [none]
              rw [own] at known
              exact (tracks.addSettled (known settled) occupied fits).congr rfl rfl

theorem codexTokenStats_ne_zero {dp : HistogramDataPoint} {stats : ModelStats}
    (found : codexTokenStats dp = some stats) (positive : histogramSumAsU64 dp ≠ 0) :
    stats ≠ 0 := by
  rintro rfl
  unfold codexTokenStats at found
  dsimp only at found
  split at found
  all_goals simp only [Option.some.injEq, ModelStats.ext_iff, ModelStats.zero_inputTokens,
    ModelStats.zero_outputTokens, ModelStats.zero_cacheReadTokens,
    ModelStats.zero_cacheCreationTokens, ModelStats.zero_reasoningOutputTokens, positive,
    false_and, and_false, reduceCtorEq] at found

theorem CodexTracks.codexTokens {service : String} {dp : HistogramDataPoint}
    (tracks : CodexTracks g books)
    (fits : (Finsupp.degree books.ledger + (Step.codexTokens service dp).sample).Fits) :
    CodexTracks (Step.apply g (.codexTokens service dp)).1
      ((Step.codexTokens service dp).books g books) := by
  simp only [Step.apply, ingestCodexTokenPoint, Step.books]
  split
  · exact tracks
  · cases found : codexTokenStats dp with
    | none => exact tracks
    | some stats =>
        simp only [Step.sample, found, Option.getD_some] at fits
        dsimp only
        unfold CodexBooks.countPoint
        split
        · exact tracks
        · rename_i positive
          exact (tracks.addUnassigned (codexTokenStats_ne_zero found positive) fits).congr rfl rfl

theorem CodexTracks.turn (tracks : CodexTracks g books) {service : String}
    {attrs : List KeyValue} {value : ℕ} {stats : ModelStats} (occupied : value ≠ 0 → stats ≠ 0)
    (fits : (Finsupp.degree books.ledger + stats).Fits) :
    CodexTracks (recordCodexTurn service attrs value stats g).1
      (books.countPoint (codexMetricBucket g service attrs) value stats) := by
  unfold recordCodexTurn CodexBooks.countPoint
  split
  · exact tracks
  · rename_i positive
    exact tracks.addUnassigned (occupied positive) fits

/-! ### Frames -/

theorem claudeMetricModel_only (g : AggregatorInner) (attrs : List KeyValue) :
    ClaudeOnly g (claudeMetricModel g attrs).1 := by
  have framed := registerCanonicalClaudeModel_frame g
    (nonEmpty_ne ((stringAttr attrs "model").getD ""))
  unfold claudeMetricModel
  exact framed.2.2.2

/-- The steps that Claude's telemetry decodes to. -/
def Step.isClaude : Step → Bool
  | .claudeLog _ | .claudeTokens _ | .claudeCost _ => true
  | _ => false

theorem Step.apply_claudeOnly (step : Step) (claude : step.isClaude = true)
    (g : AggregatorInner) : ClaudeOnly g (step.apply g).1 := by
  cases step with
  | claudeLog log =>
      simp only [Step.apply, ingestClaudeApiRequest]
      split
      · exact ingestClaudeLog_only g _ _ _
      · exact ClaudeOnly.refl g
  | claudeTokens dp =>
      have registered := claudeMetricModel_only g dp.attributes
      simp only [Step.apply, ingestClaudeTokenPoint]
      generalize claudeMetricModel g dp.attributes = reported at registered ⊢
      split
      · exact registered
      · exact registered.trans (recordClaudeMetricUsage_only _ _ _)
  | claudeCost dp =>
      have registered := claudeMetricModel_only g dp.attributes
      simp only [Step.apply, ingestClaudeCostPoint]
      generalize claudeMetricModel g dp.attributes = reported at registered ⊢
      exact registered.trans (recordClaudeMetricUsage_only _ _ _)
  | _ => simp [Step.isClaude] at claude

theorem ingestSseCompletion_codexOnly (g : AggregatorInner) (service : String) (log : LogRecord) :
    CodexOnly g (ingestSseCompletion service g log).1 := by
  unfold ingestSseCompletion
  split
  · exact CodexOnly.refl g
  · rename_i parsed _
    dsimp only
    split
    · exact CodexOnly.refl g
    · refine (recordInto_codexOnly g parsed.bucket parsed.stats).trans ?_
      cases parsed.pendingConversationId with
      | none => exact ⟨fun _ _ => rfl, rfl, rfl, rfl, rfl⟩
      | some id => exact ⟨fun _ _ => rfl, rfl, rfl, rfl, rfl⟩

theorem recordCodexTurn_codexOnly (g : AggregatorInner) (service : String)
    (attrs : List KeyValue) (value : ℕ) (stats : ModelStats) :
    CodexOnly g (recordCodexTurn service attrs value stats g).1 := by
  unfold recordCodexTurn
  split
  · exact CodexOnly.refl g
  · exact recordInto_codexOnly g _ _

theorem ingestCodexTokenPoint_codexOnly (g : AggregatorInner) (service : String)
    (dp : HistogramDataPoint) : CodexOnly g (ingestCodexTokenPoint service g dp).1 := by
  unfold ingestCodexTokenPoint
  dsimp only
  split
  · exact CodexOnly.refl g
  · split
    · exact CodexOnly.refl g
    · split
      · exact CodexOnly.refl g
      · rename_i stats _ _
        refine (recordInto_codexOnly g (codexMetricBucket g service dp.attributes) stats).trans ?_
        exact ⟨fun _ _ => rfl, rfl, rfl, rfl, rfl⟩

theorem updateCodexSessionWithLast_tokenSources (g : AggregatorInner) (service : String)
    (session : CodexSession) (updateLast : Bool) :
    (updateCodexSessionWithLast g service session updateLast).1.codexTokenSources =
      g.codexTokenSources := by
  rw [updateCodexSessionWithLast_eq]
  exact (mergeCodexPendingSse_only _ _ _ _ _ _).tokenSources

theorem requestSpan_tokenSources (g : AggregatorInner) (service : String)
    (attrs : List KeyValue) :
    (Step.apply g (.requestSpan service attrs)).1.codexTokenSources = g.codexTokenSources := by
  simp only [Step.apply, ingestRequestSpan, if_true, updateCodexEffortFromRequestAttrs]
  cases requestEffort attrs with
  | none => rfl
  | some effort =>
      cases conversationId attrs with
      | some id => exact updateCodexSessionWithLast_tokenSources g service _ _
      | none => exact (updateCodexLastEffort_only g service effort).tokenSources

theorem recordCodexTurn_tokenSources (g : AggregatorInner) (service : String)
    (attrs : List KeyValue) (value : ℕ) (stats : ModelStats) :
    (recordCodexTurn service attrs value stats g).1.codexTokenSources = g.codexTokenSources := by
  unfold recordCodexTurn
  split <;> rfl

theorem Step.apply_codexOnly (step : Step) (codex : step.isClaude = false)
    (g : AggregatorInner) : CodexOnly g (step.apply g).1 := by
  cases step with
  | session service started => exact updateCodexSessionWithLast_codexOnly g service started true
  | completion service log => exact ingestSseCompletion_codexOnly g service log
  | requestSpan service attrs => exact requestSpan_codexOnly g service attrs
  | codexTokens service dp => exact ingestCodexTokenPoint_codexOnly g service dp
  | turnCount service dp => exact recordCodexTurn_codexOnly g service _ _ _
  | duration service dp => exact recordCodexTurn_codexOnly g service _ _ _
  | _ => simp [Step.isClaude] at codex

/-- The steps that the metrics of Codex decode to. -/
def Step.isCodexMetric : Step → Bool
  | .codexTokens _ _ | .turnCount _ _ | .duration _ _ => true
  | _ => false

/-- What is known about the conversations of Codex is as before. -/
structure ConversationsKept (g next : AggregatorInner) : Prop where
  sessions : next.codexSessions = g.codexSessions
  lastSessions : next.codexLastSessions = g.codexLastSessions
  pendingSse : next.codexPendingSse = g.codexPendingSse

theorem Step.apply_conversationsKept (step : Step) (metric : step.isCodexMetric = true)
    (g : AggregatorInner) : ConversationsKept g (step.apply g).1 := by
  cases step with
  | codexTokens service dp =>
      simp only [Step.apply, ingestCodexTokenPoint]
      split
      · exact ⟨rfl, rfl, rfl⟩
      · cases codexTokenStats dp with
        | none => exact ⟨rfl, rfl, rfl⟩
        | some stats =>
            dsimp only
            split <;> exact ⟨rfl, rfl, rfl⟩
  | turnCount service dp | duration service dp =>
      simp only [Step.apply, ingestCodexTurnCountPoint, ingestCodexDurationPoint, recordCodexTurn]
      split <;> exact ⟨rfl, rfl, rfl⟩
  | _ => simp [Step.isCodexMetric] at metric

theorem CodexTracks.claudeOnly {next : AggregatorInner} (tracks : CodexTracks g books)
    (same : ClaudeOnly g next) : CodexTracks next books :=
  tracks.congr (same.agents agentCodex (Ne.symm agentClaude_ne_agentCodex)) same.pendingSse

/-- The simulation: a step of the program keeps the books that the step writes. -/
theorem CodexTracks.apply (tracks : CodexTracks g books) (step : Step)
    (fits : (Finsupp.degree books.ledger + step.sample).Fits) :
    CodexTracks (step.apply g).1 (step.books g books) := by
  cases step with
  | claudeLog log => exact tracks.claudeOnly (Step.apply_claudeOnly _ rfl g)
  | claudeTokens dp => exact tracks.claudeOnly (Step.apply_claudeOnly _ rfl g)
  | claudeCost dp => exact tracks.claudeOnly (Step.apply_claudeOnly _ rfl g)
  | session service started => exact tracks.updateCodexSessionWithLast service started true
  | completion service log => exact tracks.completion fits
  | requestSpan service attrs => exact tracks.requestSpan service attrs
  | codexTokens service dp => exact tracks.codexTokens fits
  | turnCount service dp =>
      refine tracks.turn (fun positive zero => positive ?_) fits
      exact congrArg ModelStats.requestCount zero
  | duration service dp =>
      refine tracks.turn (fun positive zero => positive ?_) fits
      exact congrArg ModelStats.durationMs zero

/-! ### What a step counts -/

def ofModel (models : String → Prop) (bucket : Bucket) : Prop :=
  models bucket.model

/-- The bucket and sample that a Codex step counts, if it counts anything. -/
def Step.counted (g : AggregatorInner) : Step → Option (Bucket × ModelStats)
  | .completion service log =>
      match extractCodexSseResponseCompleted g service log with
      | none => none
      | some parsed =>
          if g.codexTokenSources[codexTokenSourceKey parsed.bucket.model]? = some .metrics then
            none
          else some (parsed.bucket, parsed.stats)
  | .codexTokens service dp =>
      if g.codexTokenSources[codexTokenSourceKey (codexMetricModel dp.attributes)]? =
          some .logs then none
      else
        match codexTokenStats dp with
        | none => none
        | some stats =>
            if histogramSumAsU64 dp = 0 then none
            else some (codexMetricBucket g service dp.attributes, stats)
  | .turnCount service dp =>
      if numberValueAsU64 dp = 0 then none
      else some (codexMetricBucket g service dp.attributes,
        { requestCount := numberValueAsU64 dp })
  | .duration service dp =>
      if histogramSumAsU64 dp = 0 then none
      else some (codexMetricBucket g service dp.attributes,
        { durationMs := histogramSumAsU64 dp })
  | _ => none

noncomputable def Step.countedLedger (g : AggregatorInner) (step : Step) :
    Bucket →₀ ModelStats :=
  match step.counted g with
  | none => 0
  | some (bucket, stats) => Finsupp.single bucket stats

theorem Step.counted_le (step : Step) (g : AggregatorInner) :
    Finsupp.degree (step.countedLedger g) ≤ step.sample := by
  unfold Step.countedLedger
  cases step with
  | completion service log =>
      simp only [Step.counted]
      cases found : extractCodexSseResponseCompleted g service log with
      | none => simp
      | some parsed =>
          dsimp only
          split
          · simp
          · rename_i counted
            split at counted
            · simp at counted
            · obtain ⟨rfl, rfl⟩ := Prod.mk.inj (Option.some.inj counted)
              simp [Step.sample, (extract_facts found).1]
  | codexTokens service dp =>
      simp only [Step.counted]
      split
      · simp
      · rename_i bucket stats counted
        split at counted
        · simp at counted
        · cases found : codexTokenStats dp with
          | none => simp [found] at counted
          | some own =>
              simp only [found] at counted
              split at counted
              · simp at counted
              · obtain ⟨rfl, rfl⟩ := Prod.mk.inj (Option.some.inj counted)
                simp [Step.sample, found]
  | turnCount service dp =>
      simp only [Step.counted]
      split
      · simp
      · rename_i counted
        split at counted
        · simp at counted
        · obtain ⟨rfl, rfl⟩ := Prod.mk.inj (Option.some.inj counted)
          simp [Step.sample]
  | duration service dp =>
      simp only [Step.counted]
      split
      · simp
      · rename_i counted
        split at counted
        · simp at counted
        · obtain ⟨rfl, rfl⟩ := Prod.mk.inj (Option.some.inj counted)
          simp [Step.sample]
  | _ => simp [Step.counted]

namespace CodexBooks

variable (books : CodexBooks) (models : String → Prop)

theorem assignEffort_models (provider model effort : String) :
    partTotal (ofModel models) (books.assignEffort provider model effort).ledger =
      partTotal (ofModel models) books.ledger := by
  unfold assignEffort
  split
  · rfl
  · simp only [ledger, map_add]
    rw [partTotal_mapDomain]
    intro bucket _
    unfold redirect
    split
    · rename_i same
      rw [same]
      rfl
    · rfl

theorem mergeSession_models (session : CodexSession) :
    partTotal (ofModel models) (books.mergeSession session).ledger =
      partTotal (ofModel models) books.ledger := by
  unfold mergeSession merge
  split
  · rw [books.resolve_ledger, map_add, partTotal_mapDomain, ← map_add, ← books.pending_split]
    intro bucket _
    rw [ofModel, ofModel, pendingDestination, Bucket.fromParts_model,
      nonEmpty_of_ne bucket.named.2.1]
  · exact books.assignEffort_models models _ _ _

theorem complete_ledger (id : Option String) (parsed : CodexSseExtraction) :
    (books.complete id parsed).ledger =
      books.ledger + Finsupp.single parsed.bucket parsed.stats := by
  unfold complete
  split
  · exact books.addUnassigned_ledger _ _
  · split
    · exact books.addPending_ledger _ _ _
    · exact books.addSettled_ledger _ _ _

theorem countPoint_ledger (bucket : Bucket) (value : ℕ) (stats : ModelStats) :
    (books.countPoint bucket value stats).ledger =
      books.ledger + if value = 0 then 0 else Finsupp.single bucket stats := by
  unfold countPoint
  split
  · rw [add_zero]
  · exact books.addUnassigned_ledger _ _

end CodexBooks

theorem requestSpanBooks_models (g : AggregatorInner) (books : CodexBooks)
    (models : String → Prop) (service : String) (attrs : List KeyValue) :
    partTotal (ofModel models) (requestSpanBooks g books service attrs).ledger =
      partTotal (ofModel models) books.ledger := by
  unfold requestSpanBooks
  split
  · rfl
  · split
    · exact books.mergeSession_models models _
    · dsimp only
      split
      · rfl
      · exact books.assignEffort_models models _ _ _

/-- The books after the moves of a step's metadata; a step that counts moves nothing. -/
noncomputable def Step.moved (g : AggregatorInner) (books : CodexBooks) : Step → CodexBooks
  | .session _ started => books.mergeSession (sessionAfter g started)
  | .requestSpan service attrs => requestSpanBooks g books service attrs
  | _ => books

/-- A step moves, or adds what it counts. -/
theorem Step.books_ledger (step : Step) (g : AggregatorInner) (books : CodexBooks) :
    (step.books g books).ledger = (step.moved g books).ledger + step.countedLedger g := by
  cases step with
  | completion service log =>
      simp only [Step.books, Step.moved, Step.countedLedger, Step.counted]
      cases extractCodexSseResponseCompleted g service log with
      | none => rw [add_zero]
      | some parsed =>
          dsimp only
          split
          · rw [add_zero]
          · exact books.complete_ledger _ parsed
  | codexTokens service dp =>
      simp only [Step.books, Step.moved, Step.countedLedger, Step.counted]
      split
      · rw [add_zero]
      · cases codexTokenStats dp with
        | none => rw [add_zero]
        | some stats =>
            dsimp only
            rw [books.countPoint_ledger]
            split <;> rfl
  | turnCount service dp =>
      simp only [Step.books, Step.moved, Step.countedLedger, Step.counted]
      rw [books.countPoint_ledger]
      split <;> rfl
  | duration service dp =>
      simp only [Step.books, Step.moved, Step.countedLedger, Step.counted]
      rw [books.countPoint_ledger]
      split <;> rfl
  | _ => simp [Step.books, Step.moved, Step.countedLedger, Step.counted]

theorem Step.moved_models (step : Step) (g : AggregatorInner) (books : CodexBooks)
    (models : String → Prop) :
    partTotal (ofModel models) (step.moved g books).ledger =
      partTotal (ofModel models) books.ledger := by
  cases step with
  | session service started => exact books.mergeSession_models models _
  | requestSpan service attrs => exact requestSpanBooks_models g books models service attrs
  | _ => rfl

/-- In every model, a step adds what it counts there and nothing else. -/
theorem Step.books_models (step : Step) (g : AggregatorInner) (books : CodexBooks)
    (models : String → Prop) :
    partTotal (ofModel models) (step.books g books).ledger =
      partTotal (ofModel models) books.ledger +
        partTotal (ofModel models) (step.countedLedger g) := by
  rw [step.books_ledger, map_add, step.moved_models]

theorem Step.books_degree_le (step : Step) (g : AggregatorInner) (books : CodexBooks) :
    Finsupp.degree (step.books g books).ledger ≤ Finsupp.degree books.ledger + step.sample := by
  have total := step.books_models g books fun _ => True
  have all (ledger : Bucket →₀ ModelStats) :
      partTotal (ofModel fun _ => True) ledger = Finsupp.degree ledger := partTotal_true ledger
  rw [all, all, all] at total
  rw [total]
  exact add_le_add_right (step.counted_le g) _

end Simulation

end OtelLogger
