import OtelLogger.ClaudeFold
import OtelLogger.Steps

/-!
Claude usage as two ledgers: the metric usage that a log may still cancel, kept per usage key,
and everything else. Logs add to the rest and cancel the metric ledger of their key, metrics add
to the ledger of theirs, and a fold renames accounts of the rest only.
-/

namespace OtelLogger

open Std (ExtTreeMap TransOrd LawfulEqOrd)
open Accounting

/-- Only Claude's part of the state differs. -/
structure ClaudeOnly (g next : AggregatorInner) : Prop where
  agents : ∀ name, name ≠ agentClaude → next.agent name = g.agent name
  lastSessions : next.codexLastSessions = g.codexLastSessions
  sessions : next.codexSessions = g.codexSessions
  tokenSources : next.codexTokenSources = g.codexTokenSources
  pendingSse : next.codexPendingSse = g.codexPendingSse

theorem ClaudeOnly.refl (g : AggregatorInner) : ClaudeOnly g g :=
  ⟨fun _ _ => rfl, rfl, rfl, rfl, rfl⟩

theorem ClaudeOnly.trans {first second third : AggregatorInner} (left : ClaudeOnly first second)
    (right : ClaudeOnly second third) : ClaudeOnly first third where
  agents name other := (right.agents name other).trans (left.agents name other)
  lastSessions := right.lastSessions.trans left.lastSessions
  sessions := right.sessions.trans left.sessions
  tokenSources := right.tokenSources.trans left.tokenSources
  pendingSse := right.pendingSse.trans left.pendingSse

/-- Only Codex's part of the state differs. -/
structure CodexOnly (g next : AggregatorInner) : Prop where
  agents : ∀ name, name ≠ agentCodex → next.agent name = g.agent name
  canonicalModels : next.claudeCanonicalModels = g.claudeCanonicalModels
  metricModels : next.claudeMetricModels = g.claudeMetricModels
  usageSources : next.claudeUsageSources = g.claudeUsageSources
  metricUsage : next.claudeMetricUsage = g.claudeMetricUsage

theorem CodexOnly.refl (g : AggregatorInner) : CodexOnly g g :=
  ⟨fun _ _ => rfl, rfl, rfl, rfl, rfl⟩

theorem CodexOnly.trans {first second third : AggregatorInner} (left : CodexOnly first second)
    (right : CodexOnly second third) : CodexOnly first third where
  agents name other := (right.agents name other).trans (left.agents name other)
  canonicalModels := right.canonicalModels.trans left.canonicalModels
  metricModels := right.metricModels.trans left.metricModels
  usageSources := right.usageSources.trans left.usageSources
  metricUsage := right.metricUsage.trans left.metricUsage

theorem agentClaude_ne_agentCodex : agentClaude ≠ agentCodex := by decide

/-- The metric usage that a log may still cancel, by usage key. -/
noncomputable def AggregatorInner.metricLedgers (g : AggregatorInner) :
    ClaudeUsageKey →₀ Bucket →₀ ModelStats :=
  ledgersOf g.claudeMetricUsage

/-- Claude's buckets hold the revocable metric usage and the rest. -/
structure ClaudeTracks (g : AggregatorInner) (rest : Bucket →₀ ModelStats) : Prop where
  represents : Represents (g.agent agentClaude) (Finsupp.degree g.metricLedgers + rest)
  revocable : ∀ (key : ClaudeUsageKey) (perBucket : ExtTreeMap Bucket ModelStats)
    (bucket : Bucket) (stats : ModelStats), g.claudeMetricUsage[key]? = some perBucket →
    perBucket[bucket]? = some stats → stats ≠ 0 ∧ bucket.usageKey = key ∧
      g.claudeUsageSources[key]? = some .metrics ∧ bucket.model ∈ g.claudeMetricModels

theorem ClaudeTracks.new : ClaudeTracks Aggregator.new 0 where
  represents := by
    have empty : Aggregator.new.metricLedgers = 0 := ledgersOf_empty
    rw [empty, map_zero, zero_add]
    exact Represents.initial
  revocable key perBucket bucket stats found := by
    simp [Aggregator.new] at found

theorem ClaudeTracks.codexOnly {g next : AggregatorInner} {rest : Bucket →₀ ModelStats}
    (tracks : ClaudeTracks g rest) (same : CodexOnly g next) : ClaudeTracks next rest where
  represents := by
    rw [AggregatorInner.metricLedgers, same.metricUsage,
      same.agents agentClaude agentClaude_ne_agentCodex]
    exact tracks.represents
  revocable key perBucket bucket stats found entry := by
    rw [same.usageSources, same.metricModels]
    rw [same.metricUsage] at found
    exact tracks.revocable key perBucket bucket stats found entry

/-! ### Cancelling -/

theorem subtractFrom_eq (g : AggregatorInner) (name : String) (bucket : Bucket)
    (stats : ModelStats) :
    subtractFrom g name bucket stats =
      { g with agents := (subtractFrom g name bucket stats).agents } := by
  unfold subtractFrom
  split <;> rfl

theorem cancelMetricUsage_eq (perBucket : List (Bucket × ModelStats)) (g : AggregatorInner) :
    cancelMetricUsage g perBucket =
      { g with agents := (cancelMetricUsage g perBucket).agents } := by
  induction perBucket generalizing g with
  | nil => rfl
  | cons entry perBucket ih =>
      have step : cancelMetricUsage g (entry :: perBucket) =
        cancelMetricUsage (subtractFrom g agentClaude entry.1 entry.2) perBucket := rfl
      rw [step, ih, subtractFrom_eq]

theorem cancelMetricUsage_other (perBucket : List (Bucket × ModelStats)) (g : AggregatorInner)
    (name : String) (other : name ≠ agentClaude) :
    (cancelMetricUsage g perBucket).agent name = g.agent name := by
  induction perBucket generalizing g with
  | nil => rfl
  | cons entry perBucket ih =>
      have rest := ih (subtractFrom g agentClaude entry.1 entry.2)
      rwa [subtractFrom_agent, if_neg other] at rest

theorem cancelMetricUsage_represents (perBucket : List (Bucket × ModelStats))
    (g : AggregatorInner) (rest : Bucket →₀ ModelStats)
    (represents : Represents (g.agent agentClaude)
      ((perBucket.map fun entry => Finsupp.single entry.1 entry.2).sum + rest)) :
    Represents ((cancelMetricUsage g perBucket).agent agentClaude) rest := by
  induction perBucket generalizing g with
  | nil => simpa [cancelMetricUsage] using represents
  | cons entry perBucket ih =>
      apply ih (subtractFrom g agentClaude entry.1 entry.2)
      rw [subtractFrom_agent, if_pos rfl]
      apply Represents.subtractFrom
      simpa [add_assoc] using represents

/-- The state once the metric usage of a key is cancelled, as a log of the key does first. -/
def cancelMetricsOf (g : AggregatorInner) (sourceKey : ClaudeUsageKey) : AggregatorInner :=
  if g.claudeUsageSources[sourceKey]? = some .metrics then
    match g.claudeMetricUsage[sourceKey]? with
    | none => g
    | some perBucket =>
        cancelMetricUsage { g with claudeMetricUsage := g.claudeMetricUsage.erase sourceKey }
          perBucket.toList
  else g

theorem recordClaudeLogUsage_of_usage {g : AggregatorInner} {bucket : Bucket}
    {stats : ModelStats} (used : stats.hasUsage = true) :
    recordClaudeLogUsage g bucket stats =
      { recordInto (cancelMetricsOf g bucket.usageKey) agentClaude bucket stats with
        claudeUsageSources :=
          (cancelMetricsOf g bucket.usageKey).claudeUsageSources.insert bucket.usageKey .logs } := by
  rw [recordClaudeLogUsage, if_pos used]
  rfl

theorem cancelMetricsOf_eq (g : AggregatorInner) (sourceKey : ClaudeUsageKey) :
    cancelMetricsOf g sourceKey =
      { g with
        agents := (cancelMetricsOf g sourceKey).agents
        claudeMetricUsage := (cancelMetricsOf g sourceKey).claudeMetricUsage } := by
  unfold cancelMetricsOf
  split
  · split
    · rfl
    · rw [cancelMetricUsage_eq]
  · rfl

theorem cancelMetricsOf_other (g : AggregatorInner) (sourceKey : ClaudeUsageKey) (name : String)
    (other : name ≠ agentClaude) : (cancelMetricsOf g sourceKey).agent name = g.agent name := by
  unfold cancelMetricsOf
  split
  · split
    · rfl
    · exact cancelMetricUsage_other _ _ name other
  · rfl

section Cancel

variable {g : AggregatorInner} {rest : Bucket →₀ ModelStats}

theorem ClaudeTracks.metricLedgers_eq_zero (tracks : ClaudeTracks g rest) {key : ClaudeUsageKey}
    (source : g.claudeUsageSources[key]? ≠ some .metrics) : g.metricLedgers key = 0 := by
  ext1 bucket
  rw [AggregatorInner.metricLedgers, ledgersOf_apply, ledgerOf_apply]
  cases found : g.claudeMetricUsage[key]? with
  | none => simp
  | some perBucket =>
      cases entry : perBucket[bucket]? with
      | none => simp [entry]
      | some stats =>
          exact absurd (tracks.revocable key perBucket bucket stats found entry).2.2.1 source

theorem ClaudeTracks.cancelMetricsOf_metricLedgers (tracks : ClaudeTracks g rest)
    (key : ClaudeUsageKey) : (cancelMetricsOf g key).metricLedgers = g.metricLedgers.erase key := by
  have unchanged (empty : g.metricLedgers key = 0) : g.metricLedgers = g.metricLedgers.erase key :=
    (Finsupp.erase_of_notMem_support (by simpa using empty)).symm
  unfold cancelMetricsOf
  split
  · split
    · rename_i missing
      apply unchanged
      simp [AggregatorInner.metricLedgers, ledgersOf_apply, missing]
    · rw [cancelMetricUsage_eq]
      exact ledgersOf_erase _ _
  · rename_i source
    exact unchanged (tracks.metricLedgers_eq_zero source)

theorem ClaudeTracks.cancelMetricsOf_represents (tracks : ClaudeTracks g rest)
    (key : ClaudeUsageKey) : Represents ((cancelMetricsOf g key).agent agentClaude)
      (Finsupp.degree (g.metricLedgers.erase key) + rest) := by
  have represents := tracks.represents
  rw [degree_split g.metricLedgers key, add_assoc] at represents
  have unchanged (empty : g.metricLedgers key = 0) : Represents (g.agent agentClaude)
      (Finsupp.degree (g.metricLedgers.erase key) + rest) := by
    rwa [empty, zero_add] at represents
  unfold cancelMetricsOf
  split
  · split
    · rename_i missing
      apply unchanged
      simp [AggregatorInner.metricLedgers, ledgersOf_apply, missing]
    · rename_i perBucket found
      apply cancelMetricUsage_represents
      have listed : (perBucket.toList.map fun entry => Finsupp.single entry.1 entry.2).sum =
          g.metricLedgers key := by
        simp only [AggregatorInner.metricLedgers, ledgersOf_apply, found, Option.getD_some]
        rfl
      rw [listed]
      exact represents
  · rename_i source
    exact unchanged (tracks.metricLedgers_eq_zero source)

theorem ClaudeTracks.cancelMetricsOf_found (tracks : ClaudeTracks g rest)
    {key sourceKey : ClaudeUsageKey} {perBucket : ExtTreeMap Bucket ModelStats} {bucket : Bucket}
    {stats : ModelStats} (found : (cancelMetricsOf g sourceKey).claudeMetricUsage[key]? =
      some perBucket) (entry : perBucket[bucket]? = some stats) :
    key ≠ sourceKey ∧ g.claudeMetricUsage[key]? = some perBucket := by
  unfold cancelMetricsOf at found
  split at found
  · split at found
    · rename_i missing
      refine ⟨?_, found⟩
      rintro rfl
      simp [missing] at found
    · rw [cancelMetricUsage_eq] at found
      simp only [lookup_erase] at found
      split at found
      · simp at found
      · rename_i different
        exact ⟨Ne.symm different, found⟩
  · rename_i source
    refine ⟨?_, found⟩
    rintro rfl
    exact source (tracks.revocable key perBucket bucket stats found entry).2.2.1

end Cancel

/-! ### Logs and metrics -/

section Record

variable {g : AggregatorInner} {rest : Bucket →₀ ModelStats} {bucket : Bucket}
  {stats : ModelStats}

theorem ClaudeTracks.recordInto (tracks : ClaudeTracks g rest) (occupied : stats ≠ 0)
    (fits : (Finsupp.degree (Finsupp.degree g.metricLedgers + rest) + stats).Fits) :
    ClaudeTracks (recordInto g agentClaude bucket stats) (rest + Finsupp.single bucket stats) where
  represents := by
    rw [recordInto_agent, if_pos rfl, ← add_assoc]
    exact tracks.represents.recordInto occupied fits
  revocable := tracks.revocable

theorem ClaudeTracks.recordClaudeLogUsage (tracks : ClaudeTracks g rest)
    (used : stats ≠ 0 → stats.hasUsage = true)
    (fits : (Finsupp.degree (Finsupp.degree g.metricLedgers + rest) + stats).Fits) :
    ClaudeTracks (recordClaudeLogUsage g bucket stats) (rest + Finsupp.single bucket stats) := by
  by_cases usage : stats.hasUsage = true
  · rw [recordClaudeLogUsage_of_usage usage]
    have cancelled := tracks.cancelMetricsOf_represents bucket.usageKey
    have ledgers := tracks.cancelMetricsOf_metricLedgers bucket.usageKey
    refine ⟨?_, ?_⟩
    · have remaining : Finsupp.degree (Finsupp.degree (g.metricLedgers.erase bucket.usageKey) +
          rest) + stats ≤ Finsupp.degree (Finsupp.degree g.metricLedgers + rest) + stats := by
        rw [degree_split g.metricLedgers bucket.usageKey]
        simp only [map_add, add_assoc]
        exact le_add_self
      have recorded : Represents (AgentStats.recordInto _ bucket stats) _ :=
        cancelled.recordInto (ModelStats.ne_zero_of_hasUsage usage) (fits.of_le remaining)
      rw [← ledgers, add_assoc] at recorded
      have agent := recordInto_agent (cancelMetricsOf g bucket.usageKey) agentClaude agentClaude
        bucket stats
      rw [if_pos rfl] at agent
      exact agent ▸ recorded
    · intro key perBucket account amount found entry
      obtain ⟨different, before⟩ := tracks.cancelMetricsOf_found found entry
      obtain ⟨occupied, keyed, source, reported⟩ :=
        tracks.revocable key perBucket account amount before entry
      refine ⟨occupied, keyed, ?_, ?_⟩
      · rw [cancelMetricsOf_eq]
        simpa [ExtTreeMap.getElem?_insert, Ne.symm different] using source
      · change account.model ∈ (cancelMetricsOf g bucket.usageKey).claudeMetricModels
        rw [cancelMetricsOf_eq]
        exact reported
  · have none : stats = 0 := not_not.mp fun occupied => usage (used occupied)
    rw [OtelLogger.recordClaudeLogUsage, if_neg usage, none]
    simpa using tracks

theorem ClaudeTracks.ingestClaudeLog {requestStats usageStats : ModelStats}
    (tracks : ClaudeTracks g rest) (request : requestStats ≠ 0)
    (used : usageStats ≠ 0 → usageStats.hasUsage = true)
    (fits : (Finsupp.degree (Finsupp.degree g.metricLedgers + rest) +
      (requestStats + usageStats)).Fits) :
    ClaudeTracks (ingestClaudeLog g bucket requestStats usageStats)
      (rest + Finsupp.single bucket (requestStats + usageStats)) := by
  rw [← add_assoc] at fits
  have requested : ClaudeTracks _ (rest + Finsupp.single bucket requestStats) :=
    tracks.recordInto request fits.of_add
  have ledgers : (OtelLogger.recordInto g agentClaude bucket requestStats).metricLedgers =
    g.metricLedgers := rfl
  have recorded : ClaudeTracks (OtelLogger.ingestClaudeLog g bucket requestStats usageStats) _ :=
    requested.recordClaudeLogUsage used
    (by simpa [ledgers, ← add_assoc] using fits)
  rwa [add_assoc, ← Finsupp.single_add] at recorded

theorem recordClaudeLogUsage_only (g : AggregatorInner) (bucket : Bucket) (stats : ModelStats) :
    ClaudeOnly g (recordClaudeLogUsage g bucket stats) := by
  by_cases usage : stats.hasUsage = true
  · rw [recordClaudeLogUsage_of_usage usage]
    have cancelled := cancelMetricsOf_eq g bucket.usageKey
    refine ⟨?_, ?_, ?_, ?_, ?_⟩
    · intro name other
      have agent := recordInto_agent (cancelMetricsOf g bucket.usageKey) agentClaude name bucket
        stats
      rw [if_neg other, cancelMetricsOf_other _ _ _ other] at agent
      exact agent
    all_goals
      dsimp only [OtelLogger.recordInto]
      rw [cancelled]
  · rw [recordClaudeLogUsage, if_neg usage]
    exact ClaudeOnly.refl g

theorem ingestClaudeLog_only (g : AggregatorInner) (bucket : Bucket)
    (requestStats usageStats : ModelStats) :
    ClaudeOnly g (ingestClaudeLog g bucket requestStats usageStats) := by
  refine ClaudeOnly.trans ?_ (recordClaudeLogUsage_only _ bucket usageStats)
  refine ⟨?_, rfl, rfl, rfl, rfl⟩
  intro name other
  rw [recordInto_agent, if_neg other]

theorem ingestClaudeLog_sources (g : AggregatorInner) (bucket : Bucket)
    (requestStats usageStats : ModelStats) :
    (ingestClaudeLog g bucket requestStats usageStats).claudeUsageSources =
      if usageStats.hasUsage then g.claudeUsageSources.insert bucket.usageKey .logs
      else g.claudeUsageSources := by
  unfold ingestClaudeLog
  split
  · rename_i usage
    rw [recordClaudeLogUsage_of_usage usage, cancelMetricsOf_eq]
    rfl
  · rename_i usage
    rw [recordClaudeLogUsage, if_neg usage]
    rfl

theorem ClaudeTracks.ingestClaudeLog_metricLedgers {requestStats usageStats : ModelStats}
    (tracks : ClaudeTracks (OtelLogger.recordInto g agentClaude bucket requestStats) rest) :
    (OtelLogger.ingestClaudeLog g bucket requestStats usageStats).metricLedgers =
      if usageStats.hasUsage then g.metricLedgers.erase bucket.usageKey else g.metricLedgers := by
  unfold OtelLogger.ingestClaudeLog
  split
  · rename_i usage
    rw [recordClaudeLogUsage_of_usage usage]
    exact tracks.cancelMetricsOf_metricLedgers bucket.usageKey
  · rename_i usage
    rw [OtelLogger.recordClaudeLogUsage, if_neg usage]
    rfl

theorem ingestClaudeLog_models (g : AggregatorInner) (bucket : Bucket)
    (requestStats usageStats : ModelStats) :
    (ingestClaudeLog g bucket requestStats usageStats).claudeMetricModels =
        g.claudeMetricModels ∧
      (ingestClaudeLog g bucket requestStats usageStats).claudeCanonicalModels =
        g.claudeCanonicalModels := by
  unfold ingestClaudeLog
  by_cases usage : usageStats.hasUsage = true
  · rw [recordClaudeLogUsage_of_usage usage, cancelMetricsOf_eq]
    exact ⟨rfl, rfl⟩
  · rw [recordClaudeLogUsage, if_neg usage]
    exact ⟨rfl, rfl⟩

theorem recordClaudeMetricUsage_of_counted
    (counted : stats.hasUsage = true ∧
      g.claudeUsageSources[bucket.usageKey]? ≠ some .logs) :
    (recordClaudeMetricUsage g bucket stats).1 =
      { recordInto g agentClaude bucket stats with
        claudeUsageSources := g.claudeUsageSources.insert bucket.usageKey .metrics
        claudeMetricUsage := g.claudeMetricUsage.insert bucket.usageKey
          (addAmount (g.claudeMetricUsage[bucket.usageKey]?.getD ∅) bucket stats) } := by
  rw [recordClaudeMetricUsage, if_pos counted.1, if_neg counted.2]
  rfl

theorem recordClaudeMetricUsage_of_ignored
    (ignored : ¬(stats.hasUsage = true ∧
      g.claudeUsageSources[bucket.usageKey]? ≠ some .logs)) :
    (recordClaudeMetricUsage g bucket stats).1 = g := by
  unfold recordClaudeMetricUsage
  split
  · rename_i usage
    rw [if_pos (not_not.mp fun source => ignored ⟨usage, source⟩)]
  · rfl

theorem recordClaudeMetricUsage_metricLedgers
    (fits : (g.metricLedgers bucket.usageKey bucket + stats).Fits)
    (counted : stats.hasUsage = true ∧
      g.claudeUsageSources[bucket.usageKey]? ≠ some .logs) :
    (recordClaudeMetricUsage g bucket stats).1.metricLedgers =
      g.metricLedgers + Finsupp.single bucket.usageKey (Finsupp.single bucket stats) := by
  rw [AggregatorInner.metricLedgers, ledgersOf_apply] at fits
  rw [recordClaudeMetricUsage_of_counted counted]
  simp only [AggregatorInner.metricLedgers]
  rw [ledgersOf_insert, ledgerOf_addAmount fits, Finsupp.single_add, ← add_assoc,
    ← ledgersOf_apply, Finsupp.erase_add_single]

theorem metricLedgers_fits
    (fits : (Finsupp.degree (Finsupp.degree g.metricLedgers + rest) + stats).Fits) :
    (g.metricLedgers bucket.usageKey bucket + stats).Fits := by
  have covered : g.metricLedgers bucket.usageKey bucket ≤
      Finsupp.degree (Finsupp.degree g.metricLedgers + rest) := by
    rw [degree_split g.metricLedgers bucket.usageKey]
    refine le_trans ?_ (apply_le_degree _ bucket)
    simp only [Finsupp.add_apply, add_assoc]
    exact le_self_add
  exact fits.of_le (add_le_add_left covered stats)

theorem ClaudeTracks.recordClaudeMetricUsage (tracks : ClaudeTracks g rest)
    (reported : bucket.model ∈ g.claudeMetricModels)
    (fits : (Finsupp.degree (Finsupp.degree g.metricLedgers + rest) + stats).Fits) :
    ClaudeTracks (recordClaudeMetricUsage g bucket stats).1 rest := by
  by_cases counted : stats.hasUsage = true ∧
      g.claudeUsageSources[bucket.usageKey]? ≠ some .logs
  · have fitsAmount : (g.metricLedgers bucket.usageKey bucket + stats).Fits :=
      metricLedgers_fits fits
    have ledgers := recordClaudeMetricUsage_metricLedgers fitsAmount counted
    refine ⟨?_, ?_⟩
    · rw [ledgers, map_add, Finsupp.degree_single, add_right_comm]
      have recorded : Represents (AgentStats.recordInto _ bucket stats) _ :=
        tracks.represents.recordInto (ModelStats.ne_zero_of_hasUsage counted.1) fits
      rw [recordClaudeMetricUsage_of_counted counted]
      have agent := recordInto_agent g agentClaude agentClaude bucket stats
      rw [if_pos rfl] at agent
      exact agent ▸ recorded
    · rw [recordClaudeMetricUsage_of_counted counted]
      intro key perBucket account amount found entry
      simp only [lookup_insert] at found ⊢
      split at found
      · rename_i same
        subst key
        obtain rfl := Option.some.inj found
        rcases addAmount_found entry with ⟨rfl, sum⟩ | present
        · have amounts := fitsAmount
          rw [AggregatorInner.metricLedgers, ledgersOf_apply, ledgerOf_apply] at amounts
          have occupied : amount ≠ 0 := by
            rintro rfl
            rw [ModelStats.add_eq amounts] at sum
            exact ModelStats.ne_zero_of_hasUsage counted.1 (ModelStats.zero_of_add sum.symm).2
          exact ⟨occupied, rfl, by simp, reported⟩
        · cases before : g.claudeMetricUsage[bucket.usageKey]? with
          | none => simp [before] at present
          | some previous =>
              rw [before, Option.getD_some] at present
              obtain ⟨occupied, keyed, _, model⟩ :=
                tracks.revocable _ previous account amount before present
              exact ⟨occupied, keyed, by simp, model⟩
      · rename_i different
        rw [if_neg different]
        exact tracks.revocable key perBucket account amount found entry
  · rwa [recordClaudeMetricUsage_of_ignored counted]

theorem recordClaudeMetricUsage_only (g : AggregatorInner) (bucket : Bucket)
    (stats : ModelStats) : ClaudeOnly g (recordClaudeMetricUsage g bucket stats).1 := by
  by_cases counted : stats.hasUsage = true ∧
      g.claudeUsageSources[bucket.usageKey]? ≠ some .logs
  · rw [recordClaudeMetricUsage_of_counted counted]
    refine ⟨?_, rfl, rfl, rfl, rfl⟩
    intro name other
    have agent := recordInto_agent g agentClaude name bucket stats
    rw [if_neg other] at agent
    exact agent
  · rw [recordClaudeMetricUsage_of_ignored counted]
    exact ClaudeOnly.refl g

end Record

/-! ### Canonical model names -/

theorem bareModel_idem (model : String) : bareModel (bareModel model) = bareModel model := by
  rw [bareModel, bareModel, String.toList_ofList, List.takeWhile_idem]

def reportModel (g : AggregatorInner) (full : String) : AggregatorInner :=
  { g with claudeMetricModels := g.claudeMetricModels.insert full () }

/-- Whether registering a name folds the buckets of its bare name. -/
def FoldsBare (g : AggregatorInner) (full : String) : Prop :=
  bareModel full ≠ "" ∧ bareModel full ≠ full ∧ bareModel full ∉ g.claudeMetricModels ∧
    g.claudeCanonicalModels[bareModel full]? ≠ some full

def foldBare (g : AggregatorInner) (full : String) : AggregatorInner :=
  { g with
    claudeCanonicalModels := g.claudeCanonicalModels.insert (bareModel full) full
    agents :=
      match g.agents[agentClaude]? with
      | none => g.agents
      | some agentStats =>
          g.agents.insert agentClaude (mergeBareIntoFull agentStats (bareModel full) full) }

/-- What registering a name does: note it, and then map it to itself, fold, or nothing. -/
theorem registerCanonicalClaudeModel_cases (g : AggregatorInner) {full : String}
    (named : full ≠ "") :
    (FoldsBare g full ∧
      registerCanonicalClaudeModel g full = foldBare (reportModel g full) full) ∨
    (¬FoldsBare g full ∧ (bareModel full = "" ∨ bareModel full = full) ∧
      registerCanonicalClaudeModel g full =
        { reportModel g full with
          claudeCanonicalModels := g.claudeCanonicalModels.insertIfNew full full }) ∨
    (¬FoldsBare g full ∧ bareModel full ≠ full ∧
      registerCanonicalClaudeModel g full = reportModel g full) := by
  have reported (different : bareModel full ≠ full) :
      (reportModel g full).claudeMetricModels.contains (bareModel full) = true ↔
        bareModel full ∈ g.claudeMetricModels := by
    simp [reportModel, different.symm]
  unfold registerCanonicalClaudeModel
  simp only [if_neg named]
  change _ ∧ (if _ then _ else if (reportModel g full).claudeMetricModels.contains _ = true
    then _ else _) = _ ∨ _
  split
  · rename_i plain
    refine Or.inr (Or.inl ⟨?_, plain, rfl⟩)
    rintro ⟨bare, different, _⟩
    exact plain.elim bare different
  · rename_i suffixed
    rw [not_or] at suffixed
    by_cases known : bareModel full ∈ g.claudeMetricModels
    · refine Or.inr (Or.inr ⟨fun folds => folds.2.2.1 known, suffixed.2, ?_⟩)
      exact if_pos ((reported suffixed.2).mpr known)
    · by_cases mapped : g.claudeCanonicalModels[bareModel full]? = some full
      · refine Or.inr (Or.inr ⟨fun folds => folds.2.2.2 mapped, suffixed.2, ?_⟩)
        exact (if_neg fun contained => known ((reported suffixed.2).mp contained)).trans
          (if_pos mapped)
      · refine Or.inl ⟨⟨suffixed.1, suffixed.2, known, mapped⟩, ?_⟩
        exact (if_neg fun contained => known ((reported suffixed.2).mp contained)).trans
          (if_neg mapped)

theorem mergeBareIntoFull_default (bare full : String) :
    mergeBareIntoFull default bare full = default := by
  have keys : (∅ : ExtTreeMap String BucketStats).keys = [] := ExtTreeMap.keys_eq_nil_iff.mpr rfl
  have buckets : (default : AgentStats).buckets = ∅ := rfl
  unfold mergeBareIntoFull
  simp only [buckets, keys, List.filter_nil, List.takeWhile_nil, List.foldl_nil]
  rfl

theorem foldBare_agent (g : AggregatorInner) (full name : String) :
    (foldBare g full).agent name =
      if name = agentClaude then mergeBareIntoFull (g.agent agentClaude) (bareModel full) full
      else g.agent name := by
  cases found : g.agents[agentClaude]? with
  | none =>
      by_cases same : name = agentClaude
      · subst name
        simp [foldBare, AggregatorInner.agent, found, mergeBareIntoFull_default]
      · simp [foldBare, AggregatorInner.agent, found, same]
  | some agentStats =>
      by_cases same : name = agentClaude
      · subst name
        simp [foldBare, AggregatorInner.agent, found]
      · simp [foldBare, AggregatorInner.agent, found, ExtTreeMap.getElem?_insert, same,
          Ne.symm same]

section Register

variable {g : AggregatorInner} {rest : Bucket →₀ ModelStats} {full : String}

theorem registerCanonicalClaudeModel_frame (g : AggregatorInner) (named : full ≠ "") :
    (registerCanonicalClaudeModel g full).claudeMetricUsage = g.claudeMetricUsage ∧
      (registerCanonicalClaudeModel g full).claudeUsageSources = g.claudeUsageSources ∧
      (registerCanonicalClaudeModel g full).claudeMetricModels =
        g.claudeMetricModels.insert full () ∧
      ClaudeOnly g (registerCanonicalClaudeModel g full) := by
  rcases registerCanonicalClaudeModel_cases g named with
    ⟨_, result⟩ | ⟨_, _, result⟩ | ⟨_, _, result⟩
  · rw [result]
    refine ⟨rfl, rfl, rfl, ?_, rfl, rfl, rfl, rfl⟩
    intro name other
    rw [foldBare_agent, if_neg other]
    rfl
  · rw [result]
    exact ⟨rfl, rfl, rfl, fun _ _ => rfl, rfl, rfl, rfl, rfl⟩
  · rw [result]
    exact ⟨rfl, rfl, rfl, fun _ _ => rfl, rfl, rfl, rfl, rfl⟩

theorem ClaudeTracks.reportModel (tracks : ClaudeTracks g rest) (full : String) :
    ClaudeTracks (reportModel g full) rest where
  represents := tracks.represents
  revocable key perBucket bucket stats found entry := by
    obtain ⟨occupied, keyed, source, reported⟩ :=
      tracks.revocable key perBucket bucket stats found entry
    refine ⟨occupied, keyed, source, ?_⟩
    simp [OtelLogger.reportModel, reported]

/-- A bare name that metrics never reported has no metric usage, so a fold spares it. -/
theorem ClaudeTracks.metricLedgers_renamed (tracks : ClaudeTracks g rest) {bare : String}
    (unreported : bare ∉ g.claudeMetricModels) (full : String) :
    Finsupp.mapDomain (renameModel bare full) (Finsupp.degree g.metricLedgers) =
      Finsupp.degree g.metricLedgers := by
  apply mapDomain_eq_self
  intro bucket present
  obtain ⟨key, amount⟩ := exists_of_degree_apply present
  rw [AggregatorInner.metricLedgers, ledgersOf_apply, ledgerOf_apply] at amount
  cases found : g.claudeMetricUsage[key]? with
  | none => simp [found] at amount
  | some perBucket =>
      cases entry : perBucket[bucket]? with
      | none => simp [found, entry] at amount
      | some stats =>
          apply renameModel_of_ne
          rintro rfl
          exact unreported (tracks.revocable key perBucket bucket stats found entry).2.2.2

open scoped Classical in
theorem ClaudeTracks.registerCanonicalClaudeModel (tracks : ClaudeTracks g rest)
    (named : full ≠ "") :
    ClaudeTracks (registerCanonicalClaudeModel g full)
      (if FoldsBare g full then Finsupp.mapDomain (renameModel (bareModel full) full) rest
        else rest) := by
  rcases registerCanonicalClaudeModel_cases g named with
    ⟨folds, result⟩ | ⟨plain, _, result⟩ | ⟨plain, _, result⟩
  · rw [result, if_pos folds]
    have distinct : nonEmpty full ≠ bareModel full := by
      rw [nonEmpty_of_ne named]
      exact Ne.symm folds.2.1
    refine ⟨?_, (tracks.reportModel full).revocable⟩
    have merged := tracks.represents.mergeBareIntoFull distinct
    rw [Finsupp.mapDomain_add, tracks.metricLedgers_renamed folds.2.2.1] at merged
    have agent := foldBare_agent (OtelLogger.reportModel g full) full agentClaude
    rw [if_pos rfl] at agent
    exact agent ▸ merged
  · rw [result, if_neg plain]
    exact ⟨tracks.represents, (tracks.reportModel full).revocable⟩
  · rw [result, if_neg plain]
    exact tracks.reportModel full

end Register

end OtelLogger
