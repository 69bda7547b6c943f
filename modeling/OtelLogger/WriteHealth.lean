import OtelLogger.Number

/-!
Reports about an output that fails: `WriteHealth` sees every failed and every successful write and
says when an outage starts, goes on, or is over. The times are those of a monotonic clock, in
nanoseconds.
-/

namespace OtelLogger

def prettyFailureReportInterval : ℕ := 10 * 60 * 10 ^ 9

def prettyRecoveryQuietPeriod : ℕ := 60 * 10 ^ 9

structure FailureStreak where
  since : ℕ
  failures : ℕ
  lastFailure : ℕ
  lastReport : ℕ

structure WriteHealth where
  failing : Option FailureStreak := none

inductive HealthReport where
  | silent
  | started
  | ongoing (failures elapsed : ℕ)
  | recovered (failures elapsed : ℕ)
  deriving DecidableEq

inductive HealthEvent where
  | failure (now : ℕ)
  | success (now : ℕ)
  deriving DecidableEq

namespace HealthEvent

def now : HealthEvent → ℕ
  | failure now => now
  | success now => now

def isFailure : HealthEvent → Bool
  | failure _ => true
  | success _ => false

end HealthEvent

namespace WriteHealth

def onFailure (self : WriteHealth) (now : ℕ) : HealthReport × WriteHealth :=
  match self.failing with
  | none =>
      (.started,
        { failing := some { since := now, failures := 1, lastFailure := now, lastReport := now } })
  | some streak =>
      let streak :=
        { streak with failures := saturatingAdd streak.failures 1, lastFailure := now }
      if now - streak.lastReport < prettyFailureReportInterval then
        (.silent, { failing := some streak })
      else
        (.ongoing streak.failures (now - streak.since),
          { failing := some { streak with lastReport := now } })

def onSuccess (self : WriteHealth) (now : ℕ) : HealthReport × WriteHealth :=
  match self.failing with
  | some streak =>
      if prettyRecoveryQuietPeriod ≤ now - streak.lastFailure then
        (.recovered streak.failures (now - streak.since), { failing := none })
      else (.silent, self)
  | none => (.silent, self)

/-- The failures, how long the outage lasts, and how long ago the last failure was. -/
def unresolved (self : WriteHealth) (now : ℕ) : Option (ℕ × ℕ × ℕ) :=
  self.failing.map fun streak => (streak.failures, now - streak.since, now - streak.lastFailure)

def handle (self : WriteHealth) : HealthEvent → HealthReport × WriteHealth
  | .failure now => self.onFailure now
  | .success now => self.onSuccess now

def handleAll (self : WriteHealth) (events : List HealthEvent) : WriteHealth :=
  events.foldl (fun health event => (health.handle event).2) self

/-- Every event with what was reported for it. -/
def observe (self : WriteHealth) : List HealthEvent → List (HealthEvent × HealthReport)
  | [] => []
  | event :: rest => (event, (self.handle event).1) :: (self.handle event).2.observe rest

end WriteHealth

/-! ### Outages in a history -/

/-- A part of a history that begins with a `started` and has no `recovered`. -/
abbrev Outage := List (HealthEvent × HealthReport)

namespace Outage

/-- The outage that is open after one more entry; the empty list if none is. -/
def extend (outage : Outage) (entry : HealthEvent × HealthReport) : Outage :=
  match entry.2, outage with
  | .started, _ => [entry]
  | .recovered _ _, _ => []
  | _, [] => []
  | _, first :: rest => first :: rest ++ [entry]

def openAfter (history : List (HealthEvent × HealthReport)) : Outage :=
  history.foldl extend []

def began? (outage : Outage) : Option ℕ :=
  outage.head?.map fun entry => entry.1.now

def failures (outage : Outage) : ℕ :=
  outage.countP fun entry => entry.1.isFailure

def lastFailure? (outage : Outage) : Option ℕ :=
  (outage.filter fun entry => entry.1.isFailure).getLast?.map fun entry => entry.1.now

def lastReport? (outage : Outage) : Option ℕ :=
  (outage.filter fun entry => entry.2 ≠ .silent).getLast?.map fun entry => entry.1.now

variable {outage : Outage} {entry : HealthEvent × HealthReport}

theorem began?_concat (begun : outage ≠ []) :
    began? (outage ++ [entry]) = began? outage := by
  obtain ⟨first, rest, rfl⟩ := List.exists_cons_of_ne_nil begun
  rfl

theorem failures_concat :
    failures (outage ++ [entry]) = failures outage + entry.1.isFailure.toNat := by
  rw [failures, List.countP_append, ← failures]
  cases own : entry.1.isFailure <;> simp [own]

theorem lastFailure?_concat :
    lastFailure? (outage ++ [entry]) =
      if entry.1.isFailure then some entry.1.now else lastFailure? outage := by
  rw [lastFailure?, List.filter_append]
  split
  · rename_i own
    simp [own]
  · rename_i own
    simp [own, lastFailure?]

theorem lastReport?_concat :
    lastReport? (outage ++ [entry]) =
      if entry.2 = .silent then lastReport? outage else some entry.1.now := by
  rw [lastReport?, List.filter_append]
  split
  · rename_i own
    simp [own, lastReport?]
  · rename_i own
    simp [own]

theorem extend_concat (begun : outage ≠ []) (goesOn : entry.2 ≠ .started)
    (unrecovered : ∀ failures elapsed, entry.2 ≠ .recovered failures elapsed) :
    extend outage entry = outage ++ [entry] := by
  obtain ⟨first, rest, rfl⟩ := List.exists_cons_of_ne_nil begun
  obtain ⟨event, report⟩ := entry
  cases report with
  | started => exact absurd rfl goesOn
  | recovered failures elapsed => exact absurd rfl (unrecovered failures elapsed)
  | silent => rfl
  | ongoing failures elapsed => rfl

end Outage

/-! ### One event -/

/-- What happens at an event, one constructor for each branch. -/
inductive WriteHealth.Handles (health : WriteHealth) :
    HealthEvent → HealthReport → WriteHealth → Prop where
  | start (now : ℕ) (here : health.failing = none) :
      Handles health (.failure now) .started
        { failing := some { since := now, failures := 1, lastFailure := now, lastReport := now } }
  | again (now : ℕ) (streak : FailureStreak) (here : health.failing = some streak)
      (soon : now < streak.lastReport + prettyFailureReportInterval) :
      Handles health (.failure now) .silent
        { failing := some
            { streak with failures := saturatingAdd streak.failures 1, lastFailure := now } }
  | remind (now : ℕ) (streak : FailureStreak) (here : health.failing = some streak)
      (late : streak.lastReport + prettyFailureReportInterval ≤ now) :
      Handles health (.failure now)
        (.ongoing (saturatingAdd streak.failures 1) (now - streak.since))
        { failing := some
            { streak with
              failures := saturatingAdd streak.failures 1
              lastFailure := now
              lastReport := now } }
  | recover (now : ℕ) (streak : FailureStreak) (here : health.failing = some streak)
      (late : streak.lastFailure + prettyRecoveryQuietPeriod ≤ now) :
      Handles health (.success now) (.recovered streak.failures (now - streak.since))
        { failing := none }
  | wait (now : ℕ) (streak : FailureStreak) (here : health.failing = some streak)
      (soon : now < streak.lastFailure + prettyRecoveryQuietPeriod) :
      Handles health (.success now) .silent health
  | idle (now : ℕ) (here : health.failing = none) : Handles health (.success now) .silent health

theorem WriteHealth.handles (health : WriteHealth) (event : HealthEvent) :
    health.Handles event (health.handle event).1 (health.handle event).2 := by
  cases event with
  | failure now =>
      cases here : health.failing with
      | none =>
          simp only [handle, onFailure, here]
          exact .start now here
      | some streak =>
          simp only [handle, onFailure, here]
          split
          · exact .again now streak here (by unfold prettyFailureReportInterval at *; omega)
          · exact .remind now streak here (by unfold prettyFailureReportInterval at *; omega)
  | success now =>
      cases here : health.failing with
      | none =>
          simp only [handle, onSuccess, here]
          exact .idle now here
      | some streak =>
          simp only [handle, onSuccess, here]
          split
          · exact .recover now streak here (by unfold prettyRecoveryQuietPeriod at *; omega)
          · exact .wait now streak here (by unfold prettyRecoveryQuietPeriod at *; omega)

/-- A streak holds the figures of the outage. -/
structure FailureStreak.Tracks (streak : FailureStreak) (outage : Outage) : Prop where
  began : outage.began? = some streak.since
  failures : streak.failures = min outage.failures u64Max
  lastFailure : outage.lastFailure? = some streak.lastFailure
  lastReport : outage.lastReport? = some streak.lastReport

theorem FailureStreak.Tracks.begun {streak : FailureStreak} {outage : Outage}
    (tracks : streak.Tracks outage) : outage ≠ [] := by
  rintro rfl
  cases tracks.began

/-- One more entry of the outage, and a streak that took note of it. -/
theorem FailureStreak.Tracks.concat {streak next : FailureStreak} {outage : Outage}
    {entry : HealthEvent × HealthReport} (tracks : streak.Tracks outage)
    (since : next.since = streak.since)
    (failures : next.failures = min (streak.failures + entry.1.isFailure.toNat) u64Max)
    (lastFailure : next.lastFailure =
      if entry.1.isFailure then entry.1.now else streak.lastFailure)
    (lastReport : next.lastReport =
      if entry.2 = .silent then streak.lastReport else entry.1.now) :
    next.Tracks (outage ++ [entry]) where
  began := by rw [Outage.began?_concat tracks.begun, tracks.began, since]
  failures := by
    have before := tracks.failures
    rw [Outage.failures_concat, failures]
    omega
  lastFailure := by
    rw [Outage.lastFailure?_concat, tracks.lastFailure, lastFailure]
    split <;> rfl
  lastReport := by
    rw [Outage.lastReport?_concat, tracks.lastReport, lastReport]
    split <;> rfl

structure WriteHealth.Tracks (health : WriteHealth) (outage : Outage) : Prop where
  idle : health.failing = none → outage = []
  failing : ∀ streak, health.failing = some streak → streak.Tracks outage

theorem WriteHealth.Tracks.extend {health : WriteHealth} {outage : Outage}
    (tracks : health.Tracks outage) (event : HealthEvent) :
    (health.handle event).2.Tracks (outage.extend (event, (health.handle event).1)) := by
  have done := health.handles event
  generalize (health.handle event).1 = report at *
  generalize (health.handle event).2 = next at *
  cases done with
  | start now here =>
      refine ⟨by simp, ?_⟩
      rintro streak same
      obtain rfl := Option.some.inj same
      exact ⟨rfl, rfl, rfl, rfl⟩
  | again now streak here soon =>
      have held := tracks.failing streak here
      rw [Outage.extend_concat held.begun (by simp) (by simp)]
      refine ⟨by simp, ?_⟩
      rintro next same
      obtain rfl := Option.some.inj same
      exact held.concat rfl rfl rfl rfl
  | remind now streak here late =>
      have held := tracks.failing streak here
      rw [Outage.extend_concat held.begun (by simp) (by simp)]
      refine ⟨by simp, ?_⟩
      rintro next same
      obtain rfl := Option.some.inj same
      exact held.concat rfl rfl rfl rfl
  | recover now streak here late => exact ⟨fun _ => rfl, by simp⟩
  | wait now streak here soon =>
      have held := tracks.failing streak here
      have bounded : streak.failures = min (streak.failures + 0) u64Max := by
        have before := held.failures
        omega
      rw [Outage.extend_concat held.begun (by simp) (by simp)]
      refine ⟨by simp [here], ?_⟩
      rintro next same
      obtain rfl := Option.some.inj (here.symm.trans same)
      exact held.concat rfl bounded rfl rfl
  | idle now here =>
      obtain rfl := tracks.idle here
      exact ⟨fun _ => rfl, by simp [here]⟩

/-! ### Histories -/

namespace WriteHealth

theorem observe_append (health : WriteHealth) (before after : List HealthEvent) :
    health.observe (before ++ after) =
      health.observe before ++ (health.handleAll before).observe after := by
  induction before generalizing health with
  | nil => rfl
  | cons event before ih =>
      rw [List.cons_append, observe, observe, List.cons_append, ih]
      rfl

@[simp] theorem observe_fst (health : WriteHealth) (events : List HealthEvent) :
    (health.observe events).map Prod.fst = events := by
  induction events generalizing health with
  | nil => rfl
  | cons event events ih => rw [observe, List.map_cons, ih]

/-- Each report is what the state after the events before it gives. -/
theorem observe_split {health : WriteHealth} {events : List HealthEvent}
    {before after : List (HealthEvent × HealthReport)} {event : HealthEvent}
    {report : HealthReport} (split : health.observe events = before ++ (event, report) :: after) :
    before = health.observe (before.map Prod.fst) ∧
      report = ((health.handleAll (before.map Prod.fst)).handle event).1 := by
  have own := health.observe_fst events
  rw [split, List.map_append, List.map_cons] at own
  rw [← own, observe_append] at split
  have lengths : (health.observe (before.map Prod.fst)).length = before.length := by
    rw [← List.length_map Prod.fst, observe_fst, List.length_map]
  obtain ⟨front, back⟩ := List.append_inj split lengths
  refine ⟨front.symm, ?_⟩
  rw [observe, List.cons_eq_cons, Prod.mk.injEq] at back
  exact back.1.2.symm

theorem tracks_observe (events : List HealthEvent) :
    (handleAll {} events).Tracks (Outage.openAfter (observe {} events)) := by
  induction events using List.reverseRecOn with
  | nil => exact ⟨fun _ => rfl, by simp [handleAll]⟩
  | append_singleton events event ih =>
      rw [observe_append, observe, observe, Outage.openAfter, List.foldl_concat, handleAll,
        List.foldl_concat]
      exact ih.extend event

theorem unresolved_eq_none_iff (events : List HealthEvent) (now : ℕ) :
    (handleAll {} events).unresolved now = none ↔ Outage.openAfter (observe {} events) = [] := by
  have tracks := tracks_observe events
  cases here : (handleAll {} events).failing with
  | none => simp [unresolved, here, tracks.idle here]
  | some streak => simp [unresolved, here, (tracks.failing streak here).begun]

end WriteHealth

/-! ### The reports of a whole history -/

inductive Notice where
  | started
  | ongoing
  | recovered
  deriving DecidableEq

def HealthReport.notice? : HealthReport → Option Notice
  | silent => none
  | started => some .started
  | ongoing _ _ => some .ongoing
  | recovered _ _ => some .recovered

/-- An outage that is over and was reported again so often in between. -/
def closedOutage (again : ℕ) : List Notice :=
  .started :: List.replicate again .ongoing ++ [.recovered]

def openOutage (again : ℕ) : List Notice :=
  .started :: List.replicate again .ongoing

namespace WriteHealth

def notices (events : List HealthEvent) : List Notice :=
  (observe {} events).filterMap fun entry => entry.2.notice?

theorem notices_concat (events : List HealthEvent) (event : HealthEvent) :
    notices (events ++ [event]) =
      notices events ++ (((handleAll {} events).handle event).1.notice?).toList := by
  rw [notices, observe_append, List.filterMap_append, ← notices, observe, observe,
    List.filterMap_cons, List.filterMap_nil]
  cases ((handleAll {} events).handle event).1.notice? <;> rfl

theorem handleAll_concat (events : List HealthEvent) (event : HealthEvent) :
    handleAll {} (events ++ [event]) = ((handleAll {} events).handle event).2 :=
  List.foldl_concat ..

/-- The outages that are over, and the one that is open if there is one. -/
theorem notices_shape (events : List HealthEvent) :
    ∃ closed : List ℕ, match (handleAll {} events).failing with
      | none => notices events = closed.flatMap closedOutage
      | some _ => ∃ again, notices events = closed.flatMap closedOutage ++ openOutage again := by
  induction events using List.reverseRecOn with
  | nil => exact ⟨[], rfl⟩
  | append_singleton events event ih =>
      rw [notices_concat, handleAll_concat]
      obtain ⟨closed, shape⟩ := ih
      have done := (handleAll {} events).handles event
      generalize ((handleAll {} events).handle event).1 = report at *
      generalize ((handleAll {} events).handle event).2 = next at *
      cases done with
      | start now here =>
          rw [here] at shape
          exact ⟨closed, 0, by rw [shape]; rfl⟩
      | again now streak here soon =>
          rw [here] at shape
          simpa [HealthReport.notice?] using ⟨closed, shape⟩
      | remind now streak here late =>
          rw [here] at shape
          obtain ⟨again, shape⟩ := shape
          refine ⟨closed, again + 1, ?_⟩
          rw [shape, List.append_assoc, openOutage, openOutage, List.replicate_succ']
          rfl
      | recover now streak here late =>
          rw [here] at shape
          obtain ⟨again, shape⟩ := shape
          refine ⟨closed ++ [again], ?_⟩
          simp only [shape, List.flatMap_append, List.flatMap_singleton, List.append_assoc]
          rfl
      | wait now streak here soon =>
          rw [here] at shape ⊢
          simpa [HealthReport.notice?] using ⟨closed, shape⟩
      | idle now here =>
          rw [here] at shape ⊢
          simpa [HealthReport.notice?] using ⟨closed, shape⟩

theorem extend_subset (outage : Outage) (entry : HealthEvent × HealthReport) :
    outage.extend entry ⊆ outage ++ [entry] := by
  unfold Outage.extend
  split
  · exact List.subset_append_right _ _
  · exact List.nil_subset _
  · exact List.nil_subset _
  · exact List.Subset.refl _

theorem openAfter_subset (history : List (HealthEvent × HealthReport)) :
    Outage.openAfter history ⊆ history := by
  induction history using List.reverseRecOn with
  | nil => exact List.Subset.refl _
  | append_singleton history entry ih =>
      rw [Outage.openAfter, List.foldl_concat, ← Outage.openAfter]
      exact List.Subset.trans (extend_subset _ _) (List.append_subset.mpr
        ⟨List.Subset.trans ih (List.subset_append_left _ _), List.subset_append_right _ _⟩)

/-- The outage began no later than what comes next. -/
theorem began_le {events : List HealthEvent}
    (ordered : events.Pairwise fun first second => first.now ≤ second.now)
    {before after : List (HealthEvent × HealthReport)} {event : HealthEvent}
    {report : HealthReport} (split : observe {} events = before ++ (event, report) :: after)
    {began : ℕ} (own : (Outage.openAfter before).began? = some began) : began ≤ event.now := by
  obtain ⟨entry, first, rfl⟩ := Option.map_eq_some_iff.mp own
  have member : entry ∈ before := openAfter_subset before (List.mem_of_head? first)
  have times := observe_fst {} events
  rw [split, List.map_append, List.map_cons] at times
  rw [← times, List.pairwise_append] at ordered
  exact ordered.2.2 entry.1 (List.mem_map_of_mem member) event List.mem_cons_self

/-- What a report says about an outage: which failure starts it, which is reported again, which
success ends it, and the figures. -/
structure Reports (outage : Outage) (event : HealthEvent) (report : HealthReport) : Prop where
  started : report = .started ↔ event.isFailure = true ∧ outage = []
  ongoing : (∃ failures elapsed, report = .ongoing failures elapsed) ↔
    event.isFailure = true ∧ ∃ last, outage.lastReport? = some last ∧
      last + prettyFailureReportInterval ≤ event.now
  recovered : (∃ failures elapsed, report = .recovered failures elapsed) ↔
    event.isFailure = false ∧ ∃ last, outage.lastFailure? = some last ∧
      last + prettyRecoveryQuietPeriod ≤ event.now
  figures : ∀ failures elapsed,
    report = .ongoing failures elapsed ∨ report = .recovered failures elapsed →
      failures = min (Outage.failures (outage ++ [(event, report)])) u64Max ∧
      ∃ began, outage.began? = some began ∧ began + elapsed = event.now

theorem Handles.reports {health next : WriteHealth} {outage : Outage} {event : HealthEvent}
    {report : HealthReport} (done : health.Handles event report next)
    (tracks : health.Tracks outage)
    (start : ∀ began, outage.began? = some began → began ≤ event.now) :
    Reports outage event report := by
  cases done with
  | start now here =>
      obtain rfl := tracks.idle here
      exact ⟨by simp [HealthEvent.isFailure], by simp [Outage.lastReport?],
        by simp [HealthEvent.isFailure], by simp⟩
  | again now streak here soon =>
      have held := tracks.failing streak here
      refine ⟨by simp [held.begun], ?_, by simp [HealthEvent.isFailure], by simp⟩
      simpa [held.lastReport, HealthEvent.isFailure, HealthEvent.now] using soon
  | remind now streak here late =>
      have held := tracks.failing streak here
      refine ⟨by simp [held.begun], ?_, by simp [HealthEvent.isFailure], ?_⟩
      · simpa [held.lastReport, HealthEvent.isFailure, HealthEvent.now] using late
      rintro failures elapsed (same | impossible)
      · obtain ⟨rfl, rfl⟩ := HealthReport.ongoing.inj same
        have began := start streak.since held.began
        have sum := held.failures
        rw [Outage.failures_concat]
        refine ⟨?_, streak.since, held.began, ?_⟩
        · simp only [saturatingAdd, HealthEvent.isFailure, Bool.toNat_true]
          omega
        · simp only [HealthEvent.now] at began ⊢
          omega
      · cases impossible
  | recover now streak here late =>
      have held := tracks.failing streak here
      refine ⟨by simp [HealthEvent.isFailure], by simp [HealthEvent.isFailure], ?_, ?_⟩
      · simpa [held.lastFailure, HealthEvent.isFailure, HealthEvent.now] using late
      rintro failures elapsed (impossible | same)
      · cases impossible
      · obtain ⟨rfl, rfl⟩ := HealthReport.recovered.inj same
        have began := start streak.since held.began
        rw [Outage.failures_concat]
        refine ⟨held.failures, streak.since, held.began, ?_⟩
        simp only [HealthEvent.now] at began ⊢
        omega
  | wait now streak here soon =>
      have held := tracks.failing streak here
      refine ⟨by simp [HealthEvent.isFailure], by simp [HealthEvent.isFailure], ?_, by simp⟩
      simpa [held.lastFailure, HealthEvent.isFailure, HealthEvent.now] using soon
  | idle now here =>
      obtain rfl := tracks.idle here
      exact ⟨by simp [HealthEvent.isFailure], by simp [HealthEvent.isFailure],
        by simp [Outage.lastFailure?], by simp⟩

/-- Every history of reports is a sequence of outages, each reported when it starts, possibly
again while it goes on, and when it is over. A failure is reported as the start if no outage is
open, and again ten minutes after the last report or later; a success ends the outage if the last
failure is a minute ago. What is reported are the failures of the outage and the time since it
began. -/
theorem outages_reported {events : List HealthEvent}
    (ordered : events.Pairwise fun first second => first.now ≤ second.now) :
    (∃ (closed : List ℕ) (last : Option ℕ),
      notices events = closed.flatMap closedOutage ++ (last.map openOutage).getD []) ∧
    ∀ before event report after, observe {} events = before ++ (event, report) :: after →
      Reports (Outage.openAfter before) event report := by
  refine ⟨?_, ?_⟩
  · obtain ⟨closed, shape⟩ := notices_shape events
    split at shape
    · exact ⟨closed, none, by rw [shape]; simp⟩
    · obtain ⟨again, shape⟩ := shape
      exact ⟨closed, some again, shape⟩
  · intro before event report after split
    obtain ⟨earlier, own⟩ := observe_split split
    have tracks := tracks_observe (before.map Prod.fst)
    have done := (handleAll {} (before.map Prod.fst)).handles event
    rw [← earlier] at tracks
    rw [← own] at done
    exact done.reports tracks fun began same => began_le ordered split same

/-- A success after half a minute, a failure after exactly ten, and a success a minute later. -/
def longOutage : List HealthEvent :=
  [.failure 0, .failure (60 * 10 ^ 9), .success (90 * 10 ^ 9), .failure (600 * 10 ^ 9)]

theorem outages_reported_long :
    notices (longOutage ++ [HealthEvent.success (660 * 10 ^ 9)]) = [.started, .ongoing, .recovered] ∧
      Reports (Outage.openAfter (observe {} longOutage)) (.success (660 * 10 ^ 9))
        (.recovered 3 (660 * 10 ^ 9)) := by
  have ordered : (longOutage ++ [HealthEvent.success (660 * 10 ^ 9)]).Pairwise
      fun first second : HealthEvent => first.now ≤ second.now := by decide
  have last : observe {} (longOutage ++ [HealthEvent.success (660 * 10 ^ 9)]) =
      observe {} longOutage ++ [(.success (660 * 10 ^ 9), .recovered 3 (660 * 10 ^ 9))] := by
    decide +kernel
  exact ⟨by decide +kernel, (outages_reported ordered).2 _ _ _ [] last⟩

end WriteHealth

end OtelLogger
