import OtelLogger.Number
import OtelLogger.Library.Accounts

/-!
Usage counters and the provider/model/effort buckets they are kept in. Counters saturate at
`u64::MAX`; below that bound adding and subtracting are exact, and exact amounts form an
ordered cancellative monoid. `cost_usd` is an exact non-negative number.
-/

namespace OtelLogger

open Std (ExtTreeMap TransOrd LawfulEqOrd)

@[ext]
structure ModelStats where
  requestCount : ℕ := 0
  inputTokens : ℕ := 0
  outputTokens : ℕ := 0
  cacheReadTokens : ℕ := 0
  cacheCreationTokens : ℕ := 0
  reasoningOutputTokens : ℕ := 0
  costUsd : ℚ≥0 := 0
  durationMs : ℕ := 0
  deriving DecidableEq, Inhabited

namespace ModelStats

def add (self sample : ModelStats) : ModelStats where
  requestCount := saturatingAdd self.requestCount sample.requestCount
  inputTokens := saturatingAdd self.inputTokens sample.inputTokens
  outputTokens := saturatingAdd self.outputTokens sample.outputTokens
  cacheReadTokens := saturatingAdd self.cacheReadTokens sample.cacheReadTokens
  cacheCreationTokens := saturatingAdd self.cacheCreationTokens sample.cacheCreationTokens
  reasoningOutputTokens := saturatingAdd self.reasoningOutputTokens sample.reasoningOutputTokens
  costUsd := self.costUsd + sample.costUsd
  durationMs := saturatingAdd self.durationMs sample.durationMs

/-- Subtraction of the amounts is truncated at zero, like `saturating_sub` and `max(0.0)`. -/
def subtract (self sample : ModelStats) : ModelStats where
  requestCount := self.requestCount - sample.requestCount
  inputTokens := self.inputTokens - sample.inputTokens
  outputTokens := self.outputTokens - sample.outputTokens
  cacheReadTokens := self.cacheReadTokens - sample.cacheReadTokens
  cacheCreationTokens := self.cacheCreationTokens - sample.cacheCreationTokens
  reasoningOutputTokens := self.reasoningOutputTokens - sample.reasoningOutputTokens
  costUsd := self.costUsd - sample.costUsd
  durationMs := self.durationMs - sample.durationMs

def hasUsage (self : ModelStats) : Bool :=
  self.inputTokens ≠ 0 || self.outputTokens ≠ 0 || self.cacheReadTokens ≠ 0 ||
    self.cacheCreationTokens ≠ 0 || self.reasoningOutputTokens ≠ 0 || self.costUsd ≠ 0

def hasAnyValue (self : ModelStats) : Bool :=
  self.hasUsage || self.requestCount ≠ 0 || self.durationMs ≠ 0

def saturatingSubStats (self other : ModelStats) : ModelStats :=
  self.subtract other

end ModelStats

inductive Counter where
  | requestCount
  | inputTokens
  | outputTokens
  | cacheReadTokens
  | cacheCreationTokens
  | reasoningOutputTokens
  | durationMs
  deriving DecidableEq

def Counter.isToken : Counter → Bool
  | .requestCount | .durationMs => false
  | _ => true

namespace ModelStats

def counter (self : ModelStats) : Counter → ℕ
  | .requestCount => self.requestCount
  | .inputTokens => self.inputTokens
  | .outputTokens => self.outputTokens
  | .cacheReadTokens => self.cacheReadTokens
  | .cacheCreationTokens => self.cacheCreationTokens
  | .reasoningOutputTokens => self.reasoningOutputTokens
  | .durationMs => self.durationMs

def Fits (self : ModelStats) : Prop :=
  ∀ counter, self.counter counter < 2 ^ 64

/-! Exact amounts. -/

/-- Addition without saturation. -/
def exactAdd (left right : ModelStats) : ModelStats where
  requestCount := left.requestCount + right.requestCount
  inputTokens := left.inputTokens + right.inputTokens
  outputTokens := left.outputTokens + right.outputTokens
  cacheReadTokens := left.cacheReadTokens + right.cacheReadTokens
  cacheCreationTokens := left.cacheCreationTokens + right.cacheCreationTokens
  reasoningOutputTokens := left.reasoningOutputTokens + right.reasoningOutputTokens
  costUsd := left.costUsd + right.costUsd
  durationMs := left.durationMs + right.durationMs

instance : AddCommMonoid ModelStats where
  zero := {}
  add := exactAdd
  add_assoc first second third := by ext <;> exact add_assoc _ _ _
  zero_add stats := by ext <;> exact zero_add _
  add_zero stats := by ext <;> exact add_zero _
  add_comm first second := by ext <;> exact add_comm _ _
  nsmul := @nsmulRec _ ⟨{}⟩ ⟨exactAdd⟩

@[simp] theorem default_eq_zero : (default : ModelStats) = 0 := rfl

@[simp] theorem zero_requestCount : (0 : ModelStats).requestCount = 0 := rfl
@[simp] theorem zero_inputTokens : (0 : ModelStats).inputTokens = 0 := rfl
@[simp] theorem zero_outputTokens : (0 : ModelStats).outputTokens = 0 := rfl
@[simp] theorem zero_cacheReadTokens : (0 : ModelStats).cacheReadTokens = 0 := rfl
@[simp] theorem zero_cacheCreationTokens : (0 : ModelStats).cacheCreationTokens = 0 := rfl
@[simp] theorem zero_reasoningOutputTokens : (0 : ModelStats).reasoningOutputTokens = 0 := rfl
@[simp] theorem zero_costUsd : (0 : ModelStats).costUsd = 0 := rfl
@[simp] theorem zero_durationMs : (0 : ModelStats).durationMs = 0 := rfl

variable (left right : ModelStats)

@[simp] theorem add_requestCount :
    (left + right).requestCount = left.requestCount + right.requestCount := rfl
@[simp] theorem add_inputTokens :
    (left + right).inputTokens = left.inputTokens + right.inputTokens := rfl
@[simp] theorem add_outputTokens :
    (left + right).outputTokens = left.outputTokens + right.outputTokens := rfl
@[simp] theorem add_cacheReadTokens :
    (left + right).cacheReadTokens = left.cacheReadTokens + right.cacheReadTokens := rfl
@[simp] theorem add_cacheCreationTokens :
    (left + right).cacheCreationTokens =
      left.cacheCreationTokens + right.cacheCreationTokens := rfl
@[simp] theorem add_reasoningOutputTokens :
    (left + right).reasoningOutputTokens =
      left.reasoningOutputTokens + right.reasoningOutputTokens := rfl
@[simp] theorem add_costUsd : (left + right).costUsd = left.costUsd + right.costUsd := rfl
@[simp] theorem add_durationMs :
    (left + right).durationMs = left.durationMs + right.durationMs := rfl

instance : IsLeftCancelAdd ModelStats where
  add_left_cancel first second third same := by
    have fields := ModelStats.ext_iff.mp same
    simp only [add_requestCount, add_inputTokens, add_outputTokens, add_cacheReadTokens,
      add_cacheCreationTokens, add_reasoningOutputTokens, add_costUsd, add_durationMs,
      add_right_inj] at fields
    exact ModelStats.ext_iff.mpr fields

def counterHom (counter : Counter) : ModelStats →+ ℕ where
  toFun stats := stats.counter counter
  map_zero' := by cases counter <;> rfl
  map_add' _ _ := by cases counter <;> rfl

@[simp] theorem counterHom_apply (counter : Counter) (stats : ModelStats) :
    counterHom counter stats = stats.counter counter := rfl

@[simp] theorem counter_zero (counter : Counter) : (0 : ModelStats).counter counter = 0 :=
  map_zero (counterHom counter)

@[simp] theorem counter_add (counter : Counter) :
    (left + right).counter counter = left.counter counter + right.counter counter :=
  map_add (counterHom counter) left right

variable {left right}

/-! Amounts are ordered by what is left over. -/

theorem zero_of_add (zero : left + right = 0) : left = 0 ∧ right = 0 := by
  have fields := ModelStats.ext_iff.mp zero
  simp only [add_requestCount, add_inputTokens, add_outputTokens, add_cacheReadTokens,
    add_cacheCreationTokens, add_reasoningOutputTokens, add_costUsd, add_durationMs,
    zero_requestCount, zero_inputTokens, zero_outputTokens, zero_cacheReadTokens,
    zero_cacheCreationTokens, zero_reasoningOutputTokens, zero_costUsd, zero_durationMs,
    add_eq_zero] at fields
  constructor <;> ext <;> simp [fields]

instance : PartialOrder ModelStats where
  le first second := ∃ rest, second = first + rest
  le_refl stats := ⟨0, (add_zero stats).symm⟩
  le_trans first second third := by
    rintro ⟨rest, rfl⟩ ⟨more, rfl⟩
    exact ⟨rest + more, add_assoc _ _ _⟩
  le_antisymm first second := by
    rintro ⟨rest, rfl⟩ ⟨more, same⟩
    rw [add_assoc, left_eq_add] at same
    rw [(zero_of_add same).1, add_zero]

instance : CanonicallyOrderedAdd ModelStats where
  exists_add_of_le covered := covered
  le_add_self _ rest := ⟨rest, add_comm _ _⟩
  le_self_add _ rest := ⟨rest, rfl⟩

instance : IsOrderedAddMonoid ModelStats where
  add_le_add_left first second := by
    rintro ⟨rest, rfl⟩ third
    exact ⟨rest, add_right_comm _ _ _⟩

theorem Fits.of_add (fits : (left + right).Fits) : left.Fits := by
  intro counter
  have bound := fits counter
  rw [counter_add] at bound
  omega

theorem Fits.of_le (fits : right.Fits) (covered : left ≤ right) : left.Fits := by
  obtain ⟨rest, rfl⟩ := covered
  exact fits.of_add

theorem counter_le (covered : left ≤ right) (counter : Counter) :
    left.counter counter ≤ right.counter counter := by
  obtain ⟨rest, rfl⟩ := covered
  simp

theorem add_eq (fits : (left + right).Fits) : left.add right = left + right := by
  have exact_field (counter : Counter) :
      saturatingAdd (left.counter counter) (right.counter counter) =
        left.counter counter + right.counter counter := by
    have bound := fits counter
    rw [counter_add] at bound
    simp only [saturatingAdd, u64Max]
    omega
  ext
  · exact exact_field .requestCount
  · exact exact_field .inputTokens
  · exact exact_field .outputTokens
  · exact exact_field .cacheReadTokens
  · exact exact_field .cacheCreationTokens
  · exact exact_field .reasoningOutputTokens
  · rfl
  · exact exact_field .durationMs

@[simp] theorem add_subtract (rest amount : ModelStats) :
    (amount + rest).subtract amount = rest := by
  ext <;> simp [subtract]

theorem add_eq_zero_iff {self sample : ModelStats} :
    self.add sample = 0 ↔ self = 0 ∧ sample = 0 := by
  have counters (first second : ℕ) : saturatingAdd first second = 0 ↔ first = 0 ∧ second = 0 := by
    unfold saturatingAdd u64Max
    omega
  simp only [ModelStats.ext_iff, add, zero_requestCount, zero_inputTokens, zero_outputTokens,
    zero_cacheReadTokens, zero_cacheCreationTokens, zero_reasoningOutputTokens, zero_costUsd,
    zero_durationMs, counters, add_eq_zero]
  tauto

theorem hasUsage_zero : (0 : ModelStats).hasUsage = false := by
  simp [hasUsage]

theorem hasAnyValue_iff {stats : ModelStats} : stats.hasAnyValue = true ↔ stats ≠ 0 := by
  rw [ne_eq, ModelStats.ext_iff]
  simp only [hasAnyValue, hasUsage, Bool.or_eq_true, decide_eq_true_eq, zero_requestCount,
    zero_inputTokens, zero_outputTokens, zero_cacheReadTokens, zero_cacheCreationTokens,
    zero_reasoningOutputTokens, zero_costUsd, zero_durationMs]
  tauto

theorem hasAnyValue_eq_false {stats : ModelStats} : stats.hasAnyValue = false ↔ stats = 0 := by
  rw [← Bool.not_eq_true, hasAnyValue_iff, not_not]

theorem ne_zero_iff {stats : ModelStats} :
    stats ≠ 0 ↔ (∃ counter, stats.counter counter ≠ 0) ∨ stats.costUsd ≠ 0 := by
  constructor
  · intro occupied
    by_contra empty
    rw [not_or, not_exists, not_not] at empty
    have counters (counter : Counter) : stats.counter counter = 0 := not_not.mp (empty.1 counter)
    apply occupied
    ext
    · exact counters .requestCount
    · exact counters .inputTokens
    · exact counters .outputTokens
    · exact counters .cacheReadTokens
    · exact counters .cacheCreationTokens
    · exact counters .reasoningOutputTokens
    · exact congrArg NNRat.cast empty.2
    · exact counters .durationMs
  · rintro (⟨counter, positive⟩ | cost) rfl
    · exact positive (counter_zero counter)
    · exact cost rfl

theorem ne_zero_of_hasUsage {stats : ModelStats} (used : stats.hasUsage = true) : stats ≠ 0 :=
  hasAnyValue_iff.mp (by simp [hasAnyValue, used])

end ModelStats

end OtelLogger
