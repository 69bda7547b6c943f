import OtelLogger.UsageStats

/-!
Provider/model/effort buckets, the string key each is stored under, and the bucket map of one
agent. The key escapes its components, so different buckets never share an entry.
-/

namespace OtelLogger

open Std (ExtTreeMap TransOrd LawfulEqOrd TransCmp)

def unknown : String := "unknown"

def nonEmpty (text : String) : String :=
  if text = "" then unknown else text

theorem nonEmpty_ne (text : String) : nonEmpty text ≠ "" := by
  unfold nonEmpty
  split
  · decide
  · assumption

theorem nonEmpty_of_ne {text : String} (named : text ≠ "") : nonEmpty text = text :=
  if_neg named

@[simp] theorem nonEmpty_unknown : nonEmpty unknown = unknown := by decide

@[simp] theorem nonEmpty_idem (text : String) : nonEmpty (nonEmpty text) = nonEmpty text :=
  nonEmpty_of_ne (nonEmpty_ne text)

/-- No component of a bucket is empty: `fromParts` reads an empty one as `unknown`. -/
@[ext]
structure Bucket where
  provider : String
  model : String
  effort : String
  named : provider ≠ "" ∧ model ≠ "" ∧ effort ≠ ""
  deriving DecidableEq

namespace Bucket

def fromParts (provider model effort : String) : Bucket where
  provider := nonEmpty provider
  model := nonEmpty model
  effort := nonEmpty effort
  named := ⟨nonEmpty_ne provider, nonEmpty_ne model, nonEmpty_ne effort⟩

@[simp] theorem fromParts_provider (provider model effort : String) :
    (fromParts provider model effort).provider = nonEmpty provider := rfl

@[simp] theorem fromParts_model (provider model effort : String) :
    (fromParts provider model effort).model = nonEmpty model := rfl

@[simp] theorem fromParts_effort (provider model effort : String) :
    (fromParts provider model effort).effort = nonEmpty effort := rfl

def components (bucket : Bucket) : List String :=
  [bucket.provider, bucket.model, bucket.effort]

theorem components_injective : Function.Injective components := by
  intro first second same
  simp only [components, List.cons.injEq, and_true] at same
  exact Bucket.ext same.1 same.2.1 same.2.2

/-- Buckets are ordered by provider, then model, then effort. -/
instance : Ord Bucket where
  compare first second := compare first.components second.components

instance : TransOrd Bucket :=
  inferInstanceAs (TransCmp (compareOn components))

instance : LawfulEqOrd Bucket where
  eq_of_compare same := components_injective (Std.compare_eq_iff_eq.mp same)

end Bucket

def escapeChar (c : Char) : List Char :=
  if c = '%' then ['%', '2', '5'] else if c = '/' then ['%', '2', 'F'] else [c]

def escapeBucketComponent (component : String) : String :=
  String.ofList (component.toList.flatMap escapeChar)

/-- The key that serialized output uses: `provider/model/effort`, escaped. -/
def Bucket.key (bucket : Bucket) : String :=
  escapeBucketComponent bucket.provider ++ "/" ++ escapeBucketComponent bucket.model ++ "/" ++
    escapeBucketComponent bucket.effort

theorem escapeChar_no_slash (c : Char) : '/' ∉ escapeChar c := by
  unfold escapeChar
  split
  · decide
  · split
    · decide
    · rename_i notSlash
      simpa using Ne.symm notSlash

theorem escape_no_slash (component : String) :
    '/' ∉ (escapeBucketComponent component).toList := by
  simp only [escapeBucketComponent, String.toList_ofList, List.mem_flatMap, not_exists, not_and]
  exact fun c _ => escapeChar_no_slash c

theorem escapeChar_ne_nil (c : Char) : escapeChar c ≠ [] := by
  unfold escapeChar
  split
  · simp
  · split <;> simp

/-- The escapes of two characters never run into each other, so escaped text reads one way. -/
theorem escapeChar_append_inj {first second : Char} {firstRest secondRest : List Char}
    (same : escapeChar first ++ firstRest = escapeChar second ++ secondRest) :
    first = second ∧ firstRest = secondRest := by
  have plain (c : Char) (notPercent : c ≠ '%') (notSlash : c ≠ '/') : escapeChar c = [c] := by
    simp [escapeChar, notPercent, notSlash]
  have percent : escapeChar '%' = ['%', '2', '5'] := rfl
  have slash : escapeChar '/' = ['%', '2', 'F'] := rfl
  rcases eq_or_ne first '%' with rfl | firstPercent <;>
    rcases eq_or_ne second '%' with rfl | secondPercent
  · simpa using same
  · rcases eq_or_ne second '/' with rfl | secondSlash
    · simp [percent, slash] at same
    · simp [percent, plain second secondPercent secondSlash, Ne.symm secondPercent] at same
  · rcases eq_or_ne first '/' with rfl | firstSlash
    · simp [percent, slash] at same
    · simp [percent, plain first firstPercent firstSlash, firstPercent] at same
  · rcases eq_or_ne first '/' with rfl | firstSlash <;>
      rcases eq_or_ne second '/' with rfl | secondSlash
    · simpa using same
    · simp [slash, plain second secondPercent secondSlash, Ne.symm secondPercent] at same
    · simp [slash, plain first firstPercent firstSlash, firstPercent] at same
    · simpa [plain first firstPercent firstSlash, plain second secondPercent secondSlash]
        using same

theorem flatMap_escapeChar_injective : ∀ first second : List Char,
    first.flatMap escapeChar = second.flatMap escapeChar → first = second := by
  intro first
  induction first with
  | nil =>
      intro second same
      cases second with
      | nil => rfl
      | cons d others =>
          simp only [List.flatMap_nil, List.flatMap_cons] at same
          exact absurd (List.append_eq_nil_iff.mp same.symm).1 (escapeChar_ne_nil d)
  | cons c rest ih =>
      intro second same
      cases second with
      | nil =>
          simp only [List.flatMap_nil, List.flatMap_cons] at same
          exact absurd (List.append_eq_nil_iff.mp same).1 (escapeChar_ne_nil c)
      | cons d others =>
          simp only [List.flatMap_cons] at same
          obtain ⟨head, tail⟩ := escapeChar_append_inj same
          rw [head, ih others tail]

theorem escapeBucketComponent_injective : Function.Injective escapeBucketComponent := by
  intro first second same
  apply String.toList_injective
  exact flatMap_escapeChar_injective _ _ (String.ofList_injective same)

theorem slash_split {firstHead secondHead firstTail secondTail : List Char}
    (firstFree : '/' ∉ firstHead) (secondFree : '/' ∉ secondHead)
    (same : firstHead ++ '/' :: firstTail = secondHead ++ '/' :: secondTail) :
    firstHead = secondHead ∧ firstTail = secondTail := by
  induction firstHead generalizing secondHead with
  | nil =>
      cases secondHead with
      | nil => simpa using same
      | cons d others =>
          simp only [List.nil_append, List.cons_append, List.cons.injEq] at same
          exact absurd (List.mem_cons.mpr (Or.inl same.1)) secondFree
  | cons c rest ih =>
      cases secondHead with
      | nil =>
          simp only [List.nil_append, List.cons_append, List.cons.injEq] at same
          exact absurd (List.mem_cons.mpr (Or.inl same.1.symm)) firstFree
      | cons d others =>
          simp only [List.cons_append, List.cons.injEq] at same
          have tails := ih (fun member => firstFree (List.mem_cons_of_mem c member))
            (fun member => secondFree (List.mem_cons_of_mem d member)) same.2
          rw [same.1, tails.1]
          exact ⟨rfl, tails.2⟩

/-- The key of a provider, model and effort, whatever texts they are. -/
def bucketKey (provider model effort : String) : String :=
  escapeBucketComponent provider ++ "/" ++ escapeBucketComponent model ++ "/" ++
    escapeBucketComponent effort

theorem bucketKey_injective {provider model effort otherProvider otherModel otherEffort : String}
    (same : bucketKey provider model effort = bucketKey otherProvider otherModel otherEffort) :
    provider = otherProvider ∧ model = otherModel ∧ effort = otherEffort := by
  have slash : ("/" : String).toList = ['/'] := rfl
  have chars := congrArg String.toList same
  simp only [bucketKey, String.toList_append, List.append_assoc, slash, List.singleton_append]
    at chars
  obtain ⟨providers, rest⟩ := slash_split (escape_no_slash _) (escape_no_slash _) chars
  obtain ⟨models, efforts⟩ := slash_split (escape_no_slash _) (escape_no_slash _) rest
  exact ⟨escapeBucketComponent_injective (String.toList_injective providers),
    escapeBucketComponent_injective (String.toList_injective models),
    escapeBucketComponent_injective (String.toList_injective efforts)⟩

theorem Bucket.key_injective : Function.Injective Bucket.key := by
  intro first second same
  obtain ⟨provider, model, effort⟩ := bucketKey_injective same
  exact Bucket.ext provider model effort

structure BucketStats extends Bucket where
  stats : ModelStats

def BucketStats.fromBucket (bucket : Bucket) : BucketStats :=
  { bucket with stats := {} }

@[simp] theorem BucketStats.fromBucket_toBucket (bucket : Bucket) :
    (BucketStats.fromBucket bucket).toBucket = bucket := rfl

@[simp] theorem BucketStats.fromBucket_stats (bucket : Bucket) :
    (BucketStats.fromBucket bucket).stats = 0 := rfl

structure AgentStats where
  total : ModelStats := {}
  buckets : ExtTreeMap String BucketStats := ∅
  deriving Inhabited

end OtelLogger
