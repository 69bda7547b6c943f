import Mathlib

/-!
Delimited text. A text is complete when it is empty or ends in the delimiter; the complete part of
a text is its longest complete prefix, and what follows it is the start of an unfinished record.
-/

namespace Delimited

variable {α : Type*}

/-- The last position whose item satisfies the predicate. -/
def rposition (wanted : α → Bool) : List α → Option ℕ
  | [] => none
  | item :: rest =>
      match rposition wanted rest with
      | some position => some (position + 1)
      | none => if wanted item then some 0 else none

theorem rposition_eq_none {wanted : α → Bool} {text : List α} :
    rposition wanted text = none ↔ ∀ item ∈ text, wanted item = false := by
  induction text with
  | nil => simp [rposition]
  | cons item rest ih =>
      rw [rposition, List.forall_mem_cons, ← ih]
      cases rposition wanted rest with
      | some position => simp
      | none => simp

theorem rposition_append (wanted : α → Bool) (first second : List α) :
    rposition wanted (first ++ second) =
      match rposition wanted second with
      | some position => some (first.length + position)
      | none => rposition wanted first := by
  induction first with
  | nil =>
      rw [List.nil_append]
      cases rposition wanted second with
      | some position => simp
      | none => rfl
  | cons item rest ih =>
      rw [List.cons_append, rposition, ih]
      cases rposition wanted second with
      | some position => simp only [List.length_cons]; congr 1; omega
      | none => rfl

theorem rposition_lt {wanted : α → Bool} {text : List α} {position : ℕ}
    (found : rposition wanted text = some position) : position < text.length := by
  induction text generalizing position with
  | nil => simp [rposition] at found
  | cons item rest ih =>
      rw [List.length_cons]
      cases later : rposition wanted rest with
      | some before =>
          simp only [rposition, later, Option.some.injEq] at found
          have bound := ih later
          omega
      | none =>
          simp only [rposition, later] at found
          split at found
          · have first := Option.some.inj found
            omega
          · simp at found

section Complete

variable (delimiter : α)

/-- Nothing, or text that ends in the delimiter. -/
def Complete (text : List α) : Prop :=
  text = [] ∨ ∃ body, text = body ++ [delimiter]

/-- One record: no delimiter but the last item. -/
def IsRecord (text : List α) : Prop :=
  ∃ body, text = body ++ [delimiter] ∧ delimiter ∉ body

variable {delimiter}

theorem IsRecord.complete {text : List α} (record : IsRecord delimiter text) :
    Complete delimiter text := by
  obtain ⟨body, rfl, _⟩ := record
  exact Or.inr ⟨body, rfl⟩

theorem Complete.append {first second : List α} (firstComplete : Complete delimiter first)
    (secondComplete : Complete delimiter second) : Complete delimiter (first ++ second) := by
  rcases secondComplete with rfl | ⟨body, rfl⟩
  · rwa [List.append_nil]
  · exact Or.inr ⟨first ++ body, (List.append_assoc _ _ _).symm⟩

theorem Complete.flatten {texts : List (List α)}
    (complete : ∀ text ∈ texts, Complete delimiter text) : Complete delimiter texts.flatten := by
  induction texts with
  | nil => exact Or.inl rfl
  | cons text texts ih =>
      rw [List.flatten_cons]
      exact (complete text List.mem_cons_self).append
        (ih fun other member => complete other (List.mem_cons_of_mem _ member))

section Part

variable [DecidableEq α] (delimiter)

/-- The longest prefix that ends in the delimiter. -/
def completePart (text : List α) : List α :=
  match rposition (· = delimiter) text with
  | some position => text.take (position + 1)
  | none => []

variable {delimiter}

theorem rposition_eq_none_iff {text : List α} :
    rposition (· = delimiter) text = none ↔ delimiter ∉ text := by
  rw [rposition_eq_none]
  constructor
  · intro other member
    exact of_decide_eq_false (other delimiter member) rfl
  · intro absent item member
    rw [decide_eq_false_iff_not]
    rintro rfl
    exact absent member

theorem completePart_of_notMem {text : List α} (absent : delimiter ∉ text) :
    completePart delimiter text = [] := by
  rw [completePart, rposition_eq_none_iff.mpr absent]

theorem completePart_append (first second : List α) :
    completePart delimiter (first ++ second) =
      if delimiter ∈ second then first ++ completePart delimiter second
      else completePart delimiter first := by
  rw [completePart, rposition_append]
  by_cases present : delimiter ∈ second
  · cases found : rposition (· = delimiter) second with
    | none => exact absurd present (rposition_eq_none_iff.mp found)
    | some position =>
        simp only [if_pos present, completePart, found]
        rw [show first.length + position + 1 = first.length + (position + 1) by omega,
          List.take_length_add_append]
  · have none := rposition_eq_none_iff.mpr present
    simp only [none, if_neg present, completePart]
    cases found : rposition (· = delimiter) first with
    | none => rfl
    | some position =>
        have bound := rposition_lt found
        exact List.take_append_of_le_length (by omega)

theorem Complete.completePart_append {text : List α} (complete : Complete delimiter text)
    (rest : List α) :
    completePart delimiter (text ++ rest) = text ++ completePart delimiter rest := by
  rw [Delimited.completePart_append]
  split
  · rfl
  · rename_i absent
    rw [completePart_of_notMem absent, List.append_nil]
    rcases complete with rfl | ⟨body, rfl⟩
    · rfl
    · rw [Delimited.completePart_append, if_pos List.mem_cons_self]
      simp [completePart, rposition]

theorem Complete.completePart_eq {text : List α} (complete : Complete delimiter text) :
    completePart delimiter text = text := by
  have whole := complete.completePart_append []
  rwa [List.append_nil, completePart_of_notMem List.not_mem_nil, List.append_nil] at whole

theorem completePart_prefix (text : List α) : completePart delimiter text <+: text := by
  unfold completePart
  split
  · exact List.take_prefix _ _
  · exact List.nil_prefix

/-- No complete text at the start of another is longer. -/
theorem Complete.prefix_completePart {text lines : List α} (begins : lines <+: text)
    (complete : Complete delimiter lines) : lines <+: completePart delimiter text := by
  obtain ⟨rest, rfl⟩ := begins
  rw [complete.completePart_append]
  exact List.prefix_append _ _

theorem IsRecord.completePart_of_start {record written : List α}
    (isRecord : IsRecord delimiter record) (begun : written <+: record) :
    completePart delimiter written = [] ∨
      (written = record ∧ completePart delimiter written = record) := by
  obtain ⟨rest, whole⟩ := begun
  have complete := isRecord.complete
  obtain ⟨body, rfl, absent⟩ := isRecord
  rcases List.eq_nil_or_concat rest with rfl | ⟨front, last, rfl⟩
  · rw [List.append_nil] at whole
    subst written
    exact Or.inr ⟨rfl, complete.completePart_eq⟩
  · rw [List.concat_eq_append, ← List.append_assoc] at whole
    obtain ⟨shorter, _⟩ := List.append_inj' whole rfl
    refine Or.inl (completePart_of_notMem fun member => absent ?_)
    rw [← shorter]
    exact List.mem_append_left _ member

theorem completePart_complete (text : List α) : Complete delimiter (completePart delimiter text) := by
  induction text using List.reverseRecOn with
  | nil => exact Or.inl rfl
  | append_singleton text item ih =>
      rw [completePart_append]
      split
      · rename_i member
        obtain rfl := List.mem_singleton.mp member
        refine Or.inr ⟨text, ?_⟩
        simp [completePart, rposition]
      · exact ih

/-- What follows the complete part has no delimiter. -/
theorem completePart_rest (text : List α) :
    ∃ torn, text = completePart delimiter text ++ torn ∧ delimiter ∉ torn := by
  have begins : completePart delimiter text <+: text := completePart_prefix text
  have complete : Complete delimiter (completePart delimiter text) := completePart_complete text
  obtain ⟨torn, whole⟩ := begins
  refine ⟨torn, whole.symm, fun member => ?_⟩
  have again := complete.completePart_append torn
  rw [whole] at again
  have nothing : completePart delimiter torn = [] := by
    have lengths := congrArg List.length again
    rw [List.length_append] at lengths
    exact List.eq_nil_of_length_eq_zero (by omega)
  obtain ⟨before, after, rfl⟩ := List.append_of_mem member
  rw [completePart_append, if_pos List.mem_cons_self] at nothing
  have first : completePart delimiter (delimiter :: after) = [] :=
    (List.append_eq_nil_iff.mp nothing).2
  have begun : [delimiter] <+: completePart delimiter (delimiter :: after) :=
    Complete.prefix_completePart (List.prefix_append [delimiter] after) (Or.inr ⟨[], rfl⟩)
  rw [first] at begun
  exact absurd (List.prefix_nil.mp begun) (List.cons_ne_nil delimiter [])

end Part

/-! ### Texts after one another -/

variable (delimiter) in
/-- The content is a start of each text, of whole records, in the order of the texts. -/
inductive Starts : List (List α) → List α → Prop where
  | none : Starts [] []
  | next {texts : List (List α)} {whole text piece : List α} (before : Starts texts whole)
      (complete : Complete delimiter piece) (begun : piece <+: text) :
      Starts (texts ++ [text]) (whole ++ piece)

variable (delimiter) in
/-- Behind such starts there is at most one unfinished record of a text. -/
def Woven (texts : List (List α)) (content : List α) : Prop :=
  ∃ whole torn, Starts delimiter texts whole ∧ content = whole ++ torn ∧ delimiter ∉ torn ∧
    (torn = [] ∨ ∃ text ∈ texts, ∃ piece, Complete delimiter piece ∧ piece ++ torn <+: text)

section Woven

variable {texts : List (List α)} {content shorter text : List α}

theorem Starts.complete (starts : Starts delimiter texts content) : Complete delimiter content := by
  induction starts with
  | none => exact Or.inl rfl
  | next before complete begun ih => exact ih.append complete

theorem Woven.nothing (texts : List (List α)) : Woven delimiter texts [] := by
  refine ⟨[], [], ?_, rfl, List.not_mem_nil, Or.inl rfl⟩
  induction texts using List.reverseRecOn with
  | nil => exact .none
  | append_singleton texts text ih => exact ih.next (Or.inl rfl) List.nil_prefix

/-- A text may leave nothing. -/
theorem Woven.skip (woven : Woven delimiter texts content) (text : List α) :
    Woven delimiter (texts ++ [text]) content := by
  obtain ⟨whole, torn, starts, same, absent, owned⟩ := woven
  refine ⟨whole ++ [], torn, starts.next (Or.inl rfl) List.nil_prefix, ?_, absent,
    owned.imp_right ?_⟩
  · rwa [List.append_nil]
  · rintro ⟨other, member, piece, begun⟩
    exact ⟨other, List.mem_append_left _ member, piece, begun⟩

/-- Behind whole records a start of another text may follow. -/
theorem Woven.grow [DecidableEq α] {begun : List α} (woven : Woven delimiter texts content)
    (complete : Complete delimiter content) (start : begun <+: text) :
    Woven delimiter (texts ++ [text]) (content ++ begun) := by
  obtain ⟨whole, torn, starts, same, absent, _⟩ := woven
  have nothing : torn = [] := by
    rcases List.eq_nil_or_concat torn with empty | ⟨front, last, rfl⟩
    · exact empty
    · rcases complete with rfl | ⟨body, rfl⟩
      · simp at same
      · rw [List.concat_eq_append, ← List.append_assoc] at same
        obtain ⟨_, ends⟩ := List.append_inj' same rfl
        exact absurd (by simp [List.singleton_inj.mp ends]) absent
  rw [nothing, List.append_nil] at same
  obtain ⟨rest, split, free⟩ :
      ∃ torn, begun = completePart delimiter begun ++ torn ∧ delimiter ∉ torn :=
    completePart_rest begun
  have piece : Complete delimiter (completePart delimiter begun) := completePart_complete begun
  have part : completePart delimiter begun <+: begun := completePart_prefix begun
  refine ⟨whole ++ completePart delimiter begun, rest, starts.next piece (part.trans start), ?_,
    free, Or.inr
    ⟨text, List.mem_append_right _ List.mem_cons_self, completePart delimiter begun, piece, ?_⟩⟩
  · rw [same, List.append_assoc, ← split]
  · rwa [← split]

theorem Starts.shorten [DecidableEq α] (starts : Starts delimiter texts content)
    (begins : shorter <+: content) : Woven delimiter texts shorter := by
  induction starts generalizing shorter with
  | none =>
      rw [List.prefix_nil.mp begins]
      exact Woven.nothing []
  | next before complete begun ih =>
      rename_i texts whole text piece
      rcases List.prefix_or_prefix_of_prefix begins (List.prefix_append whole piece) with
        short | ⟨part, rfl⟩
      · exact (ih short).skip text
      · have inside : part <+: text := ((List.prefix_append_right_inj whole).mp begins).trans begun
        exact (ih List.prefix_rfl).grow before.complete inside

theorem Woven.shorten [DecidableEq α] (woven : Woven delimiter texts content)
    (begins : shorter <+: content) : Woven delimiter texts shorter := by
  obtain ⟨whole, torn, starts, rfl, absent, owned⟩ := woven
  rcases List.prefix_or_prefix_of_prefix begins (List.prefix_append whole torn) with
    short | ⟨part, rfl⟩
  · exact starts.shorten short
  · have inside : part <+: torn := (List.prefix_append_right_inj whole).mp begins
    refine ⟨whole, part, starts, rfl, fun member => absent (inside.subset member), ?_⟩
    rcases owned with rfl | ⟨text, member, piece, complete, begun⟩
    · exact Or.inl (List.prefix_nil.mp inside)
    · exact Or.inr ⟨text, member, piece, complete,
        ((List.prefix_append_right_inj piece).mpr inside).trans begun⟩

end Woven

end Complete

end Delimited
