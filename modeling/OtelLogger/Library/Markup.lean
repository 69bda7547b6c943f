import Mathlib

/-!
Marked-up text. Marks are inserted into a text and can be deleted from it again: each begins with
a lead that the text itself does not contain, and none begins another.
-/

/-- A fixed set of marks that can be told apart from text without the lead and from each other. -/
structure Markup (α : Type*) where
  lead : α
  marks : List (List α)
  led : ∀ mark ∈ marks, mark.head? = some lead
  prefixFree : ∀ mark ∈ marks, ∀ other ∈ marks, mark <+: other → mark = other

namespace Markup

variable {α : Type*} [DecidableEq α] (markup : Markup α)

def markAt (text : List α) : Option (List α) :=
  markup.marks.find? fun mark => mark.isPrefixOf text

/-- The text from the left, less each mark found; the number is what is left of a mark. -/
def eraseFrom : ℕ → List α → List α
  | _, [] => []
  | skip + 1, _ :: rest => eraseFrom skip rest
  | 0, item :: rest =>
      match markup.markAt (item :: rest) with
      | some mark => eraseFrom (mark.length - 1) rest
      | none => item :: eraseFrom 0 rest

def erase (text : List α) : List α :=
  markup.eraseFrom 0 text

theorem markAt_mark {mark : List α} (known : mark ∈ markup.marks) (rest : List α) :
    markup.markAt (mark ++ rest) = some mark := by
  have starts : mark.isPrefixOf (mark ++ rest) = true :=
    List.isPrefixOf_iff_prefix.mpr (List.prefix_append mark rest)
  cases found : markup.markAt (mark ++ rest) with
  | none =>
      have missed := List.find?_eq_none.mp found mark known
      exact absurd starts missed
  | some other =>
      unfold markAt at found
      have otherKnown := List.mem_of_find?_eq_some found
      have otherStarts := List.find?_some found
      rcases List.prefix_or_prefix_of_prefix (List.isPrefixOf_iff_prefix.mp otherStarts)
          (List.prefix_append mark rest) with
        shorter | longer
      · rw [markup.prefixFree other otherKnown mark known shorter]
      · rw [markup.prefixFree mark known other otherKnown longer]

theorem markAt_text {item : α} (plain : item ≠ markup.lead) (rest : List α) :
    markup.markAt (item :: rest) = none := by
  apply List.find?_eq_none.mpr
  intro mark known starts
  have led := markup.led mark known
  cases mark with
  | nil => simp at led
  | cons first tail =>
      have same := (List.cons_prefix_cons.mp (List.isPrefixOf_iff_prefix.mp starts)).1
      simp only [List.head?_cons, Option.some.injEq] at led
      exact plain (same.symm.trans led)

theorem eraseFrom_append (skipped rest : List α) :
    markup.eraseFrom skipped.length (skipped ++ rest) = markup.erase rest := by
  induction skipped with
  | nil => rfl
  | cons item skipped ih => simpa only [List.length_cons, List.cons_append, eraseFrom] using ih

/-- The marked text is the plain one with marks in it, whatever follows. -/
structure Reads (marked plain : List α) : Prop where
  erase_append : ∀ rest, markup.erase (marked ++ rest) = plain ++ markup.erase rest

namespace Reads

variable {markup}

theorem text {plain : List α} (plainText : ∀ item ∈ plain, item ≠ markup.lead) :
    markup.Reads plain plain := by
  constructor
  intro rest
  induction plain with
  | nil => rfl
  | cons item plain ih =>
      have here := markup.markAt_text (plainText item List.mem_cons_self) (plain ++ rest)
      have later := ih fun other member => plainText other (List.mem_cons_of_mem item member)
      simp only [erase, List.cons_append, eraseFrom, here, List.cons.injEq, true_and]
      exact later

theorem mark {mark : List α} (known : mark ∈ markup.marks) : markup.Reads mark [] := by
  constructor
  intro rest
  have here := markup.markAt_mark known rest
  have led := markup.led mark known
  cases mark with
  | nil => simp at led
  | cons first tail =>
      rw [List.cons_append] at here
      simp only [erase, List.cons_append, eraseFrom, here, List.length_cons, Nat.add_sub_cancel]
      exact markup.eraseFrom_append tail rest

theorem append {first second plainFirst plainSecond : List α}
    (left : markup.Reads first plainFirst) (right : markup.Reads second plainSecond) :
    markup.Reads (first ++ second) (plainFirst ++ plainSecond) := by
  constructor
  intro rest
  rw [List.append_assoc, left.erase_append, right.erase_append, List.append_assoc]

theorem erase_eq {marked plain : List α} (reads : markup.Reads marked plain) :
    markup.erase marked = plain := by
  have whole := reads.erase_append []
  simpa [erase, eraseFrom] using whole

end Reads

end Markup
