import CodeTint.Text.Blank
import Mathlib.Data.List.Basic

/-!
What cutting and trimming leave of a text, where it is known what the text is made of.
-/

set_option autoImplicit false
set_option relaxedAutoImplicit false

namespace CodeTint.Text

theorem cutAt_append {α : Type} {p : α → Bool} {mark : α} (cut : p mark = true) (l m : List α) :
    cutAt p (l ++ mark :: m) = cutAt p l ++ cutAt p m := by
  induction l with
  | nil => simp [cutAt, cut]
  | cons a rest ih =>
    simp only [List.cons_append, cutAt, ih]
    split
    · simp
    · cases h : cutAt p rest with
      | nil => exact absurd h (cutAt_ne_nil p rest)
      | cons piece pieces => simp

theorem cutAt_of_none {p : Char → Bool} {l : List Char} (none : ∀ a ∈ l, p a = false) :
    cutAt p l = [l] := by
  induction l with
  | nil => rfl
  | cons a l ih =>
    rw [List.forall_mem_cons] at none
    simp [cutAt, none.1, ih none.2]

/-! Trimming. -/

theorem trimChars_of_ends {cs : List Char} (first : ∀ a ∈ cs.head?, isBlank a = false)
    (last : ∀ a ∈ cs.getLast?, isBlank a = false) : trimChars cs = cs := by
  have whole : ∀ l : List Char, (∀ a ∈ l.head?, isBlank a = false) → l.dropWhile isBlank = l := by
    intro l first
    cases l with
    | nil => rfl
    | cons a l => exact List.dropWhile_cons_of_neg (by simp [first a rfl])
  rw [trimChars, whole cs first, whole cs.reverse (by simpa using last), List.reverse_reverse]

theorem trimChars_prefix (cs : List Char) : trimChars cs <+: cs.dropWhile isBlank := by
  have front := (List.dropWhile_suffix isBlank (l := (cs.dropWhile isBlank).reverse)).reverse
  rwa [List.reverse_reverse] at front

theorem trimOf_of_not_mem {c : Char} {cs : List Char} (absent : c ∉ cs) :
    trimOf c (String.ofList cs) = String.ofList cs := by
  have whole : ∀ l : List Char, c ∉ l → l.dropWhile (· == c) = l := by
    intro l absent
    cases l with
    | nil => rfl
    | cons a l =>
      rw [List.mem_cons, not_or] at absent
      exact List.dropWhile_cons_of_neg (by simpa using Ne.symm absent.1)
  rw [trimOf, String.toList_ofList, whole cs absent, whole cs.reverse (by simpa using absent),
    List.reverse_reverse]

theorem trimOf_around {c : Char} {cs : List Char} (absent : c ∉ cs) :
    trimOf c (String.ofList (c :: cs ++ [c])) = String.ofList cs := by
  have start : (c :: cs ++ [c]).dropWhile (· == c) = (cs ++ [c]).dropWhile (· == c) := by simp
  rw [trimOf, String.toList_ofList, start]
  cases cs with
  | nil => simp
  | cons a cs =>
    have apart : (a == c) = false := by
      rw [List.mem_cons, not_or] at absent
      simpa using Ne.symm absent.1
    have again := trimOf_of_not_mem absent
    rw [trimOf, String.toList_ofList, List.dropWhile_cons_of_neg (by simp [apart])] at again
    rw [List.cons_append, List.dropWhile_cons_of_neg (by simp [apart]), ← List.cons_append,
      List.reverse_append]
    simpa using again

end CodeTint.Text
