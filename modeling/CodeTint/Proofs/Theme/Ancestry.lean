import CodeTint.Proofs.Text.Cut
import CodeTint.Style.Category
import Mathlib.Data.List.Basic

/-!
Dotted names and their ancestors. Main statements: the ancestors of a name are the name and what is
in front of one of its dots, and they are listed from the longest to the shortest, so that the first
one of some kind is the longest of that kind.
-/

set_option autoImplicit false
set_option relaxedAutoImplicit false

namespace CodeTint.Text

/-- A name, or what is in front of one of its dots. -/
def IsAncestor (p name : String) : Prop := p = name ∨ ∃ rest, name = p ++ "." ++ rest

private theorem join_append (sep : String) {l m : List String} (some : l ≠ []) (more : m ≠ []) :
    join sep (l ++ m) = join sep l ++ sep ++ join sep m := by
  induction l with
  | nil => exact absurd rfl some
  | cons s rest ih =>
    cases rest with
    | nil =>
      cases m with
      | nil => exact absurd rfl more
      | cons t others => simp [join]
    | cons t others =>
      have later := ih (by simp)
      simp only [List.cons_append, join] at later ⊢
      rw [later]
      simp [String.append_assoc]

def parts (name : String) : List String := (cutAt (· == '.') name.toList).map String.ofList

private theorem parts_ne_nil (name : String) : parts name ≠ [] := by
  simp [parts, cutAt_ne_nil]

theorem parts_append (p rest : String) : parts (p ++ "." ++ rest) = parts p ++ parts rest := by
  have chars : (p ++ "." ++ rest).toList = p.toList ++ '.' :: rest.toList := by
    simp
  rw [parts, chars, cutAt_append (by decide), List.map_append]
  rfl

private theorem join_cons_char (sep : String) (c : Char) (cs : List Char) (l : List String) :
    join sep (String.ofList (c :: cs) :: l) =
      String.ofList [c] ++ join sep (String.ofList cs :: l) := by
  cases l <;> simp [join, String.ext_iff]

theorem join_parts (name : String) : join "." (parts name) = name := by
  have joined : ∀ cs : List Char,
      join "." ((cutAt (· == '.') cs).map String.ofList) = String.ofList cs := by
    intro cs
    induction cs with
    | nil => rfl
    | cons c rest ih =>
      obtain ⟨piece, pieces, cut⟩ := List.exists_cons_of_ne_nil (cutAt_ne_nil (· == '.') rest)
      simp only [cutAt, cut, List.map_cons] at ih ⊢
      split
      · next dot =>
        obtain rfl : c = '.' := by simpa using dot
        rw [List.map_cons, List.map_cons, join, ih]
        · simp
        · simp
      · rw [List.map_cons, join_cons_char, ih]
        simp
  rw [parts, joined, String.ofList_toList]

/-! The list of ancestors. -/

theorem ancestors_eq (name : String) : ancestors name =
    (List.range (parts name).length).map fun k =>
      join "." ((parts name).take ((parts name).length - k)) := rfl

private theorem length_join_take_lt {l : List String} {k m : Nat} (some : 0 < k) (less : k < m)
    (fits : m ≤ l.length) : (join "." (l.take k)).length < (join "." (l.take m)).length := by
  have whole : l.take m = l.take k ++ (l.take m).drop k := by
    have split := List.take_append_drop k (l.take m)
    rwa [List.take_take, Nat.min_eq_left (by omega), eq_comm] at split
  have first : l.take k ≠ [] := by
    rw [ne_eq, ← List.length_eq_zero_iff, List.length_take]
    omega
  have more : (l.take m).drop k ≠ [] := by
    rw [ne_eq, ← List.length_eq_zero_iff, List.length_drop, List.length_take]
    omega
  rw [whole, join_append "." first more]
  simp only [String.length_append]
  have mark : ".".length = 1 := rfl
  omega

private theorem pairwise_ancestors (name : String) :
    (ancestors name).Pairwise fun a b => b.length < a.length := by
  rw [ancestors_eq, List.pairwise_map]
  refine List.pairwise_lt_range.imp_of_mem ?_
  intro i j first second less
  have bound := List.mem_range.mp second
  exact length_join_take_lt (by omega) (by omega) (by omega)

private theorem mem_ancestors_iff {p name : String} : p ∈ ancestors name ↔ IsAncestor p name := by
  rw [ancestors_eq, List.mem_map]
  constructor
  · rintro ⟨k, inside, rfl⟩
    have bound := List.mem_range.mp inside
    rcases Nat.eq_zero_or_pos k with rfl | positive
    · left
      rw [Nat.sub_zero, List.take_length, join_parts]
    · have first : (parts name).take ((parts name).length - k) ≠ [] := by
        rw [ne_eq, ← List.length_eq_zero_iff, List.length_take]
        omega
      have more : (parts name).drop ((parts name).length - k) ≠ [] := by
        rw [ne_eq, ← List.length_eq_zero_iff, List.length_drop]
        omega
      refine .inr ⟨join "." ((parts name).drop ((parts name).length - k)), ?_⟩
      rw [← join_append "." first more, List.take_append_drop, join_parts]
  · rintro (rfl | ⟨rest, rfl⟩)
    · refine ⟨0, List.mem_range.mpr ?_, ?_⟩
      · exact List.length_pos_iff.mpr (parts_ne_nil p)
      · rw [Nat.sub_zero, List.take_length, join_parts]
    · have more := List.length_pos_iff.mpr (parts_ne_nil rest)
      have some := List.length_pos_iff.mpr (parts_ne_nil p)
      refine ⟨(parts rest).length, ?_, ?_⟩
      · rw [parts_append, List.mem_range, List.length_append]
        omega
      · rw [parts_append, List.length_append, Nat.add_sub_cancel, List.take_left', join_parts]
        rfl

section Longest

variable {α : Type} {f : String → Option α} {name : String}

theorem findSome?_ancestors_eq_some_iff {a : α} :
    (ancestors name).findSome? f = some a ↔
      ∃ p, IsAncestor p name ∧ f p = some a ∧
        ∀ q, IsAncestor q name → (f q).isSome → q.length ≤ p.length := by
  have sorted := pairwise_ancestors name
  simp only [← mem_ancestors_iff]
  constructor
  · intro found
    obtain ⟨before, p, behind, split, own, nothing⟩ := List.findSome?_eq_some_iff.mp found
    rw [split] at sorted ⊢
    refine ⟨p, by simp, own, fun q member has => ?_⟩
    rcases List.mem_append.mp member with earlier | later
    · simp [nothing q earlier] at has
    · rcases List.mem_cons.mp later with rfl | later
      · exact Nat.le_refl _
      · have shorter := (List.pairwise_cons.mp (List.pairwise_append.mp sorted).2.1).1 q later
        omega
  · rintro ⟨p, member, own, longest⟩
    obtain ⟨before, behind, split⟩ := List.append_of_mem member
    rw [split] at sorted longest
    refine List.findSome?_eq_some_iff.mpr ⟨before, p, behind, split, own, fun q earlier => ?_⟩
    have longer := (List.pairwise_append.mp sorted).2.2 q earlier p List.mem_cons_self
    have bound := longest q (List.mem_append_left _ earlier)
    rw [← Option.not_isSome_iff_eq_none]
    exact fun has => absurd (bound has) (by omega)

theorem findSome?_ancestors_eq_none_iff :
    (ancestors name).findSome? f = none ↔ ∀ q, IsAncestor q name → f q = none := by
  simp only [List.findSome?_eq_none_iff, mem_ancestors_iff]

end Longest

end CodeTint.Text
