import CodeTint.Proofs.Theme.Ancestry
import Mathlib.Data.List.Count
import Mathlib.Data.List.Nodup

/-!
The category of a capture name. The search for it goes from a name to what is in front of its last
dot, until it meets the name of a category or no dot is left. Main statement: it ends at every name,
after no more turns than the name has dots, and what it finds is the category with the longest name
among those that are the name or stand in front of one of its dots.
-/

set_option autoImplicit false
set_option relaxedAutoImplicit false

namespace CodeTint

namespace Text

/-- What is in front of the last dot of a name. -/
def IsParent (p name : String) : Prop := ∃ last, '.' ∉ last.toList ∧ name = p ++ "." ++ last

private theorem exists_isParent {name : String} (dot : '.' ∈ name.toList) :
    ∃ p, IsParent p name := by
  obtain ⟨last, before, split, absent⟩ :=
    List.eq_append_cons_of_mem (List.mem_reverse.mpr dot)
  have chars : name.toList = before.reverse ++ '.' :: last.reverse := by
    have turned := congrArg List.reverse split
    simpa using turned
  refine ⟨String.ofList before.reverse, String.ofList last.reverse, ?_, ?_⟩
  · simpa using absent
  · rw [String.ext_iff, chars]
    simp

private theorem IsParent.count_dots {p name : String} (up : IsParent p name) :
    name.toList.count '.' = p.toList.count '.' + 1 := by
  obtain ⟨last, dotless, rfl⟩ := up
  simp [List.count_eq_zero_of_not_mem dotless]

private theorem parts_of_dotless {name : String} (dotless : '.' ∉ name.toList) :
    parts name = [name] := by
  have none : ∀ c ∈ name.toList, (c == '.') = false := by
    intro c inside
    rw [beq_eq_false_iff_ne]
    rintro rfl
    exact dotless inside
  rw [parts, cutAt_of_none none, List.map_singleton, String.ofList_toList]

private theorem ancestors_of_dotless {name : String} (dotless : '.' ∉ name.toList) :
    ancestors name = [name] := by
  rw [ancestors_eq, parts_of_dotless dotless]
  rfl

private theorem ancestors_of_isParent {p name : String} (up : IsParent p name) :
    ancestors name = name :: ancestors p := by
  obtain ⟨last, dotless, rfl⟩ := up
  have split : parts (p ++ "." ++ last) = parts p ++ [last] := by
    rw [parts_append, parts_of_dotless dotless]
  have whole := join_parts (p ++ "." ++ last)
  rw [split] at whole
  rw [ancestors_eq, ancestors_eq, split, List.length_append, List.length_singleton,
    List.range_succ_eq_map, List.map_cons, List.map_map]
  refine congrArg₂ List.cons ?_ (List.map_congr_left ?_)
  · rw [Nat.sub_zero, List.take_of_length_le (by simp), whole]
  · intro k inside
    have fewer : (parts p).length - k ≤ (parts p).length := Nat.sub_le _ _
    show join "." ((parts p ++ [last]).take ((parts p).length + 1 - (k + 1))) = _
    rw [Nat.add_sub_add_right, List.take_append_of_le_length fewer]

end Text

namespace Category

open Text (IsAncestor IsParent)

/-- A search that starts at a name, with the number of times that it turns to a shorter one and
what it finds. -/
inductive Search : String → Nat → Option CategoryId → Prop
  | found {name : String} {id : CategoryId} (own : ofName? name = some id) :
      Search name 0 (some id)
  | nothing {name : String} (own : ofName? name = none) (dotless : '.' ∉ name.toList) :
      Search name 0 none
  | turn {name p : String} {turns : Nat} {result : Option CategoryId}
      (own : ofName? name = none) (up : IsParent p name) (further : Search p turns result) :
      Search name (turns + 1) result

private theorem exists_search (name : String) :
    ∃ turns ≤ name.toList.count '.', ∃ result, Search name turns result := by
  -- each turn leaves one dot fewer
  generalize dots : name.toList.count '.' = n
  induction n generalizing name with
  | zero =>
    have dotless : '.' ∉ name.toList := List.count_eq_zero.mp dots
    cases own : ofName? name with
    | some id => exact ⟨0, Nat.le_refl 0, some id, .found own⟩
    | none => exact ⟨0, Nat.le_refl 0, none, .nothing own dotless⟩
  | succ n ih =>
    cases own : ofName? name with
    | some id => exact ⟨0, Nat.zero_le _, some id, .found own⟩
    | none =>
      have dot : '.' ∈ name.toList := by
        apply List.count_pos_iff.mp
        omega
      obtain ⟨p, up⟩ := Text.exists_isParent dot
      have fewer := up.count_dots
      obtain ⟨turns, bound, result, further⟩ := ih p (by omega)
      exact ⟨turns + 1, Nat.succ_le_succ bound, result, .turn own up further⟩

private theorem Search.eq_ofCapture? {name : String} {turns : Nat} {result : Option CategoryId}
    (search : Search name turns result) : result = ofCapture? name := by
  unfold ofCapture?
  induction search with
  | @found name id own =>
    have first : ∃ rest, Text.ancestors name = name :: rest := by
      by_cases dot : '.' ∈ name.toList
      · obtain ⟨p, up⟩ := Text.exists_isParent dot
        exact ⟨_, Text.ancestors_of_isParent up⟩
      · exact ⟨[], Text.ancestors_of_dotless dot⟩
    obtain ⟨rest, ancestors⟩ := first
    rw [ancestors, List.findSome?_cons, own]
  | nothing own dotless => rw [Text.ancestors_of_dotless dotless, List.findSome?_singleton, own]
  | turn own up _ ih => rw [Text.ancestors_of_isParent up, List.findSome?_cons, own, ih]

/-! Names of categories. -/

private theorem nodup_names : names.Nodup := by
  decide +kernel

private theorem ofName?_eq_some_iff {name : String} {id : CategoryId} :
    ofName? name = some id ↔ names[id]? = some name := by
  rw [ofName?, List.findIdx?_eq_some_iff_getElem]
  constructor
  · rintro ⟨inside, same, -⟩
    rw [List.getElem?_eq_getElem inside, beq_iff_eq.mp same]
  · intro named
    obtain ⟨inside, same⟩ := List.getElem?_eq_some_iff.mp named
    refine ⟨inside, beq_iff_eq.mpr same, ?_⟩
    intro j before again
    have earlier : names[j] = names[id] := by rw [beq_iff_eq.mp again, same]
    have twice : j = id := nodup_names.getElem_inj_iff.mp earlier
    omega

private theorem isSome_ofName?_iff {name : String} : (ofName? name).isSome ↔ name ∈ names := by
  simp [ofName?]

/-- The search ends at every name. It finds the category whose name is the longest among those that
are the name or stand in front of one of its dots, and nothing just if there is none of them. -/
theorem ofCapture?_nearest (name : String) :
    (∃ turns ≤ name.toList.count '.', Search name turns (ofCapture? name)) ∧
      (∀ turns result, Search name turns result → result = ofCapture? name) ∧
      (∀ id, ofCapture? name = some id ↔
        ∃ p, names[id]? = some p ∧ IsAncestor p name ∧
          ∀ q ∈ names, IsAncestor q name → q.length ≤ p.length) ∧
      (ofCapture? name = none ↔ ∀ q ∈ names, ¬IsAncestor q name) ∧
      ∀ id ∈ ofCapture? name, id < 35 := by
  have nearest : ∀ id, ofCapture? name = some id ↔
      ∃ p, names[id]? = some p ∧ IsAncestor p name ∧
        ∀ q ∈ names, IsAncestor q name → q.length ≤ p.length := by
    intro id
    rw [ofCapture?, Text.findSome?_ancestors_eq_some_iff]
    simp only [ofName?_eq_some_iff, isSome_ofName?_iff]
    constructor
    · rintro ⟨p, up, named, longest⟩
      exact ⟨p, named, up, fun q known ancestor => longest q ancestor known⟩
    · rintro ⟨p, named, up, longest⟩
      exact ⟨p, up, named, fun q ancestor known => longest q known ancestor⟩
  refine ⟨?_, fun turns result search => search.eq_ofCapture?, nearest, ?_, ?_⟩
  · obtain ⟨turns, bound, result, search⟩ := exists_search name
    rw [search.eq_ofCapture?] at search
    exact ⟨turns, bound, search⟩
  · rw [ofCapture?, Text.findSome?_ancestors_eq_none_iff]
    simp only [← Option.not_isSome_iff_eq_none, isSome_ofName?_iff]
    constructor
    · intro none q known up
      exact none q up known
    · intro none q up known
      exact none q known up
  · intro id found
    obtain ⟨p, named, -⟩ := (nearest id).mp found
    obtain ⟨inside, -⟩ := List.getElem?_eq_some_iff.mp named
    exact inside

theorem ofCapture?_nearest_repeated :
    ofCapture? "keyword.function..x." = some 13 ∧ names[13]? = some "keyword.function" ∧
      IsAncestor "keyword.function" "keyword.function..x." ∧
      (∀ q ∈ names, IsAncestor q "keyword.function..x." → q.length ≤ 16) ∧
      ∃ turns ≤ 4, Search "keyword.function..x." turns (some 13) := by
  have found : ofCapture? "keyword.function..x." = some 13 := by decide +kernel
  obtain ⟨ends, -, nearest, -⟩ := ofCapture?_nearest "keyword.function..x."
  obtain ⟨p, named, up, longest⟩ := (nearest 13).mp found
  obtain rfl : "keyword.function" = p := by
    have same : names[13]? = some "keyword.function" := rfl
    rw [same] at named
    exact Option.some.inj named
  rw [found] at ends
  exact ⟨found, named, up, longest, ends⟩

end Category

end CodeTint
