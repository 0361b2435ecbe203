import CodeTint.Cli.Settings
import CodeTint.Proofs.Document.Accepted

/-!
What standard input is taken for. Main statement: a text that is no JSON object is kept as the text
of a code block, unless it is an array with an array of nodes as its only element.
-/

set_option autoImplicit false
set_option relaxedAutoImplicit false

namespace CodeTint

open Json (Gap Phrase IsObject IsArrayOf)

namespace Document

open Reader

/-- The text of an object with the field `content` only. -/
def withContent (content : String) : String := "\x7b\"content\":" ++ content ++ "\x7d"

private theorem parse_eq_ok_iff {text : String} {nodes : List Node} :
    parse text = .ok nodes ↔ ∃ rest, Gap rest ∧
      takeDocument (4 * text.toList.length + 8) text.toList = .ok (nodes, rest) := by
  unfold parse
  dsimp only
  rw [bind_eq_ok_iff]
  constructor
  · rintro ⟨⟨nodes', rest⟩, own, last⟩
    dsimp only at last
    split at last
    · next none =>
      cases last
      exact ⟨rest, Json.skipGap_eq_nil_iff.mp (List.isEmpty_iff.mp none), own⟩
    · cases last
  · rintro ⟨rest, blank, own⟩
    refine ⟨(nodes, rest), own, ?_⟩
    dsimp only
    rw [if_pos (List.isEmpty_iff.mpr (Json.skipGap_eq_nil_iff.mpr blank))]
    rfl

private theorem isObject_or_isArrayOf {text : String} {nodes : List Node}
    (read : parse text = .ok nodes) : IsObject text ∨ ∃ element, IsArrayOf text element := by
  obtain ⟨behind, blank', taken⟩ := parse_eq_ok_iff.mp read
  unfold takeDocument at taken
  dsimp only at taken
  split at taken
  · next more skipped =>
    obtain ⟨-, gap, blank, split⟩ := Json.skipGap_eq_cons_iff.mp skipped
    simp only [bind_eq_ok_iff, flawed_eq_ok_iff] at taken
    obtain ⟨⟨nodes', rest⟩, own, rest', close, same⟩ := taken
    cases same
    obtain ⟨used, tail, rfl, inside, rfl⟩ := takeMembers_ok own
    cases close
    left
    refine ⟨gap, _, _, blank, inside.elim .emptyObject .object, blank', ?_⟩
    simpa using split
  · next more skipped =>
    obtain ⟨-, gap, blank, split⟩ := Json.skipGap_eq_cons_iff.mp skipped
    rw [bind_eq_ok_iff] at taken
    obtain ⟨⟨some, rest⟩, next, taken⟩ := taken
    rw [flawed_eq_ok_iff] at next
    dsimp only at taken
    split at taken
    · cases taken
    next isSome =>
    obtain rfl : some = true := by simpa using isSome
    simp only [bind_eq_ok_iff, flawed_eq_ok_iff] at taken
    obtain ⟨⟨nodes', rest₁⟩, content, rest₂, close, same⟩ := taken
    cases same
    obtain ⟨-, lead, leads, rfl⟩ := Json.nextItem_eq_ok_true_iff.mp next
    obtain ⟨gap', used, blank'', own, rfl⟩ := takeContent_ok content
    obtain ⟨gap₁, blank₁, rfl⟩ := Json.takeBracket_eq_ok_iff.mp close
    right
    refine ⟨String.ofList (lead ++ (gap' ++ (used ++ gap₁))), ⟨lead ++ gap', used, gap₁,
      leads.append blank'', own.array, blank₁, by simp⟩, gap, behind, blank, blank', ?_⟩
    simpa using split
  · exact absurd taken (wrongType_ne_ok _ _ _ _)

private theorem takeDocument_bracket {gap : List Char} (blank : Gap gap) (fuel : Nat)
    (cs : List Char) : takeDocument fuel (gap ++ '[' :: cs) = (do
      let (more, rest) ← flawed (Json.nextItem true cs)
      if !more then throw (.invalidLength 0 "struct Document with 1 element")
      let (nodes, rest) ← takeContent fuel (Json.maxDepth - 1) rest
      return (nodes, ← flawed (Json.takeBracket rest))) := by
  rw [takeDocument, Json.skipGap_append blank, Json.skipGap_of_not_isGap (by decide)]
  rfl

private theorem takeDocument_brace (fuel : Nat) (cs : List Char) :
    takeDocument fuel ('\x7b' :: cs) = (do
      let (nodes, rest) ← takeMembers (Json.maxDepth - 1) fuel true none cs
      return (nodes, ← flawed (Json.takeBrace rest))) := by
  rw [takeDocument, Json.skipGap_of_not_isGap (by decide)]
  rfl

private theorem takeMembers_content (depth fuel : Nat) (cs : List Char) :
    takeMembers depth (fuel + 1) true none ('"' :: ("content".toList ++ '"' :: ':' :: cs)) = (do
      let (nodes, rest) ← takeContent fuel depth cs
      takeMembers depth fuel false (some nodes) rest) := by
  have text := Json.takeText_written "content" (':' :: cs)
  have plain : "content".toList.flatMap Json.escapeChar = "content".toList := by decide
  have colon : Json.takeColon (':' :: cs) = .ok cs := rfl
  have next : Json.nextKey true ('"' :: ("content".toList ++ '"' :: ':' :: cs)) =
      .ok (some ("content".toList ++ '"' :: ':' :: cs), "content".toList ++ '"' :: ':' :: cs) := rfl
  rw [plain] at text
  rw [takeMembers, next, flawed_ok, ok_bind]
  dsimp only
  rw [text, flawed_ok, ok_bind]
  dsimp only
  rw [if_pos (by decide), if_neg (by decide), colon, flawed_ok, ok_bind]

section Array

variable {text element : String} {nodes : List Node} {before cs behind : List Char}

private theorem parse_arrayOf_iff (blank : Gap before) (array : Phrase .array cs)
    (blank' : Gap behind)
    (split : element.toList = before ++ (cs ++ behind)) {gap tail : List Char} (outer : Gap gap)
    (outer' : Gap tail) (whole : text.toList = gap ++ '[' :: (element.toList ++ ']' :: tail)) :
    parse text = .ok nodes ↔ ContentTaken (Json.maxDepth - 1) cs nodes := by
  have next : Json.nextItem true (before ++ (cs ++ (behind ++ ']' :: tail))) =
      .ok (true, cs ++ (behind ++ ']' :: tail)) := by
    refine Json.nextItem_eq_ok_true_iff.mpr ⟨?_, before, blank, rfl⟩
    cases array <;> exact ⟨'[', _, rfl, by decide, by decide⟩
  have close : Json.takeBracket (behind ++ ']' :: tail) = .ok tail :=
    Json.takeBracket_eq_ok_iff.mpr ⟨behind, blank', rfl⟩
  have long : cs.length ≤ text.toList.length := by
    rw [whole, split]
    simp only [List.length_append, List.length_cons]
    omega
  have text : text.toList = gap ++ '[' :: (before ++ (cs ++ (behind ++ ']' :: tail))) := by
    rw [whole, split, List.append_assoc, List.append_assoc]
  rw [parse_eq_ok_iff]
  rw [text] at long ⊢
  rw [takeDocument_bracket outer, next, flawed_ok, ok_bind]
  dsimp only
  rw [if_neg (by decide)]
  constructor
  · rintro ⟨rest, -, taken⟩
    simp only [bind_eq_ok_iff] at taken
    obtain ⟨⟨nodes', rest'⟩, content, _, -, same⟩ := taken
    cases same
    exact (contentTaken_of_array array content).2
  · intro own
    refine ⟨tail, outer', ?_⟩
    rw [own.again _ _ (by omega), ok_bind]
    dsimp only
    rw [close]
    rfl

private theorem parse_withContent_iff (blank : Gap before) (array : Phrase .array cs)
    (blank' : Gap behind)
    (split : element.toList = before ++ (cs ++ behind)) :
    parse (withContent element) = .ok nodes ↔ ContentTaken (Json.maxDepth - 1) cs nodes := by
  have start : "\x7b\"content\":".toList = '\x7b' :: '"' :: ("content".toList ++ ['"', ':']) := by
    decide
  have text : (withContent element).toList = '\x7b' :: '"' :: ("content".toList ++ '"' :: ':' ::
      (before ++ (cs ++ (behind ++ ['\x7d'])))) := by
    rw [withContent, String.toList_append, String.toList_append, start, split]
    simp
  have last : ∀ {depth fuel : Nat} {nodes : List Node},
      takeMembers depth (fuel + 1) false (some nodes) (behind ++ ['\x7d']) =
        .ok (nodes, ['\x7d']) := by
    intro depth fuel nodes
    rw [takeMembers, Json.nextKey_eq_ok_none_iff.mpr ⟨behind, [], blank', rfl, rfl⟩]
    rfl
  rw [parse_eq_ok_iff, text, takeDocument_brace, takeMembers_content, takeContent_append_gap blank]
  constructor
  · rintro ⟨rest, -, taken⟩
    simp only [bind_eq_ok_iff] at taken
    obtain ⟨⟨nodes₁, rest₁⟩, ⟨⟨nodes₂, rest₂⟩, content, members⟩, _, -, same⟩ := taken
    cases same
    obtain ⟨rfl, own⟩ := contentTaken_of_array array content
    dsimp only at members
    rw [last] at members
    cases members
    exact own
  · intro own
    refine ⟨[], Json.gap_nil, ?_⟩
    rw [own.again, ok_bind]
    · dsimp only
      rw [last]
      rfl
    · simp only [List.length_cons, List.length_append]
      omega

end Array

private theorem parse_eq_ok_iff_of_isArrayOf {text element : String} {nodes : List Node}
    (arrayOf : IsArrayOf text element) :
    parse text = .ok nodes ↔ parse (withContent element) = .ok nodes := by
  obtain ⟨inner, gap, tail, outer, outer', whole⟩ := arrayOf
  obtain ⟨before, cs, behind, blank, array, blank', split⟩ := inner
  rw [parse_arrayOf_iff blank array blank' split outer outer' whole,
    parse_withContent_iff blank array blank' split]

end Document

namespace Cli

private theorem head?_of_isObject {text : String} (object : IsObject text) :
    (Json.skipGap text.toList).head? = some '\x7b' := by
  obtain ⟨before, cs, behind, blank, own, -, split⟩ := object
  rw [split, Json.skipGap_append blank]
  cases own <;> rfl

private theorem head?_of_isArrayOf {text element : String} (arrayOf : IsArrayOf text element) :
    (Json.skipGap text.toList).head? = some '[' := by
  obtain ⟨-, before, behind, blank, -, split⟩ := arrayOf
  rw [split, Json.skipGap_append blank]
  rfl

/-- A text that is no object is kept as the text of a code block, except that an array with a list
of nodes as its only element gives these nodes. -/
theorem contentOfInput_of_not_isObject {text : String} (other : ¬IsObject text) :
    ((∀ element nodes, IsArrayOf text element →
        Document.parse (Document.withContent element) ≠ .ok nodes) →
      contentOfInput text = [.codeBlock {} text]) ∧
    ∀ element nodes, IsArrayOf text element →
      Document.parse (Document.withContent element) = .ok nodes → contentOfInput text = nodes := by
  constructor
  · intro none
    unfold contentOfInput
    split
    · next nodes read =>
      rcases Document.isObject_or_isArrayOf read with object | ⟨element, arrayOf⟩
      · exact absurd object other
      · have again := (Document.parse_eq_ok_iff_of_isArrayOf arrayOf).mp read
        exact absurd again (none element nodes arrayOf)
    · rfl
  · intro element nodes arrayOf read
    rw [contentOfInput, (Document.parse_eq_ok_iff_of_isArrayOf arrayOf).mpr read]

theorem contentOfInput_source_and_array :
    contentOfInput "fn main() \x7b\x7d" = [.codeBlock {} "fn main() \x7b\x7d"] ∧
      contentOfInput "[[]]" = [] := by
  constructor
  · refine (contentOfInput_of_not_isObject ?_).1 ?_
    · intro object
      exact absurd (head?_of_isObject object) (by decide)
    · intro element nodes arrayOf
      exact absurd (head?_of_isArrayOf arrayOf) (by decide)
  · refine (contentOfInput_of_not_isObject ?_).2 "[]" [] ?_ ?_
    · intro object
      exact absurd (head?_of_isObject object) (by decide)
    · have inner : Phrase .array "[]".toList := .emptyArray Json.gap_nil
      exact ⟨⟨[], _, [], Json.gap_nil, inner, Json.gap_nil, by simp⟩, [], [], Json.gap_nil,
        Json.gap_nil, by decide⟩
    · rfl

/-- The text of an array of an empty array is not kept. -/
theorem contentOfInput_reads_array :
    ¬∀ text, ¬IsObject text → contentOfInput text = [.codeBlock {} text] := by
  intro verbatim
  have kept := verbatim "[[]]" fun object => absurd (head?_of_isObject object) (by decide)
  have read : contentOfInput "[[]]" = [] := rfl
  rw [read] at kept
  cases kept

end Cli

end CodeTint
