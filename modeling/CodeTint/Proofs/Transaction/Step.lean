import CodeTint.Proofs.Attempt
import CodeTint.Proofs.Document.Edit

/-!
Steps of a transaction and the maps that they record. Main statement: a step that a builder takes
replaces one run of tokens by another, and its map names the place and the two lengths.
-/

set_option autoImplicit false
set_option relaxedAutoImplicit false

namespace CodeTint

private theorem PositionMap.single_eq_identity_iff {start oldSize newSize : Nat} :
    single start oldSize newSize = identity ↔ oldSize = 0 ∧ newSize = 0 := by
  simp [single, identity]

namespace Step

/-- What a step makes of the tokens of a document, and the map that says so. -/
def Rewrites (old new : List Token) (map : PositionMap) : Step → Prop
  | replace start stop text =>
    start ≤ stop ∧ map = .single start (stop - start) text.length ∧
      ∃ gone : List Char, gone.length = stop - start ∧
        Spliced start (gone.map .char) (text.toList.map .char) old new
  | insertNode pos node =>
    map = .single pos 0 node.size ∧ Spliced pos [] node.tokens old new
  | deleteNode pos =>
    ∃ gone : Node, map = .single pos gone.size 0 ∧ Spliced pos gone.tokens [] old new
  | setAttr pos attr value =>
    map = .identity ∧ ∃ attrs : CodeAttrs, Spliced pos [.opening (.codeBlock attrs)]
      [.opening (.codeBlock (attrs.set attr value))] old new

theorem rewrites_of_apply {d : Document} {s : Step} {content : List Node} {map : PositionMap}
    (h : s.apply d = .ok (content, map)) : s.Rewrites d.tokens (Node.tokensAll content) map := by
  cases s with
  | replace start stop text =>
    obtain ⟨changed, done, ⟨⟩⟩ := map_eq_ok_iff.mp h
    obtain ⟨ordered, gone, length, spliced⟩ := Document.replaceText_spliced done
    exact ⟨ordered, rfl, gone, length, spliced⟩
  | insertNode pos node =>
    obtain ⟨changed, done, ⟨⟩⟩ := map_eq_ok_iff.mp h
    exact ⟨rfl, Document.insertNode_spliced done⟩
  | deleteNode pos =>
    obtain ⟨⟨changed, gone⟩, done, ⟨⟩⟩ := map_eq_ok_iff.mp h
    exact ⟨gone, rfl, Document.deleteNode_spliced done⟩
  | setAttr pos attr value =>
    obtain ⟨changed, done, ⟨⟩⟩ := map_eq_ok_iff.mp h
    exact ⟨rfl, Document.setAttr_spliced done⟩

theorem Rewrites.map_eq_identity_iff {old new : List Token} {map : PositionMap} {s : Step}
    (h : s.Rewrites old new map) :
    map = .identity ↔ s.isAttrWrite = true ∨ ∃ pos, s = replace pos pos "" := by
  cases s with
  | replace start stop text =>
    obtain ⟨ordered, rfl, -⟩ := h
    rw [PositionMap.single_eq_identity_iff]
    constructor
    · rintro ⟨same, empty⟩
      obtain rfl : stop = start := by omega
      obtain rfl : text = "" := String.length_eq_zero_iff.mp empty
      exact .inr ⟨stop, rfl⟩
    · rintro (write | ⟨pos, same⟩)
      · simp [isAttrWrite] at write
      · obtain ⟨rfl, rfl, rfl⟩ := Step.replace.inj same
        simp
  | insertNode pos node =>
    obtain ⟨rfl, -⟩ := h
    have positive := node.size_pos
    simp only [PositionMap.single_eq_identity_iff, isAttrWrite, Bool.false_eq_true, false_or,
      reduceCtorEq, exists_false, iff_false]
    omega
  | deleteNode pos =>
    obtain ⟨gone, rfl, -⟩ := h
    have positive := gone.size_pos
    simp only [PositionMap.single_eq_identity_iff, isAttrWrite, Bool.false_eq_true, false_or,
      reduceCtorEq, exists_false, iff_false]
    omega
  | setAttr pos attr value =>
    obtain ⟨rfl, -⟩ := h
    simp [isAttrWrite]

end Step

namespace TransactionBuilder

theorem step_eq_ok_iff {b next : TransactionBuilder} {clock : Nat} {s : Step} :
    b.step clock s = .ok next ↔ ∃ content map, s.apply b.current = .ok (content, map) ∧
      next = { b with
        current := ⟨content, clock⟩
        steps := b.steps ++ [s]
        mapping := b.mapping.push map
        selection := b.selection.through map
        forced := b.forced || s.isAttrWrite } := by
  rw [step, map_eq_ok_iff, Prod.exists]
  simp only [eq_comm]

theorem before_of_step {b next : TransactionBuilder} {clock : Nat} {s : Step}
    (taken : b.step clock s = .ok next) : next.before = b.before := by
  obtain ⟨_, _, -, rfl⟩ := step_eq_ok_iff.mp taken
  rfl

/-- Every step that a builder takes replaces one run of tokens as the map says that it records,
and leaves all others. A document has as many tokens as positions. -/
theorem tokens_step {b next : TransactionBuilder} {clock : Nat} {s : Step}
    (taken : b.step clock s = .ok next) : (∀ d : Document, d.tokens.length = d.size) ∧
      ∃ map, next.mapping = b.mapping.push map ∧
        s.Rewrites b.current.tokens next.current.tokens map ∧
        (map = .identity ↔ s.isAttrWrite = true ∨ ∃ pos, s = .replace pos pos "") := by
  obtain ⟨content, map, applied, rfl⟩ := step_eq_ok_iff.mp taken
  have rewrites := Step.rewrites_of_apply applied
  exact ⟨Document.length_tokens, map, rfl, rewrites, rewrites.map_eq_identity_iff⟩

theorem tokens_step_in_quote : ∃ b next : TransactionBuilder,
    b.current.content = [.blockquote [.paragraph "é", .horizontalRule]] ∧
    b.step 1 (.replace 2 3 "ab") = .ok next ∧
    (∀ d : Document, d.tokens.length = d.size) ∧
      ∃ map, next.mapping = b.mapping.push map ∧
        (Step.replace 2 3 "ab").Rewrites b.current.tokens next.current.tokens map ∧
        (map = .identity ↔ (Step.replace 2 3 "ab").isAttrWrite = true ∨
          ∃ pos, Step.replace 2 3 "ab" = .replace pos pos "") := by
  let b : TransactionBuilder := .start ⟨[.blockquote [.paragraph "é", .horizontalRule]], 0⟩ {}
  let next : TransactionBuilder :=
    { b with
      current := ⟨[.blockquote [.paragraph "ab", .horizontalRule]], 1⟩
      steps := [.replace 2 3 "ab"]
      mapping := ⟨[⟨[⟨2, 1, 2⟩]⟩]⟩ }
  have taken : b.step 1 (.replace 2 3 "ab") = .ok next := rfl
  exact ⟨b, next, rfl, taken, tokens_step taken⟩

end TransactionBuilder

end CodeTint
