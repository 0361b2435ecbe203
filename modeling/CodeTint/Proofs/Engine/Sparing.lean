import CodeTint.Proofs.Document.Cursor
import CodeTint.Proofs.Engine.Incremental
import CodeTint.Proofs.Transaction.Changed

/-!
Edits that leave code alone: text changes in other text blocks, and nodes without a code block come
and go, right beside code blocks too. Main statement: however many of them follow one another, they
call for nothing to be computed anew, unless the cursor enters, leaves or changes code blocks.
-/

set_option autoImplicit false
set_option relaxedAutoImplicit false

namespace CodeTint

private theorem Node.countP_opensCode_tokens (n : Node) :
    n.tokens.countP Token.opensCode = n.codeBlocks := by
  rw [← length_search_codeBlock n 0, length_search_eq_codeBlocks]

namespace Step

/-- A step that leaves code alone: the text that it replaces is in another text block, the node that
it inserts or deletes has no code block. -/
def SparesCode (d : Document) : Step → Prop
  | replace start stop _ =>
    ∃ block ∈ d.nodesWhere fun n => n.isTextblock && !n.isCodeBlock,
      block.1 < start ∧ stop < block.1 + block.2.size
  | insertNode _ node => node.codeBlocks = 0
  | deleteNode pos => ∀ content gone, d.deleteNode pos = .ok (content, gone) → gone.codeBlocks = 0
  | setAttr _ _ _ => False

private theorem SparesCode.isAttrWrite {d : Document} {s : Step} (sparing : s.SparesCode d) :
    s.isAttrWrite = false := by
  cases s with
  | setAttr pos attr value => exact sparing.elim
  | _ => rfl

/-- Tokens are replaced apart from all code blocks, and none that opens one is among them. -/
structure Spares (d : Document) (start : Nat) (gone put new : List Token) : Prop where
  spliced : Spliced start gone put d.tokens new
  gone_code : gone.countP Token.opensCode = 0
  put_code : put.countP Token.opensCode = 0
  apart : ∀ block ∈ d.codeBlocks,
    start + gone.length ≤ block.1 ∨ block.1 + block.2.size ≤ start

end Step

private theorem Step.SparesCode.spares {d : Document} {s : Step} {content : List Node}
    {map : PositionMap}
    (sparing : s.SparesCode d) (applied : s.apply d = .ok (content, map)) :
    ∃ start gone put, map = .single start gone.length put.length ∧
      Spares d start gone put (Node.tokensAll content) := by
  have rewrites := rewrites_of_apply applied
  cases s with
  | replace start stop text =>
    obtain ⟨ordered, rfl, gone, length, spliced⟩ := rewrites
    obtain ⟨other, found, first, last⟩ := sparing
    refine ⟨start, _, _, ?_, spliced, countP_opensCode_chars _, countP_opensCode_chars _, ?_⟩
    · rw [List.length_map, List.length_map, length, String.length_toList]
    · intro block member
      have apart := Document.apart_of_textblock member found
      rw [List.length_map, length]
      omega
  | insertNode pos node =>
    obtain ⟨rfl, spliced⟩ := rewrites
    refine ⟨pos, [], node.tokens, by rw [List.length_nil, Node.length_tokens], spliced, rfl, ?_, ?_⟩
    · rw [Node.countP_opensCode_tokens]
      exact sparing
    · exact fun block member => Document.apart_of_inserted member spliced
  | deleteNode pos =>
    obtain ⟨⟨changed, gone⟩, done, ⟨⟩⟩ := map_eq_ok_iff.mp applied
    have spliced := Document.deleteNode_spliced done
    have none : gone.tokens.countP Token.opensCode = 0 := by
      rw [Node.countP_opensCode_tokens]
      exact sparing _ gone done
    refine ⟨pos, gone.tokens, [], by rw [List.length_nil, Node.length_tokens], spliced, none,
      rfl, fun block member => ?_⟩
    rw [Node.length_tokens]
    exact Document.apart_of_deleted member spliced.symm.stands_put none
  | setAttr pos attr value => exact sparing.elim

namespace TransactionBuilder

variable {b : TransactionBuilder}

/-- What steps that leave code alone preserve: each code block of the first document is still there,
no changed range meets it, and there are no others. -/
structure Spared (b : TransactionBuilder) : Prop where
  keeps : ∀ block ∈ b.before.codeBlocks, ∃ target, b.Keeps id block.1 block.2.tokens target
  clear : ∀ block ∈ b.before.codeBlocks, ∀ r ∈ b.mapping.ranges, ¬r.Meets block
  count : b.current.regionCount = b.before.regionCount

private theorem Spared.step {next : TransactionBuilder} {clock : Nat} {s : Step} (spared : b.Spared)
    (made : b.Made) (sparing : s.SparesCode b.current) (taken : b.step clock s = .ok next)
    (fits : next.current.Fits) : next.Spared := by
  obtain ⟨content, map, applied, rfl⟩ := step_eq_ok_iff.mp taken
  obtain ⟨start, gone, put, rfl, spliced, gone_code, put_code, apart⟩ := sparing.spares applied
  have visible :
      Spliced start gone put (b.current.tokens.map id) ((Node.tokensAll content).map id) := by
    rwa [List.map_id, List.map_id]
  have current : ∀ block ∈ b.before.codeBlocks, ∀ target, b.Keeps id block.1 block.2.tokens target →
      start + gone.length ≤ target ∨ target + block.2.tokens.length ≤ start := by
    intro block member target keeps
    have stands := keeps.stands
    rw [List.map_id] at stands
    rw [Node.length_tokens]
    exact apart (target, block.2)
      (Document.mem_codeBlocks_iff.mpr ⟨(Document.mem_codeBlocks_iff.mp member).1, stands⟩)
  obtain ⟨-, -, old, -⟩ := Made.range_fits visible made.fits fits
  refine ⟨fun block member => ?_, fun block member r changed => ?_, ?_⟩
  · obtain ⟨target, keeps⟩ := spared.keeps block member
    exact keeps.splice made fits block.2.tokens_pos visible rfl (current block member target keeps)
  · rw [Mapping.ranges_push] at changed
    rcases List.mem_append.mp changed with earlier | own
    · exact spared.clear block member r earlier
    · obtain ⟨s, among, rfl⟩ := List.mem_map.mp own
      obtain rfl := PositionMap.eq_of_mem_splices_single among
      obtain ⟨target, keeps⟩ := spared.keeps block member
      have apart := current block member target keeps
      have cuts := keeps.traces.cuts_iff (s := ⟨start, gone.length, put.length⟩) made.bounded
        block.2.tokens_pos old
      rw [Node.length_tokens] at apart cuts
      intro meets
      have overlap := cuts.mp meets
      dsimp only at overlap
      omega
  · have count := spared.count
    rw [Document.regionCount_eq_countP] at count ⊢
    obtain ⟨left, right, -, one, two⟩ := spliced
    rw [← count]
    show (Node.tokensAll content).countP _ = _
    simp only [one, two, List.countP_append, gone_code, put_code]

private theorem Unforced.spared (unforced : b.Unforced Step.SparesCode) : b.Spared := by
  induction unforced with
  | start _ _ =>
    refine ⟨fun block member => ⟨block.1, ?_, Mapping.traces_nil _ _⟩, fun _ _ r changed => ?_, rfl⟩
    · rw [List.map_id]
      exact (Document.mem_codeBlocks_iff.mp member).2
    · simp [TransactionBuilder.start, Mapping.ranges, Mapping.rangesAfter] at changed
  | step unforced sparing taken fits ih => exact ih.step unforced.made sparing taken fits
  | select _ _ ih =>
    refine ⟨fun block member => ?_, ih.clear, ih.count⟩
    obtain ⟨target, keeps⟩ := ih.keeps block member
    exact ⟨target, keeps.stands, keeps.traces⟩

end TransactionBuilder

namespace Transaction

/-- Steps that leave code alone call for nothing to be computed anew, whatever their number and
order, if the cursor is in the same code block after them as before, or in none. -/
theorem classify_eq_remap_of_spared {b : TransactionBuilder} (unforced : b.Unforced Step.SparesCode)
    (cursor : ∀ index, b.build.before.HoldsCursor index b.build.selectionBefore.head ↔
      b.build.after.HoldsCursor index b.build.selectionAfter.head) :
    b.build.classify = .remap := by
  have spared := unforced.spared
  have quiet := unforced.forall_steps fun d s => Step.SparesCode.isAttrWrite
  refine classify_eq_remap_iff.mpr ⟨?_, fun _ => spared.count.symm, ?_, fun _ => ?_⟩
  · have forced : b.build.forced = b.steps.any (·.isAttrWrite) := unforced.forced_eq
    rw [forced, List.any_eq_false]
    intro s member
    rw [quiet s member]
    exact Bool.false_ne_true
  · refine Option.ext fun index => ?_
    rw [Document.regionAt_eq_some_iff, Document.regionAt_eq_some_iff]
    exact cursor index
  · rw [touchesRegion_eq_false_iff, changedRanges]
    have none : attrRanges b.build.steps = [] := attrRanges_eq_nil quiet
    rw [none, List.append_nil]
    exact spared.clear

/-- All around a code block that has the cursor: the node before it is deleted and another one
inserted there, a heading is inserted right behind it, a quoted paragraph is deleted, and the
heading loses its text. -/
theorem classify_eq_remap_of_spared_beside : ∃ b : TransactionBuilder,
    b.before.content = [.paragraph "a", .codeBlock {} "x", .blockquote [.paragraph "b"]] ∧
    b.current.content =
      [.horizontalRule, .codeBlock {} "x", .heading 1 "", .blockquote []] ∧
    b.build.changedRanges = [⟨0, 3⟩, ⟨0, 3⟩, ⟨6, 6⟩, ⟨7, 10⟩, ⟨6, 6⟩] ∧
    b.Unforced Step.SparesCode ∧
    (∀ index, b.build.before.HoldsCursor index b.build.selectionBefore.head ↔
      b.build.after.HoldsCursor index b.build.selectionAfter.head) ∧
    b.build.classify = .remap := by
  let start : TransactionBuilder :=
    .start ⟨[.paragraph "a", .codeBlock {} "x", .blockquote [.paragraph "b"]], 1⟩ (.cursor 4)
  let first : TransactionBuilder :=
    { start with
      current := ⟨[.codeBlock {} "x", .blockquote [.paragraph "b"]], 2⟩
      steps := [.deleteNode 0]
      mapping := ⟨[.single 0 3 0]⟩
      selection := .cursor 1 }
  let second : TransactionBuilder :=
    { first with
      current := ⟨[.horizontalRule, .codeBlock {} "x", .blockquote [.paragraph "b"]], 3⟩
      steps := first.steps ++ [.insertNode 0 .horizontalRule]
      mapping := first.mapping.push (.single 0 0 1)
      selection := .cursor 2 }
  let third : TransactionBuilder :=
    { second with
      current :=
        ⟨[.horizontalRule, .codeBlock {} "x", .heading 1 "h", .blockquote [.paragraph "b"]], 4⟩
      steps := second.steps ++ [.insertNode 4 (.heading 1 "h")]
      mapping := second.mapping.push (.single 4 0 3) }
  let fourth : TransactionBuilder :=
    { third with
      current := ⟨[.horizontalRule, .codeBlock {} "x", .heading 1 "h", .blockquote []], 5⟩
      steps := third.steps ++ [.deleteNode 8]
      mapping := third.mapping.push (.single 8 3 0) }
  let fifth : TransactionBuilder :=
    { fourth with
      current := ⟨[.horizontalRule, .codeBlock {} "x", .heading 1 "", .blockquote []], 6⟩
      steps := fourth.steps ++ [.replace 5 6 ""]
      mapping := fourth.mapping.push (.single 5 1 0) }
  have unforced : fifth.Unforced Step.SparesCode := by
    have begun : start.Unforced Step.SparesCode := .start (by decide +kernel) _
    have taken₁ : start.step 2 (.deleteNode 0) = .ok first := rfl
    have taken₂ : first.step 3 (.insertNode 0 .horizontalRule) = .ok second := by cbv
    have taken₃ : second.step 4 (.insertNode 4 (.heading 1 "h")) = .ok third := by cbv
    have taken₄ : third.step 5 (.deleteNode 8) = .ok fourth := rfl
    have taken₅ : fourth.step 6 (.replace 5 6 "") = .ok fifth := rfl
    have spares₁ : (Step.deleteNode 0).SparesCode start.current := by
      intro content gone deleted
      cases deleted
      rfl
    have spares₂ : (Step.insertNode 0 .horizontalRule).SparesCode first.current := rfl
    have spares₃ : (Step.insertNode 4 (.heading 1 "h")).SparesCode second.current := rfl
    have spares₄ : (Step.deleteNode 8).SparesCode third.current := by
      intro content gone deleted
      cases deleted
      rfl
    have spares₅ : (Step.replace 5 6 "").SparesCode fourth.current :=
      ⟨(4, .heading 1 "h"), List.mem_cons_self, by decide, by decide +kernel⟩
    have unforced₁ := begun.step spares₁ taken₁ (by decide +kernel)
    have unforced₂ := unforced₁.step spares₂ taken₂ (by decide +kernel)
    have unforced₃ := unforced₂.step spares₃ taken₃ (by decide +kernel)
    have unforced₄ := unforced₃.step spares₄ taken₄ (by decide +kernel)
    exact unforced₄.step spares₅ taken₅ (by decide +kernel)
  have cursor : ∀ index, fifth.build.before.HoldsCursor index fifth.build.selectionBefore.head ↔
      fifth.build.after.HoldsCursor index fifth.build.selectionAfter.head := by
    intro index
    have same : fifth.build.before.regionAt fifth.build.selectionBefore.head =
        fifth.build.after.regionAt fifth.build.selectionAfter.head := by decide +kernel
    rw [← Document.regionAt_eq_some_iff, ← Document.regionAt_eq_some_iff, same]
  exact ⟨fifth, rfl, rfl, by decide +kernel, unforced, cursor,
    classify_eq_remap_of_spared unforced cursor⟩

end Transaction

end CodeTint
