import CodeTint.Proofs.Decoration.Remapped
import CodeTint.Proofs.Transaction.Built

/-!
Positions of a document stay in the document when a builder's mapping carries them. Main statement:
the mapping leads from the positions of the first document to those of the last one, its beginning
to the beginning and its end to the end, so that no decorations are refused, and a selection that
the steps carry along stays in the document.
-/

set_option autoImplicit false
set_option relaxedAutoImplicit false

namespace CodeTint

/-- Both ends of a selection are positions of a document. -/
def Document.Holds (d : Document) (s : Selection) : Prop := s.anchor ≤ d.size ∧ s.head ≤ d.size

namespace PositionMap

variable {start oldSize newSize size : Nat}

private theorem map_single_zero (old : start + oldSize ≤ Position.shiftLimit)
    (new : start + newSize ≤ Position.shiftLimit) :
    (single start oldSize newSize).map 0 .before = 0 := by
  have side : (Splice.mk 0 oldSize newSize).sideOf 0 .before = .before := by
    simp [Splice.sideOf]
  rw [map, place_single old new]
  by_cases first : start = 0
  · subst first
    rw [if_neg (Nat.lt_irrefl 0), if_pos (Nat.zero_le _)]
    simp only [landing, side]
  · rw [if_pos (Nat.pos_of_ne_zero first)]

private theorem map_single_size (old : start + oldSize ≤ Position.shiftLimit)
    (new : start + newSize ≤ Position.shiftLimit) (inside : start + oldSize ≤ size)
    (fits : size - oldSize + newSize ≤ Position.limit) :
    (single start oldSize newSize).map size .after = size - oldSize + newSize := by
  rw [map, place_single old new, if_neg (by omega)]
  split
  · have whole : size = start + oldSize := by omega
    have limits : Position.shiftLimit ≤ Position.limit := by decide
    have last : (Splice.mk start oldSize newSize).oldEnd = start + oldSize :=
      Position.add_of_le (Nat.le_trans old limits)
    have side : (Splice.mk start oldSize newSize).sideOf size .after = .after := by
      simp only [Splice.sideOf, last, whole]
      grind
    simp only [landing, side]
    omega
  · exact Nat.min_eq_left fits

end PositionMap

namespace TransactionBuilder

/-- The builders that calls lead to of which none puts the selection elsewhere. -/
inductive Followed : TransactionBuilder → Prop
  | start {d : Document} (fits : d.Fits) (selection : Selection) : Followed (.start d selection)
  | step {b next : TransactionBuilder} {clock : Nat} {s : Step} (followed : Followed b)
      (taken : b.step clock s = .ok next) (fits : next.current.Fits) : Followed next
  | force {b : TransactionBuilder} (followed : Followed b) : Followed b.force

variable {b : TransactionBuilder}

private theorem Followed.made (followed : b.Followed) : b.Made := by
  induction followed with
  | start fits selection => exact .start fits selection
  | step _ taken fits ih => exact ih.step taken fits
  | force _ ih => exact ih.force

private theorem Followed.selection_eq (followed : b.Followed) :
    b.selection = ⟨b.mapping.map b.selectionBefore.anchor .after,
      b.mapping.map b.selectionBefore.head .after⟩ := by
  induction followed with
  | start _ _ => rfl
  | force _ ih => exact ih
  | step _ taken _ ih =>
    obtain ⟨content, map, -, rfl⟩ := step_eq_ok_iff.mp taken
    simp only [Selection.through, ih, Mapping.map, Mapping.place_push, PositionMap.map]

namespace Made

private theorem map_zero (made : b.Made) : b.mapping.map 0 .before = 0 := by
  induction made with
  | start _ _ => rfl
  | select _ _ ih => exact ih
  | force _ ih => exact ih
  | @step b next clock s made taken fits ih =>
    obtain ⟨start, oldSize, newSize, mapping, -, -, old, new⟩ := map_fits taken made.fits fits
    have own := PositionMap.map_single_zero old new
    rw [Mapping.map] at ih
    rw [mapping, Mapping.map, Mapping.place_push, ih]
    exact own

private theorem map_size (made : b.Made) : b.mapping.map b.before.size .after = b.current.size := by
  induction made with
  | start _ _ => rfl
  | select _ _ ih => exact ih
  | force _ ih => exact ih
  | @step b next clock s made taken fits ih =>
    obtain ⟨start, oldSize, newSize, mapping, inside, size, old, new⟩ :=
      map_fits taken made.fits fits
    have limits : Position.shiftLimit ≤ Position.limit := by decide
    have held : b.current.size - oldSize + newSize ≤ Position.limit := by
      rw [← size]
      exact Nat.le_trans fits limits
    have own := PositionMap.map_single_size old new inside held
    rw [Mapping.map] at ih
    rw [before_of_step taken, size, mapping, Mapping.map, Mapping.place_push, ih]
    exact own

private theorem map_le_size (made : b.Made) {pos : Nat} (le : pos ≤ b.before.size) (side : Side) :
    b.mapping.map pos side ≤ b.current.size := by
  calc b.mapping.map pos side
      ≤ b.mapping.map b.before.size side := Mapping.map_mono made.bounded le side
    _ ≤ b.mapping.map b.before.size .after := by
      cases side with
      | before => exact Mapping.map_before_le_after made.bounded _
      | after => exact Nat.le_refl _
    _ = b.current.size := made.map_size

private theorem lands (made : b.Made) {d : Decoration} (start : d.start ≤ b.before.size)
    (stop : d.stop ≤ b.before.size) : d.Lands b.mapping b.current.size :=
  ⟨made.map_le_size start .after, made.map_le_size stop .before⟩

end Made

end TransactionBuilder

namespace Transaction

/-- A builder's mapping leads from the positions of the document before to those of the document
after, from end to end. Decorations with ends in the document before are never refused, and unless
the selection was put elsewhere, it stays in the document. -/
theorem mapping_stays_inside {b : TransactionBuilder} (made : b.Made) :
    (∀ pos ≤ b.build.before.size, ∀ side, b.build.mapping.map pos side ≤ b.build.after.size) ∧
      b.build.mapping.map 0 .before = 0 ∧
      b.build.mapping.map b.build.before.size .after = b.build.after.size ∧
      (∀ s : DecorationSet,
        (∀ d ∈ s.decorations, d.start ≤ b.build.before.size ∧ d.stop ≤ b.build.before.size) →
          ∃ carried, s.remap b.build.mapping b.build.after = .ok carried) ∧
      (b.Followed → b.build.before.Holds b.build.selectionBefore →
        b.build.after.Holds b.build.selectionAfter) := by
  refine ⟨fun pos le side => made.map_le_size le side, made.map_zero, made.map_size, ?_, ?_⟩
  · intro s ends
    exact ⟨_, DecorationSet.remap_of_lands fun d member =>
      made.lands (ends d member).1 (ends d member).2⟩
  · intro followed held
    have selection : b.build.selectionAfter = _ := followed.selection_eq
    rw [selection]
    exact ⟨made.map_le_size held.1 .after, made.map_le_size held.2 .after⟩

/-- A rule is put at the very end, where the cursor stands, then the paragraph at the very beginning
is deleted, and last the code block, which now is the first one, gets a longer text. -/
theorem mapping_stays_inside_ends : ∃ b : TransactionBuilder, b.Made ∧ b.Followed ∧
    b.before.content = [.paragraph "ab", .codeBlock {} "x"] ∧
    b.steps = [.insertNode 7 .horizontalRule, .deleteNode 0, .replace 1 2 "yz"] ∧
    b.build.before.Holds (.cursor 7) ∧ b.build.selectionBefore = .cursor 7 ∧
    (∀ pos ≤ 7, ∀ side, b.build.mapping.map pos side ≤ 5) ∧
      b.build.mapping.map 0 .before = 0 ∧ b.build.mapping.map 7 .after = 5 ∧
      (∃ carried, DecorationSet.remap ⟨1, [.node 0 4 {}, .node 4 7 {}]⟩ b.build.mapping
        b.build.after = .ok carried) ∧
      b.build.after.Holds b.build.selectionAfter := by
  let start : TransactionBuilder := .start ⟨[.paragraph "ab", .codeBlock {} "x"], 1⟩ (.cursor 7)
  let longer : TransactionBuilder :=
    { start with
      current := ⟨[.paragraph "ab", .codeBlock {} "x", .horizontalRule], 2⟩
      steps := [.insertNode 7 .horizontalRule]
      mapping := ⟨[.single 7 0 1]⟩
      selection := start.selection.through (.single 7 0 1) }
  let shorter : TransactionBuilder :=
    { longer with
      current := ⟨[.codeBlock {} "x", .horizontalRule], 3⟩
      steps := [.insertNode 7 .horizontalRule, .deleteNode 0]
      mapping := ⟨[.single 7 0 1, .single 0 4 0]⟩
      selection := longer.selection.through (.single 0 4 0) }
  let changed : TransactionBuilder :=
    { shorter with
      current := ⟨[.codeBlock {} "yz", .horizontalRule], 4⟩
      steps := [.insertNode 7 .horizontalRule, .deleteNode 0, .replace 1 2 "yz"]
      mapping := ⟨[.single 7 0 1, .single 0 4 0, .single 1 1 2]⟩
      selection := shorter.selection.through (.single 1 1 2) }
  have followed : changed.Followed := by
    have followed₀ : start.Followed := .start (by decide +kernel) _
    have first : start.step 2 (.insertNode 7 .horizontalRule) = .ok longer := rfl
    have second : longer.step 3 (.deleteNode 0) = .ok shorter := rfl
    have third : shorter.step 4 (.replace 1 2 "yz") = .ok changed := rfl
    have followed₁ : longer.Followed := followed₀.step first (by decide +kernel)
    have followed₂ : shorter.Followed := followed₁.step second (by decide +kernel)
    exact followed₂.step third (by decide +kernel)
  have held : changed.build.before.Holds (.cursor 7) := by
    constructor <;> decide +kernel
  have ends : ∀ d ∈ [Decoration.node 0 4 {}, .node 4 7 {}],
      d.start ≤ changed.build.before.size ∧ d.stop ≤ changed.build.before.size := by
    decide +kernel
  obtain ⟨inside, zero, size, carried, selection⟩ := mapping_stays_inside followed.made
  have old : changed.build.before.size = 7 := by decide +kernel
  have new : changed.build.after.size = 5 := by decide +kernel
  rw [old, new] at inside size
  exact ⟨changed, followed.made, followed, rfl, rfl, held, rfl, inside, zero, size,
    carried ⟨1, _⟩ ends, selection followed held⟩

end Transaction

end CodeTint
