import CodeTint.Proofs.Transaction.Built

/-!
The ranges that a transaction says to have changed. Main statement: they lie in the document that
the transaction begins with, and a token that none of them has in full is still there afterwards,
where the mapping carries it.
-/

set_option autoImplicit false
set_option relaxedAutoImplicit false

namespace CodeTint

namespace TransactionBuilder.Made

variable {b : TransactionBuilder}

theorem carryBack_le (made : b.Made) {pos : Nat} (le : pos ≤ b.current.size) (side : Side) :
    Mapping.carryBack b.mapping.maps pos side ≤ b.before.size := by
  induction made generalizing pos with
  | start _ _ => exact le
  | select _ _ ih => exact ih le
  | force _ ih => exact ih le
  | @step b next clock s made taken fits ih =>
    obtain ⟨start, oldSize, newSize, mapping, inside, size, old, new⟩ :=
      map_fits taken made.fits fits
    have first : next.before = b.before := before_of_step taken
    have limit := Position.limit_eq
    have shiftLimit := Position.shiftLimit_eq
    rw [size] at le
    have earlier := PositionMap.map_single_le new old (by omega) le side
    rw [first, mapping, Mapping.push, Mapping.carryBack_append,
      PositionMap.invert_single (by omega)]
    exact ih (by omega)

private theorem ranges_le (made : b.Made) :
    ∀ r ∈ b.mapping.ranges, r.start ≤ r.stop ∧ r.stop ≤ b.before.size := by
  induction made with
  | start _ _ => simp [TransactionBuilder.start, Mapping.ranges, Mapping.rangesAfter]
  | select _ _ ih => exact ih
  | force _ ih => exact ih
  | @step b next clock s made taken fits ih =>
    obtain ⟨start, oldSize, newSize, mapping, inside, -, old, -⟩ := map_fits taken made.fits fits
    rw [before_of_step taken, mapping, Mapping.ranges_push]
    intro r member
    rcases List.mem_append.mp member with earlier | own
    · exact ih r earlier
    · obtain ⟨s, among, rfl⟩ := List.mem_map.mp own
      obtain rfl := PositionMap.eq_of_mem_splices_single among
      have limit := Position.limit_eq
      have shiftLimit := Position.shiftLimit_eq
      have stop : (Splice.mk start oldSize newSize).oldEnd = start + oldSize :=
        Position.add_of_le (by dsimp only; omega)
      have first := made.carryBack_le (show start ≤ b.current.size by omega) .before
      have last := made.carryBack_le inside .after
      simp only [Mapping.rangeBefore, stop]
      omega

end TransactionBuilder.Made

namespace Transaction

theorem attrRanges_eq_nil {steps : List Step} (quiet : ∀ s ∈ steps, s.isAttrWrite = false) :
    attrRanges steps = [] := by
  refine List.filterMap_eq_nil_iff.mpr fun s member => ?_
  cases s with
  | setAttr pos attr value => exact Bool.noConfusion (quiet _ member)
  | _ => rfl

/-- The changed ranges of a transaction that writes no attribute lie in its first document, and a
token that none of them has in full is still there, where the mapping carries it: so whatever is
removed or replaced lies in one of them. -/
theorem changedRanges_sound {b : TransactionBuilder} (made : b.Made)
    (quiet : ∀ s ∈ b.steps, s.isAttrWrite = false) :
    (∀ r ∈ b.build.changedRanges, r.start ≤ r.stop ∧ r.stop ≤ b.build.before.size) ∧
      ∀ i token, b.build.before.tokens[i]? = some token →
        (∀ r ∈ b.build.changedRanges, ¬(r.start ≤ i ∧ i + 1 ≤ r.stop)) →
          b.build.after.tokens[b.build.mapping.map i .after]? = some token := by
  have ranges : b.build.changedRanges = b.mapping.ranges := by
    rw [changedRanges, TransactionBuilder.build, attrRanges_eq_nil quiet, List.append_nil]
  rw [ranges]
  refine ⟨made.ranges_le, fun i token found clear => ?_⟩
  have stands : Stands i [token] (b.before.tokens.map id) := by
    rw [List.map_id]
    exact .singleton found
  have nonempty : 0 < [token].length := Nat.one_pos
  obtain ⟨target, stands', traces⟩ := made.keeps
    (fun s member write => Bool.noConfusion (write.symm.trans (quiet s member))) nonempty stands
    fun r member cuts => clear r member ⟨Nat.le_of_lt_succ cuts.1, cuts.2⟩
  have place : b.build.mapping.map i .after = target := congrArg Placement.pos traces.there.first
  rw [List.map_id] at stands'
  rw [place]
  exact stands'.getElem?_start

/-- A letter is deleted, then the one before it is replaced by two: that range comes back wider, and
has the deleted letter too. Last a nested code block is deleted, whose range comes back through
both. What is left of the paragraph lies behind the first two ranges. -/
theorem changedRanges_sound_widened : ∃ b : TransactionBuilder, b.Made ∧
    b.before.content = [.paragraph "abc", .blockquote [.codeBlock {} "x"]] ∧
    b.steps = [.replace 2 3 "", .replace 1 2 "zz", .deleteNode 6] ∧
    b.build.changedRanges = [⟨2, 3⟩, ⟨1, 3⟩, ⟨6, 9⟩] ∧
    (∀ s ∈ b.steps, s.isAttrWrite = false) ∧
    (∀ r ∈ b.build.changedRanges, r.start ≤ r.stop ∧ r.stop ≤ b.build.before.size) ∧
      ∀ i token, b.build.before.tokens[i]? = some token →
        (∀ r ∈ b.build.changedRanges, ¬(r.start ≤ i ∧ i + 1 ≤ r.stop)) →
          b.build.after.tokens[b.build.mapping.map i .after]? = some token := by
  let start : TransactionBuilder :=
    .start ⟨[.paragraph "abc", .blockquote [.codeBlock {} "x"]], 1⟩ (.cursor 0)
  let shorter : TransactionBuilder :=
    { start with
      current := ⟨[.paragraph "ac", .blockquote [.codeBlock {} "x"]], 2⟩
      steps := [.replace 2 3 ""]
      mapping := ⟨[.single 2 1 0]⟩ }
  let longer : TransactionBuilder :=
    { shorter with
      current := ⟨[.paragraph "zzc", .blockquote [.codeBlock {} "x"]], 3⟩
      steps := [.replace 2 3 "", .replace 1 2 "zz"]
      mapping := ⟨[.single 2 1 0, .single 1 1 2]⟩ }
  let emptied : TransactionBuilder :=
    { longer with
      current := ⟨[.paragraph "zzc", .blockquote []], 4⟩
      steps := [.replace 2 3 "", .replace 1 2 "zz", .deleteNode 6]
      mapping := ⟨[.single 2 1 0, .single 1 1 2, .single 6 3 0]⟩ }
  have made : emptied.Made := by
    have made₀ : start.Made := .start (by decide +kernel) _
    have first : start.step 2 (.replace 2 3 "") = .ok shorter := rfl
    have second : shorter.step 3 (.replace 1 2 "zz") = .ok longer := rfl
    have third : longer.step 4 (.deleteNode 6) = .ok emptied := rfl
    have made₁ : shorter.Made := made₀.step first (by decide +kernel)
    have made₂ : longer.Made := made₁.step second (by decide +kernel)
    exact made₂.step third (by decide +kernel)
  have quiet : ∀ s ∈ emptied.steps, s.isAttrWrite = false := by
    simp [emptied, Step.isAttrWrite]
  exact ⟨emptied, made, rfl, rfl, by decide +kernel, quiet, changedRanges_sound made quiet⟩

end Transaction

end CodeTint
