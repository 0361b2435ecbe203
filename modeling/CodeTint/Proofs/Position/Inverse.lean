import CodeTint.Proofs.Position.Uncut

/-!
The way back through a map of several ranges. Where ranges lie apart, no count is cut off and no
shift is the least one, whose opposite does not fit, the ranges seen from the new positions are of
this kind, too, and their inverse is the map itself. Main statement: the inverse leads every
position outside the ranges back to itself, and one at or inside a range to that end of it which
lies on the side that is asked for. This leaves out the positions that are so far on that they go to
the limit; those come back too early.
-/

set_option autoImplicit false
set_option relaxedAutoImplicit false

namespace CodeTint

/-- A range seen from the new positions, if positions before it are shifted by `d`. -/
def Splice.back (d : Int) (s : Splice) : Splice := ⟨Position.shift s.start d, s.newSize, s.oldSize⟩

private theorem Splice.add_delta_back (d : Int) (s : Splice) :
    -d + (s.back d).delta = -(d + s.delta) := by
  simp only [delta, back]
  omega

namespace PositionMap

/-- The ranges lie from left to right, and no two of them touch. -/
def Separated (m : PositionMap) : Prop := m.splices.IsChain fun s t => s.oldEnd < t.start

instance (m : PositionMap) : Decidable m.Separated :=
  inferInstanceAs (Decidable (m.splices.IsChain fun s t => s.oldEnd < t.start))

/-- The shifts on the way through ranges can be taken back: the opposite of each is not cut off. -/
def OpposedFrom (d : Int) : List Splice → Prop
  | [] => True
  | s :: rest =>
    Position.clampShift (-(d + s.delta)) = -(d + s.delta) ∧ OpposedFrom (d + s.delta) rest

instance decidableOpposedFrom :
    (d : Int) → (splices : List Splice) → Decidable (OpposedFrom d splices)
  | _, [] => inferInstanceAs (Decidable True)
  | d, s :: rest =>
    have := decidableOpposedFrom (d + s.delta) rest
    inferInstanceAs (Decidable (_ ∧ _))

/-- The ranges lie apart, no count is cut off in them, and no shift is the least one. -/
structure Reversible (m : PositionMap) : Prop where
  separated : m.Separated
  uncut : m.Uncut
  opposed : OpposedFrom 0 m.splices

/-- A map leads back from where another one has led. It does not lead further on even where a
position has been cut off. -/
structure LeadsBack (m back : PositionMap) : Prop where
  outside : ∀ p side side', p ≤ Position.limit → m.Exact p side →
    (∀ s ∈ m.splices, ¬(s.start ≤ p ∧ p ≤ s.oldEnd)) → back.map (m.map p side) side' = p
  below : ∀ p, p ≤ Position.limit → back.map (m.map p .before) .before ≤ p
  above : ∀ p, p ≤ Position.limit → m.Exact p .after → p ≤ back.map (m.map p .after) .after

variable {d : Int} {p q r : Nat} {side side' : Side} {s : Splice} {rest splices : List Splice}

section Back

variable (uncut : UncutFrom d (s :: rest))
include uncut

private theorem UncutFrom.start_back : ((s.back d).start : Int) = s.start + d := uncut.2.1

private theorem UncutFrom.oldEnd_back : ((s.back d).oldEnd : Int) = s.start + d + s.newSize := by
  obtain ⟨-, start, new, -⟩ := uncut
  have stop : (s.back d).oldEnd = Position.shift s.start d + s.newSize := new
  omega

private theorem UncutFrom.back_back : (s.back d).back (-d) = s := by
  obtain ⟨stop, start, -⟩ := uncut
  have inside : s.oldEnd ≤ Position.limit := Nat.min_le_right _ _
  have same : Position.shift (Position.shift s.start d) (-d) = s.start := by
    rw [Position.shift_of_nonneg (by omega)]
    omega
  simp only [Splice.back, same]

private theorem UncutFrom.shift_start_back : Position.shift (s.back d).start (-d) = s.start :=
  congrArg Splice.start uncut.back_back

private theorem UncutFrom.invertFrom_cons :
    invertFrom d (s :: rest) = s.back d :: invertFrom (d + s.delta) rest := by
  obtain ⟨-, -, -, -, clamp, -⟩ := uncut
  rw [invertFrom, clamp]
  rfl

private theorem UncutFrom.tail : UncutFrom (d + s.delta) rest := uncut.2.2.2.2.2

end Back

private theorem isChain_invertFrom (separated : splices.IsChain fun s t => s.oldEnd < t.start)
    (uncut : UncutFrom d splices) :
    (invertFrom d splices).IsChain fun s t => s.oldEnd < t.start := by
  induction splices generalizing d with
  | nil => exact .nil
  | cons s rest ih =>
    obtain ⟨apart, separated⟩ := List.isChain_cons.mp separated
    rw [uncut.invertFrom_cons]
    refine List.isChain_cons.mpr ⟨?_, ih separated uncut.tail⟩
    cases rest with
    | nil => simp [invertFrom]
    | cons t rest =>
      intro image among
      rw [uncut.tail.invertFrom_cons, List.head?_cons, Option.mem_some_iff] at among
      subst among
      have next : s.oldEnd < t.start := apart t rfl
      have last := uncut.oldEnd_back
      have first := uncut.tail.start_back
      obtain ⟨stop, -, -, delta, -⟩ := uncut
      omega

private theorem uncutFrom_invertFrom (uncut : UncutFrom d splices)
    (opposed : OpposedFrom d splices) : UncutFrom (-d) (invertFrom d splices) := by
  induction splices generalizing d with
  | nil => exact trivial
  | cons s rest ih =>
    obtain ⟨clamp, opposed⟩ := opposed
    have base := uncut.shift_start_back
    have shifts := s.add_delta_back d
    have later := ih uncut.tail opposed
    have first := uncut.start_back
    have last := uncut.oldEnd_back
    rw [uncut.invertFrom_cons]
    obtain ⟨stop, start, new, delta, -⟩ := uncut
    refine ⟨new, by omega, ?_, ?_, by rw [shifts, clamp], by rwa [shifts]⟩
    · rw [base]
      exact stop
    · have opposite : (s.back d).delta = -s.delta := by omega
      rw [opposite, delta]
      simp only [Splice.back]
      omega

private theorem opposedFrom_invertFrom (uncut : UncutFrom d splices) :
    OpposedFrom (-d) (invertFrom d splices) := by
  induction splices generalizing d with
  | nil => exact trivial
  | cons s rest ih =>
    have shifts := s.add_delta_back d
    have later := ih uncut.tail
    rw [uncut.invertFrom_cons]
    obtain ⟨-, -, -, -, clamp, -⟩ := uncut
    exact ⟨by rw [shifts, Int.neg_neg, clamp], by rwa [shifts]⟩

private theorem invertFrom_invertFrom (uncut : UncutFrom d splices)
    (opposed : OpposedFrom d splices) : invertFrom (-d) (invertFrom d splices) = splices := by
  induction splices generalizing d with
  | nil => rfl
  | cons s rest ih =>
    have both := uncutFrom_invertFrom uncut opposed
    have shifts := s.add_delta_back d
    rw [uncut.invertFrom_cons] at both ⊢
    rw [both.invertFrom_cons, uncut.back_back, shifts, ih uncut.tail opposed.2]

private theorem Reversible.invert {m : PositionMap} (h : m.Reversible) : m.invert.Reversible where
  separated := isChain_invertFrom h.separated h.uncut
  uncut := uncutFrom_invertFrom h.uncut h.opposed
  opposed := opposedFrom_invertFrom h.uncut

private theorem Reversible.invert_invert {m : PositionMap} (h : m.Reversible) :
    m.invert.invert = m :=
  congrArg PositionMap.mk (invertFrom_invertFrom h.uncut h.opposed)

/-- What a position comes back to, if it goes through ranges on one side and back on another. -/
structure Returns (p r : Nat) (side side' : Side) (splices : List Splice) : Prop where
  outside : (∀ s ∈ splices, ¬(s.start ≤ p ∧ p ≤ s.oldEnd)) → r = p
  below : side = .before → side' = .before → r ≤ p
  above : side = .after → side' = .after → p ≤ r

private theorem Returns.self (p : Nat) (side side' : Side) (splices : List Splice) :
    Returns p p side side' splices :=
  ⟨fun _ => rfl, fun _ _ => Nat.le_refl p, fun _ _ => Nat.le_refl p⟩

private theorem UncutFrom.returns_within (uncut : UncutFrom d (s :: rest)) (first : s.start ≤ p)
    (last : p ≤ s.oldEnd)
    (there : (q : Int) = s.start + d + if s.sideOf p side = .after then s.newSize else 0) :
    Returns p (placeFrom (-d) q side' (s.back d :: invertFrom (d + s.delta) rest)).pos side side'
      (s :: rest) := by
  have start := uncut.start_back
  have stop := uncut.oldEnd_back
  have base := uncut.shift_start_back
  have full : s.oldEnd = s.start + s.oldSize := uncut.1
  have top : Position.add s.start s.oldSize = s.oldEnd := rfl
  have lower : ¬q < (s.back d).start := by
    split at there <;> omega
  have upper : q ≤ (s.back d).oldEnd := by
    split at there <;> omega
  have back : (placeFrom (-d) q side' (s.back d :: invertFrom (d + s.delta) rest)).pos =
      if (s.back d).sideOf q side' = .after then s.oldEnd else s.start := by
    rw [placeFrom, if_neg lower, if_pos upper]
    cases (s.back d).sideOf q side' with
    | before => exact base
    | after =>
      show Position.add (Position.shift (s.back d).start (-d)) s.oldSize = s.oldEnd
      rw [base, top]
  rw [back]
  -- The end that is reached on the way there decides on the way back, if it is not both ends.
  have sizes : (s.back d).oldSize = s.newSize := rfl
  refine ⟨fun outside => absurd ⟨first, last⟩ (outside s List.mem_cons_self), ?_, ?_⟩
  · rintro rfl rfl
    simp only [Splice.sideOf, sizes] at there ⊢
    grind
  · rintro rfl rfl
    simp only [Splice.sideOf, sizes] at there ⊢
    grind

private theorem UncutFrom.returns (uncut : UncutFrom d splices) (opposed : OpposedFrom d splices)
    (separated : splices.IsChain fun s t => s.oldEnd < t.start) (inside : p ≤ Position.limit)
    (exactly : ExactFrom d p side splices) (side' : Side) :
    Returns p (placeFrom (-d) (placeFrom d p side splices).pos side' (invertFrom d splices)).pos
      side side' splices := by
  induction splices generalizing d with
  | nil =>
    have there : ((placeFrom d p side []).pos : Int) = p + d := exactly
    have back : (placeFrom (-d) (placeFrom d p side []).pos side' (invertFrom d [])).pos = p := by
      show Position.shift _ (-d) = p
      rw [Position.shift_of_nonneg (by omega)]
      omega
    rw [back]
    exact .self p side side' []
  | cons s rest ih =>
    rw [uncut.invertFrom_cons]
    rcases exactly.cases with ⟨left, there⟩ | ⟨first, last, -, there⟩ |
      ⟨first, behind, stop, later, there⟩
    · have start := uncut.start_back
      have back : (placeFrom (-d) (placeFrom d p side (s :: rest)).pos side'
          (s.back d :: invertFrom (d + s.delta) rest)).pos = p := by
        rw [placeFrom.eq_2 (-d), if_pos (by omega)]
        show Position.shift _ (-d) = p
        rw [Position.shift_of_nonneg (by omega)]
        omega
      rw [back]
      exact .self p side side' _
    · exact uncut.returns_within first last there
    · have delta : s.delta = (s.newSize : Int) - s.oldSize := uncut.2.2.2.1
      rw [← delta] at later there
      obtain ⟨apart, separated⟩ := List.isChain_cons.mp separated
      have ordered := separated.imp fun s t => Nat.le_of_lt
      have beyond := le_placeFrom ordered later (Nat.succ_le_of_lt behind) apart
      have start := uncut.start_back
      have last := uncut.oldEnd_back
      have back := ih uncut.tail opposed.2 separated later
      rw [there, placeFrom.eq_2 (-d), if_neg (by omega), if_neg (by omega), s.add_delta_back,
        opposed.1]
      exact ⟨fun outside => back.outside fun t among => outside t (List.mem_cons_of_mem s among),
        back.below, back.above⟩

private theorem UncutFrom.back_limit_le (uncut : UncutFrom d splices)
    (opposed : OpposedFrom d splices)
    (shift : d ≤ Position.limit) (cut : CutOffFrom d p splices) :
    (placeFrom (-d) Position.limit .before (invertFrom d splices)).pos ≤ p := by
  induction splices generalizing d with
  | nil =>
    have far : (Position.limit : Int) < p + d := cut
    show Position.shift Position.limit (-d) ≤ p
    rw [Position.shift_of_nonneg (by omega)]
    omega
  | cons s rest ih =>
    have base := uncut.shift_start_back
    have ⟨stop, _, _, _, clamp, _⟩ := uncut
    obtain ⟨behind, cut⟩ := cut
    have room : ¬Position.limit < (s.back d).start :=
      Nat.not_lt.mpr (Position.shift_le_limit s.start d)
    rw [uncut.invertFrom_cons, placeFrom, if_neg room]
    split
    · -- The last of the new positions is the limit, so the way back ends at this range.
      cases (s.back d).sideOf Position.limit .before with
      | before =>
        show Position.shift (s.back d).start (-d) ≤ p
        omega
      | after =>
        show Position.add (Position.shift (s.back d).start (-d)) s.oldSize ≤ p
        rw [base]
        exact Nat.le_of_lt behind
    · have least : d + s.delta ≤ Position.limit := by
        have limits : Position.shiftLimit ≤ Position.limit := by decide
        rw [← clamp]
        simp only [Position.clampShift]
        omega
      rw [s.add_delta_back, opposed.1]
      exact ih uncut.tail opposed.2 least cut

private theorem Reversible.leadsBack {m : PositionMap} (h : m.Reversible) :
    m.LeadsBack m.invert := by
  have returns (p : Nat) (side side' : Side) (inside : p ≤ Position.limit)
      (exactly : m.Exact p side) :
      Returns p (m.invert.map (m.map p side) side') side side' m.splices :=
    h.uncut.returns h.opposed h.separated inside exactly side'
  constructor
  · intro p side side' inside exactly outside
    exact (returns p side side' inside exactly).outside outside
  · intro p inside
    have ordered : m.Ordered := h.separated.imp fun s t => Nat.le_of_lt
    rcases h.uncut.exact_or_cutOff ordered p .before with exactly | cut
    · exact (returns p .before .before inside exactly).below rfl rfl
    · have limit : m.map p .before = Position.limit :=
        h.uncut.placeFrom_of_cutOff cut (Nat.le_refl p) .before
      rw [limit]
      exact h.uncut.back_limit_le h.opposed (by decide) cut
  · intro p inside exactly
    exact (returns p .after .after inside exactly).above rfl rfl

private theorem separated_single (start oldSize newSize : Nat) :
    (single start oldSize newSize).Separated :=
  isChain_splices_single start oldSize newSize

/-- Maps whose ranges lie apart and are counted in full, with no shift that has no opposite, have
inverses of this kind, of which they are the inverses in turn; and the inverse leads back. The
ranges of a map of one range lie apart. -/
theorem invert_leadsBack : (∀ start oldSize newSize, (single start oldSize newSize).Separated) ∧
    ∀ m : PositionMap, m.Reversible →
      m.invert.Reversible ∧ m.invert.invert = m ∧ m.LeadsBack m.invert :=
  ⟨separated_single, fun _ h => ⟨h.invert, h.invert_invert, h.leadsBack⟩⟩

/-! An insertion, a deletion and a replacement, of which the way back makes a deletion, an insertion
and a replacement. -/

namespace Apart

def step : PositionMap := ⟨[⟨2, 0, 3⟩, ⟨5, 2, 0⟩, ⟨9, 2, 4⟩]⟩

private theorem reversible_step : step.Reversible where
  separated := by decide +kernel
  uncut := by decide +kernel
  opposed := by decide +kernel

theorem invert_leadsBack_mixed :
    step.Reversible ∧ step.invert = ⟨[⟨2, 3, 0⟩, ⟨8, 0, 2⟩, ⟨10, 4, 2⟩]⟩ ∧
      step.invert.Reversible ∧ step.invert.invert = step ∧
      (∀ s ∈ step.splices, ¬(s.start ≤ 8 ∧ 8 ≤ s.oldEnd)) ∧ step.Exact 8 .after ∧
        step.invert.map (step.map 8 .after) .before = 8 ∧
      step.invert.map (step.map 6 .before) .before ≤ 6 ∧
      step.Exact 10 .after ∧ 10 ≤ step.invert.map (step.map 10 .after) .after := by
  obtain ⟨reversible, inverse, back⟩ := invert_leadsBack.2 step reversible_step
  have outside : ∀ s ∈ step.splices, ¬(s.start ≤ 8 ∧ 8 ≤ s.oldEnd) := by decide +kernel
  have exactly : step.Exact 8 .after := by decide +kernel
  have replaced : step.Exact 10 .after := by decide +kernel
  exact ⟨reversible_step, by decide +kernel, reversible, inverse, outside, exactly,
    back.outside 8 .after .before (by decide) exactly outside, back.below 6 (by decide), replaced,
    back.above 10 (by decide) replaced⟩

end Apart

/-! Where the way back goes wrong, though ranges lie apart and are counted in full. -/

namespace Edge

def deepest : PositionMap := ⟨[⟨0, 0x7FFFFFFFFFFFFFFF, 0⟩, ⟨0x8000000000000001, 1, 0⟩]⟩

/-- The inverse of two deletions is cut off, and a position that they shift down comes back too
early, and so does a position before the limit that an insertion puts at the limit. -/
theorem invert_not_leadsBack :
    (deepest.Separated ∧ deepest.Uncut ∧ ¬deepest.invert.Uncut ∧
      deepest.Exact 0x8000000000000005 .after ∧
      (∀ s ∈ deepest.splices, ¬(s.start ≤ 0x8000000000000005 ∧ 0x8000000000000005 ≤ s.oldEnd)) ∧
      deepest.map 0x8000000000000005 .after = 5 ∧
      deepest.invert.map 5 .after = 0x8000000000000004) ∧
    (single 0 0 10).Separated ∧ (single 0 0 10).Uncut ∧ (single 0 0 10).invert.Uncut ∧
      (∀ s ∈ (single 0 0 10).splices, ¬(s.start ≤ Position.limit - 3 ∧
        Position.limit - 3 ≤ s.oldEnd)) ∧
      (single 0 0 10).invert.map ((single 0 0 10).map (Position.limit - 3) .after) .after <
        Position.limit - 3 := by
  decide +kernel

end Edge

end PositionMap

end CodeTint
