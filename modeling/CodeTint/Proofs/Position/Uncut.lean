import CodeTint.Proofs.Position.Monotone

/-!
Maps that count their ranges in full: no end, no new place and no shift of a range is cut off. Such
a map may still put a position at the limit, if that is so far on that the shifted position does not
fit. Main statement: chains of such maps keep the order of all positions.
-/

set_option autoImplicit false
set_option relaxedAutoImplicit false

namespace CodeTint

theorem Position.shift_le_limit (pos : Nat) (d : Int) : shift pos d ≤ limit := by
  simp only [shift]
  split <;> omega

namespace PositionMap

/-- No count is cut off in ranges, if positions are already shifted by `d`. -/
def UncutFrom (d : Int) : List Splice → Prop
  | [] => True
  | s :: rest =>
    s.oldEnd = s.start + s.oldSize ∧ (Position.shift s.start d : Int) = s.start + d ∧
      Position.add (Position.shift s.start d) s.newSize = Position.shift s.start d + s.newSize ∧
      s.delta = (s.newSize : Int) - s.oldSize ∧ Position.clampShift (d + s.delta) = d + s.delta ∧
      UncutFrom (d + s.delta) rest

instance decidableUncutFrom : (d : Int) → (splices : List Splice) → Decidable (UncutFrom d splices)
  | _, [] => inferInstanceAs (Decidable True)
  | d, s :: rest =>
    have := decidableUncutFrom (d + s.delta) rest
    inferInstanceAs (Decidable (_ ∧ _))

def Uncut (m : PositionMap) : Prop := UncutFrom 0 m.splices

instance (m : PositionMap) : Decidable m.Uncut :=
  inferInstanceAs (Decidable (UncutFrom 0 m.splices))

def CutOffFrom (d : Int) (pos : Nat) : List Splice → Prop
  | [] => (Position.limit : Int) < pos + d
  | s :: rest => s.oldEnd < pos ∧ CutOffFrom (d + s.delta) pos rest

variable {d : Int} {x y pos : Nat} {side side' : Side} {s : Splice} {rest splices : List Splice}

theorem placeFrom_le_limit (d : Int) (pos : Nat) (side : Side) (splices : List Splice) :
    (placeFrom d pos side splices).pos ≤ Position.limit := by
  induction splices generalizing d with
  | nil => exact Position.shift_le_limit pos d
  | cons s rest ih =>
    rw [placeFrom]
    split
    · exact Position.shift_le_limit pos d
    · split
      · cases s.sideOf pos side with
        | before => exact Position.shift_le_limit s.start d
        | after => exact Nat.min_le_right _ _
      · exact ih _

private theorem UncutFrom.exactFrom_of_le (uncut : UncutFrom d (s :: rest))
    (above : 0 ≤ (pos : Int) + d)
    (le : pos ≤ s.oldEnd) (side : Side) : ExactFrom d pos side (s :: rest) := by
  obtain ⟨stop, start, new, -⟩ := uncut
  by_cases left : pos < s.start
  · have base := Position.shift_le_limit s.start d
    rw [ExactFrom, if_pos left, Position.shift_of_nonneg above]
    omega
  · rw [ExactFrom, if_neg left, if_pos le]
    exact ⟨stop, start, fun _ => new⟩

private theorem UncutFrom.exactFrom_cons (uncut : UncutFrom d (s :: rest)) (behind : s.oldEnd < pos)
    (later : ExactFrom (d + s.delta) pos side rest) : ExactFrom d pos side (s :: rest) := by
  obtain ⟨stop, -, -, delta, clamp, -⟩ := uncut
  rw [ExactFrom, if_neg (by omega), if_neg (by omega)]
  exact ⟨stop, delta, clamp, later⟩

private theorem UncutFrom.exactFrom_or_cutOff (uncut : UncutFrom d splices)
    (ordered : splices.IsChain fun s t => s.oldEnd ≤ t.start) (le : x ≤ pos)
    (before : ∀ s ∈ splices.head?, x ≤ s.start) (above : 0 ≤ (x : Int) + d) (side : Side) :
    ExactFrom d pos side splices ∨ CutOffFrom d pos splices := by
  induction splices generalizing d x with
  | nil =>
    by_cases fits : (pos : Int) + d ≤ Position.limit
    · left
      show (Position.shift pos d : Int) = pos + d
      rw [Position.shift_of_nonneg (by omega)]
      omega
    · exact .inr (Int.not_le.mp fits)
  | cons s rest ih =>
    have first : x ≤ s.start := before s rfl
    rcases Nat.lt_or_ge s.oldEnd pos with behind | within
    · have ⟨stop, _, _, delta, _, later⟩ := uncut
      obtain ⟨next, ordered⟩ := List.isChain_cons.mp ordered
      rcases ih later ordered (Nat.le_of_lt behind) next (by omega) with exactly | cut
      · exact .inl (uncut.exactFrom_cons behind exactly)
      · exact .inr ⟨behind, cut⟩
    · exact .inl (uncut.exactFrom_of_le (by omega) within side)

theorem UncutFrom.placeFrom_of_cutOff (uncut : UncutFrom d splices) (cut : CutOffFrom d pos splices)
    (le : pos ≤ y) (side : Side) : (placeFrom d y side splices).pos = Position.limit := by
  induction splices generalizing d with
  | nil =>
    have far : (Position.limit : Int) < pos + d := cut
    show Position.shift y d = Position.limit
    rw [Position.shift_of_nonneg (by omega)]
    omega
  | cons s rest ih =>
    obtain ⟨stop, -, -, -, clamp, later⟩ := uncut
    obtain ⟨behind, cut⟩ := cut
    rw [placeFrom, if_neg (by omega), if_neg (by omega), clamp]
    exact ih later cut

theorem Uncut.exact_or_cutOff {m : PositionMap} (uncut : m.Uncut) (ordered : m.Ordered) (pos : Nat)
    (side : Side) : m.Exact pos side ∨ CutOffFrom 0 pos m.splices :=
  UncutFrom.exactFrom_or_cutOff uncut ordered (Nat.zero_le pos) (fun _ _ => Nat.zero_le _)
    (Int.le_refl 0) side

theorem map_le_map_of_uncut {m : PositionMap} (ordered : m.Ordered) (uncut : m.Uncut) (le : x ≤ y)
    (sides : side = .after → side' = .after) : m.map x side ≤ m.map y side' := by
  have most : m.map x side ≤ Position.limit := placeFrom_le_limit 0 x side m.splices
  rcases uncut.exact_or_cutOff ordered y side' with last | cut
  · rcases uncut.exact_or_cutOff ordered x side with first | cut
    · exact map_le_map ordered first last le sides
    · have beyond : m.map y side' = Position.limit := uncut.placeFrom_of_cutOff cut le side'
      rwa [beyond]
  · have beyond : m.map y side' = Position.limit :=
      uncut.placeFrom_of_cutOff cut (Nat.le_refl y) side'
    rwa [beyond]

theorem isChain_splices_single {R : Splice → Splice → Prop} (start oldSize newSize : Nat) :
    (single start oldSize newSize).splices.IsChain R := by
  rw [single]
  split
  · exact .nil
  · exact .singleton _

theorem uncut_single {start oldSize newSize : Nat} (old : start + oldSize ≤ Position.shiftLimit)
    (new : start + newSize ≤ Position.shiftLimit) : (single start oldSize newSize).Uncut := by
  have limits : Position.shiftLimit ≤ Position.limit := by decide
  have base : Position.shift start 0 = start := Position.shift_zero (by omega)
  rw [Uncut, single]
  split
  · exact trivial
  · refine ⟨Position.add_of_le (by dsimp only; omega), ?_, ?_, ?_, ?_, trivial⟩
    · show (Position.shift start 0 : Int) = start + 0
      omega
    · rw [base]
      exact Position.add_of_le (by dsimp only; omega)
    · simp only [Splice.delta]
      omega
    · simp only [Splice.delta, Position.clampShift]
      omega

theorem map_insertion {p n : Nat} (inside : p ≤ Position.limit) (long : 0 < n) :
    (single p 0 n).map p .before = p ∧ (single p 0 n).map p .after = Position.add p n := by
  have splices : (single p 0 n).splices = [⟨p, 0, n⟩] := by
    rw [single, if_neg (by omega)]
  have first : ¬p < p := Nat.lt_irrefl p
  have stop : (Splice.mk p 0 n).oldEnd = p := Position.add_of_le inside
  have last : p ≤ (Splice.mk p 0 n).oldEnd := Nat.le_of_eq stop.symm
  have own (side : Side) : (Splice.mk p 0 n).sideOf p side = side := if_pos rfl
  have base : Position.shift p 0 = p := Position.shift_zero inside
  constructor <;> simp only [map, place, splices, placeFrom, if_neg first, if_pos last, own, base]

end PositionMap

namespace Mapping

theorem map_le_map_of_uncut {m : Mapping} (ordered : ∀ step ∈ m.maps, step.Ordered)
    (uncut : ∀ step ∈ m.maps, step.Uncut) {x y : Nat} {side side' : Side} (le : x ≤ y)
    (sides : side = .after → side' = .after) : m.map x side ≤ m.map y side' := by
  obtain ⟨maps⟩ := m
  have through : ∀ p q : Placement, p.pos ≤ q.pos →
      (placeThrough side maps p).pos ≤ (placeThrough side' maps q).pos := by
    induction maps with
    | nil => exact fun p q h => h
    | cons first rest ih =>
      intro p q h
      have one := PositionMap.map_le_map_of_uncut (ordered first List.mem_cons_self)
        (uncut first List.mem_cons_self) h sides
      exact ih (fun step member => ordered step (List.mem_cons_of_mem _ member))
        (fun step member => uncut step (List.mem_cons_of_mem _ member)) _ _ one
  exact through ⟨x, false⟩ ⟨y, false⟩ le

end Mapping

end CodeTint
