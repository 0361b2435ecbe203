import CodeTint.Proofs.Position.Uncut

/-!
Chains of maps, and runs of positions that they carry as a whole. A run that no range of a chain
meets keeps its length: its inner positions go along whatever side is asked for, and come back
where they were.
-/

set_option autoImplicit false
set_option relaxedAutoImplicit false

namespace CodeTint

/-- A run of positions is carried as a whole: what is strictly inside it goes along whatever side
is asked for, and its ends do if each keeps to the run. -/
structure Carries (place : Nat → Side → Placement) (start size target : Nat) : Prop where
  inner : ∀ i side, 0 < i → i < size → place (start + i) side = ⟨target + i, false⟩
  first : place start .after = ⟨target, false⟩
  last : place (start + size) .before = ⟨target + size, false⟩

namespace PositionMap

def Bounded (m : PositionMap) : Prop :=
  ∃ start oldSize newSize, m = single start oldSize newSize ∧
    start + oldSize ≤ Position.shiftLimit ∧ start + newSize ≤ Position.shiftLimit

theorem Bounded.ordered {m : PositionMap} (h : m.Bounded) : m.Ordered := by
  obtain ⟨start, oldSize, newSize, rfl, -⟩ := h
  exact isChain_splices_single start oldSize newSize

theorem Bounded.uncut {m : PositionMap} (h : m.Bounded) : m.Uncut := by
  obtain ⟨start, oldSize, newSize, rfl, old, new⟩ := h
  exact uncut_single old new

private theorem Bounded.invert {m : PositionMap} (h : m.Bounded) : m.invert.Bounded := by
  obtain ⟨start, oldSize, newSize, rfl, old, new⟩ := h
  have limit := Position.limit_eq
  have shiftLimit := Position.shiftLimit_eq
  exact ⟨start, newSize, oldSize, invert_single (by omega), new, old⟩

section Single

variable {start oldSize newSize pos size : Nat}

theorem carries_before (old : start + oldSize ≤ Position.shiftLimit)
    (new : start + newSize ≤ Position.shiftLimit) (apart : pos + size ≤ start)
    (nonempty : 0 < size) : Carries (single start oldSize newSize).place pos size pos where
  inner i side above below := by
    rw [place_single old new, if_pos (by omega)]
  first := by
    rw [place_single old new, if_pos (by omega)]
  last := by
    rw [place_single old new]
    split
    · rfl
    · have here : pos + size = start := by omega
      have side : (Splice.mk start oldSize newSize).sideOf start .before = .before := by
        simp [Splice.sideOf]
      rw [if_pos (by omega), here]
      simp [landing, side]

theorem carries_behind (old : start + oldSize ≤ Position.shiftLimit)
    (new : start + newSize ≤ Position.shiftLimit) (apart : start + oldSize ≤ pos)
    (nonempty : 0 < size) (fits : pos + size ≤ Position.shiftLimit) :
    Carries (single start oldSize newSize).place pos size (pos - oldSize + newSize) where
  inner i side above below := by
    have limit := Position.limit_eq
    have shiftLimit := Position.shiftLimit_eq
    rw [place_single old new, if_neg (by omega), if_neg (by omega)]
    congr 1
    omega
  first := by
    have limit := Position.limit_eq
    have shiftLimit := Position.shiftLimit_eq
    rw [place_single old new, if_neg (by omega)]
    split
    · have here : pos = start + oldSize := by omega
      have last : (Splice.mk start oldSize newSize).oldEnd = start + oldSize :=
        Position.add_of_le (show start + oldSize ≤ Position.limit by omega)
      have side : (Splice.mk start oldSize newSize).sideOf pos .after = .after := by
        simp only [Splice.sideOf, last, here]
        grind
      simp only [landing, side]
      congr 1
      · omega
      · simp [here]
    · congr 1
      omega
  last := by
    have limit := Position.limit_eq
    have shiftLimit := Position.shiftLimit_eq
    rw [place_single old new, if_neg (by omega), if_neg (by omega)]
    congr 1
    omega

end Single

end PositionMap

namespace Mapping

instance : Append Mapping := ⟨fun m n => ⟨m.maps ++ n.maps⟩⟩

private theorem placeThrough_append (side : Side) (maps later : List PositionMap) (p : Placement) :
    placeThrough side (maps ++ later) p = placeThrough side later (placeThrough side maps p) := by
  induction maps generalizing p with
  | nil => rfl
  | cons first rest ih => exact ih _

private theorem placeThrough_eq (side : Side) (maps : List PositionMap) (pos : Nat)
    (deleted : Bool) :
    placeThrough side maps ⟨pos, deleted⟩ = ⟨(placeThrough side maps ⟨pos, false⟩).pos,
      deleted || (placeThrough side maps ⟨pos, false⟩).deleted⟩ := by
  induction maps generalizing pos deleted with
  | nil => simp [placeThrough]
  | cons first rest ih =>
    simp only [placeThrough, Bool.false_or]
    rw [ih, ih _ (first.place pos side).deleted, Bool.or_assoc]

theorem place_append (m n : Mapping) (pos : Nat) (side : Side) :
    (m ++ n).place pos side = ⟨n.map (m.map pos side) side,
      (m.place pos side).deleted || (n.place (m.map pos side) side).deleted⟩ := by
  show placeThrough side (m.maps ++ n.maps) ⟨pos, false⟩ = _
  rw [placeThrough_append]
  exact placeThrough_eq side n.maps _ _

theorem place_push (m : Mapping) (step : PositionMap) (pos : Nat) (side : Side) :
    (m.push step).place pos side =
      ⟨(step.place (m.place pos side).pos side).pos,
        (m.place pos side).deleted || (step.place (m.place pos side).pos side).deleted⟩ :=
  m.place_append ⟨[step]⟩ pos side

theorem carries_nil (start size : Nat) : Carries ({} : Mapping).place start size start where
  inner _ _ _ _ := rfl
  first := rfl
  last := rfl

theorem carries_push {m : Mapping} {step : PositionMap} {start size middle target : Nat}
    (one : Carries m.place start size middle) (two : Carries step.place middle size target) :
    Carries (m.push step).place start size target where
  inner i side above below := by
    rw [place_push, one.inner i side above below, two.inner i side above below]
    rfl
  first := by
    rw [place_push, one.first, two.first]
    rfl
  last := by
    rw [place_push, one.last, two.last]
    rfl

theorem map_mono {m : Mapping} (bounded : ∀ step ∈ m.maps, step.Bounded) {x y : Nat} (le : x ≤ y)
    (side : Side) : m.map x side ≤ m.map y side :=
  map_le_map_of_uncut (fun step member => (bounded step member).ordered)
    (fun step member => (bounded step member).uncut) le id

theorem carryBack_append (maps : List PositionMap) (m : PositionMap) (pos : Nat) (side : Side) :
    carryBack (maps ++ [m]) pos side = carryBack maps (m.invert.map pos side) side := by
  simp [carryBack]

theorem carryBack_le_carryBack {maps : List PositionMap} (bounded : ∀ m ∈ maps, m.Bounded)
    {x y : Nat} {side side' : Side} (le : x ≤ y) (sides : side = .after → side' = .after) :
    carryBack maps x side ≤ carryBack maps y side' := by
  induction maps with
  | nil => exact le
  | cons first rest ih =>
    have later := ih fun m member => bounded m (List.mem_cons_of_mem _ member)
    have inverse := (bounded first List.mem_cons_self).invert
    exact PositionMap.map_le_map_of_uncut inverse.ordered inverse.uncut later sides

private theorem rangesAfter_append (earlier maps : List PositionMap) (m : PositionMap) :
    rangesAfter earlier (maps ++ [m]) =
      rangesAfter earlier maps ++ m.splices.map (rangeBefore (earlier ++ maps)) := by
  induction maps generalizing earlier with
  | nil => simp [rangesAfter]
  | cons first rest ih => simp [rangesAfter, ih]

theorem ranges_push (m : Mapping) (step : PositionMap) :
    (m.push step).ranges = m.ranges ++ step.splices.map (rangeBefore m.maps) := by
  simpa [ranges, push] using rangesAfter_append [] m.maps step

end Mapping

end CodeTint
