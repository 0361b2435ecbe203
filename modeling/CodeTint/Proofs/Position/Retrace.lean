import CodeTint.Proofs.Position.Carry

/-!
The way back through a chain of maps. A run of positions that a chain carries as a whole is found
again on the way back, and a range that one more map replaces comes back to a range that cuts the
run just if it cuts what the run has become.
-/

set_option autoImplicit false
set_option relaxedAutoImplicit false

namespace CodeTint

def Range.Cuts (r : Range) (start size : Nat) : Prop := r.start < start + size ∧ start < r.stop

namespace PositionMap

section Single

variable {start oldSize newSize pos size : Nat}

theorem map_single_le (old : start + oldSize ≤ Position.shiftLimit)
    (new : start + newSize ≤ Position.shiftLimit) (inside : start + oldSize ≤ size)
    (le : pos ≤ size) (side : Side) :
    (single start oldSize newSize).map pos side ≤ size - oldSize + newSize := by
  simp only [map, place_single old new, landing]
  split
  · dsimp only
    omega
  · split
    · split <;> dsimp only <;> omega
    · dsimp only
      omega

end Single

end PositionMap

namespace Mapping

theorem map_before_le_after {m : Mapping} (bounded : ∀ step ∈ m.maps, step.Bounded) (pos : Nat) :
    m.map pos .before ≤ m.map pos .after :=
  map_le_map_of_uncut (fun step member => (bounded step member).ordered)
    (fun step member => (bounded step member).uncut) (Nat.le_refl pos) fun _ => rfl

theorem apart_of_carries {m : Mapping} (bounded : ∀ step ∈ m.maps, step.Bounded)
    {start size target start' size' target' : Nat} (one : Carries m.place start size target)
    (two : Carries m.place start' size' target') (apart : start + size ≤ start') :
    target + size ≤ target' := by
  have last : m.map (start + size) .before = target + size := congrArg Placement.pos one.last
  have first : m.map start' .after = target' := congrArg Placement.pos two.first
  calc target + size = m.map (start + size) .before := last.symm
    _ ≤ m.map start' .before := map_mono bounded apart .before
    _ ≤ m.map start' .after := map_before_le_after bounded start'
    _ = target' := first

theorem map_lt_of_carries {m : Mapping} (bounded : ∀ step ∈ m.maps, step.Bounded)
    {start size target start' size' target' : Nat} (one : Carries m.place start size target)
    (two : Carries m.place start' size' target') (nonempty : 0 < size)
    (apart : start + size ≤ start') : m.map start .after < m.map start' .after := by
  have first : m.map start .after = target := congrArg Placement.pos one.first
  have first' : m.map start' .after = target' := congrArg Placement.pos two.first
  have order := apart_of_carries bounded one two apart
  omega

def retrace (m : Mapping) (pos : Nat) (side : Side) : Placement :=
  ⟨carryBack m.maps pos side, false⟩

/-- A run of positions that a chain carries as a whole, there and back. -/
structure Traces (m : Mapping) (start size target : Nat) : Prop where
  there : Carries m.place start size target
  back : Carries m.retrace target size start

theorem traces_nil (start size : Nat) : Traces {} start size start where
  there := carries_nil start size
  back := ⟨fun _ _ _ _ => rfl, rfl, rfl⟩

private theorem retrace_push (m : Mapping) (step : PositionMap) (pos : Nat) (side : Side) :
    (m.push step).retrace pos side = m.retrace (step.invert.map pos side) side :=
  congrArg (Placement.mk · false) (carryBack_append m.maps step pos side)

namespace Traces

variable {m : Mapping} {start size middle target : Nat}

private theorem push {step : PositionMap} (traces : m.Traces start size middle)
    (there : Carries step.place middle size target)
    (back : Carries step.invert.place target size middle) :
    (m.push step).Traces start size target where
  there := carries_push traces.there there
  back :=
    { inner := fun i side above below => by
        rw [retrace_push, PositionMap.map, back.inner i side above below,
          traces.back.inner i side above below]
      first := by rw [retrace_push, PositionMap.map, back.first, traces.back.first]
      last := by rw [retrace_push, PositionMap.map, back.last, traces.back.last] }

section Single

variable {at_ oldSize newSize : Nat}

theorem push_before (traces : m.Traces start size middle)
    (old : at_ + oldSize ≤ Position.shiftLimit) (new : at_ + newSize ≤ Position.shiftLimit)
    (apart : middle + size ≤ at_) (nonempty : 0 < size) :
    (m.push (.single at_ oldSize newSize)).Traces start size middle := by
  have limit := Position.limit_eq
  have shiftLimit := Position.shiftLimit_eq
  refine traces.push (PositionMap.carries_before old new apart nonempty) ?_
  rw [PositionMap.invert_single (by omega)]
  exact PositionMap.carries_before new old apart nonempty

theorem push_behind (traces : m.Traces start size middle)
    (old : at_ + oldSize ≤ Position.shiftLimit) (new : at_ + newSize ≤ Position.shiftLimit)
    (apart : at_ + oldSize ≤ middle) (nonempty : 0 < size)
    (fits : middle + size ≤ Position.shiftLimit)
    (fits' : middle - oldSize + newSize + size ≤ Position.shiftLimit) :
    (m.push (.single at_ oldSize newSize)).Traces start size (middle - oldSize + newSize) := by
  have limit := Position.limit_eq
  have shiftLimit := Position.shiftLimit_eq
  refine traces.push (PositionMap.carries_behind old new apart nonempty fits) ?_
  have back := PositionMap.carries_behind new old
    (show at_ + newSize ≤ middle - oldSize + newSize by omega) nonempty fits'
  have place : middle - oldSize + newSize - newSize + oldSize = middle := by omega
  rw [place] at back
  rw [PositionMap.invert_single (by omega)]
  exact back

end Single

private theorem back_ends (traces : m.Traces start size target)
    (bounded : ∀ step ∈ m.maps, step.Bounded) (nonempty : 0 < size) :
    carryBack m.maps target .after = start ∧
      carryBack m.maps (target + size) .before = start + size ∧
      carryBack m.maps (target + (size - 1)) .before ≤ start + (size - 1) ∧
      start + 1 ≤ carryBack m.maps (target + 1) .after := by
  have first : carryBack m.maps target .after = start := congrArg Placement.pos traces.back.first
  have last : carryBack m.maps (target + size) .before = start + size :=
    congrArg Placement.pos traces.back.last
  refine ⟨first, last, ?_⟩
  by_cases one : size = 1
  · subst one
    have between (pos : Nat) : carryBack m.maps pos .before ≤ carryBack m.maps pos .after :=
      carryBack_le_carryBack bounded (Nat.le_refl pos) fun _ => rfl
    have left := between target
    have right := between (target + 1)
    simp only [Nat.sub_self, Nat.add_zero]
    omega
  · have inner : ∀ i side, 0 < i → i < size → carryBack m.maps (target + i) side = start + i :=
      fun i side above below => congrArg Placement.pos (traces.back.inner i side above below)
    rw [inner (size - 1) .before (by omega) (by omega), inner 1 .after (by omega) (by omega)]
    exact ⟨Nat.le_refl _, Nat.le_refl _⟩

theorem cuts_iff (traces : m.Traces start size target) (bounded : ∀ step ∈ m.maps, step.Bounded)
    (nonempty : 0 < size) {s : Splice} (inside : s.start + s.oldSize ≤ Position.shiftLimit) :
    (rangeBefore m.maps s).Cuts start size ↔
      s.start < target + size ∧ target < s.start + s.oldSize := by
  have limit := Position.limit_eq
  have shiftLimit := Position.shiftLimit_eq
  have stop : s.oldEnd = s.start + s.oldSize := Position.add_of_le (by omega)
  obtain ⟨first, last, inLast, inFirst⟩ := traces.back_ends bounded nonempty
  simp only [Range.Cuts, rangeBefore, stop]
  have mono (side : Side) {x y : Nat} (le : x ≤ y) :
      carryBack m.maps x side ≤ carryBack m.maps y side :=
    carryBack_le_carryBack bounded le id
  constructor
  · rintro ⟨begins, ends⟩
    constructor
    · refine Nat.lt_of_not_le fun beyond => ?_
      have further := mono .before beyond
      omega
    · refine Nat.lt_of_not_le fun beyond => ?_
      have stops := mono .after beyond
      have starts : carryBack m.maps s.start .before ≤ carryBack m.maps target .after :=
        carryBack_le_carryBack bounded (by omega) fun _ => rfl
      omega
  · rintro ⟨begins, ends⟩
    have starts := mono .before (show s.start ≤ target + (size - 1) by omega)
    have stops := mono .after (show target + 1 ≤ s.start + s.oldSize by omega)
    omega

end Traces

end Mapping

end CodeTint
