import CodeTint.Proofs.Decoration.Remapped

/-!
Positions that the counting with 64 bits cuts off. Ranges may have any sizes here. Main statement: a
position goes where it would go if nothing were ever cut off, or to one that every document is too
short for, so that decorations with an end there are refused.
-/

set_option autoImplicit false
set_option relaxedAutoImplicit false

namespace CodeTint

/-- The side that a position at or inside a range goes to, the end of the range counted in full. -/
def Splice.fullSideOf (s : Splice) (pos : Nat) (side : Side) : Side :=
  if s.oldSize = 0 then side
  else if pos = s.start then .before
  else if pos = s.start + s.oldSize then .after
  else side

/-- Where a position goes in counting without limits, and whether what was there is gone. -/
structure FullPlacement where
  pos : Int
  deleted : Bool
  deriving DecidableEq

/-- The ends of a decoration, each with the side that it goes to when it is carried. -/
def Decoration.ends (d : Decoration) : List (Nat × Side) := [(d.start, .after), (d.stop, .before)]

namespace PositionMap

/-- Where a position goes in counting without limits, if it is already shifted by `d`. -/
def placeFullFrom (d : Int) (pos : Nat) (side : Side) : List Splice → FullPlacement
  | [] => ⟨pos + d, false⟩
  | s :: rest =>
    if pos < s.start then ⟨pos + d, false⟩
    else if pos ≤ s.start + s.oldSize then
      ⟨match s.fullSideOf pos side with
        | .before => s.start + d
        | .after => s.start + d + s.newSize,
        0 < s.oldSize && s.start < pos && pos < s.start + s.oldSize⟩
    else placeFullFrom (d + (s.newSize - s.oldSize)) pos side rest

def placeFull (m : PositionMap) (pos : Nat) (side : Side) : FullPlacement :=
  placeFullFrom 0 pos side m.splices

/-- A shift and the one in full are the same, or both are beyond the greatest shift, but for the `x`
positions that they may have lost again. -/
def Tracks (x : Nat) (d full : Int) : Prop :=
  d ≤ Position.shiftLimit ∧ (d = full ∧ -(x : Int) ≤ d ∨
    (Position.shiftLimit : Int) ≤ d + x ∧ (Position.shiftLimit : Int) < full + x)

/-- A position is the one in full, or both are beyond what a document can have. -/
def Agrees (pos : Nat) (full : Int) : Prop :=
  (full ≤ Position.shiftLimit → (pos : Int) = full) ∧
    (Position.shiftLimit < full → Position.shiftLimit ≤ pos)

variable {x pos : Nat} {d full : Int} {s : Splice} {splices : List Splice}

private theorem Tracks.pass (tracks : Tracks x d full) (le : x ≤ s.start)
    (inside : s.start + s.oldSize ≤ Position.shiftLimit) :
    Tracks (s.start + s.oldSize) (Position.clampShift (d + s.delta))
      (full + (s.newSize - s.oldSize)) := by
  simp only [Tracks, Position.clampShift, Splice.delta] at tracks ⊢
  omega

private theorem Tracks.shift (tracks : Tracks x d full) (le : x ≤ pos)
    (inside : pos ≤ Position.shiftLimit) : Agrees (Position.shift pos d) (pos + full) := by
  have limit := Position.limit_eq
  have shiftLimit := Position.shiftLimit_eq
  rw [Tracks] at tracks
  rw [Agrees, Position.shift_of_nonneg (by omega)]
  omega

private theorem Agrees.add (agrees : Agrees pos full) (n : Nat) :
    Agrees (Position.add pos n) (full + n) := by
  have limit := Position.limit_eq
  have shiftLimit := Position.shiftLimit_eq
  simp only [Agrees, Position.add] at agrees ⊢
  omega

private theorem placeFrom_agrees (ordered : splices.IsChain fun s t => s.oldEnd ≤ t.start)
    (tracks : Tracks x d full) (le : x ≤ pos) (before : ∀ s ∈ splices.head?, x ≤ s.start)
    (inside : pos ≤ Position.shiftLimit) (side : Side) :
    (placeFrom d pos side splices).deleted = (placeFullFrom full pos side splices).deleted ∧
      Agrees (placeFrom d pos side splices).pos (placeFullFrom full pos side splices).pos := by
  have limit := Position.limit_eq
  have shiftLimit := Position.shiftLimit_eq
  induction splices generalizing x d full with
  | nil => exact ⟨rfl, tracks.shift le inside⟩
  | cons s rest ih =>
    have first : x ≤ s.start := before s rfl
    have stop : s.oldEnd = min (s.start + s.oldSize) Position.limit := rfl
    rw [placeFrom, placeFullFrom]
    by_cases left : pos < s.start
    · rw [if_pos left, if_pos left]
      exact ⟨rfl, tracks.shift le inside⟩
    rw [if_neg left, if_neg left]
    by_cases within : pos ≤ s.start + s.oldSize
    · rw [if_pos (by omega), if_pos within]
      have last : pos = s.oldEnd ↔ pos = s.start + s.oldSize := by omega
      have inner : pos < s.oldEnd ↔ pos < s.start + s.oldSize := by omega
      have sides : s.sideOf pos side = s.fullSideOf pos side := by
        simp only [Splice.sideOf, Splice.fullSideOf, last]
      have base := tracks.shift first (show s.start ≤ Position.shiftLimit by omega)
      constructor
      · simp only [Splice.swallows, inner]
      · rw [sides]
        cases s.fullSideOf pos side with
        | before => exact base
        | after => exact base.add s.newSize
    · rw [if_neg (by omega), if_neg within]
      obtain ⟨next, ordered⟩ := List.isChain_cons.mp ordered
      have passed := tracks.pass first (show s.start + s.oldSize ≤ Position.shiftLimit by omega)
      refine ih ordered passed (by omega) (fun t among => ?_)
      have apart := next t among
      omega

private theorem agrees_of_ordered {m : PositionMap} (ordered : m.Ordered)
    (inside : pos ≤ Position.shiftLimit) (side : Side) :
    (m.place pos side).deleted = (m.placeFull pos side).deleted ∧
      Agrees (m.map pos side) (m.placeFull pos side).pos := by
  have tracks : Tracks 0 0 0 := ⟨by decide, .inl ⟨rfl, by decide⟩⟩
  exact placeFrom_agrees ordered tracks (Nat.zero_le pos) (fun _ _ => Nat.zero_le _) inside side

end PositionMap

private theorem DecorationSet.remap_of_end_beyond {s : DecorationSet} {m : Mapping}
    {target : Document}
    {d : Decoration} (member : d ∈ s.decorations) {place : Nat × Side} (among : place ∈ d.ends)
    (beyond : target.size < m.map place.1 place.2) :
    ∃ pos, s.remap m target = .error ⟨pos, target.size⟩ ∧ target.size < pos := by
  refine remap_of_not_lands member fun lands => ?_
  rcases List.mem_cons.mp among with rfl | among
  · exact Nat.not_lt.mpr lands.1 beyond
  · obtain rfl := List.mem_singleton.mp among
    exact Nat.not_lt.mpr lands.2 beyond

/-- A map with ranges of any sizes, which lie from left to right, puts a position where counting
without limits puts it if that is not beyond the greatest shift, that is 2^63 - 1; else it puts the
position there or further on, and a set of decorations with an end that comes to this position is
refused for every smaller document, whatever maps were before. -/
theorem PositionMap.place_or_refused {m : PositionMap} (ordered : m.Ordered) {pos : Nat}
    (inside : pos ≤ Position.shiftLimit) (side : Side) :
    (m.place pos side).deleted = (m.placeFull pos side).deleted ∧
      ((m.placeFull pos side).pos ≤ Position.shiftLimit →
        (m.map pos side : Int) = (m.placeFull pos side).pos) ∧
      (Position.shiftLimit < (m.placeFull pos side).pos →
        Position.shiftLimit ≤ m.map pos side ∧
        ∀ (earlier : List PositionMap) (s : DecorationSet) (target : Document) (first : Nat),
          (∃ d ∈ s.decorations, (first, side) ∈ d.ends) →
          (⟨earlier⟩ : Mapping).map first side = pos → target.size < Position.shiftLimit →
            ∃ beyond, s.remap ⟨earlier ++ [m]⟩ target = .error ⟨beyond, target.size⟩ ∧
              target.size < beyond) := by
  obtain ⟨deleted, exactly, far⟩ := agrees_of_ordered ordered inside side
  refine ⟨deleted, exactly, fun huge => ⟨far huge, ?_⟩⟩
  rintro earlier s target first ⟨d, member, among⟩ rfl small
  have last : (⟨earlier ++ [m]⟩ : Mapping).map first side =
      m.map ((⟨earlier⟩ : Mapping).map first side) side := by
    have placed := congrArg Placement.pos (Mapping.place_push ⟨earlier⟩ m first side)
    exact placed
  refine DecorationSet.remap_of_end_beyond member among ?_
  rw [last]
  exact Nat.lt_of_lt_of_le small (far huge)

namespace PositionMap.Huge

/-- An insertion of more than a shift can be, and a deletion behind it that takes some of it
back. -/
def step : PositionMap := ⟨[⟨0, 0, 0xFFFFFFFFFFFFFFFF⟩, ⟨1, 4, 0⟩]⟩

theorem place_or_refused_huge :
    step.Ordered ∧ 9 ≤ Position.shiftLimit ∧
      (step.place 9 .after).deleted = (step.placeFull 9 .after).deleted ∧
      step.placeFull 9 .after = ⟨18446744073709551620, false⟩ ∧
      Position.shiftLimit ≤ step.map 9 .after ∧
      ∃ beyond, DecorationSet.remap ⟨1, [.inline 8 11 {} {}]⟩ ⟨[.single 2 0 1, step]⟩
          ⟨[.paragraph "text"], 2⟩ = .error ⟨beyond, 6⟩ ∧ 6 < beyond := by
  have ordered : step.Ordered := by decide +kernel
  have inside : 9 ≤ Position.shiftLimit := by decide
  obtain ⟨deleted, -, far⟩ := place_or_refused ordered inside .after
  have full : step.placeFull 9 .after = ⟨18446744073709551620, false⟩ := by decide +kernel
  have huge : Position.shiftLimit < (step.placeFull 9 .after).pos := by
    rw [full]
    decide +kernel
  obtain ⟨further, refused⟩ := far huge
  refine ⟨ordered, inside, deleted, full, further, ?_⟩
  exact refused [.single 2 0 1] ⟨1, [.inline 8 11 {} {}]⟩ ⟨[.paragraph "text"], 2⟩ 8
    ⟨_, List.mem_singleton_self _, List.mem_cons_self⟩ (by decide +kernel) (by decide +kernel)

end PositionMap.Huge

end CodeTint
