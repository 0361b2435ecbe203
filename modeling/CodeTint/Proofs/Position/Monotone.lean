import CodeTint.Proofs.Position.Single
import Mathlib.Data.List.Chain

/-!
Maps of several ranges, which may touch. Main statement: where no count is cut off, maps whose
ranges lie from left to right keep the order of positions, alone and in a chain, and a position
that stays before new content does not come behind where it goes if it moves behind it.
-/

set_option autoImplicit false
set_option relaxedAutoImplicit false

namespace CodeTint

private theorem Splice.sideOf_eq_after {s : Splice} {x y : Nat} {side side' : Side}
    (first : s.start ≤ x)
    (le : x ≤ y) (last : y ≤ s.oldEnd) (sides : side = .after → side' = .after)
    (after : s.sideOf x side = .after) : s.sideOf y side' = .after := by
  simp only [sideOf] at after ⊢
  split at after
  next empty =>
    rw [if_pos empty]
    exact sides after
  next long =>
    rw [if_neg long]
    split at after
    · cases after
    next moved =>
      rw [if_neg (by omega)]
      split
      · rfl
      · rw [if_neg (by omega)] at after
        exact sides after

namespace PositionMap

/-- The ranges lie from left to right; each may touch the next one. -/
def Ordered (m : PositionMap) : Prop := m.splices.IsChain fun s t => s.oldEnd ≤ t.start

instance (m : PositionMap) : Decidable m.Ordered :=
  inferInstanceAs (Decidable (m.splices.IsChain fun s t => s.oldEnd ≤ t.start))

/-- No count is cut off where a position goes through ranges, if it is already shifted by `d`. -/
def ExactFrom (d : Int) (pos : Nat) (side : Side) : List Splice → Prop
  | [] => (Position.shift pos d : Int) = pos + d
  | s :: rest =>
    if pos < s.start then (Position.shift pos d : Int) = pos + d
    else s.oldEnd = s.start + s.oldSize ∧
      if pos ≤ s.oldEnd then
        (Position.shift s.start d : Int) = s.start + d ∧
          (s.sideOf pos side = .after → Position.add (Position.shift s.start d) s.newSize =
            Position.shift s.start d + s.newSize)
      else
        s.delta = (s.newSize : Int) - s.oldSize ∧ Position.clampShift (d + s.delta) = d + s.delta ∧
          ExactFrom (d + s.delta) pos side rest

instance decidableExactFrom (pos : Nat) (side : Side) :
    (d : Int) → (splices : List Splice) → Decidable (ExactFrom d pos side splices)
  | d, [] => inferInstanceAs (Decidable ((Position.shift pos d : Int) = pos + d))
  | d, s :: rest =>
    have := decidableExactFrom pos side (d + s.delta) rest
    inferInstanceAs (Decidable (ite _ _ _))

/-- No count is cut off where a position goes. -/
def Exact (m : PositionMap) (pos : Nat) (side : Side) : Prop := ExactFrom 0 pos side m.splices

instance (m : PositionMap) (pos : Nat) (side : Side) : Decidable (m.Exact pos side) :=
  inferInstanceAs (Decidable (ExactFrom 0 pos side m.splices))

variable {d : Int} {x y pos : Nat} {side side' : Side} {s : Splice} {rest splices : List Splice}

/-- Where a position goes if no count is cut off: it shifts along before the first range, it goes to
one end of that range, or the other ranges decide. -/
theorem ExactFrom.cases (h : ExactFrom d pos side (s :: rest)) :
    (pos < s.start ∧ ((placeFrom d pos side (s :: rest)).pos : Int) = pos + d) ∨
    (s.start ≤ pos ∧ pos ≤ s.oldEnd ∧ s.oldEnd = s.start + s.oldSize ∧
      ((placeFrom d pos side (s :: rest)).pos : Int) =
        s.start + d + if s.sideOf pos side = .after then s.newSize else 0) ∨
    (s.start ≤ pos ∧ s.oldEnd < pos ∧ s.oldEnd = s.start + s.oldSize ∧
      ExactFrom (d + (s.newSize - s.oldSize)) pos side rest ∧
      placeFrom d pos side (s :: rest) =
        placeFrom (d + (s.newSize - s.oldSize)) pos side rest) := by
  rw [ExactFrom] at h
  rw [placeFrom]
  split at h
  next left =>
    rw [if_pos left]
    exact .inl ⟨left, h⟩
  next notLeft =>
    obtain ⟨stop, h⟩ := h
    rw [if_neg notLeft]
    split at h
    next within =>
      obtain ⟨base, sum⟩ := h
      refine .inr (.inl ⟨Nat.not_lt.mp notLeft, within, stop, ?_⟩)
      rw [if_pos within]
      cases chosen : s.sideOf pos side with
      | before =>
        dsimp only
        rw [base, if_neg Side.noConfusion]
        omega
      | after =>
        dsimp only
        rw [sum chosen, if_pos rfl, Int.natCast_add, base]
    next right =>
      obtain ⟨delta, clamp, h⟩ := h
      rw [if_neg right, clamp, delta]
      rw [delta] at h
      exact .inr (.inr ⟨Nat.not_lt.mp notLeft, Nat.not_le.mp right, stop, h, rfl⟩)

theorem le_placeFrom (ordered : splices.IsChain fun s t => s.oldEnd ≤ t.start)
    (h : ExactFrom d pos side splices) (le : x ≤ pos) (before : ∀ s ∈ splices.head?, x ≤ s.start) :
    (x : Int) + d ≤ (placeFrom d pos side splices).pos := by
  induction splices generalizing d x with
  | nil =>
    have place : ((placeFrom d pos side []).pos : Int) = pos + d := h
    omega
  | cons s rest ih =>
    have first : x ≤ s.start := before s rfl
    rcases h.cases with ⟨-, place⟩ | ⟨-, -, -, place⟩ | ⟨-, right, stop, later, place⟩
    · omega
    · split at place <;> omega
    · obtain ⟨next, ordered⟩ := List.isChain_cons.mp ordered
      have behind := ih ordered later (Nat.le_of_lt right) next
      rw [place]
      omega

private theorem placeFrom_le_placeFrom (ordered : splices.IsChain fun s t => s.oldEnd ≤ t.start)
    (h : ExactFrom d x side splices) (h' : ExactFrom d y side' splices) (le : x ≤ y)
    (sides : side = .after → side' = .after) :
    (placeFrom d x side splices).pos ≤ (placeFrom d y side' splices).pos := by
  induction splices generalizing d with
  | nil =>
    have place : ((placeFrom d x side []).pos : Int) = x + d := h
    have place' : ((placeFrom d y side' []).pos : Int) = y + d := h'
    omega
  | cons s rest ih =>
    -- By where `x` lies: before the range `y` stays behind it, in the range `y` is in it as well or
    -- stays behind its end, and behind the range the others decide for both.
    rcases h.cases with ⟨left, place⟩ | ⟨first, within, stop, place⟩ |
      ⟨above, right, -, later, place⟩
    · have behind := le_placeFrom ordered h' le (by simp; omega)
      omega
    · rcases h'.cases with ⟨left, -⟩ | ⟨-, within', -, place'⟩ | ⟨-, right', -, later', place'⟩
      · omega
      · have both := s.sideOf_eq_after first le within' sides
        by_cases moved : s.sideOf x side = .after
        · rw [if_pos moved] at place
          rw [if_pos (both moved)] at place'
          omega
        · rw [if_neg moved] at place
          omega
      · obtain ⟨next, ordered⟩ := List.isChain_cons.mp ordered
        have behind := le_placeFrom ordered later' (Nat.le_of_lt right') next
        rw [place']
        split at place <;> omega
    · rcases h'.cases with ⟨left, -⟩ | ⟨-, within, -, -⟩ | ⟨-, -, -, later', place'⟩
      · omega
      · omega
      · rw [place, place']
        exact ih ordered.tail later later'

private theorem shift_eq_add {p : Nat} (low : 0 ≤ (p : Int) + d)
    (high : (p : Int) + d ≤ Position.shiftLimit) : (Position.shift p d : Int) = p + d := by
  have limits : Position.shiftLimit ≤ Position.limit := by decide
  rw [Position.shift_of_nonneg low]
  omega

def volume : List Splice → Nat
  | [] => 0
  | s :: rest => s.oldSize + s.newSize + volume rest

/-- Among small numbers no count is cut off: what the ranges have and get fits into a shift together
with the position, as it is and as it is shifted already. -/
theorem exactFrom_of_small (ordered : splices.IsChain fun s t => s.oldEnd ≤ t.start)
    (le : x ≤ pos) (before : ∀ s ∈ splices.head?, x ≤ s.start) (above : 0 ≤ (x : Int) + d)
    (small : pos + volume splices ≤ Position.shiftLimit)
    (small' : pos + d + volume splices ≤ Position.shiftLimit) : ExactFrom d pos side splices := by
  have limits : Position.shiftLimit ≤ Position.limit := by decide
  induction splices generalizing d x with
  | nil => exact shift_eq_add (by omega) (by omega)
  | cons s rest ih =>
    rw [volume] at small small'
    rw [ExactFrom]
    split
    next left => exact shift_eq_add (by omega) (by omega)
    next notLeft =>
      have first : x ≤ s.start := before s rfl
      have stop : s.oldEnd = s.start + s.oldSize := Position.add_of_le (by omega)
      refine ⟨stop, ?_⟩
      split
      next within =>
        have base : (Position.shift s.start d : Int) = s.start + d :=
          shift_eq_add (by omega) (by omega)
        exact ⟨base, fun _ => Position.add_of_le (by omega)⟩
      next right =>
        have delta : s.delta = (s.newSize : Int) - s.oldSize := by
          rw [Splice.delta]
          omega
        have clamp : Position.clampShift (d + s.delta) = d + s.delta := by
          rw [Position.clampShift]
          omega
        obtain ⟨next, ordered⟩ := List.isChain_cons.mp ordered
        exact ⟨delta, clamp, ih ordered (by omega) next (by omega) (by omega) (by omega)⟩

private theorem exact_of_small {m : PositionMap} (ordered : m.Ordered)
    (small : pos + volume m.splices ≤ Position.shiftLimit) : m.Exact pos side :=
  exactFrom_of_small ordered (Nat.zero_le pos) (fun _ _ => Nat.zero_le _) (Int.le_refl 0) small
    (by omega)

theorem map_le_map {m : PositionMap} (ordered : m.Ordered) (uncut : m.Exact x side)
    (uncut' : m.Exact y side') (le : x ≤ y) (sides : side = .after → side' = .after) :
    m.map x side ≤ m.map y side' :=
  placeFrom_le_placeFrom ordered uncut uncut' le sides

end PositionMap

namespace Mapping

def ExactThrough (side : Side) : List PositionMap → Nat → Prop
  | [], _ => True
  | m :: rest, pos => m.Exact pos side ∧ ExactThrough side rest (m.map pos side)

instance decidableExactThrough (side : Side) :
    (maps : List PositionMap) → (pos : Nat) → Decidable (ExactThrough side maps pos)
  | [], _ => inferInstanceAs (Decidable True)
  | m :: rest, pos =>
    have := decidableExactThrough side rest (m.map pos side)
    inferInstanceAs (Decidable (_ ∧ _))

/-- No count is cut off where a position goes. -/
def Exact (m : Mapping) (pos : Nat) (side : Side) : Prop := ExactThrough side m.maps pos

instance (m : Mapping) (pos : Nat) (side : Side) : Decidable (m.Exact pos side) :=
  inferInstanceAs (Decidable (ExactThrough side m.maps pos))

private theorem placeThrough_le_placeThrough {side side' : Side}
    (sides : side = .after → side' = .after)
    {maps : List PositionMap} (ordered : ∀ m ∈ maps, m.Ordered) {p q : Placement}
    (le : p.pos ≤ q.pos) (uncut : ExactThrough side maps p.pos)
    (uncut' : ExactThrough side' maps q.pos) :
    (placeThrough side maps p).pos ≤ (placeThrough side' maps q).pos := by
  induction maps generalizing p q with
  | nil => exact le
  | cons m rest ih =>
    have one := PositionMap.map_le_map (ordered m List.mem_cons_self) uncut.1 uncut'.1 le sides
    exact ih (fun other member => ordered other (List.mem_cons_of_mem m member)) one uncut.2
      uncut'.2

theorem map_le_map {m : Mapping} (ordered : ∀ step ∈ m.maps, step.Ordered) {x y : Nat}
    {side side' : Side} (uncut : m.Exact x side) (uncut' : m.Exact y side') (le : x ≤ y)
    (sides : side = .after → side' = .after) : m.map x side ≤ m.map y side' :=
  placeThrough_le_placeThrough sides ordered le uncut uncut'

end Mapping

/-- Positions keep their order, and what stays before new content does not come behind what goes
behind it, wherever no count is cut off. -/
structure KeepsOrder (map : Nat → Side → Nat) (uncut : Nat → Side → Prop) : Prop where
  mono : ∀ p q side, uncut p side → uncut q side → p ≤ q → map p side ≤ map q side
  sides : ∀ p, uncut p .before → uncut p .after → map p .before ≤ map p .after

/-- Maps whose ranges lie from left to right keep the order of positions, alone and in a chain. -/
theorem keepsOrder : (∀ m : PositionMap, m.Ordered → KeepsOrder m.map m.Exact) ∧
    ∀ m : Mapping, (∀ step ∈ m.maps, step.Ordered) → KeepsOrder m.map m.Exact where
  left _ ordered :=
    { mono := fun _ _ _ uncut uncut' le => PositionMap.map_le_map ordered uncut uncut' le id
      sides := fun _ uncut uncut' =>
        PositionMap.map_le_map ordered uncut uncut' (Nat.le_refl _) fun _ => rfl }
  right _ ordered :=
    { mono := fun _ _ _ uncut uncut' le => Mapping.map_le_map ordered uncut uncut' le id
      sides := fun _ uncut uncut' =>
        Mapping.map_le_map ordered uncut uncut' (Nat.le_refl _) fun _ => rfl }

/-! Ranges that touch: a replaced one, two insertions at its end, and a deletion behind them. -/

namespace Touching

def step : PositionMap := ⟨[⟨2, 2, 1⟩, ⟨4, 0, 3⟩, ⟨4, 0, 2⟩, ⟨4, 2, 0⟩]⟩

def chain : Mapping := ⟨[step, .single 1 4 2]⟩

private theorem ordered_step : step.Ordered := by decide +kernel

private theorem ordered_chain : ∀ m ∈ chain.maps, m.Ordered := by decide +kernel

theorem keepsOrder_touching :
    step.Ordered ∧ step.Exact 4 .before ∧ step.Exact 4 .after ∧ step.Exact 5 .after ∧
      step.map 4 .after ≤ step.map 5 .after ∧ step.map 4 .before ≤ step.map 4 .after ∧
    (∀ m ∈ chain.maps, m.Ordered) ∧ chain.Exact 3 .before ∧ chain.Exact 3 .after ∧
      chain.Exact 5 .after ∧ chain.map 3 .after ≤ chain.map 5 .after ∧
      chain.map 3 .before ≤ chain.map 3 .after := by
  have one := keepsOrder.1 step ordered_step
  have all := keepsOrder.2 chain ordered_chain
  have edge : step.Exact 4 .before := PositionMap.exact_of_small ordered_step (by decide)
  have edge' : step.Exact 4 .after := PositionMap.exact_of_small ordered_step (by decide)
  have inner : step.Exact 5 .after := PositionMap.exact_of_small ordered_step (by decide)
  have first : chain.Exact 3 .before := by decide +kernel
  have first' : chain.Exact 3 .after := by decide +kernel
  have last : chain.Exact 5 .after := by decide +kernel
  exact ⟨ordered_step, edge, edge', inner, one.mono 4 5 .after edge' inner (by decide),
    one.sides 4 edge edge', ordered_chain, first, first', last,
    all.mono 3 5 .after first' last (by decide), all.sides 3 first first'⟩

end Touching

end CodeTint
