/-!
What an edit does to positions. An edit replaces ranges of positions by others; a position before
them stays, one behind them shifts, and one at or inside a range goes to the side that is asked for.
Positions are counted with 64 bits and shifts with a sign: what exceeds them stops at the limit, and
a position that would fall below zero is put at the limit, beyond every document.
-/

set_option autoImplicit false
set_option relaxedAutoImplicit false

namespace CodeTint

namespace Position

def limit : Nat := 0xFFFFFFFFFFFFFFFF

def shiftLimit : Nat := 0x7FFFFFFFFFFFFFFF

def add (a b : Nat) : Nat := min (a + b) limit

def clampShift (d : Int) : Int := max (-(shiftLimit : Int) - 1) (min d shiftLimit)

def shift (pos : Nat) (d : Int) : Nat :=
  let moved := (pos : Int) + d
  if 0 ≤ moved ∧ moved ≤ limit then moved.toNat else limit

end Position

inductive Side where
  | before | after
  deriving DecidableEq, Repr

/-- A replaced range: `oldSize` positions at `start` became `newSize` positions. -/
structure Splice where
  start : Nat
  oldSize : Nat
  newSize : Nat
  deriving DecidableEq, Repr, Inhabited

namespace Splice

def oldEnd (s : Splice) : Nat := Position.add s.start s.oldSize

def delta (s : Splice) : Int :=
  ((min s.newSize Position.shiftLimit : Nat) : Int) - (min s.oldSize Position.shiftLimit : Nat)

def swallows (s : Splice) (pos : Nat) : Bool :=
  0 < s.oldSize && s.start < pos && pos < s.oldEnd

/-- The side that a position at or inside the range goes to: the ends of a range with old content
keep to their own side. -/
def sideOf (s : Splice) (pos : Nat) (side : Side) : Side :=
  if s.oldSize = 0 then side
  else if pos = s.start then .before
  else if pos = s.oldEnd then .after
  else side

end Splice

/-- Where a position goes, and whether what was there is gone. -/
structure Placement where
  pos : Nat
  deleted : Bool
  deriving DecidableEq, Repr

/-- What one step does to positions: its replaced ranges in old positions, from left to right. -/
structure PositionMap where
  splices : List Splice := []
  deriving DecidableEq, Repr, Inhabited

namespace PositionMap

def identity : PositionMap := {}

def single (start oldSize newSize : Nat) : PositionMap :=
  if oldSize = 0 ∧ newSize = 0 then identity else ⟨[⟨start, oldSize, newSize⟩]⟩

def isIdentity (m : PositionMap) : Bool := m.splices.isEmpty

/-- Where a position goes, if it is already shifted by `d` and the given ranges follow. -/
def placeFrom (d : Int) (pos : Nat) (side : Side) : List Splice → Placement
  | [] => ⟨Position.shift pos d, false⟩
  | s :: rest =>
    if pos < s.start then ⟨Position.shift pos d, false⟩
    else if pos ≤ s.oldEnd then
      let base := Position.shift s.start d
      ⟨match s.sideOf pos side with
        | .before => base
        | .after => Position.add base s.newSize, s.swallows pos⟩
    else placeFrom (Position.clampShift (d + s.delta)) pos side rest

def place (m : PositionMap) (pos : Nat) (side : Side) : Placement :=
  placeFrom 0 pos side m.splices

def map (m : PositionMap) (pos : Nat) (side : Side) : Nat := (m.place pos side).pos

/-- The ranges seen from the new positions, if positions are already shifted by `d`. -/
def invertFrom (d : Int) : List Splice → List Splice
  | [] => []
  | s :: rest =>
    ⟨Position.shift s.start d, s.newSize, s.oldSize⟩ ::
      invertFrom (Position.clampShift (d + s.delta)) rest

def invert (m : PositionMap) : PositionMap := ⟨invertFrom 0 m.splices⟩

end PositionMap

end CodeTint
