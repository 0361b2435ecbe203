import CodeTint.Position.Map

/-!
Chains of position maps, one for each step of an edit, and the ranges of the first document that a
chain has touched.
-/

set_option autoImplicit false
set_option relaxedAutoImplicit false

namespace CodeTint

structure Mapping where
  maps : List PositionMap := []
  deriving DecidableEq, Repr, Inhabited

structure Range where
  start : Nat
  stop : Nat
  deriving DecidableEq, Repr

namespace Mapping

def push (m : Mapping) (step : PositionMap) : Mapping := ⟨m.maps ++ [step]⟩

def isIdentity (m : Mapping) : Bool := m.maps.all (·.isIdentity)

def placeThrough (side : Side) : List PositionMap → Placement → Placement
  | [], p => p
  | m :: rest, p =>
    let next := m.place p.pos side
    placeThrough side rest ⟨next.pos, p.deleted || next.deleted⟩

def place (m : Mapping) (pos : Nat) (side : Side) : Placement :=
  placeThrough side m.maps ⟨pos, false⟩

def map (m : Mapping) (pos : Nat) (side : Side) : Nat := (m.place pos side).pos

def carryBack (maps : List PositionMap) (pos : Nat) (side : Side) : Nat :=
  maps.foldr (fun m p => m.invert.map p side) pos

def rangeBefore (earlier : List PositionMap) (s : Splice) : Range :=
  let start := carryBack earlier s.start .before
  let stop := carryBack earlier s.oldEnd .after
  ⟨start, max stop start⟩

def rangesAfter (earlier : List PositionMap) : List PositionMap → List Range
  | [] => []
  | m :: rest => m.splices.map (rangeBefore earlier) ++ rangesAfter (earlier ++ [m]) rest

def ranges (m : Mapping) : List Range := rangesAfter [] m.maps

end Mapping

end CodeTint
