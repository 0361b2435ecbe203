import CodeTint.Transaction

/-!
Whether a transaction leaves the highlighting of every code block as it was, up to a shift of
positions, or calls for it to be computed anew.
-/

set_option autoImplicit false
set_option relaxedAutoImplicit false

namespace CodeTint

/-- Why everything has to be computed anew, in the order of the checks. -/
inductive RecomputeReason where
  | forced
  | structureChanged
  | selectionCrossed
  | inRegionEdit
  | pending
  deriving DecidableEq, Repr

def RecomputeReason.word : RecomputeReason → String
  | .forced => "Forced"
  | .structureChanged => "StructureChanged"
  | .selectionCrossed => "SelectionCrossed"
  | .inRegionEdit => "InRegionEdit"
  | .pending => "Pending"

inductive Decision where
  | recompute (reason : RecomputeReason)
  | remap
  deriving DecidableEq, Repr

def Decision.word : Decision → String
  | .recompute reason => reason.word
  | .remap => "Remap"

namespace Transaction

def touchesRegion (t : Transaction) : Bool :=
  let regions := t.before.regions
  t.changedRanges.any fun r => regions.any fun region => region.touches r.start r.stop

/-- What a transaction calls for, if nothing is pending. -/
def classify (t : Transaction) : Decision :=
  if t.forced then .recompute .forced
  else if t.changesStructure && t.before.regionCount != t.after.regionCount then
    .recompute .structureChanged
  else if t.before.regionAt t.selectionBefore.head != t.after.regionAt t.selectionAfter.head then
    .recompute .selectionCrossed
  else if t.changesDocument && t.touchesRegion then .recompute .inRegionEdit
  else .remap

end Transaction

inductive DetectorState where
  | idle | dirty
  deriving DecidableEq, Repr, Inhabited

namespace DetectorState

def word : DetectorState → String
  | .idle => "Idle"
  | .dirty => "Dirty"

def isDirty (s : DetectorState) : Bool := s = .dirty

/-- What a transaction calls for in a state, and the state that it leads to. -/
def observe (s : DetectorState) (t : Transaction) : Decision × DetectorState :=
  match t.classify, s with
  | .recompute reason, _ => (.recompute reason, .dirty)
  | .remap, .dirty => (.recompute .pending, .dirty)
  | .remap, .idle => (.remap, .idle)

end DetectorState

end CodeTint
