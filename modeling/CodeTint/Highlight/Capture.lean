import CodeTint.Style.Category

/-!
Captures and how they paint the bytes of a text. Longer captures are painted first, so that shorter
ones show on top of them; of captures of one length the rule that comes first in its list is painted
last. Captures of no category are not painted.
-/

set_option autoImplicit false
set_option relaxedAutoImplicit false

namespace CodeTint

/-- A range of bytes that a rule of a grammar has found. -/
structure Capture where
  start : Nat
  stop : Nat
  /-- The place of the rule among the rules of its grammar. -/
  pattern : Nat
  category : Option CategoryId
  deriving DecidableEq, Repr, Inhabited

namespace Capture

def size (c : Capture) : Nat := c.stop - c.start

def paints (c : Capture) : Bool := c.category.isSome && c.start < c.stop

def clamp (length : Nat) (c : Capture) : Capture := { c with stop := min c.stop length }

def paintedBefore (a b : Capture) : Bool :=
  b.size < a.size || (a.size = b.size && b.pattern ≤ a.pattern)

def overwrite (painted : List (Option CategoryId)) (c : Capture) : List (Option CategoryId) :=
  painted.take c.start ++ List.replicate c.size c.category ++ painted.drop c.stop

def layers (length : Nat) (captures : List Capture) : List Capture :=
  ((captures.filter (·.paints)).map (clamp length)).mergeSort paintedBefore

def paint (length : Nat) (captures : List Capture) : List (Option CategoryId) :=
  (layers length captures).foldl overwrite (List.replicate length none)

end Capture

end CodeTint
