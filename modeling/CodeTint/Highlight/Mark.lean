import CodeTint.Highlight.Capture

/-!
Marks: captures in characters, with the name that a rule gives to what it finds.
-/

set_option autoImplicit false
set_option relaxedAutoImplicit false

namespace CodeTint

/-- A range of characters that a rule has found. -/
structure Mark where
  start : Nat
  stop : Nat
  /-- The place of the rule among the rules of its grammar. -/
  pattern : Nat
  name : String
  deriving DecidableEq, Repr, Inhabited

namespace Mark

/-- The number of bytes before each character of a text and at its end, if there are `before`
bytes before the text. -/
def byteOffsets (before : Nat) : List Char → List Nat
  | [] => [before]
  | c :: rest => before :: byteOffsets (before + c.utf8Size) rest

def captures (text : String) (marks : List Mark) : List Capture :=
  let offsets := (byteOffsets 0 text.toList).toArray
  marks.map fun m =>
    { start := offsets.getD m.start text.utf8ByteSize
      stop := offsets.getD m.stop text.utf8ByteSize
      pattern := m.pattern
      category := Category.ofCapture? m.name }

def shift (n : Nat) (m : Mark) : Mark := { m with start := m.start + n, stop := m.stop + n }

/-- The marks of a text whose first character, if it tells the order of bytes, belongs to nothing
that is marked. -/
def behindOrderMark (marks : String → List Mark) (text : String) : List Mark :=
  match text.toList with
  | '\ufeff' :: rest => (marks (String.ofList rest)).map (shift 1)
  | _ => marks text

end Mark

end CodeTint
