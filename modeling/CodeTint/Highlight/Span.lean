import CodeTint.Highlight.Grammar
import CodeTint.Theme.Basic

/-!
Highlighted text: spans of characters, each in one style, that cover a text from end to end. Each
character has the style of the category of its first byte, and neighbours of one style share a
span.
-/

set_option autoImplicit false
set_option relaxedAutoImplicit false

namespace CodeTint

structure Span where
  start : Nat
  stop : Nat
  style : SpanStyle
  deriving DecidableEq, Repr

namespace Span

def charStyles (theme : Theme) : List (Option CategoryId) → List Char → List SpanStyle
  | _, [] => []
  | painted, c :: rest =>
    theme.styleFor painted.head?.join :: charStyles theme (painted.drop c.utf8Size) rest

/-- The spans of styles in a row, if the first one is that of character `pos`. -/
def runs (pos : Nat) : List SpanStyle → List Span
  | [] => []
  | style :: rest =>
    match runs (pos + 1) rest with
    | [] => [⟨pos, pos + 1, style⟩]
    | s :: more =>
      if s.style = style then { s with start := pos } :: more
      else ⟨pos, pos + 1, style⟩ :: s :: more

end Span

def paintText (text : String) (grammar : Option Grammar) : List (Option CategoryId) :=
  match grammar with
  | some g => Capture.paint text.utf8ByteSize (g.captures text)
  | none => List.replicate text.utf8ByteSize none

def highlight (text : String) (grammar : Option Grammar) (theme : Theme) : List Span :=
  Span.runs 0 (Span.charStyles theme (paintText text grammar) text.toList)

end CodeTint
