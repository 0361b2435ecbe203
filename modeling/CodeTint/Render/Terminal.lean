import CodeTint.Decoration.Basic
import CodeTint.Language

/-!
The code blocks of a document for a terminal with 24-bit colors. The text of a block is cut into
pieces, each plain or in one style; a styled piece is written between the escape sequence of its
style and a reset. No piece has an escape sequence in its text that the code did not have.
-/

set_option autoImplicit false
set_option relaxedAutoImplicit false

namespace CodeTint.Terminal

def reset : String := "\x1b[0m"

def codes (style : SpanStyle) : List String :=
  (if style.font.bold then ["1"] else []) ++
    (if style.font.italic then ["3"] else []) ++
    (if style.font.underline then ["4"] else []) ++
    (style.color.map fun c =>
      "38;2;" ++ toString c.red ++ ";" ++ toString c.green ++ ";" ++ toString c.blue).toList

/-- The escape sequence that selects the look of a style, if there is anything to show. -/
def opening? (style : SpanStyle) : Option String :=
  match codes style with
  | [] => none
  | parts => some ("\x1b[" ++ Text.join ";" parts ++ "m")

structure Piece where
  opening : Option String
  text : List Char
  deriving DecidableEq, Repr

namespace Piece

def write (p : Piece) : String :=
  match p.opening with
  | some opening => opening ++ String.ofList p.text ++ reset
  | none => String.ofList p.text

end Piece

/-- The pieces of what is left of a text behind its first `cursor` characters. Each inline
decoration styles what it covers and no earlier one took; `base` is the position of the text. -/
def pieces (base length : Nat) : Nat → List Char → List Decoration → List Piece
  | _, rest, [] => [⟨none, rest⟩]
  | cursor, rest, .node _ _ _ :: more => pieces base length cursor rest more
  | cursor, rest, .inline start stop _ span :: more =>
    let first := max (min (start - base) length) cursor
    let last := min (stop - base) length
    if last ≤ first then pieces base length cursor rest more
    else
      ⟨none, rest.take (first - cursor)⟩ ::
        ⟨opening? span, (rest.drop (first - cursor)).take (last - first)⟩ ::
        pieces base length last (rest.drop (last - cursor)) more

def regionPieces (r : CodeRegion) (s : DecorationSet) : List Piece :=
  pieces r.contentStart r.text.length 0 r.text.toList
    (s.overlapping r.contentStart r.contentStop)

def headerLanguage (r : CodeRegion) (s : DecorationSet) : String :=
  ((s.nodes.find? (·.start = r.start)).bind (·.shown.dataLanguage)).getD (Language.tag r.language)

def writeRegion (r : CodeRegion) (s : DecorationSet) : String :=
  "── " ++ headerLanguage r s ++ " ──\n" ++
    String.join ((regionPieces r s).map (·.write)) ++
    (if r.text.toList.getLast? = some '\n' then "" else "\n")

def render (d : Document) (s : DecorationSet) : String :=
  Text.join "\n" (d.regions.map (writeRegion · s))

end CodeTint.Terminal
