import CodeTint.Style.Category
import CodeTint.Style.Color

/-!
The look of a run of text: font flags, the style of a span, and the style sheet text of both.
-/

set_option autoImplicit false
set_option relaxedAutoImplicit false

namespace CodeTint

/-- Font flags that a theme attaches to a category. -/
structure FontStyle where
  italic : Bool := false
  bold : Bool := false
  underline : Bool := false
  deriving DecidableEq, Repr, Inhabited

structure FontStyleError where
  word : String
  deriving DecidableEq, Repr

def FontStyleError.message (e : FontStyleError) : String :=
  "Unknown font style: " ++ e.word

namespace FontStyle

def add (style : FontStyle) (word : String) : Except FontStyleError FontStyle :=
  match word with
  | "italic" => .ok { style with italic := true }
  | "bold" => .ok { style with bold := true }
  | "underline" => .ok { style with underline := true }
  | "normal" | "none" => .ok style
  | _ => .error ⟨word⟩

def parse (text : String) : Except FontStyleError FontStyle :=
  (Text.words text).foldlM add {}

def isPlain (style : FontStyle) : Bool :=
  !style.italic && !style.bold && !style.underline

end FontStyle

/-- The look of one span, with the category it was captured as. -/
structure SpanStyle where
  category : Option CategoryId := none
  color : Option Color := none
  font : FontStyle := {}
  deriving DecidableEq, Repr, Inhabited

def declarations? : List String → Option String
  | [] => none
  | parts => some (Text.join ";" parts)

namespace SpanStyle

def cssParts (style : SpanStyle) : List String :=
  (style.color.map fun c => "color:" ++ c.toHex).toList ++
    (if style.font.italic then ["font-style:italic"] else []) ++
    (if style.font.bold then ["font-weight:bold"] else []) ++
    (if style.font.underline then ["text-decoration:underline"] else [])

def css (style : SpanStyle) : Option String :=
  declarations? style.cssParts

def categoryName (style : SpanStyle) : Option String :=
  style.category.bind Category.name?

end SpanStyle

end CodeTint
