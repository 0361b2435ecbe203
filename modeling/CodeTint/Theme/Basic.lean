import CodeTint.Style.Span

/-!
Themes. A theme gives every category one style. Its data name styles for some categories; a
category without one takes that of its nearest named ancestor, and else the foreground color.
-/

set_option autoImplicit false
set_option relaxedAutoImplicit false

namespace CodeTint

inductive Appearance where
  | light | dark
  deriving DecidableEq, Repr, Inhabited

def Appearance.word : Appearance → String
  | .light => "light"
  | .dark => "dark"

/-- The style of a category as it is written: a color alone, or a color and font words. -/
inductive TokenStyle where
  | color (hex : String)
  | full (hex font : Option String)
  deriving DecidableEq, Repr

/-- A theme as it is written. -/
structure ThemeData where
  name : String
  appearance : Appearance := .light
  background : Option String := none
  foreground : Option String := none
  tokens : List (String × TokenStyle) := []
  deriving Repr

/-- A theme with its colors read and a style for every category. -/
structure Theme where
  id : String
  name : String
  appearance : Appearance
  background : Option Color
  foreground : Option Color
  styles : List SpanStyle
  deriving DecidableEq, Repr, Inhabited

/-- Why a theme cannot be had. -/
inductive ThemeError where
  | notation_
  | color (e : ColorError)
  | font (e : FontStyleError)
  | unknown (id : String)
  | unreadable (path : String) (cause : String)
  | fileName (path : String)
  deriving DecidableEq, Repr

namespace ThemeError

def message : ThemeError → String
  | .notation_ => "YAML parse error"
  | .color e => e.message
  | .font e => e.message
  | .unknown id => "Unknown theme id: " ++ id
  | .unreadable path cause => "Failed to read theme file " ++ path ++ ": " ++ cause
  | .fileName path => "Invalid theme file name: " ++ path

end ThemeError

namespace TokenStyle

/-- The style that a written style describes, of no category yet. -/
def resolve : TokenStyle → Except ThemeError SpanStyle
  | .color hex => do
    let color ← (Color.ofHex hex).mapError .color
    return { color := some color }
  | .full hex font => do
    let color ← hex.mapM fun h => (Color.ofHex h).mapError ThemeError.color
    let font ← font.mapM fun f => (FontStyle.parse f).mapError ThemeError.font
    return { color := color, font := font.getD {} }

end TokenStyle

namespace Theme

/-- The style that a table of named styles gives a category name: its own, or that of the nearest
ancestor which has one. -/
def inherited (named : List (String × SpanStyle)) (name : String) : Option SpanStyle :=
  (Text.ancestors name).findSome? fun n => named.lookup n

def resolveStyles (named : List (String × SpanStyle)) (foreground : Option Color) :
    List SpanStyle :=
  Category.names.mapIdx fun i name =>
    { (inherited named name).getD { color := foreground } with category := some i }

/-- Read the colors and font words of written theme data. -/
def ofData (id : String) (data : ThemeData) : Except ThemeError Theme := do
  let named ← data.tokens.mapM fun (name, style) => do return (name, ← style.resolve)
  let read (hex : Option String) : Except ThemeError (Option Color) :=
    hex.mapM fun h => (Color.ofHex h).mapError .color
  let foreground ← read data.foreground
  let background ← read data.background
  return {
    id := id, name := data.name, appearance := data.appearance,
    background := background, foreground := foreground,
    styles := resolveStyles named foreground }

def plainId : String := "plain"

/-- The colorless theme, which stands in until another is there. -/
def plain : Theme where
  id := plainId
  name := "Plain"
  appearance := .light
  background := none
  foreground := none
  styles := resolveStyles [] none

def neutralStyle (t : Theme) : SpanStyle := { color := t.foreground }

def styleFor (t : Theme) (category : Option CategoryId) : SpanStyle :=
  (category.bind (t.styles[·]?)).getD t.neutralStyle

def containerCss (t : Theme) : Option String :=
  declarations? <|
    (t.background.map fun c => "background-color:" ++ c.toHex).toList ++
      (t.foreground.map fun c => "color:" ++ c.toHex).toList

end Theme

/-- What reads the data of a theme from its text; nothing for a text that it does not take. -/
class ThemeReader where
  read? : String → Option ThemeData

def Theme.ofYaml [ThemeReader] (id yaml : String) : Except ThemeError Theme :=
  match ThemeReader.read? yaml with
  | some data => ofData id data
  | none => .error .notation_

end CodeTint
