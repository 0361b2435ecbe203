import CodeTint.Theme.Basic
import CodeTint.Yaml.Reading

/-!
Themes read from YAML: a record of version, name, appearance, container colors and the styles of
categories. Unknown fields are passed over; a field that recurs is refused, except that of two
styles for one category the later counts.
-/

set_option autoImplicit false
set_option relaxedAutoImplicit false

namespace CodeTint.ThemeData

/-- Where a key of a written style says that its value goes: by name, or by position. -/
inductive StyleKey where
  | color | font | other
  deriving DecidableEq, Repr

def StyleKey.of? : Yaml.Content → Option StyleKey
  | .text "color" | .natural 0 => some .color
  | .text "font_style" | .natural 1 => some .font
  | .text _ | .natural _ => some .other
  | _ => none

def styleText? : Yaml.Content → Option (Option String)
  | .nothing => some none
  | .text s => some (some s)
  | _ => none

def styleField? (key : StyleKey) (entries : List (StyleKey × Yaml.Content)) :
    Option (Option String) :=
  match entries.filter (·.1 == key) with
  | [] => some none
  | [(_, v)] => styleText? v
  | _ => none

/-- A style of a category: a text, or a record of color and font words. -/
def tokenStyle? : Yaml.Content → Option TokenStyle
  | .text s => some (.color s)
  | .mapping entries => do
    let entries ← entries.mapM fun (k, v) => do return (← StyleKey.of? k, v)
    return .full (← styleField? .color entries) (← styleField? .font entries)
  | _ => none

/-- Put a style under a name; a name that is there already keeps its place. -/
def putToken (tokens : List (String × TokenStyle)) (entry : String × TokenStyle) :
    List (String × TokenStyle) :=
  if tokens.any (·.1 == entry.1) then
    tokens.map fun t => if t.1 == entry.1 then entry else t
  else tokens ++ [entry]

open Yaml.Reading

def readAppearance (n : Yaml.Node) : Yaml.Reading Appearance := do
  match ← choice n with
  | "light" => return .light
  | "dark" => return .dark
  | _ => failure

def readColors (n : Yaml.Node) : Yaml.Reading (Option String × Option String) := do
  let fields ← fields n
  return ((← field "background" (optional text) fields).join,
    (← field "foreground" (optional text) fields).join)

def readTokens (n : Yaml.Node) : Yaml.Reading (List (String × TokenStyle)) := do
  (← fields n).mapM fun (name, style) => do
    return (name, ← ofOption (tokenStyle? (← content (maxDepth - 2) style)))

def ofNode (n : Yaml.Node) : Yaml.Reading ThemeData := do
  let fields ← fields n
  let version ← field "version" (natural (Nat.pow 2 32)) fields
  let name ← field "name" text fields
  let _ ← field "author" (optional text) fields
  let appearance ← field "appearance" readAppearance fields
  let (background, foreground) := (← field "colors" readColors fields).getD (none, none)
  let tokens := (← field "tokens" readTokens fields).getD []
  if version.isNone then failure
  return { name := ← ofOption name, appearance := appearance.getD .light, background, foreground,
           tokens := tokens.foldl putToken [] }

end CodeTint.ThemeData

namespace CodeTint

/-- The reader that is used where no other is given. -/
instance ThemeReader.yaml : ThemeReader where
  read? text :=
    match Yaml.Tree.parse text with
    | .ok t => Yaml.Reading.run ThemeData.ofNode t
    | .error _ => none

end CodeTint
