import CodeTint.Theme.Basic

/-!
The themes that are always at hand.
-/

set_option autoImplicit false
set_option relaxedAutoImplicit false

namespace CodeTint.ThemeData

def vitesseLight : ThemeData where
  name := "Vitesse Light"
  appearance := .light
  background := some "#FFFFFF"
  foreground := some "#393A34"
  tokens := [
    ("comment", .full (some "#A0ADA0") (some "italic")),
    ("keyword", .color "#1E754F"),
    ("keyword.operator", .color "#AB5959"),
    ("string", .color "#B56959"),
    ("string.special", .color "#AB5959"),
    ("escape", .color "#AB5959"),
    ("number", .color "#2F798A"),
    ("boolean", .color "#1E754F"),
    ("constant", .color "#A65E2B"),
    ("constant.builtin", .color "#1E754F"),
    ("function", .color "#59873A"),
    ("function.macro", .color "#59873A"),
    ("constructor", .color "#2E8F82"),
    ("type", .color "#2E8F82"),
    ("module", .color "#B07D48"),
    ("variable", .color "#B07D48"),
    ("variable.builtin", .color "#A65E2B"),
    ("variable.parameter", .color "#B07D48"),
    ("property", .color "#998418"),
    ("attribute", .color "#B07D48"),
    ("label", .color "#B07D48"),
    ("operator", .color "#AB5959"),
    ("punctuation", .color "#999999"),
    ("tag", .color "#1E754F"),
    ("tag.attribute", .color "#998418"),
    ("text.uri", .full (some "#B56959") (some "underline"))]

def vitesseDark : ThemeData where
  name := "Vitesse Dark"
  appearance := .dark
  background := some "#121212"
  foreground := some "#DBD7CA"
  tokens := [
    ("comment", .full (some "#758575") (some "italic")),
    ("keyword", .color "#4D9375"),
    ("keyword.operator", .color "#CB7676"),
    ("string", .color "#C98A7D"),
    ("string.special", .color "#CB7676"),
    ("escape", .color "#CB7676"),
    ("number", .color "#4C9A91"),
    ("boolean", .color "#4D9375"),
    ("constant", .color "#C99076"),
    ("constant.builtin", .color "#4D9375"),
    ("function", .color "#80A665"),
    ("function.macro", .color "#80A665"),
    ("constructor", .color "#5DA994"),
    ("type", .color "#5DA994"),
    ("module", .color "#BD976A"),
    ("variable", .color "#BD976A"),
    ("variable.builtin", .color "#C99076"),
    ("variable.parameter", .color "#BD976A"),
    ("property", .color "#B8A965"),
    ("attribute", .color "#BD976A"),
    ("label", .color "#BD976A"),
    ("operator", .color "#CB7676"),
    ("punctuation", .color "#666666"),
    ("tag", .color "#4D9375"),
    ("tag.attribute", .color "#B8A965"),
    ("text.uri", .full (some "#C98A7D") (some "underline"))]

def githubLight : ThemeData where
  name := "GitHub Light"
  appearance := .light
  background := some "#FFFFFF"
  foreground := some "#24292E"
  tokens := [
    ("comment", .color "#6A737D"),
    ("keyword", .color "#D73A49"),
    ("string", .color "#032F62"),
    ("escape", .color "#22863A"),
    ("number", .color "#005CC5"),
    ("boolean", .color "#005CC5"),
    ("constant", .color "#005CC5"),
    ("function", .color "#6F42C1"),
    ("constructor", .color "#6F42C1"),
    ("type", .color "#6F42C1"),
    ("variable", .color "#24292E"),
    ("variable.builtin", .color "#005CC5"),
    ("variable.parameter", .color "#E36209"),
    ("property", .color "#005CC5"),
    ("attribute", .color "#6F42C1"),
    ("operator", .color "#D73A49"),
    ("punctuation", .color "#24292E"),
    ("tag", .color "#22863A"),
    ("tag.attribute", .color "#6F42C1"),
    ("text.uri", .full (some "#032F62") (some "underline"))]

def githubDark : ThemeData where
  name := "GitHub Dark"
  appearance := .dark
  background := some "#24292E"
  foreground := some "#E1E4E8"
  tokens := [
    ("comment", .color "#6A737D"),
    ("keyword", .color "#F97583"),
    ("string", .color "#9ECBFF"),
    ("escape", .color "#85E89D"),
    ("number", .color "#79B8FF"),
    ("boolean", .color "#79B8FF"),
    ("constant", .color "#79B8FF"),
    ("function", .color "#B392F0"),
    ("constructor", .color "#B392F0"),
    ("type", .color "#B392F0"),
    ("variable", .color "#E1E4E8"),
    ("variable.builtin", .color "#79B8FF"),
    ("variable.parameter", .color "#FFAB70"),
    ("property", .color "#79B8FF"),
    ("attribute", .color "#B392F0"),
    ("operator", .color "#F97583"),
    ("punctuation", .color "#E1E4E8"),
    ("tag", .color "#85E89D"),
    ("tag.attribute", .color "#B392F0"),
    ("text.uri", .full (some "#9ECBFF") (some "underline"))]

def midnight : ThemeData where
  name := "Midnight"
  appearance := .dark
  background := some "#0B1021"
  foreground := some "#C8D3F5"
  tokens := [
    ("comment", .full (some "#7A88CF") (some "italic")),
    ("keyword", .full (some "#C099FF") (some "bold")),
    ("keyword.return", .color "#C099FF"),
    ("string", .color "#C3E88D"),
    ("escape", .color "#89DDFF"),
    ("number", .color "#FF966C"),
    ("boolean", .color "#FF966C"),
    ("constant", .color "#FF966C"),
    ("function", .color "#82AAFF"),
    ("constructor", .color "#FFC777"),
    ("type", .color "#FFC777"),
    ("module", .color "#FFC777"),
    ("variable", .color "#C8D3F5"),
    ("variable.builtin", .color "#FF757F"),
    ("property", .color "#4FD6BE"),
    ("attribute", .color "#4FD6BE"),
    ("operator", .color "#89DDFF"),
    ("punctuation", .color "#89DDFF"),
    ("tag", .color "#FF757F"),
    ("text.uri", .full (some "#C3E88D") (some "underline"))]

def builtins : List (String × ThemeData) :=
  [("vitesse-light", vitesseLight),
   ("vitesse-dark", vitesseDark),
   ("github-light", githubLight),
   ("github-dark", githubDark),
   ("midnight", midnight)]

end CodeTint.ThemeData

namespace CodeTint.Theme

def ofBuiltin (id : String) : Except ThemeError Theme :=
  match ThemeData.builtins.lookup id with
  | some data => ofData id data
  | none => .error (.unknown id)

end CodeTint.Theme
