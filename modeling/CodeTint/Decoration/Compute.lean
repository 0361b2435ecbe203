import CodeTint.Config
import CodeTint.Decoration.Basic
import CodeTint.Highlight.Span
import CodeTint.Resource.Cache

/-!
The decorations of all code blocks of a document, computed with what is loaded: one for each block
and one for each span of its text. Nothing is waited for; a block whose grammar is not loaded is
shown as plain text, and one whose theme is not loaded in another theme.
-/

set_option autoImplicit false
set_option relaxedAutoImplicit false

namespace CodeTint

def Cache.grammarNamed? (c : Cache) (name : String) : Option Grammar :=
  ((Language.resolve name).filter (·.hasHighlighting)).bind fun l => c.grammar? l.id

/-- The grammar for a language attribute. Only a block without a language is read in the default
language. -/
def Cache.grammarFor (c : Cache) (config : Config) (language : Option String) : Option Grammar :=
  c.grammarNamed? ((Text.nonBlank language).getD config.defaultLanguage)

/-- The theme for a theme attribute: its own, the default one, the first that is loaded, or the
plain one. -/
def Cache.themeFor (c : Cache) (config : Config) (theme : Option String) : Theme :=
  (((Text.nonBlank theme).bind c.theme?).or
    ((c.theme? config.defaultTheme).or
      ((c.identifiers .theme).head?.bind c.theme?))).getD .plain

def CodeRegion.nodeDecoration (r : CodeRegion) (theme : Theme) (config : Config) : Decoration :=
  .node r.start r.stop
    { className := some (config.nodeClass ++ " " ++ theme.id)
      style := theme.containerCss
      dataLanguage := some (Language.tag r.language) }

def Span.decoration (offset : Nat) (s : Span) : Decoration :=
  .inline (offset + s.start) (offset + s.stop) { style := s.style.css } s.style

def CodeRegion.decorations (r : CodeRegion) (grammar : Option Grammar) (theme : Theme)
    (config : Config) : List Decoration :=
  r.nodeDecoration theme config ::
    (highlight r.text grammar theme).map (Span.decoration r.contentStart)

def Document.decorationsIn (d : Document) (c : Cache) (config : Config) : List Decoration :=
  d.regions.flatMap fun r =>
    r.decorations (c.grammarFor config r.language) (c.themeFor config r.theme) config

def Document.decorate (d : Document) (c : Cache) (config : Config) : DecorationSet :=
  .ofList d.version (d.decorationsIn c config)

end CodeTint
