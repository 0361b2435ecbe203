import CodeTint.Highlight.Grammar
import CodeTint.Theme.Library

/-!
What is loaded on demand: grammars and themes, each under a key of its kind and an identifier, and
what loads them.
-/

set_option autoImplicit false
set_option relaxedAutoImplicit false

namespace CodeTint

inductive ResourceKind where
  | grammar | theme
  deriving DecidableEq, Repr

def ResourceKind.word : ResourceKind → String
  | .grammar => "grammar"
  | .theme => "theme"

structure ResourceKey where
  kind : ResourceKind
  id : String
  deriving DecidableEq, Repr

namespace ResourceKey

def text (k : ResourceKey) : String := k.kind.word ++ ":" ++ k.id

/-- Grammars come before themes; in a kind the identifiers are in alphabetical order. -/
def le (a b : ResourceKey) : Bool :=
  match a.kind, b.kind with
  | .grammar, .theme => true
  | .theme, .grammar => false
  | _, _ => a.id ≤ b.id

def ofLanguage (l : Language) : ResourceKey := ⟨.grammar, l.id⟩

end ResourceKey

inductive Resource where
  | grammar (g : Grammar)
  | theme (t : Theme)

namespace Resource

def kind : Resource → ResourceKind
  | grammar _ => .grammar
  | theme _ => .theme

def grammar? : Resource → Option Grammar
  | grammar g => some g
  | theme _ => none

def theme? : Resource → Option Theme
  | theme t => some t
  | grammar _ => none

end Resource

/-- Why a load gave nothing that can be kept. -/
inductive LoadError where
  | refused (message : String)
  | crashed
  /-- The loader gave a resource of another kind than its key. -/
  | wrongKind (found : ResourceKind) (key : ResourceKey)
  | discarded
  deriving DecidableEq, Repr

def LoadError.message : LoadError → String
  | .refused message => message
  | .crashed => "load task failed"
  | .wrongKind found key => "loader returned a " ++ found.word ++ " for " ++ key.text
  | .discarded => "cache was reset during the load"

structure Loader where
  knows : ResourceKey → Bool
  load : ResourceKey → Except LoadError Resource

namespace Loader

def loadGrammar (id : String) : Except String Grammar :=
  match Language.resolve id with
  | none => .error ("Unknown language: " ++ id)
  | some l =>
    if l.hasHighlighting then
      (Grammar.ofLanguage l).mapError fun e => "loading grammar " ++ id ++ ": " ++ e.message
    else .error (id ++ " has no grammar")

/-- The loader of the grammars that come with the program and of the themes of a library. -/
def ofLibrary [ThemeReader] (themes : ThemeLibrary) : Loader where
  knows key :=
    match key.kind with
    | .grammar => (Language.resolve key.id).any (·.hasHighlighting)
    | .theme => themes.contains key.id
  load key :=
    match key.kind with
    | .grammar => ((loadGrammar key.id).map .grammar).mapError .refused
    | .theme =>
      ((themes.load key.id).map .theme).mapError fun e =>
        .refused ("loading theme " ++ key.id ++ ": " ++ e.message)

end Loader

end CodeTint
