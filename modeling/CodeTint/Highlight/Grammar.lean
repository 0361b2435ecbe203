import CodeTint.Language
import CodeTint.Highlight.Json
import CodeTint.Highlight.Ini
import CodeTint.Highlight.Rust
import CodeTint.Highlight.Script
import CodeTint.Highlight.Python
import CodeTint.Highlight.Go
import CodeTint.Highlight.Cpp
import CodeTint.Highlight.Java
import CodeTint.Highlight.Php
import CodeTint.Highlight.Scheme
import CodeTint.Highlight.Shell
import CodeTint.Highlight.Xml

/-!
Grammars: for a language, what is captured in a text. Plain text has none.
-/

set_option autoImplicit false
set_option relaxedAutoImplicit false

namespace CodeTint

structure Grammar where
  language : Language
  captures : String → List Capture

inductive GrammarError where
  | unknownLanguage (name : String)
  | plainText
  deriving DecidableEq, Repr

def GrammarError.message : GrammarError → String
  | .unknownLanguage name => "Unknown language: " ++ name
  | .plainText => "Plain text has no grammar"

namespace Grammar

def id (g : Grammar) : String := g.language.id

/-- The marks that a language finds. -/
def marksOf : Language → String → List Mark
  | .json => Highlight.Json.marks
  | .ini => Highlight.Ini.marks
  | .rust => Mark.behindOrderMark Highlight.Rust.marks
  | .javaScript => Mark.behindOrderMark (Highlight.Script.marks .untyped)
  | .typeScript => Mark.behindOrderMark (Highlight.Script.marks .typed)
  | .python => Mark.behindOrderMark Highlight.Python.marks
  | .go => Mark.behindOrderMark Highlight.Go.marks
  | .c => Mark.behindOrderMark Highlight.C.marks
  | .cpp => Mark.behindOrderMark Highlight.Cpp.marks
  | .java => Mark.behindOrderMark Highlight.Java.marks
  | .php => Mark.behindOrderMark Highlight.Php.marks
  | .bash => Mark.behindOrderMark Highlight.Shell.marks
  | .scheme => Mark.behindOrderMark Highlight.Scheme.marks
  | .xml => Mark.behindOrderMark Highlight.Xml.marks
  | .plain => fun _ => []

def ofLanguage (l : Language) : Except GrammarError Grammar :=
  if l.hasHighlighting then .ok ⟨l, fun text => Mark.captures text (marksOf l text)⟩
  else .error .plainText

def ofName (name : String) : Except GrammarError Grammar :=
  match Language.resolve name with
  | some l => ofLanguage l
  | none => .error (.unknownLanguage name)

end Grammar

end CodeTint
