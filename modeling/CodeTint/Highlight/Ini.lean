import CodeTint.Highlight.Mark
import CodeTint.Parse.Parser

/-!
INI files and what is found in them: sections, settings and comments, each with a line break at its
end. Any text is parsed; where it is broken, what is found is what the cheapest repair leaves.
-/

set_option autoImplicit false
set_option relaxedAutoImplicit false

namespace CodeTint.Highlight.Ini

open Parse (Pattern CharSet Terminal Rule Visibility Label Tree)

inductive Token where
  | openBracket | sectionText | closeBracket | lineBreak
  | name | equals | value | commentSign | commentText
  deriving DecidableEq, Repr

inductive Part where
  | document | settings | sections | section_ | header | setting | comment | blank
  deriving DecidableEq, Repr

namespace Token

def nameChar : Pattern := .one (.except ";#=[ \t\n\r\x0b\x0c")

/-- The tokens in order. Those that take most characters are looked for only where they can
stand. -/
def terminals : List (Terminal Token) :=
  [{ kind := .openBracket, pattern := .word "[" },
   { kind := .sectionText, pattern := .oneOrMore (.one (.except "[]")), contextual := true },
   { kind := .closeBracket, pattern := .word "]" },
   { kind := .lineBreak, pattern := .append (.maybe (.word "\r")) (.word "\n"),
     visible := false },
   { kind := .name, contextual := true,
     pattern := .append (.oneOrMore nameChar)
       (.many (.append (.many (.word " ")) (.oneOrMore nameChar))) },
   { kind := .equals, pattern := .word "=" },
   { kind := .value, pattern := .oneOrMore (.one (.except "\n")), contextual := true },
   { kind := .commentSign, pattern := .one (.of ";#"), visible := false },
   { kind := .commentText, pattern := .many (.one (.except "\r\n")), contextual := true }]

end Token

namespace Part

def rule (head : Part) (body : List (Parse.Symbol Token Part)) : Rule Token Part := ⟨head, body⟩

def rules : List (Rule Token Part) :=
  let t (k : Token) : Parse.Symbol Token Part := .token k
  let r (n : Part) : Parse.Symbol Token Part := .rule n
  [rule .document [], rule .document [r .settings], rule .document [r .sections],
   rule .document [r .settings, r .sections],
   rule .settings [r .settings, r .settings], rule .settings [r .setting],
   rule .sections [r .sections, r .sections], rule .sections [r .section_],
   rule .section_ [r .header], rule .section_ [r .header, r .settings],
   rule .header [t .openBracket, t .sectionText, t .closeBracket, t .lineBreak],
   rule .setting [t .name, t .equals, t .lineBreak],
   rule .setting [t .name, t .equals, t .value, t .lineBreak],
   rule .comment [t .commentSign, t .commentText, t .lineBreak],
   rule .blank [t .lineBreak]]

def visibility : Part → Visibility
  | .settings | .sections => .repetition
  | .blank => .choice
  | _ => .shown

end Part

/-- The grammar of INI files. Comments and empty lines may stand anywhere. -/
def grammar : Parse.Grammar Token Part where
  goal := .document
  terminals := Token.terminals
  rules := Part.rules
  visibility := Part.visibility
  extraTokens := []
  extraRules := [.comment, .blank]
  blanks := .of " \t"
  measure := .characters

def table : Parse.Table Token Part := grammar.table

/-- The marks of a piece: names of sections, comments, brackets, equals signs and names of
settings. -/
def marksOf (p : Tree.Piece Token Part) : List Mark :=
  let mark (pattern : Nat) (name : String) : Mark := ⟨p.start, p.stop, pattern, name⟩
  match p.label with
  | .token .sectionText => if p.above == some (.rule .header) then [mark 0 "type"] else []
  | .rule .comment => [mark 1 "comment"]
  | .token .openBracket | .token .closeBracket => [mark 2 "punctuation.bracket"]
  | .token .equals => [mark 3 "operator"]
  | .token .name => if p.above == some (.rule .setting) then [mark 4 "property"] else []
  | _ => []

def marks (text : String) : List Mark :=
  ((grammar.parse table text).pieces grammar none false 0).flatMap marksOf

end CodeTint.Highlight.Ini
