import CodeTint.Highlight.Mark
import CodeTint.Parse.Parser

/-!
JSON and what is found in it. Any text is parsed; where it is broken, what is found is what the
cheapest repair leaves.
-/

set_option autoImplicit false
set_option relaxedAutoImplicit false

namespace CodeTint.Highlight.Json

open Parse (Pattern CharSet Terminal Rule Visibility Label Tree)

inductive Token where
  | openBrace | comma | closeBrace | colon | openBracket | closeBracket | quote
  | content | escape | number | true_ | false_ | null | comment
  deriving DecidableEq, Repr

inductive Part where
  | document | values | value | object | members | member | array | items | text | contents
  deriving DecidableEq, Repr

namespace Token

def fixed (kind : Token) (s : String) : Terminal Token := { kind, pattern := .word s }

def digits : Pattern := .oneOrMore (.one (.digits))

def minus : Pattern := .maybe (.word "-")

/-- A number: no digit follows a leading zero, a point needs no digit behind it, and an exponent has
no plus sign. -/
def numeral : Pattern :=
  let whole := .append minus
    (.either (.word "0") (.append (.one (.digits '1')) (.maybe digits)))
  let exponent := .maybe (.allOf [.one (.of "eE"), minus, digits])
  .append whole (.append (.maybe (.append (.word ".") (.maybe digits))) exponent)

def remark : Pattern :=
  let star := Pattern.oneOrMore (.word "*")
  let plain := Pattern.many (.one (.except "*"))
  .either (.append (.word "//") (.many (.one (.except "\n"))))
    (.allOf [.word "/*", plain, star,
      .many (.allOf [.one (.except "/*"), plain, star]), .word "/"])

def terminals : List (Terminal Token) :=
  [fixed .openBrace "\x7b", fixed .comma ",", fixed .closeBrace "\x7d", fixed .colon ":",
   fixed .openBracket "[", fixed .closeBracket "]", fixed .quote "\"",
   { kind := .content, pattern := .oneOrMore (.one (.except "\\\"\n")), immediate := true,
     rank := 1, contextual := true },
   { kind := .escape, pattern := .append (.word "\\") (.one (.of "\"\\/bfnrtu")),
     immediate := true },
   { kind := .number, pattern := numeral },
   fixed .true_ "true", fixed .false_ "false", fixed .null "null",
   { kind := .comment, pattern := remark }]

end Token

namespace Part

def rule (head : Part) (body : List (Parse.Symbol Token Part)) : Rule Token Part := ⟨head, body⟩

def rules : List (Rule Token Part) :=
  let t (k : Token) : Parse.Symbol Token Part := .token k
  let r (n : Part) : Parse.Symbol Token Part := .rule n
  [rule .document [], rule .document [r .values],
   rule .values [r .values, r .values], rule .values [r .value],
   rule .value [r .object], rule .value [r .array], rule .value [t .number],
   rule .value [r .text], rule .value [t .true_], rule .value [t .false_],
   rule .value [t .null],
   rule .object [t .openBrace, t .closeBrace],
   rule .object [t .openBrace, r .member, t .closeBrace],
   rule .object [t .openBrace, r .member, r .members, t .closeBrace],
   rule .members [r .members, r .members], rule .members [t .comma, r .member],
   rule .member [r .text, t .colon, r .value],
   rule .array [t .openBracket, t .closeBracket],
   rule .array [t .openBracket, r .value, t .closeBracket],
   rule .array [t .openBracket, r .value, r .items, t .closeBracket],
   rule .items [r .items, r .items], rule .items [t .comma, r .value],
   rule .text [t .quote, t .quote], rule .text [t .quote, r .contents, t .quote],
   rule .contents [r .contents, r .contents], rule .contents [t .content],
   rule .contents [t .escape]]

def visibility : Part → Visibility
  | .values | .members | .items | .contents => .repetition
  | .value => .choice
  | _ => .shown

end Part

def grammar : Parse.Grammar Token Part where
  goal := .document
  terminals := Token.terminals
  rules := Part.rules
  visibility := Part.visibility
  extraTokens := [.comment]
  extraRules := []
  blanks := .of " \t\n\r\x0b\x0c"

def table : Parse.Table Token Part := grammar.table

/-- The marks of a piece: keys, strings, numbers, constants, escapes and comments. -/
def marksOf (p : Tree.Piece Token Part) : List Mark :=
  let mark (pattern : Nat) (name : String) : Mark := ⟨p.start, p.stop, pattern, name⟩
  match p.label with
  | .rule .text =>
    if p.first && p.above == some (.rule .member) then
      [mark 0 "string.special.key", mark 1 "string"]
    else [mark 1 "string"]
  | .token .number => [mark 2 "number"]
  | .token .null | .token .true_ | .token .false_ => [mark 3 "constant.builtin"]
  | .token .escape => [mark 4 "escape"]
  | .token .comment => [mark 5 "comment"]
  | _ => []

def marks (text : String) : List Mark :=
  ((grammar.parse table text).pieces grammar none false 0).flatMap marksOf

end CodeTint.Highlight.Json
