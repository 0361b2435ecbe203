import CodeTint.Highlight.Lexeme

/-!
What is found in the text of a Rust program. The walk keeps the brackets that are open, each with
what it encloses, and whether the next name stands for a type: a capitalized name is a type there
and a constructor elsewhere.
-/

set_option autoImplicit false
set_option relaxedAutoImplicit false

namespace CodeTint.Highlight.Rust

inductive Place where
  | code | params | fields | variants | literal | types | generics | qualified | tokens | imports
  deriving DecidableEq, Repr

/-- The head of an item or a statement, which decides what the next bracket encloses. -/
inductive Head where
  | none | function | record | variants | block | control | pattern | alias | rules | imports
  deriving DecidableEq, Repr

def Head.isData (h : Head) : Bool := h == .record || h == .variants

/-- The state of the walk. -/
structure State where
  /-- The open brackets, each with whether a name behind the opening one would be a type. -/
  places : List (Place × Bool) := []
  typed : Bool := false
  /-- The type here is the one that a value is turned into. -/
  cast : Bool := false
  head : Head := .none
  /-- The tokens here separate the repetitions of the tokens before them. -/
  separates : Bool := false
  deriving Repr

def State.place (s : State) : Place := (s.places.head?.map (·.1)).getD .code

/-- A character that can stand in an escape or alone between single quotes, with its length. -/
def charLength : List Char → Nat
  | '\\' :: 'u' :: rest => (rest.takeWhile (· != '\x27')).length + 2
  | '\\' :: 'x' :: _ => 4
  | '\\' :: _ :: _ => 2
  | c :: _ => if c == '\x27' then 0 else 1
  | [] => 0

def charLiteral : List Char → Nat
  | '\x27' :: rest =>
    let n := charLength rest
    if (rest.drop n).head? == some '\x27' then n + 2 else 0
  | _ => 0

/-- The length of a raw string behind its first letters, or 0. -/
def rawString (cs : List Char) : Nat :=
  let hashes := cs.takeWhile (· == '#')
  let rest := cs.drop hashes.length
  if rest.head? == some '"' then
    match Lexis.untilClosed? ('"' :: hashes) (rest.drop 1) with
    | some n => hashes.length + 1 + n
    | none => 0
  else 0

def behind (letters length : Nat) : Nat := if length = 0 then 0 else letters + length

def string (cs : List Char) : Nat := (Lexis.quoted? '"' false cs).getD 0

/-- The length of a quoted literal with the letters before it, or 0. -/
def literal : List Char → Nat
  | 'b' :: 'r' :: rest => behind 2 (rawString rest)
  | 'c' :: 'r' :: rest => behind 2 (rawString rest)
  | 'r' :: rest => behind 1 (rawString rest)
  | 'b' :: '\x27' :: rest => behind 1 (charLiteral ('\x27' :: rest))
  | 'b' :: '"' :: rest => behind 2 (string rest)
  | 'c' :: '"' :: rest => behind 2 (string rest)
  | '\x27' :: rest => charLiteral ('\x27' :: rest)
  | '"' :: rest => behind 1 (string rest)
  | _ => 0

/-- The length of a line comment, or 0. One that documents something takes its line break along. -/
def lineComment (cs : List Char) : Nat :=
  if !Lexis.begins "//" cs then 0
  else
    let line := Lexis.lineLength cs
    let documents := (Lexis.begins "///" cs && !Lexis.begins "////" cs) || Lexis.begins "//!" cs
    if documents && line < cs.length then line + 1 else line

/-- The length of a name that is spelled like a keyword, with the letter and the sign that make it a
name, or 0. -/
def rawName : List Char → Nat
  | 'r' :: '#' :: c :: rest =>
    if Text.beginsName c then (rest.takeWhile Text.continuesName).length + 3 else 0
  | _ => 0

/-- A comment of several lines that nothing closes. It ends before its last character, and its
closing is taken to be missing if nothing but a blank follows; where little would be skipped, it is
none. -/
def openComment (cs : List Char) : LexemeKind × Nat :=
  let body := cs.dropLast
  let closes := cs.getLast?.any Char.isWhitespace &&
    ((String.ofList body).utf8ByteSize ≥ 10 || body.contains '\n')
  (if closes then .comment else .broken, body.length)

/-- What comes before words, numbers and signs. A point is a sign of its own, and what follows it
is a number without one. -/
def special (before : List Lexeme) (cs : List Char) : LexemeKind × Nat :=
  let digits := (cs.takeWhile Char.isDigit).length
  if lineComment cs != 0 then (.comment, lineComment cs)
  else if Lexis.begins "/*" cs then openComment cs
  else if before.isEmpty && Lexis.begins "#!" cs && !cs[2]?.any (· == '[') then
    (.broken, Lexis.lineLength cs)
  else if cs.head? == some '.' && cs[1]?.any Char.isDigit then (.sign, 1)
  else if digits != 0 && before.head?.any (·.text == ".") then (.number, digits)
  else if rawName cs != 0 then (.word, rawName cs)
  else (.text, literal cs)

/-- The lexemes of a program. Angle brackets are signs of their own, as types nest. -/
def lexis : Lexis where
  blockComment := some ("/*", "*/")
  nested := true
  special := special
  number := Lexis.plainNumber
  signs := ["..=", "...", "::", "->", "=>", "==", "!=", "<=", "&&", "||", "+=", "-=", "*=", "/=",
    "%=", "^=", "&=", "|=", ".."]

def keywords : List String :=
  ["as", "async", "await", "break", "const", "continue", "dyn", "else", "enum", "extern", "fn",
   "for", "if", "impl", "in", "let", "loop", "match", "mod", "move", "pub", "ref", "return",
   "static", "struct", "trait", "type", "unsafe", "use", "where", "while", "yield", "mut", "crate",
   "super"]

def plainTokens : List String := ["dyn", "else", "extern", "in", "move", "ref", "yield"]

def primitives : List String :=
  ["u8", "i8", "u16", "i16", "u32", "i32", "u64", "i64", "u128", "i128", "isize", "usize", "f32",
   "f64", "bool", "str", "char"]

def isKeyword (n : Near) : Bool :=
  !(n.prev == "'" && n.touchesPrev) &&
    (isOneOf keywords n.text || match n.text with
      | "union" => n.nextIsWord
      | "raw" => n.prev == "&" && isOneOf ["const", "mut"] n.next
      | "gen" => isOneOf ["\x7b", "move"] n.next && n.prev != "."
      | "default" => isOneOf ["fn", "const", "type", "unsafe", "async"] n.next
      | _ => false)

/-- A word is a keyword among tokens though it is a name elsewhere. The one that an attribute begins
with is not among its tokens. -/
def isTokenKeyword (n : Near) : Bool :=
  isOneOf ["default", "union", "gen"] n.text && !(n.prev == "[" && isOneOf ["#", "!"] n.prev2)

def isConstant (n : Near) : Bool := n.prev == "const" && !isOneOf ["*", "impl"] n.prev2

def endsOperand (n : Near) : Bool :=
  n.before.head?.any fun l => match l.kind with
    | .word => !isOneOf keywords l.text
    | .sign => isOneOf [")", "]", "\x7d", "?"] l.text
    | _ => true

def opensGenerics (s : State) (n : Near) : Bool :=
  s.place != .tokens &&
    (n.prev == "::" || n.prev2 == "fn" || isOneOf ["impl", "for"] n.prev ||
      (s.typed && n.prevIsWord && !isOneOf (keywords ++ primitives) n.prev))

def Place.isAngled (p : Place) : Bool := p == .generics || p == .qualified

def endsShift (s : State) (n : Near) : Bool :=
  n.prev == "<" && n.touchesPrev && !s.place.isAngled

def opensLifetimes (n : Near) : Bool :=
  n.prev == "for" && ((n.after.dropWhile (·.text != ">"))[1]?).any
    (isOneOf ["fn", "unsafe", "extern", "async", "const"] ·.text)

def opensQualified (s : State) (n : Near) : Bool :=
  s.place != .tokens && !opensGenerics s n && !endsOperand n && !endsShift s n

def Place.holdsTypes (p : Place) : Bool := p == .types || p.isAngled

def opensTokens (n : Near) : Bool :=
  n.prev == "!" && (n.prev2 == "macro_rules" || n.prev2 == "#" ||
    ((n.back 1).any (·.kind == .word) && !isOneOf keywords n.prev2))

/-- What an opening bracket encloses. -/
def opened (s : State) (n : Near) : Place :=
  if s.place == .tokens || s.head == .rules || opensTokens n || n.prev == "#" then .tokens
  else if s.place == .imports || s.head == .imports then .imports
  else if n.text == "(" && n.prev == "fn" then .types
  else if n.text == "(" && n.prev == "pub" then .code
  else match n.text, s.head with
    | "\x7b", .record => .fields
    | "\x7b", .variants => .variants
    | "\x7b", head =>
      if s.place == .variants then .fields
      else if isCapitalized n.prev && !s.typed && (head == .none || head == .pattern) then .literal
      else .code
    | "(", .function => if s.place.isAngled then .types else .params
    | "(", .record => .types
    | "(", _ => if s.typed || s.place == .variants then .types else .code
    | _, _ => if s.typed then .types else .code

def State.push (s : State) (p : Place) : State :=
  { places := (p, s.typed) :: s.places
    typed := p.holdsTypes
    head := if p.holdsTypes then s.head else .none }

def State.pop (s : State) (n : Near) : State :=
  let places := if n.text == ">" then s.places else s.places.dropWhile (·.1.isAngled)
  match places with
  | [] => { s with typed := false }
  | (_, typed) :: rest => { s with places := rest, typed := typed && n.text != "\x7d" }

def State.behindKeyword (s : State) (n : Near) : State :=
  match n.text with
  | "struct" | "union" => { s with typed := true, head := .record }
  | "enum" => { s with typed := true, head := .variants }
  | "trait" => { s with typed := true, head := .block }
  | "impl" => { s with typed := true, head := if s.typed then s.head else .block }
  | "where" => { s with typed := true, head := if s.head.isData then s.head else .block }
  | "type" => { s with typed := true, head := .alias }
  | "fn" => if s.typed then s else { s with head := .function }
  | "use" => { s with typed := false, head := .imports }
  | "as" =>
    let isCast := s.place != .imports && s.head != .imports && n.prev2 != "crate"
    { s with typed := isCast, cast := isCast && !s.place.isAngled }
  | "dyn" => { s with typed := true }
  | "for" => if n.next == "<" then { s with typed := true }
    else if s.head == .block then { s with typed := true }
    else { s with typed := false, head := .control }
  | "if" | "while" | "match" => { s with typed := false, head := .control }
  | "let" => { s with typed := false, head := if s.head == .control then .pattern else s.head }
  | "mut" | "const" | "unsafe" | "extern" | "crate" | "super" => s
  | _ => { s with typed := s.place.holdsTypes }

def State.endCast (s : State) (n : Near) : State :=
  let ends := s.cast && !s.place.holdsTypes && (endsOperand n || n.prev == ">")
  if ends && n.text != "::" then { s with typed := false } else s

/-- What is declared first in some lexemes, with this many brackets open, has a name before its
type. -/
def isNamed : Nat → List Lexeme → Bool
  | _, [] => false
  | depth, l :: rest =>
    if isOneOf ["(", "[", "\x7b"] l.text then isNamed (depth + 1) rest
    else if isOneOf [")", "]", "\x7d"] l.text then depth != 0 && isNamed (depth - 1) rest
    else if depth = 0 && isOneOf [":", ","] l.text then l.text == ":"
    else isNamed depth rest

def State.beginsParameter (s : State) (n : Near) : State :=
  if s.place == .params then { s with typed := !isNamed 0 n.after && n.next != "_" } else s

def State.behindSign (s : State) (n : Near) : State :=
  match n.text with
  | "(" | "[" | "\x7b" => (s.push (opened s n)).beginsParameter n
  | ")" | "]" | "\x7d" => s.pop n
  | "<" =>
    if opensLifetimes n then s.push .qualified
    else if opensGenerics s n then s.push .generics
    else if opensQualified s n then s.push .qualified
    else s.endCast n
  | ">" => if s.place.isAngled then s.pop n else s.endCast n
  | "->" => { s with typed := true }
  | ":" => { s with typed := s.place != .literal && s.place != .tokens }
  | "," =>
    State.beginsParameter
      { s with typed := s.place.holdsTypes || (s.typed && (s.head == .block || s.head.isData)) } n
  | "=" =>
    { s with
      typed := s.place.holdsTypes || s.head == .alias
      head := if s.head == .pattern then .control else s.head }
  | ";" => { s with typed := false, head := .none }
  | "!" => if n.prev == "macro_rules" then { s with head := .rules } else s
  | "=>" => { s with typed := false, head := .none }
  | "|" | ".." | "..=" => { s with typed := false }
  | _ => s.endCast n

/-- The brackets closed `depth` deep open behind a sign of repetition. -/
def isRepetition : Nat → List Lexeme → Bool
  | _, [] => false
  | depth, l :: rest =>
    if isOneOf [")", "]", "\x7d"] l.text then isRepetition (depth + 1) rest
    else if isOneOf ["(", "[", "\x7b"] l.text then
      if depth = 0 then rest.head?.any (·.text == "$") else isRepetition (depth - 1) rest
    else isRepetition depth rest

def isCount (n : Near) : Bool := isOneOf ["*", "+", "?"] n.text

def State.separatesBehind (s : State) (n : Near) : Bool :=
  if s.separates then !isCount n
  else s.place == .tokens && n.text == ")" && isRepetition 0 n.before

def State.step (s : State) (n : Near) : State :=
  let next : State := match n.here.kind with
    | .sign => { s.behindSign n with separates := s.separatesBehind n }
    | .word => if isKeyword n && s.place != .tokens then s.behindKeyword n else s
    | _ => s
  { next with cast := next.cast && next.typed }

def isMacro (n : Near) : Bool :=
  n.next == "!" && isOneOf ["(", "[", "\x7b"] n.next2 && n.prev != "::"

def isFunction (n : Near) : Bool :=
  n.prev == "fn" || n.next == "(" || (n.next == "::" && n.next2 == "<")

def isBlockLabel (n : Near) : Bool :=
  isOneOf ["break", "continue"] n.prev2 ||
    (n.next == ":" && isOneOf ["loop", "while", "for", "\x7b"] n.next2)

def tokenWord (n : Near) : Option String :=
  if isOneOf primitives n.text then some "type.builtin"
  else if isTokenKeyword n then some "keyword"
  else if isCapitalized n.text && n.prev != "$" then some "constructor"
  else none

def isParameter (s : State) (n : Near) : Bool :=
  let before := if n.prev == "mut" then n.prev2 else n.prev
  n.next == ":" && (s.place == .types || !s.typed) && (s.place == .types ||
    before == "|" || (s.place == .code && before == ",") ||
    (s.place == .params && isOneOf ["(", ",", "]"] before))

/-- A part of a type is named behind the arguments that some lexemes begin with. -/
def hasPart : Nat → List Lexeme → Bool
  | _, [] => false
  | depth, l :: rest =>
    if l.text == "<" then hasPart (depth + 1) rest
    else if l.text == ">" then
      if depth ≤ 1 then rest.head?.any fun l => isOneOf ["::", "\x7b"] l.text
      else hasPart (depth - 1) rest
    else hasPart depth rest

/-- The word stands in the head of an item that cannot be one: a trait that is given another name,
or an implementation for nothing. -/
def isBrokenHead (n : Near) : Bool :=
  (n.prev == "trait" && n.next == "=") || (n.prev == "impl" && n.next == "for" && n.next2 == "\x7b")

/-- The braces that begin some lexemes enclose a pattern: a type stands behind them. -/
def enclosePattern : Nat → List Lexeme → Bool
  | _, [] => false
  | depth, l :: rest =>
    if l.text == "\x7b" then enclosePattern (depth + 1) rest
    else if l.text == "\x7d" then
      if depth ≤ 1 then rest.head?.any (·.text == ":") else enclosePattern (depth - 1) rest
    else enclosePattern depth rest

/-- The brackets of the parameters, open `depth` deep, are not closed before a body begins. -/
def lacksBracket : Nat → List Lexeme → Bool
  | depth, l :: next :: rest =>
    if isOneOf ["(", "[", "<"] l.text then
      !isOneOf [")", "\x7b"] next.text && lacksBracket (depth + 1) (next :: rest)
    else if isOneOf [")", "]", ">"] l.text then depth > 1 && lacksBracket (depth - 1) (next :: rest)
    else depth != 0 && ((depth = 1 && l.kind = .word && next.text == "\x7b" &&
        !enclosePattern 0 (next :: rest)) || lacksBracket depth (next :: rest))
  | _, _ => false

/-- The braces that are open `depth` deep or open next are not closed, and a quote that none closes
stands in them, or did before. -/
def lacksEnd : Nat → Bool → List Lexeme → Bool
  | depth, broken, [] => broken && depth != 0
  | depth, broken, l :: rest =>
    if l.text == "\x7b" then lacksEnd (depth + 1) broken rest
    else if l.text == "\x7d" then depth > 1 && lacksEnd (depth - 1) broken rest
    else lacksEnd depth (broken || (l.text == "\"" && depth != 0)) rest

def isBrokenFunction (s : State) (n : Near) : Bool :=
  n.prev == "fn" && (lacksBracket 0 n.after ||
    lacksEnd (s.places.countP (·.1 == .code)) (n.before.any (·.text == "\"")) n.after)

/-- The name of what a word of no fixed meaning is. -/
def plainWord (s : State) (n : Near) : Option String :=
  if n.prev == "." then some "property"
  else if (s.place == .fields || s.place == .literal) && n.next == ":" then some "property"
  else if isMacro n then some (if isCapitalized n.text then "constructor" else "function.macro")
  else if isCapitalized n.text then
    if n.next == "::" then
      some (if n.next2 == "<" && n.prev != "::" && hasPart 0 n.after.tail then "type"
        else "constructor")
    else if isConstant n || isBrokenHead n then some "constructor"
    else some (if s.typed || (n.next == "\x7b" && (s.head == .none || s.head == .pattern) &&
        s.place != .variants) then "type" else "constructor")
  else if isOneOf primitives n.text then
    if s.typed && n.next != "::" then some "type.builtin" else none
  else if n.text == "_" && n.next == ":" then none
  else if isParameter s n then some "variable.parameter"
  else if isBrokenFunction s n then none
  else if !s.typed && isFunction n then some "function"
  else if s.typed && n.next != "::" && !isConstant n then some "type"
  else none

/-- The name of what a word is. No keyword is expected behind a quote that none closes. -/
def word (s : State) (n : Near) : Option String :=
  if n.prev == "$" && n.touchesPrev then none
  else if n.prev == "\"" then if isCapitalized n.text then some "constructor" else none
  else if n.prev == "'" && n.touchesPrev then
    if isBlockLabel n || s.place == .tokens || n.next == "\x7d" then none else some "label"
  else if isOneOf ["true", "false"] n.text then some "constant.builtin"
  else if n.text == "self" then
    some (if s.place != .tokens && (n.next == "::" || n.prev == "::" ||
      (s.place == .imports && n.next != "as")) then "keyword" else "variable.builtin")
  else if isKeyword n && !(s.place == .tokens && isOneOf plainTokens n.text) then some "keyword"
  else if n.text == "macro_rules" && n.next == "!" then some "keyword"
  else if s.place == .tokens then tokenWord n
  else plainWord s n

def sign (s : State) (n : Near) : Option String :=
  if isOneOf ["(", ")", "[", "]", "\x7b", "\x7d"] n.text then some "punctuation.bracket"
  else if isOneOf ["::", ":", ".", ",", ";"] n.text then some "punctuation.delimiter"
  else if isOneOf ["*", "&", "'"] n.text then some "operator"
  else if n.text == "&&" && s.place != .tokens && !endsOperand n then some "operator"
  else if n.text == "<" && opensGenerics s n && !opensLifetimes n then
    some "punctuation.bracket"
  else if n.text == ">" && s.place == .generics then some "punctuation.bracket"
  else if n.text == "!" && s.place != .tokens && n.prevIsWord &&
      !isOneOf keywords n.prev && isOneOf ["(", "[", "\x7b"] n.next && n.prev2 != "::" then
    some "function.macro"
  else if n.text == "!" && n.prev == "macro_rules" then some "keyword"
  else none

def escape : EscapeRule
  | 'x' :: rest => if hexRun 2 rest = 2 then 3 else 0
  | 'u' :: '\x7b' :: rest =>
    let digits := hexRun 8 rest
    if digits != 0 && (rest.drop digits).head? == some '\x7d' then digits + 3 else 0
  | 'u' :: rest => if hexRun 4 rest = 4 then 5 else 0
  | _ :: _ => 1
  | [] => 0

def textMarks (l : Lexeme) : List Mark :=
  let plain := ["\"", "b\"", "c\""].any (Lexis.begins · l.text.toList)
  l.mark "string" :: (if plain then l.escapes escape else [])

def closing? : Nat → List Lexeme → Option Nat
  | _, [] => none
  | depth, l :: rest =>
    if isOneOf ["(", "[", "\x7b"] l.text then closing? (depth + 1) rest
    else if isOneOf [")", "]", "\x7d"] l.text then
      if depth ≤ 1 then some l.stop else closing? (depth - 1) rest
    else closing? depth rest

def attributeMarks (n : Near) : List Mark :=
  let rest := if n.next == "!" then n.after.drop 1 else n.after
  if n.text == "#" && rest.head?.any (·.text == "[") then
    match closing? 0 rest with
    | some stop => [⟨n.here.start, stop, 0, "attribute"⟩]
    | none => []
  else []

def lexemeMarks (s : State) (n : Near) : List Mark :=
  if s.separates && !isCount n then []
  else match n.here.kind with
  | .word => ((word s n).map n.here.mark).toList
  | .number => [n.here.mark "constant.builtin"]
  | .text => textMarks n.here
  | .comment | .broken => []
  | .sign => attributeMarks n ++ ((sign s n).map n.here.mark).toList

def marks (text : String) : List Mark :=
  walk {} (fun s n => (State.step s n, lexemeMarks s n)) (lexis.lexemes text)

end CodeTint.Highlight.Rust
