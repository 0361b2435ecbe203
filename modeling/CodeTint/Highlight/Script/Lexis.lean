import CodeTint.Highlight.Lexeme

/-!
The lexemes of a script, in the dialect with type annotations or in the one without. Templates are
cut into pieces, with the code between them; markup belongs to the dialect without types.
-/

set_option autoImplicit false
set_option relaxedAutoImplicit false

namespace CodeTint.Highlight.Script

inductive Dialect where
  | untyped | typed
  deriving DecidableEq, Repr

/-- The length of a piece of a template behind its first character: up to the closing quote or
the opening of the next code. -/
def templatePiece? : List Char → Option Nat
  | [] => none
  | '\\' :: _ :: rest => (templatePiece? rest).map (· + 2)
  | '$' :: '\x7b' :: _ => some 2
  | c :: rest => if c == '\x60' then some 1 else (templatePiece? rest).map (· + 1)

def opensCode (l : Lexeme) : Bool := l.kind == .text && l.text.endsWith "$\x7b"

def closesCode (l : Lexeme) : Bool := l.kind == .text && l.text.startsWith "\x7d"

/-- The innermost open brace before a text is that of code in a template. -/
def inTemplate : Nat → List Lexeme → Bool
  | _, [] => false
  | depth, l :: before =>
    if l.text == "\x7d" then inTemplate (depth + 1) before
    else if l.text == "\x7b" then depth != 0 && inTemplate (depth - 1) before
    else if closesCode l && opensCode l then depth = 0 || inTemplate depth before
    else if closesCode l then inTemplate (depth + 1) before
    else if opensCode l then depth = 0 || inTemplate (depth - 1) before
    else inTemplate depth before

/-- The length of a regular expression behind its first slash, without flags. -/
def regex? (inSet : Bool) : List Char → Option Nat
  | [] => none
  | '\\' :: _ :: rest => (regex? inSet rest).map (· + 2)
  | c :: rest =>
    if c == '\n' then none
    else if c == '/' && !inSet then some 1
    else (regex? (c == '[' || (inSet && c != ']')) rest).map (· + 1)

def beforeOperand : List String :=
  ["return", "typeof", "case", "in", "of", "delete", "void", "throw", "new", "else", "do",
   "instanceof", "yield", "await"]

def isOuterLine (l : Lexeme) : Bool := ["<!--", "-->", "#!"].any (l.text.startsWith ·)

def endsOperand (l : Lexeme) : Bool :=
  match l.kind with
  | .word => !isOneOf beforeOperand l.text
  | .sign => isOneOf [")", "]", "\x7d"] l.text
  | .text => !opensCode l
  | .broken => !isOuterLine l
  | _ => true

/-- The lexemes before the bracket that opens `depth` deep. -/
def beforeOpening : Nat → List Lexeme → List Lexeme
  | _, [] => []
  | depth, l :: before =>
    if isOneOf [")", "]", "\x7d"] l.text then beforeOpening (depth + 1) before
    else if isOneOf ["(", "[", "\x7b"] l.text then
      if depth = 0 then before else beforeOpening (depth - 1) before
    else beforeOpening depth before

/-- An operand ends with the last of some lexemes, the nearest first: not with the condition of a
statement, but with a sign that changes the operand before it. -/
def behindOperand (before : List Lexeme) : Bool :=
  match before with
  | [] => false
  | l :: rest =>
    if l.text == ")" then
      let outer := beforeOpening 0 rest
      !(outer.head?.any (isOneOf ["if", "while", "for", "with"] ·.text) &&
        !outer[1]?.any (·.text == "."))
    else if isOneOf ["++", "--"] l.text then rest.head?.any endsOperand
    else if rest.head?.any (isOneOf [".", "?."] ·.text) && l.kind == .word then true
    else endsOperand l

/-- What a text is in markup: the inside of an opening or a closing tag, the text between tags, or
code in braces. -/
inductive Markup where
  | tag | closing | children | code
  deriving DecidableEq, Repr

/-- What encloses the text behind a lexeme, if `operand` tells that an operand ends before it. -/
def Markup.step (l : Lexeme) (outer : List Markup × Bool) : List Markup × Bool :=
  let (places, operand) := outer
  match l.text, places with
  | "<", .children :: _ => (.tag :: places, false)
  | "</", _ => (.closing :: places, false)
  | "/>", .tag :: rest => (rest, true)
  | ">", .tag :: rest => (.children :: rest, false)
  | ">", .closing :: rest => (rest.drop 1, true)
  | ">", .children :: rest => (rest, false)
  | "<", .tag :: _ => outer
  | "<", _ => if operand then (places, false) else (.tag :: places, false)
  | "\x7b", _ => (.code :: places, false)
  | "\x7d", _ => (places.drop 1, true)
  | _, _ =>
    if closesCode l && opensCode l then (places, false)
    else if closesCode l then (places.drop 1, true)
    else if opensCode l then (.code :: places, false)
    else (places, endsOperand l)

def markupBehind (before : List Lexeme) : List Markup :=
  (before.foldr Markup.step ([], false)).1

def inTag (before : List Lexeme) : Bool := (markupBehind before).head? == some .tag

/-- What stands in markup: text, names with hyphens, values and the ends of tags. -/
def markupPart (before : List Lexeme) (cs : List Char) : LexemeKind × Nat :=
  match (markupBehind before).head?, cs with
  | some .children, '<' :: '/' :: _ => (.sign, 2)
  | some .children, _ => (.broken, (cs.takeWhile fun c => !"<>\x7b\x7d".toList.contains c).length)
  | some .tag, '/' :: '>' :: _ => (.sign, 2)
  | some .tag, '"' :: rest => (.text, ((Lexis.untilClosed? ['"'] rest).map (· + 1)).getD 0)
  | some .tag, '\x27' :: rest => (.text, ((Lexis.untilClosed? ['\x27'] rest).map (· + 1)).getD 0)
  | some .tag, c :: rest =>
    if c.isAlpha then
      (.word, (rest.takeWhile fun c => c.isAlphanum || c == '-' || c == '_').length + 1)
    else (.sign, 0)
  | _, _ => (.sign, 0)

/-- The innermost open bracket behind some lexemes, the nearest first, is a brace that holds no
statements, if `depth` more are closed. -/
def inObject : Nat → List Lexeme → Bool
  | _, [] => false
  | depth, l :: before =>
    if isOneOf [")", "]", "\x7d"] l.text then inObject (depth + 1) before
    else if isOneOf ["(", "[", "\x7b"] l.text then
      if depth = 0 then l.text == "\x7b" && before.head?.any fun l =>
          isOneOf ["=", "(", ",", ":", "[", "return", "?", "=>", "default"] l.text
      else inObject (depth - 1) before
    else inObject depth before

/-- The length of a string that the end of its line leaves open, or 0. What follows has to be able
to follow a string. -/
def openString (before : List Lexeme) (cs : List Char) : Nat :=
  let length := Lexis.lineLength cs
  let follows := match (cs.drop length).dropWhile Char.isWhitespace with
    | '\x7d' :: _ => inObject 0 before
    | c :: _ => ");,]:?+-*/%&|^<>([.".toList.contains c
    | [] => false
  if follows then length else 0

/-- The length of a string of one line behind its opening quote, with the closing one. A backslash
takes the next character along, or the end of the line. -/
def stringRest? (quote : Char) : List Char → Option Nat
  | [] => none
  | '\\' :: '\r' :: '\n' :: rest => (stringRest? quote rest).map (· + 3)
  | '\\' :: _ :: rest => (stringRest? quote rest).map (· + 2)
  | c :: rest =>
    if c == quote then some 1
    else if c == '\n' || c == '\r' then none
    else (stringRest? quote rest).map (· + 1)

/-- The length of a string in double or single quotes, or 0. -/
def stringLength (before : List Lexeme) (quote : Char) (cs : List Char) : Nat :=
  match cs with
  | c :: rest =>
    if c != quote then 0
    else match stringRest? quote (Lexis.beforeNull rest) with
      | some n => n + 1
      | none => openString before cs
  | [] => 0

/-- What comes before words, numbers and signs in code: strings, templates and regular
expressions. -/
def quoted (before : List Lexeme) (cs : List Char) : LexemeKind × Nat :=
  (.text, match cs with
    | '\x60' :: rest => ((templatePiece? (Lexis.beforeNull rest)).map (· + 1)).getD 0
    | '\x7d' :: rest =>
      if inTemplate 0 before then ((templatePiece? (Lexis.beforeNull rest)).map (· + 1)).getD 0
      else 0
    | '/' :: rest =>
      if behindOperand before then 0
      else match regex? false (Lexis.beforeNull rest) with
        | some n => n + 1 + ((rest.drop n).takeWhile Char.isAlpha).length
        | none => 0
    | '"' :: _ => stringLength before '"' cs
    | _ => stringLength before '\x27' cs)

def nameEscape : List Char → Nat
  | '\\' :: 'u' :: '\x7b' :: rest =>
    let digits := hexRun 6 rest
    if (rest.drop digits).head? == some '\x7d' then digits + 4 else 0
  | '\\' :: 'u' :: rest => if hexRun 4 rest = 4 then 6 else 0
  | _ => 0

def blanks : List Char := ['\u200b', '\u2060', '\ufeff'] ++ separators

def isNameChar (c : Char) : Bool :=
  c.isAlphanum || c == '_' || c == '$' || (c.toNat ≥ 0x80 && !blanks.contains c)

/-- The length of a run of name characters and escapes. -/
def nameRun : Nat → List Char → Nat
  | 0, _ => 0
  | _, [] => 0
  | fuel + 1, c :: rest =>
    if isNameChar c then nameRun fuel rest + 1
    else
      let length := nameEscape (c :: rest)
      if length = 0 then 0 else nameRun fuel ((c :: rest).drop length) + length

def name (cs : List Char) : Nat :=
  match cs with
  | '#' :: rest => if nameRun 1 rest = 0 then 0 else nameRun rest.length rest + 1
  | c :: _ => if c.isDigit then 0 else nameRun cs.length cs
  | [] => 0

/-- What comes before words, numbers and signs. The first line may name an interpreter; markup
belongs to the dialect without types. -/
def special (d : Dialect) (before : List Lexeme) (cs : List Char) : LexemeKind × Nat :=
  if Lexis.begins "#!" cs then (.broken, Lexis.lineLength cs)
  else if Lexis.begins "?." cs && cs[2]?.any Char.isDigit then (.sign, 1)
  else if !behindOperand before && ["<!--", "-->"].any (Lexis.begins · cs) then
    (.broken, Lexis.lineLength cs)
  else
    let part := if d == .untyped then markupPart before cs else (.sign, 0)
    if part.2 != 0 then part
    else if name cs != 0 then (.word, name cs)
    else quoted before cs

/-- The length of digits with single underscores between them. -/
def digitRun (isDigit : Char → Bool) : List Char → Nat
  | [] => 0
  | c :: rest =>
    if isDigit c then digitRun isDigit rest + 1
    else if c == '_' && rest.head?.any isDigit then
      digitRun isDigit rest + 1
    else 0

def exponent : List Char → Nat
  | 'e' :: rest | 'E' :: rest =>
    let sign := if rest.head?.any fun c => c == '+' || c == '-' then 1 else 0
    let digits := digitRun Char.isDigit (rest.drop sign)
    if digits = 0 then 0 else 1 + sign + digits
  | _ => 0

/-- Digits before a point or an exponent begin with no zero, or with one before another digit, or
are one zero. -/
def beginsReal : List Char → Bool
  | ['0'] => true
  | '0' :: c :: _ => c.isDigit && c != '0'
  | _ => true

/-- The length of a decimal number: digits, a point that may be the last character, digits and an
exponent, or the letter of a large whole number. -/
def decimal (cs : List Char) : Nat :=
  let whole := digitRun Char.isDigit cs
  let rest := cs.drop whole
  if rest.head? == some 'n' then whole + 1
  else if !beginsReal (cs.take whole) then whole
  else if rest.head? == some '.' then
    let part := digitRun Char.isDigit (rest.drop 1)
    whole + 1 + part + exponent (rest.drop (1 + part))
  else whole + exponent rest

def based (isDigit : Char → Bool) (cs : List Char) : Nat :=
  if cs.head?.any isDigit then
    let digits := digitRun isDigit cs
    if (cs.drop digits).head? == some 'n' then digits + 1 else digits
  else 0

def number (cs : List Char) : Nat :=
  let digits := match cs with
    | '0' :: x :: rest =>
      if x == 'x' || x == 'X' then
        based (fun c => c.isDigit || "abcdefABCDEF".toList.contains c) rest
      else if x == 'b' || x == 'B' then based (fun c => c == '0' || c == '1') rest
      else if x == 'o' || x == 'O' then based (fun c => '0' ≤ c && c ≤ '7') rest
      else 0
    | _ => 0
  if digits = 0 then decimal cs else digits + 2

/-- The lexemes of a script. Closing angle brackets are signs of their own, as types nest. -/
def lexis (d : Dialect) : Lexis where
  lineComments := ["//"]
  lineEnds := ['\n', '\r', '\u2028', '\u2029']
  blockComment := some ("/*", "*/")
  hasComments := fun before => d == .typed || (markupBehind before).head? != some .children
  blanks := blanks
  isWordStart := fun c => isNameChar c && !c.isDigit
  isWordChar := isNameChar
  special := special d
  quotes := ['"', '\x27']
  number := number
  signs := ["===", "!==", "**=", "<<=", "...", "&&=", "||=", "??=", "=>",
    "==", "!=", "<=", ">=", "&&", "||", "??", "?.", "++", "--", "+=", "-=", "*=", "/=", "%=", "&=",
    "|=", "^=", "<<", "**"]

end CodeTint.Highlight.Script
