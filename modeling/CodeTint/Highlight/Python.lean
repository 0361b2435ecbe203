import CodeTint.Highlight.Lexeme

/-!
What is found in the text of a Python program. A formatted string is cut into pieces, with the code
between two of them read like any other.
-/

set_option autoImplicit false
set_option relaxedAutoImplicit false

namespace CodeTint.Highlight.Python

def isQuote (c : Char) : Bool := c == '"' || c == '\x27'

def stringPrefix? (cs : List Char) : Option (List Char) :=
  let letters := cs.takeWhile fun c => "rRbBuUfF".toList.contains c
  if letters.length ≤ 2 && (cs.drop letters.length).head?.any isQuote then some letters else none

def quoteOf (cs : List Char) : List Char :=
  match cs with
  | a :: b :: c :: _ => if a == b && b == c then [a, b, c] else [a]
  | _ => cs.take 1

def textEscape : EscapeRule
  | 'x' :: rest => if hexRun 2 rest = 2 then 3 else 0
  | 'u' :: rest => if hexRun 4 rest = 4 then 5 else 0
  | 'U' :: rest => if hexRun 8 rest = 8 then 9 else 0
  | 'N' :: '\x7b' :: rest =>
    let name := rest.takeWhile (· != '\x7d')
    if name.length != 0 && name.length < rest.length then name.length + 3 else 0
  | '\r' :: '\n' :: _ => 2
  | c :: rest =>
    if c.isDigit then (((c :: rest).take 3).takeWhile Char.isDigit).length
    else if isQuote c || "abfrntv\\\n".toList.contains c then 1
    else 0
  | [] => 0

def hasLetter (letter : Char) (letters : List Char) : Bool := letters.any (·.toLower == letter)

/-- The escapes in a string behind some letters: raw ones have none, and bytes no code points. -/
def escape (letters : List Char) : EscapeRule
  | c :: rest =>
    if hasLetter 'r' letters then 0
    else if hasLetter 'b' letters && "NuU".toList.contains c then 0
    else textEscape (c :: rest)
  | [] => 0

/-- How many characters a backslash in a raw string takes along: a quote or another backslash, and
the end of a line. -/
def takenAlong (quote : List Char) (cs : List Char) : Nat :=
  let taken := if cs.head?.any (fun c => quote.head? == some c || c == '\\') then 1 else 0
  match cs.drop taken with
  | '\r' :: '\n' :: _ => taken + 2
  | c :: _ => if c == '\r' || c == '\n' then taken + 1 else taken
  | [] => taken

/-- The length of a string behind its opening quote and the letters before it. A formatted one ends
at the opening brace of code as well. One of a line may pass its end where no character has `begun`
its text, or that behind an escape. -/
def pieceFrom? (letters quote : List Char) : Nat → Bool → List Char → Option Nat
  | 0, _, _ => none
  | _, _, [] => none
  | fuel + 1, begun, c :: rest =>
    if c == '\\' then
      let isRaw := hasLetter 'r' letters
      let taken := if isRaw then takenAlong quote rest else escape letters rest
      (pieceFrom? letters quote fuel (isRaw && begun) (rest.drop taken)).map (· + (taken + 1))
    else if c == '\x7b' && rest.head? == some '\x7b' then
      (pieceFrom? letters quote fuel false (rest.drop 1)).map (· + 2)
    else if quote.isPrefixOf (c :: rest) then some quote.length
    else if c == '\x7b' && hasLetter 'f' letters then some 1
    else if c == '\n' && begun && quote.length = 1 then none
    else (pieceFrom? letters quote fuel true rest).map (· + 1)

def piece? (letters quote : List Char) (cs : List Char) : Option Nat :=
  pieceFrom? letters quote (cs.length + 1) false cs

def opensCode (l : Lexeme) : Bool := l.kind == .text && l.text.endsWith "\x7b"

def closesCode (l : Lexeme) : Bool :=
  l.kind == .text && l.text.toList.head?.any fun c => c == '\x7d' || c == '!' || c == ':'

def opening (cs : List Char) : List Char × List Char :=
  (cs.takeWhile (!isQuote ·), quoteOf (cs.dropWhile (!isQuote ·)))

/-- What opens the formatted string whose code a text behind some lexemes is in, with no bracket
open since. -/
def openString? : Nat → List Lexeme → Option (List Char × List Char)
  | _, [] => none
  | depth, l :: before =>
    if isOneOf [")", "]", "\x7d"] l.text then openString? (depth + 1) before
    else if isOneOf ["(", "[", "\x7b"] l.text then
      if depth = 0 then none else openString? (depth - 1) before
    else if closesCode l then openString? (if opensCode l then depth else depth + 1) before
    else if opensCode l then
      if depth = 0 then some (opening l.text.toList)
      else openString? (depth - 1) before
    else openString? depth before

def endsCode : List Char → Bool
  | '\x7d' :: _ => true
  | ':' :: _ => true
  | '!' :: c :: _ => c != '='
  | _ => false

/-- The length of a mark for how a value is turned into text, which may stand outside a string by
mistake. -/
def conversionLength : List Char → Nat
  | '!' :: c :: _ => if c.isLower then 2 else 0
  | _ => 0

/-- What comes before words, numbers and signs: strings and their pieces. Of a string that no
quote closes, only what opens it is one lexeme. -/
def special (before : List Lexeme) (cs : List Char) : LexemeKind × Nat :=
  match stringPrefix? cs with
  | some letters =>
    let quote := quoteOf (cs.drop letters.length)
    let start := letters.length + quote.length
    match piece? letters quote (Lexis.beforeNull (cs.drop start)) with
    | some length => (.text, length + start)
    | none => (.broken, start)
  | none =>
    match if endsCode cs then openString? 0 before else none with
    | some (letters, quote) =>
      (.text, ((piece? letters quote (Lexis.beforeNull (cs.drop 1))).map (· + 1)).getD 0)
    | none => (.sign, conversionLength cs)

/-- The length of an escape outside a string, where it is not joined to a line. -/
def looseEscape (cs : List Char) : Nat :=
  match cs with
  | '\\' :: c :: rest =>
    let length := if c == '\r' || c == '\n' then 0 else textEscape (c :: rest)
    if length = 0 then 0 else length + 1
  | _ => 0

/-- The length of digits of one kind, each with or without an underscore before it. -/
def groupedDigits (isDigit : Char → Bool) : List Char → Nat
  | '_' :: c :: rest => if isDigit c then groupedDigits isDigit rest + 2 else 0
  | c :: rest => if isDigit c then groupedDigits isDigit rest + 1 else 0
  | [] => 0

def decimalDigits : List Char → Nat
  | c :: '_' :: rest => if c.isDigit then decimalDigits rest + 2 else 0
  | c :: rest => if c.isDigit then decimalDigits rest + 1 else 0
  | [] => 0

def exponentLength (cs : List Char) : Nat :=
  match cs with
  | e :: rest =>
    let sign := if rest.head?.any fun c => c == '+' || c == '-' then 1 else 0
    let digits := decimalDigits (rest.drop sign)
    if (e == 'e' || e == 'E') && digits != 0 then 1 + sign + digits else 0
  | [] => 0

def letterLength (letters : List Char) (cs : List Char) : Nat :=
  if cs.head?.any letters.contains then 1 else 0

/-- The length of a number: a whole one of some base, or one with a point or an exponent. -/
def number (cs : List Char) : Nat :=
  let based := fun (isDigit : Char → Bool) =>
    match groupedDigits isDigit (cs.drop 2) with
    | 0 => 0
    | digits => digits + 2
  let prefixed := match cs with
    | '0' :: x :: _ =>
      if x == 'x' || x == 'X' then
        based fun c => c.isDigit || "abcdefABCDEF".toList.contains c
      else if x == 'o' || x == 'O' then based fun c => '0' ≤ c && c ≤ '7'
      else if x == 'b' || x == 'B' then based fun c => c == '0' || c == '1'
      else 0
    | _ => 0
  let whole := decimalDigits cs
  let fraction := match cs.drop whole with
    | '.' :: rest => 1 + decimalDigits rest
    | _ => 0
  let real := whole + fraction
  let exponent := exponentLength (cs.drop real)
  if prefixed != 0 then prefixed + letterLength ['l', 'L'] (cs.drop prefixed)
  else if fraction + exponent != 0 then
    real + exponent + letterLength ['j', 'J'] (cs.drop (real + exponent))
  else whole + letterLength ['l', 'L', 'j', 'J'] (cs.drop whole)

def lexis : Lexis where
  lineComments := ["#"]
  blanks := ['\u200b', '\u2060', '\ufeff']
  special := special
  attached := fun cs => (.sign, looseEscape cs)
  number := number
  signs := ["**=", "//=", ">>=", "<<=", "...", "->", ":=", "==", "!=", "<=", ">=", "<>", "**", "//",
    "<<", ">>", "+=", "-=", "*=", "/=", "%=", "&=", "|=", "^=", "@="]

def operators : List String :=
  ["-", "-=", "!=", "*", "**", "**=", "*=", "/", "//", "//=", "/=", "&", "&=", "%", "%=", "^", "^=",
   "+", "->", "+=", "<", "<<", "<<=", "<=", "<>", "=", ":=", "==", ">", ">=", ">>", ">>=", "|",
   "|=", "~", "@=", "and", "in", "is", "not", "or"]

def keywords : List String :=
  ["as", "assert", "break", "class", "continue", "def", "del", "elif", "else",
   "except", "finally", "for", "from", "global", "if", "import", "lambda", "nonlocal", "pass",
   "raise", "return", "try", "while", "with", "yield"]

def statementKeywords : List String :=
  ["assert", "break", "class", "continue", "def", "del", "elif", "except", "finally", "global",
   "import", "nonlocal", "pass", "raise", "return", "try", "while", "with"]

/-- The lexeme behind a word, on the same line, begins an operand, and can do nothing else. -/
def beforeOperand (n : Near) : Bool :=
  !n.endsLine && n.after.head?.any fun l => match l.kind with
    | .word => !isOneOf ["and", "in", "is", "or", "if", "else", "for", "as"] l.text &&
        !(l.text == "not" && n.next2 == "in")
    | .sign => isOneOf ["\x7b", "~", "..."] l.text
    | _ => true

/-- A colon stands on the rest of the line, with no bracket open that is opened there. -/
def colonAhead : Nat → List Lexeme → Bool
  | _, [] => false
  | depth, l :: rest =>
    if l.fresh && depth = 0 then false
    else if l.text == ":" && depth = 0 then true
    else if isOneOf ["(", "[", "\x7b"] l.text then colonAhead (depth + 1) rest
    else if isOneOf [")", "]", "\x7d"] l.text then colonAhead (depth - 1) rest
    else colonAhead depth rest

/-- The last of some lexemes, the nearest first, stand in brackets, if `depth` more are closed, and
no keyword has broken them off. -/
def inBrackets : Nat → List Lexeme → Bool
  | _, [] => false
  | depth, l :: before =>
    if isOneOf [")", "]", "\x7d"] l.text then inBrackets (depth + 1) before
    else if isOneOf ["(", "[", "\x7b"] l.text then depth = 0 || inBrackets (depth - 1) before
    else !isOneOf statementKeywords l.text && inBrackets depth before

/-- A keyword that stands in no brackets is a name where an operand in brackets has just ended. -/
def endsBrackets (n : Near) : Bool :=
  isOneOf statementKeywords n.text &&
    (n.before.head?.any fun l => match l.kind with
      | .word => !isOneOf keywords l.text
      | .sign => isOneOf [")", "]", "\x7d"] l.text
      | _ => true) && inBrackets 0 n.before

def areClosed : Nat → List Lexeme → Bool
  | _, [] => false
  | depth, l :: rest =>
    if isOneOf ["(", "[", "\x7b"] l.text then areClosed (depth + 1) rest
    else if isOneOf [")", "]", "\x7d"] l.text then depth ≤ 1 || areClosed (depth - 1) rest
    else areClosed depth rest

def isKeyword (n : Near) : Bool :=
  (isOneOf keywords n.text && !endsBrackets n) ||
    (n.text == "async" && isOneOf ["def", "for", "with"] n.next) ||
    (n.text == "await" && !n.endsLine && n.after.head?.any fun l =>
      l.kind != .sign || isOneOf ["(", "[", "\x7b", "...", "-", "~"] l.text) ||
    (isOneOf ["print", "exec"] n.text && (beforeOperand n || (n.here.fresh && (n.next == ">>" ||
      (n.next == "(" && !areClosed 0 n.after))))) ||
    (isOneOf ["match", "case"] n.text && n.here.fresh && colonAhead 0 n.after &&
      !isOneOf ["=", ".", ",", ":", ")", "]"] n.next)

/-- A word is a part of a statement or a pattern that is not looked at: the word before the name of
a type, or the pattern that fits all. -/
def isUnmarked (n : Near) : Bool :=
  (n.text == "type" && (n.here.fresh || n.prev == ";") && n.nextIsWord &&
      isOneOf ["=", "["] n.next2) ||
    (n.text == "_" && (n.before.find? fun l => l.fresh || l.text == "if").any (·.text == "case") &&
      colonAhead 0 n.after) ||
    (n.text == "__future__" && n.prev == "from")

def word (n : Near) : Option String :=
  if n.before.head?.any (·.kind == .broken) || (n.prev == "." && n.text != "import") then
    some "variable"
  else if isOneOf ["None", "True", "False"] n.text then some "constant.builtin"
  else if isOneOf operators n.text then some "operator"
  else if isKeyword n then some "keyword"
  else if isUnmarked n then none
  else some "variable"

def pairMarks (n : Near) : List Mark :=
  match n.before.head? with
  | some l =>
    if (l.text == "is" && n.text == "not") || (l.text == "not" && n.text == "in") then
      [⟨l.start, n.here.stop, 0, "operator"⟩]
    else []
  | none => []

def endsOperand (l : Lexeme) : Bool :=
  match l.kind with
  | .word => !isOneOf (operators ++ keywords ++ ["print", "exec", "await"]) l.text
  | .sign => isOneOf [")", "]", "\x7d"] l.text
  | _ => true

def isInterrupted (l next : Lexeme) : Bool :=
  endsOperand l && match next.kind with
    | .word => !isOneOf (["if", "else", "for", "async"] ++ operators) next.text
    | .number => true
    | _ => false

/-- The end of the expression that a decorator consists of, whose lexemes so far end with `l`. -/
def decoratorEnd (l : Lexeme) : Nat → List Lexeme → Nat
  | _, [] => l.stop
  | depth, next :: rest =>
    if depth = 0 && (next.fresh || next.text == ";" || isInterrupted l next) then l.stop
    else if isOneOf ["(", "[", "\x7b"] next.text then decoratorEnd next (depth + 1) rest
    else if isOneOf [")", "]", "\x7d"] next.text then
      if depth = 0 then l.stop else decoratorEnd next (depth - 1) rest
    else decoratorEnd next depth rest

/-- The start of the comment behind a decorator that ends at `stop`, if one stands on its line. -/
def commentBehind? (comments : List Lexeme) (stop : Nat) (after : List Lexeme) : Option Nat :=
  let next := after.find? (stop ≤ ·.start)
  (comments.find? (stop ≤ ·.start)).bind fun l =>
    if !l.fresh && next.all (l.start < ·.start) then some l.start else none

/-- The marks of a sign. A decorator goes up to the comment behind it. -/
def signMarks (comments : List Lexeme) (n : Near) : List Mark :=
  if n.text == "@" && n.here.fresh then
    let stop := decoratorEnd n.here 0 n.after
    [⟨n.here.start, (commentBehind? comments stop n.after).getD stop, 0, "function"⟩]
  else if isOneOf operators n.text then [n.here.mark "operator"]
  else if n.text.length > 1 && n.text.startsWith "\\" then [n.here.mark "escape"]
  else []

def formattedEnd? : Nat → List Lexeme → Option Nat
  | _, [] => none
  | depth, l :: rest =>
    if closesCode l && opensCode l then formattedEnd? depth rest
    else if closesCode l then if depth = 0 then some l.stop else formattedEnd? (depth - 1) rest
    else if opensCode l then formattedEnd? (depth + 1) rest
    else formattedEnd? depth rest

def isClosed : Nat → List Lexeme → Bool
  | _, [] => false
  | depth, l :: rest =>
    if closesCode l then depth = 0 || isClosed (if opensCode l then depth else depth - 1) rest
    else isClosed (if opensCode l then depth + 1 else depth) rest

/-- A place for code in a formatted string. -/
structure Hole where
  nested : Bool
  letters : List Char
  deriving Repr

def lettersOf (holes : List Hole) (l : Lexeme) : List Char :=
  if closesCode l then (holes.head?.map (·.letters)).getD []
  else l.text.toList.takeWhile Char.isAlpha

/-- Walk past a string or a piece of one, with the holes that are open. Found is where the braces of
the code itself are in the lexeme: an opening or a closing one, but not those in a format. -/
def braces (holes : List Hole) (l : Lexeme) : List Hole × List Nat :=
  let letters := lettersOf holes l
  let cs := l.text.toList
  let last := if opensCode l then [cs.length - 1] else []
  let close := (cs.takeWhile (· != '\x7d')).length
  if !closesCode l then if opensCode l then (⟨false, letters⟩ :: holes, last) else (holes, [])
  else
    let (nested, outer) := match holes with
      | hole :: outer => (hole.nested && close = 0, outer)
      | [] => (false, [])
    let close := if nested then ((cs.drop 1).takeWhile (· != '\x7d')).length + 1 else close
    if close < cs.length then
      if opensCode l then (⟨false, letters⟩ :: outer, close :: last) else (outer, [close])
    else if opensCode l then (⟨true, letters⟩ :: outer, [])
    else (outer, [])

/-- The marks of a string or a piece of one. -/
def textMarks (holes : List Hole) (n : Near) : List Mark :=
  let l := n.here
  let whole := if closesCode l then [] else
    if opensCode l then ((formattedEnd? 0 n.after).map fun stop =>
      ⟨l.start, stop, 0, "string"⟩).toList
    else [l.mark "string"]
  let isOpen := opensCode l && !isClosed 0 n.after
  let offsets := (braces holes l).2.filter fun offset => !(isOpen && offset + 1 == l.text.length)
  whole ++ l.escapes (escape (lettersOf holes l)) ++
    offsets.map fun offset => l.markAt offset 1 "punctuation.special"

def lexemeMarks (comments : List Lexeme) (holes : List Hole) (n : Near) : List Mark :=
  match n.here.kind with
  | .word => ((word n).map n.here.mark).toList ++ pairMarks n
  | .number => [n.here.mark "number"]
  | .text => textMarks holes n
  | .comment | .broken => []
  | .sign => signMarks comments n

def joinLines : List Lexeme → List Lexeme
  | l :: next :: rest =>
    if l.text == "\\" && next.fresh then { next with fresh := l.fresh } :: joinLines rest
    else l :: joinLines (next :: rest)
  | lexemes => lexemes

/-- A point behind an operand on its line begins no number. -/
def splitPoints : List Lexeme → List Lexeme
  | l :: next :: rest =>
    if next.kind = .number && next.text.startsWith "." && !next.fresh && endsOperand l then
      l :: { next with kind := .sign, text := ".", stop := next.start + 1 } ::
        { next with text := String.ofList (next.text.toList.drop 1), start := next.start + 1 } ::
        splitPoints rest
    else l :: splitPoints (next :: rest)
  | lexemes => lexemes

def marks (text : String) : List Mark :=
  let lexemes := splitPoints (joinLines (lexis.lexemes text))
  let comments := lexemes.filter (·.kind = .comment)
  let step (holes : List Hole) (n : Near) : List Hole × List Mark :=
    (if n.here.kind = .text then (braces holes n.here).1 else holes, lexemeMarks comments holes n)
  walk [] step lexemes

end CodeTint.Highlight.Python
