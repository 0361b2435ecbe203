import CodeTint.Highlight.Lexeme

/-!
What is found in the text of a C program. A name is known for a type by what stands around it.
-/

set_option autoImplicit false
set_option relaxedAutoImplicit false

namespace CodeTint.Highlight.C

inductive Place where
  | block | fields | params | oldParams | values | attribute | choices | offset
  deriving DecidableEq, Repr

structure State where
  places : List Place := []
  defining : Bool := false
  directive : String := ""
  deriving Repr

def State.place (s : State) : Place := s.places.head?.getD .block

def gap (cs : List Char) : Nat := (cs.takeWhile fun c => c == ' ' || c == '\t').length

def isNameChar (c : Char) : Bool := Text.continuesName c || c == '$'

def directive : List Char → Nat
  | '#' :: rest => 1 + gap rest + ((rest.drop (gap rest)).takeWhile Char.isAlpha).length
  | _ => 0

def openDirectives : List String :=
  ["", "if", "ifdef", "ifndef", "elif", "elifdef", "elifndef", "else", "endif", "include"]

def directiveName (cs : List Char) : String :=
  String.ofList (((cs.take (directive cs)).drop 1).dropWhile fun c => c == ' ' || c == '\t')

/-- The length of what a directive is given: up to the end of the line, if no backslash continues
it, or to a comment. -/
def argument : List Char → Nat
  | [] => 0
  | '\\' :: '\n' :: rest => argument rest + 2
  | '\\' :: '\r' :: '\n' :: rest => argument rest + 3
  | '/' :: c :: rest => if c == '*' then 0 else argument rest + 2
  | c :: rest => if c == '\n' || c == '\x00' then 0 else argument rest + 1

/-- The length of the name and the parameters of a definition behind the name of the directive. -/
def defined (cs : List Char) : Nat :=
  let name := gap cs + ((cs.drop (gap cs)).takeWhile isNameChar).length
  match cs.drop name with
  | '(' :: rest => name + 1 + ((Lexis.untilClosed? [')'] (rest.takeWhile (· != '\n'))).getD 0)
  | _ => name

/-- The length of a directive whose argument is not looked at, or 0. -/
def closedDirective (cs : List Char) : Nat :=
  let name := directiveName cs
  if directive cs = 0 || isOneOf openDirectives name then 0
  else
    let head := directive cs + if name == "define" then defined (cs.drop (directive cs)) else 0
    let rest := cs.drop head
    if Lexis.begins "//" (rest.drop (gap rest)) then head else head + argument rest

def quoteLetters (cs : List Char) : Nat :=
  ((["u8", "L", "u", "U"].find? fun p =>
    Lexis.begins p cs && (cs.drop p.length).head?.any fun c => c == '"' || c == '\x27').map
    String.length).getD 0

def literal (cs : List Char) : Nat :=
  let letters := quoteLetters cs
  let rest := cs.drop letters
  let length := max (Lexis.quotedBy '"' true rest) (Lexis.quotedBy '\x27' true rest)
  if length = 0 then 0 else letters + length

/-- The length of a string that the end of its line leaves open, or 0. What follows has to be able
to follow a string. -/
def openString (cs : List Char) : Nat :=
  let length := Lexis.lineLength cs
  let behind := (cs.drop length).dropWhile Char.isWhitespace
  if (cs.drop (quoteLetters cs)).head? == some '"' && literal cs = 0 &&
      behind.head?.any fun c => (isNameChar c && !c.isDigit) ||
        "\");,]:?+-*/%&|^<>([.".toList.contains c then length
  else 0

def fileName : List Char → Nat
  | '<' :: rest => ((Lexis.untilClosed? ['>'] (rest.takeWhile (· != '\n'))).map (· + 1)).getD 0
  | _ => 0

/-- The length of a line comment, which a backslash continues on the next line. -/
def lineComment : List Char → Nat
  | [] | ['\\'] => 0
  | '\\' :: '\r' :: '\n' :: rest => lineComment rest + 3
  | '\\' :: _ :: rest => lineComment rest + 2
  | c :: rest => if c == '\n' || c == '\x00' then 0 else lineComment rest + 1

def digitRun (isDigit : Char → Bool) : List Char → Nat
  | [] => 0
  | c :: rest =>
    if isDigit c then digitRun isDigit rest + 1
    else if c == '\x27' && rest.head?.any isDigit then digitRun isDigit rest + 1
    else 0

def isHexDigit (c : Char) : Bool := c.isDigit || "abcdefABCDEF".toList.contains c

/-- The length of an exponent: a letter, with a sign and digits if they come. -/
def exponent : List Char → Nat
  | c :: rest =>
    if !"eEpP".toList.contains c then 0
    else
      let sign := if rest.head?.any fun c => c == '+' || c == '-' then 1 else 0
      let digits := digitRun isHexDigit (rest.drop sign)
      if digits = 0 then 1 else 1 + sign + digits
  | [] => 0

def signedExponent (cs : List Char) : Nat :=
  if cs[1]?.any (fun c => c == '+' || c == '-') && cs[2]?.any isHexDigit then exponent cs else 0

/-- The length of hexadecimal digits, the last of which may begin an exponent. At least `least`
digits stand before it. -/
def digitsAndExponent (least : Nat) (cs : List Char) : Nat :=
  let digits := digitRun isHexDigit cs
  let outer := exponent (cs.drop digits)
  let inner := if least < digits then signedExponent (cs.drop (digits - 1)) - 1 else 0
  digits + max outer inner

/-- The length of a number without a sign. -/
def number (cs : List Char) : Nat :=
  let hex := match cs with
    | '0' :: x :: rest => (x == 'x' || x == 'X') && rest.head?.any isHexDigit
    | _ => false
  let letters := match cs with
    | '0' :: x :: _ => if hex || x == 'b' || x == 'B' then 2 else 0
    | _ => 0
  let whole := letters + digitRun (if hex then isHexDigit else Char.isDigit) (cs.drop letters)
  let body := match cs.drop whole with
    | '.' :: rest => whole + 1 + digitsAndExponent 0 rest
    | rest =>
      if hex then letters + digitsAndExponent 1 (cs.drop letters) else whole + exponent rest
  body + ((cs.drop body).takeWhile fun c => "uUlLwWfFbBdD".toList.contains c).length

def beforeOperand : List String :=
  ["return", "case", "sizeof", "else", "do", "#if", "#elif", "throw", "co_return", "co_yield"]

def primitives : List String :=
  ["bool", "char", "int", "float", "double", "void", "size_t", "ssize_t", "ptrdiff_t", "intptr_t",
   "uintptr_t", "int8_t", "int16_t", "int32_t", "int64_t", "uint8_t", "uint16_t", "uint32_t",
   "uint64_t", "char8_t", "char16_t", "char32_t", "char64_t"]

def sizes : List String := ["signed", "unsigned", "long", "short"]

/-- An operand ends with the last of some lexemes, the nearest first. A type in brackets ends
none, unless its size is taken. -/
def behindOperand : List Lexeme → Bool
  | [] => false
  | l :: before => match l.kind with
    | .word => !isOneOf beforeOperand l.text
    | .sign =>
      isOneOf ["]", "\x7d", "++", "--"] l.text ||
        (l.text == ")" && !(before.head?.any (isOneOf ("*" :: primitives ++ sizes) ·.text) &&
          !((before.dropWhile (·.text != "(")).drop 1).head?.any (isOneOf ["sizeof", "alignof"]
            ·.text)))
    | .broken => false
    | _ => true

/-- The length of a number with its sign where an operand comes, or 0. -/
def signedNumber (before : List Lexeme) (cs : List Char) : Nat :=
  match cs with
  | sign :: c :: rest =>
    let begins := c.isDigit || (c == '.' && rest.head?.any Char.isDigit)
    if (sign == '-' || sign == '+') && begins && !behindOperand before then
      number (c :: rest) + 1
    else 0
  | _ => 0

def includes (l : Lexeme) : Bool := directiveName l.text.toList == "include"

/-- What comes before words, numbers and signs. A directive whose argument is not looked at is one
lexeme. -/
def special (before : List Lexeme) (cs : List Char) : LexemeKind × Nat :=
  if Lexis.begins "//" cs then (.comment, lineComment cs)
  else if closedDirective cs != 0 then (.broken, closedDirective cs)
  else if directive cs != 0 then (.word, directive cs)
  else if before.head?.any includes && fileName cs != 0 then (.text, fileName cs)
  else if signedNumber before cs != 0 then (.number, signedNumber before cs)
  else (.text, literal cs)

def signs : List String :=
  ["<<=", ">>=", "...", "->", "++", "--", "+=", "-=", "*=", "/=", "%=", "&=", "|=", "^=", "==",
   "!=", "<=", ">=", "&&", "||", "<<", ">>"]

def lexis : Lexis where
  blockComment := some ("/*", "*/")
  isWordStart := fun c => Text.beginsName c || c == '$'
  isWordChar := isNameChar
  special := fun before cs =>
    if openString cs != 0 && !before.head?.any (isOneOf [";", "\x7b", "\x7d"] ·.text) then
      (.text, openString cs)
    else special before cs
  quotes := ['"', '\x27']
  number := number
  signs := signs

def operators : List String :=
  ["--", "-", "-=", "->", "=", "!=", "*", "&", "&&", "+", "++", "+=", "<", "==", ">", "||"]

def keywords : List String :=
  ["break", "case", "const", "continue", "default", "do", "else", "enum", "extern", "for", "if",
   "inline", "return", "sizeof", "static", "struct", "switch", "typedef", "union", "volatile",
   "while"]

def otherWords : List String :=
  ["goto", "register", "restrict", "auto", "true", "false", "TRUE", "FALSE", "defined",
   "thread_local", "_Atomic", "_Noreturn", "noreturn", "constexpr", "asm",
   "__asm__", "alignof", "_Alignof", "alignas", "_Alignas", "offsetof", "_Generic",
   "__attribute__", "__attribute", "__declspec", "__extension__", "__inline", "__inline__",
   "__restrict__", "__cdecl", "__clrcall", "__stdcall", "__fastcall", "__thiscall",
   "__vectorcall", "__try", "__except", "__finally", "__leave"]

def isName (l : Lexeme) : Bool :=
  l.kind == .word && !isOneOf (keywords ++ otherWords ++ primitives ++ sizes) l.text &&
    !l.text.startsWith "#"

def qualifiers : List String :=
  ["const", "static", "extern", "inline", "typedef", "volatile", "register", "auto", "restrict",
   "_Atomic", "constexpr", "thread_local", "__inline", "__inline__", "_Noreturn",
   "noreturn"]

/-- Only words that a type follows stand before, up to where a declaration or a parameter may
begin. -/
def behindQualifiers (n : Near) : Bool :=
  isOneOf qualifiers n.prev &&
    (n.before.dropWhile (isOneOf qualifiers ·.text)).head?.all fun l =>
      isOneOf [";", "\x7b", "\x7d", ")", "(", ",", ":"] l.text || l.kind == .text ||
        l.kind == .broken

def beginsPart (s : State) (n : Near) : Bool :=
  isOneOf ["", ";", "\x7b", "\x7d", ")"] n.prev || isOneOf qualifiers n.prev ||
    n.before.head?.any (·.kind == .broken) ||
    (n.prev == ":" && s.place == .block) || (n.prev == "(" && n.prev2 == "for") ||
    (s.place == .params && isOneOf ["(", ","] n.prev) || s.directive != ""

def behindStars : List Lexeme → Option Lexeme
  | [] => none
  | l :: rest => if l.text == "*" || l.text == "const" then behindStars rest else some l

def isOperand (l : Lexeme) : Bool :=
  isName l || l.kind = .number || l.kind = .text

/-- A name in round brackets is a type that what follows is turned into. -/
def isCast (n : Near) : Bool :=
  let behind := n.after.dropWhile (·.text == "*")
  let stars := n.next == "*"
  let before := if n.prev == "const" then n.before.drop 1 else n.before
  before.head?.any (·.text == "(") && (behind.head?.map (·.text)).getD "" == ")" &&
    !before[1]?.any (fun l => isName l || isOneOf ["sizeof", "defined", ")", "]", "if", "while",
      "switch", "for"] l.text) &&
    behind[1]?.any fun l => isOperand l || isOneOf ["\x7b", "!", "~", "sizeof"] l.text ||
      (stars && isOneOf ["(", "&", "*", "++", "--"] l.text)

/-- The brackets behind a name hold the name of a pointer to a function or to an array, of the type
that the name stands for. -/
def beforePointer (n : Near) : Bool :=
  n.next == "(" && n.next2 == "*" &&
    match n.after[2]?, n.after[3]?, n.after[4]? with
    | some name, some closing, some opening =>
      isName name && closing.text == ")" && isOneOf ["(", "["] opening.text
    | _, _, _ => false

def choosesType (s : State) (n : Near) : Bool :=
  s.place == .choices && n.prev == "," &&
    (n.next == ":" ||
      (n.next == "*" && (n.after.dropWhile (·.text == "*")).head?.any (·.text == ":")))

/-- A name in round brackets is the argument of a name that stands for a type with it. -/
def isTypeArgument (s : State) (n : Near) : Bool :=
  n.prev == "(" && n.next == ")" && (n.back 1).any isName && s.place != .fields &&
    (match n.before with
      | _ :: name :: before => beginsPart { s with places := s.places.drop 1 } ⟨before, name, []⟩
      | _ => false) &&
    ((n.after.drop 1).dropWhile (·.text == "*")).head?.any fun l => isName l && !l.fresh

/-- The lexemes from the bracket that opens `depth` deep, the nearest first. -/
def fromOpening : Nat → List Lexeme → List Lexeme
  | _, [] => []
  | depth, l :: before =>
    if isOneOf [")", "]", "\x7d"] l.text then fromOpening (depth + 1) before
    else if isOneOf ["(", "[", "\x7b"] l.text then
      if depth = 0 then l :: before else fromOpening (depth - 1) before
    else fromOpening depth before

def behindRecord (n : Near) : Bool :=
  let before := (fromOpening 0 (n.before.drop 1)).drop 1
  let record (l : Lexeme) : Bool := isOneOf ["struct", "union", "enum"] l.text
  n.prev == "\x7d" &&
    (before.head?.any record || (before.head?.any isName && before[1]?.any record))

def isType (s : State) (n : Near) : Bool :=
  isOneOf ["struct", "union", "enum"] n.prev || behindQualifiers n || choosesType s n ||
    (n.after.head?.any isName && (!n.endsLine || s.directive == "") &&
      !(isOneOf primitives n.prev && s.place == .block)) ||
    (isOneOf primitives n.next && beginsPart s n && !behindRecord n &&
      (s.directive == "" || s.place == .params)) ||
    (s.place == .fields && isOneOf [";", "\x7b"] n.prev && n.next == ";") ||
    (n.next == "*" && beginsPart s n && (behindStars n.after).any fun l =>
      isName l || (s.place == .params && isOneOf [",", ")"] l.text)) ||
    (beginsPart s n && beforePointer n) || isTypeArgument s n ||
    isCast n || (s.defining && n.prev == "*" && n.prev2 == "(" && n.next == ")") ||
    (s.defining && s.place == .block && isOneOf [";", ",", "[", "("] n.next) ||
    (s.place == .params && isOneOf ["(", ","] n.prev && isOneOf [",", ")"] n.next) ||
    (n.prev == "(" && n.prev2 == "sizeof" && n.next == "*" &&
      (n.after.dropWhile (·.text == "*")).head?.any (·.text == ")")) ||
    (n.prev == "(" && isOneOf ["alignof", "_Alignof", "__alignof__", "offsetof"] n.prev2)

def endsType (l : Lexeme) : Bool :=
  isOneOf (primitives ++ sizes ++ ["*", "typedef"]) l.text || isName l

def behindPointer (n : Near) : Bool :=
  n.prev == ")" &&
    let opening := fromOpening 0 (n.before.drop 1)
    let inside := (n.before.drop 1).take (n.before.length - 1 - opening.length)
    inside.getLast?.any (isOneOf ["*", "^"] ·.text) && opening[1]?.any endsType

/-- The name before stands behind a name that stands for a type with its argument. -/
def behindTypeArgument (n : Near) : Bool :=
  match n.before with
  | name :: closing :: argument :: opening :: macroName :: before =>
    isName name && !name.fresh && closing.text == ")" && isName argument && opening.text == "(" &&
      isName macroName && beginsPart {} ⟨before, macroName, []⟩
  | _ => false

def opensParams (s : State) (n : Near) : Bool :=
  s.place == .fields || s.defining || behindPointer n || behindTypeArgument n ||
    (n.before.head?.any isName && (n.back 1).any endsType)

def behindClosing : Nat → List Lexeme → List Lexeme
  | _, [] => []
  | depth, l :: rest =>
    if isOneOf ["(", "[", "\x7b"] l.text then behindClosing (depth + 1) rest
    else if isOneOf [")", "]", "\x7d"] l.text then
      if depth = 0 then rest else behindClosing (depth - 1) rest
    else behindClosing depth rest

/-- What opening round brackets enclose. Parameters whose types come behind them are names. -/
def openedByRound (s : State) (n : Near) : Place :=
  if s.directive != "" then .values
  else if s.place == .attribute ||
      isOneOf ["__attribute__", "__attribute", "__declspec"] n.prev then
    .attribute
  else if n.prev == "_Generic" then .choices
  else if n.prev == "offsetof" then .offset
  else if opensParams s n then
    let behind := behindClosing 0 n.after
    if behind.head?.any (fun l => l.kind = .word && !isOneOf otherWords l.text) &&
        !behind[1]?.any (·.text == "(") && !s.defining && s.place == .block then .oldParams
    else .params
  else .values

def openedByBrace (s : State) (n : Near) : Place :=
  let before := if n.prev == ")" then (fromOpening 0 (n.before.drop 1)).drop 1 else n.before
  let before := if before.head?.any (isOneOf ["__attribute__", "__attribute"] ·.text) then
      before.drop 1 else before
  let record (l : Lexeme) : Bool := isOneOf ["struct", "union"] l.text
  if before.head?.any record || (before.head?.any isName && before[1]?.any record) then .fields
  else if isOneOf ["=", "enum"] n.prev || n.prev2 == "enum" || s.place == .values then .values
  else .block

def State.step (s : State) (n : Near) : State :=
  let s := if n.here.fresh && n.prev != "\\" then { s with directive := "" } else s
  match n.text with
  | "(" => { s with places := openedByRound s n :: s.places }
  | "[" => { s with places := .values :: s.places }
  | "\x7b" => { s with places := openedByBrace s n :: s.places }
  | ")" | "]" | "\x7d" => { s with places := s.places.drop 1 }
  | ";" => { s with defining := s.defining && s.place == .fields }
  | "typedef" => { s with defining := true }
  | word =>
    if word.startsWith "#" && n.here.kind = .word then { s with directive := word } else s

def isField (s : State) (n : Near) : Bool :=
  isOneOf [".", "->"] n.prev ||
    (s.place == .fields && !isType s n && (s.directive == "" || n.here.fresh)) ||
    (s.places[1]? == some .fields && n.prev == "*" && n.prev2 == "(")

def isLabel (s : State) (n : Near) : Bool :=
  n.prev == "goto" || (s.place == .block && n.next == ":" &&
    isOneOf ["", ";", "\x7b", "\x7d", ":"] n.prev)

/-- The word stands behind a literal that the end of its line leaves open, where no keyword is
expected. -/
def behindOpenLiteral (n : Near) : Bool :=
  n.before.head?.any fun l =>
    (l.kind == .text && (["\"", "'", ">"].all fun closing => !l.text.endsWith closing)) ||
      (l.kind == .broken && ["\"", "'"].any (l.text.startsWith ·))

/-- A word that belongs to a type stands where none is expected, and is a name like any other. -/
def isStray (s : State) (n : Near) : Bool :=
  let sameLine := !n.here.fresh || s.directive == "" || s.place == .params
  (isOneOf primitives n.text && sameLine && n.before.head?.any isName) ||
    (isOneOf primitives n.text && (n.prev == "else" || (n.prev == ")" &&
      (fromOpening 0 (n.before.drop 1))[1]?.any (isOneOf ["if", "while", "for", "switch"] ·.text))))
    || (isOneOf ["struct", "union", "enum"] n.text && s.place == .values && n.prev == ",")
    || (isOneOf ["struct", "union", "enum"] n.prev && s.place == .values && n.prev2 == ",")

def word (s : State) (n : Near) : Option String :=
  if s.place == .attribute || isStray s n then some "variable"
  else if behindOpenLiteral n && !n.text.startsWith "#" then some "variable"
  else if n.text == "default" && s.place == .choices then some "type"
  else if isOneOf ["elifdef", "elifndef"] (directiveName n.text.toList) then none
  else if n.text.startsWith "#" || isOneOf keywords n.text then some "keyword"
  else if isOneOf (primitives ++ sizes) n.text then some "type"
  else if isOneOf otherWords n.text then none
  else if isOneOf ["NULL", "nullptr"] n.text then some "constant"
  else if isField s n then some "property"
  else if isLabel s n then some "label"
  else if isType s n then some "type"
  else if s.place == .offset && n.prev == "," then some "property"
  else some "variable"

/-- The marks of a directive whose argument is not looked at: its name, and what a definition
defines. -/
def directiveMarks (l : Lexeme) : List Mark :=
  let cs := l.text.toList
  let length := directive cs
  let rest := cs.drop length
  let names := if directiveName cs == "define" then
      names rest.length length (rest.take (defined rest))
    else []
  l.markAt 0 length "keyword" :: names.map fun (start, length) => l.markAt start length "variable"
where
  names : Nat → Nat → List Char → List (Nat × Nat)
    | 0, _, _ => []
    | _, _, [] => []
    | fuel + 1, pos, c :: rest =>
      let length := ((c :: rest).takeWhile isNameChar).length
      if length = 0 then names fuel (pos + 1) rest
      else (pos, length) :: names fuel (pos + length) ((c :: rest).drop length)

def sizedMarks (n : Near) : List Mark :=
  let first := (n.before.takeWhile fun l => isOneOf sizes l.text).getLast?
  match first with
  | some l =>
    if isOneOf (sizes ++ ["int", "char", "double"]) n.text then [⟨l.start, n.here.stop, 0, "type"⟩]
    else []
  | none => []

def lexemeMarks (s : State) (n : Near) : List Mark :=
  match n.here.kind with
  | .word => ((word s n).map n.here.mark).toList ++ sizedMarks n
  | .number => [n.here.mark "number"]
  | .text => [n.here.mark (if n.text.endsWith "'" then "number" else "string")]
  | .broken => if n.text.startsWith "#" then directiveMarks n.here else []
  | .comment => []
  | .sign => if isOneOf operators n.text then [n.here.mark "operator"] else []

def marks (text : String) : List Mark :=
  walk {} (fun s n => (State.step s n, lexemeMarks s n)) (lexis.lexemes text)

end CodeTint.Highlight.C
