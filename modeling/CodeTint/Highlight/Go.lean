import CodeTint.Highlight.Lexeme

/-!
What is found in the text of a Go program. The walk keeps the brackets that are open, each with what
it encloses, and whether the next name stands for a type.
-/

set_option autoImplicit false
set_option relaxedAutoImplicit false

namespace CodeTint.Highlight.Go

/-- What a bracket encloses. Parameters are a list of types, or of names with types. -/
inductive Place where
  | block | typeCases | fields | methods | imports | names | types | values | index | declarations
  | typeDeclarations
  deriving DecidableEq, Repr

/-- Where the walk is between two brackets. -/
structure Level where
  place : Place := .block
  typed : Bool := false
  /-- The parameters or the results of a function come next. -/
  signature : Bool := false
  onTypes : Bool := false
  behindType : Bool := false
  deriving Repr

structure State where
  here : Level := {}
  outer : List Level := []
  deriving Repr

def State.place (s : State) : Place := s.here.place

def State.typed (s : State) : Bool := s.here.typed

def State.at (s : State) (here : Level) : State := { s with here := here }

def State.expecting (s : State) (typed : Bool) : State := s.at { s.here with typed := typed }

/-- A statement may end behind some lexemes, the nearest first, if `behind` comes next: what
encloses them, if `depth` more brackets are closed, is a block and no list. A bracket is missing
between an opening one and a block. -/
def inBlock : Nat → String → List Lexeme → Bool
  | _, _, [] => true
  | depth, behind, l :: before =>
    if isOneOf [")", "]", "\x7d"] l.text then inBlock (depth + 1) l.text before
    else if isOneOf ["(", "[", "\x7b"] l.text && !(l.text == "(" && behind == "\x7b") then
      if depth = 0 then l.text == "\x7b" && !before.head?.any (·.stop = l.start)
      else inBlock (depth - 1) l.text before
    else inBlock depth l.text before

def escape : EscapeRule
  | 'x' :: rest => let digits := hexRun rest.length rest; if digits ≥ 2 then digits + 1 else 0
  | 'u' :: rest => if hexRun 4 rest = 4 then 5 else 0
  | 'U' :: rest => if hexRun 8 rest = 8 then 9 else 0
  | c :: rest => max 1 (((c :: rest).take 3).takeWhile Char.isDigit).length
  | [] => 0

/-- The escape of one character between single quotes. -/
def runeEscape : EscapeRule
  | 'x' :: rest => if hexRun 2 rest = 2 then 3 else 0
  | 'u' :: rest => if hexRun 4 rest = 4 then 5 else 0
  | 'U' :: rest => if hexRun 8 rest = 8 then 9 else 0
  | c :: rest =>
    if "abfnrtv\\\x27\"".toList.contains c then 1
    else if (((c :: rest).take 3).filter fun d => '0' ≤ d && d ≤ '7').length = 3 then 3
    else 0
  | [] => 0

/-- The length of one character between single quotes, or 0. -/
def rune (cs : List Char) : Nat :=
  match cs with
  | '\x27' :: '\\' :: rest =>
    let n := runeEscape rest
    if n != 0 && (rest.drop n).head? == some '\x27' then n + 3 else 0
  | '\x27' :: c :: '\x27' :: _ => if c == '\x27' then 0 else 3
  | _ => 0

/-- What comes before words, numbers and signs. The end of a line closes a string as well, if it
ends a statement, and the end of the text one between backquotes. -/
def special (before : List Lexeme) (cs : List Char) : LexemeKind × Nat :=
  (.text, match cs with
    | '\x60' :: rest =>
      (Lexis.untilClosed? ['\x60'] (Lexis.beforeNull rest)).getD (Lexis.beforeNull rest).length + 1
    | '"' :: _ =>
      let length := Lexis.quotedBy '"' true cs
      if length = 0 && inBlock 0 "" before then Lexis.lineLength cs else length
    | _ => rune cs)

def lexis : Lexis where
  lineComments := ["//"]
  blockComment := some ("/*", "*/")
  special := special
  quotes := ['"']
  number := Lexis.pointedNumber ['i']
  signs := ["&^=", "<<=", ">>=", "...", ":=", "++", "--", "+=", "-=", "*=", "/=", "%=", "&=", "|=",
    "^=", "==", "!=", "<=", ">=", "&&", "||", "<-", "<<", ">>", "&^"]

def operators : List String :=
  ["--", "-", "-=", ":=", "!", "!=", "...", "*", "*=", "/", "/=", "&", "&&", "&=", "%", "%=", "^",
   "^=", "+", "++", "+=", "<-", "<", "<<", "<<=", "<=", "=", "==", ">", ">=", ">>", ">>=", "|",
   "|=", "||", "~"]

def keywords : List String :=
  ["break", "case", "chan", "const", "continue", "default", "defer", "else", "fallthrough", "for",
   "func", "go", "goto", "if", "import", "interface", "map", "package", "range", "return",
   "select", "struct", "switch", "type", "var"]

/-- The first words of the entries of a list up to its closing bracket, with what follows each. -/
def entries : Nat → Bool → List Lexeme → List (Lexeme × Lexeme)
  | _, _, [] => []
  | depth, first, l :: rest =>
    if isOneOf ["(", "[", "\x7b"] l.text then entries (depth + 1) false rest
    else if isOneOf [")", "]", "\x7d"] l.text then
      if depth = 0 then [] else entries (depth - 1) false rest
    else if depth = 0 && l.text == "," then entries depth true rest
    else
      let here := match rest with
        | next :: _ => if first && l.kind = .word then [(l, next)] else []
        | [] => []
      here ++ entries depth false rest

def hasNames (after : List Lexeme) : Bool :=
  (entries 0 true after).any fun (l, next) =>
    !isOneOf keywords l.text &&
      (next.kind = .word || isOneOf ["*", "...", "(", "<-"] next.text ||
        (next.text == "[" && l.stop != next.start))

def behindName (n : Near) : Bool :=
  !n.here.fresh && n.before.head?.any fun l => l.kind = .word && !isOneOf keywords l.text

def beforeNames : List Lexeme → String
  | [] => ""
  | l :: before =>
    if l.text == "," || (l.kind = .word && !isOneOf keywords l.text) then beforeNames before
    else l.text

def behindDeclared (s : State) (n : Near) : Bool :=
  behindName n &&
    (isOneOf ["var", "const", "type"] (beforeNames n.before) ||
      [Place.names, .fields, .declarations].contains s.place)

def isPointer (s : State) (n : Near) : Bool :=
  s.typed || (s.place == .names && n.prevIsWord) || behindDeclared s n

/-- What stands behind the bracket that closes a list of types, if it touches. -/
def behindTypes : Nat → List Lexeme → List Lexeme
  | _, [] => []
  | depth, l :: rest =>
    if l.text == "[" then behindTypes (depth + 1) rest
    else if l.text == "]" then
      if depth = 0 then (if rest.head?.any (·.start = l.stop) then rest else [])
      else behindTypes (depth - 1) rest
    else if l.kind = .word || isOneOf [",", ".", "*"] l.text then behindTypes depth rest
    else []

/-- A list of arguments holds one argument, if `depth` brackets are open and one has begun or not:
it has no comma but a last one, and is not spread. -/
def isSingle (begun : Bool) : Nat → List Lexeme → Bool
  | _, [] => false
  | depth, l :: rest =>
    if isOneOf ["(", "[", "\x7b"] l.text then isSingle true (depth + 1) rest
    else if isOneOf [")", "]", "\x7d"] l.text then
      if depth = 0 then begun else isSingle begun (depth - 1) rest
    else if depth = 0 && l.text == "..." then false
    else if depth = 0 && l.text == "," then rest.head?.any (·.text == ")")
    else isSingle true depth rest

/-- A bracket that touches a name in an expression opens the arguments of a type or a call. -/
def opensArguments (n : Near) : Bool :=
  n.text == "[" && n.touchesPrev &&
    (behindTypes 0 n.after).head?.any fun l => l.text == "(" || l.text == "\x7b"

/-- What follows the arguments of a type or a call behind the first of some lexemes. -/
def behindArguments : List Lexeme → List Lexeme
  | here :: l :: rest =>
    if l.text == "[" && here.stop = l.start then
      let behind := behindTypes 0 rest
      if behind.head?.any (fun l => l.text == "(" || l.text == "\x7b") then behind else []
    else []
  | _ => []

/-- The first of some lexemes names the type of a literal, or a type with arguments that converts
one operand. -/
def namesType (lexemes : List Lexeme) : Bool :=
  match lexemes with
  | here :: brace :: _ =>
    (brace.text == "\x7b" && brace.start = here.stop) ||
      match behindArguments lexemes with
      | l :: rest => l.text == "\x7b" || isSingle false 0 rest
      | [] => false
  | _ => false

/-- The word names a type with arguments in another package, or a type of a literal there. -/
def isQualified (n : Near) : Bool :=
  n.prev == "." && n.prev2 != ")" && !(n.back 2).any (·.text == ".") &&
    (n.back 1).any (·.kind = .word) && namesType (n.here :: n.after)

/-- The brackets behind the name of a type that is declared hold its parameters, not a length. -/
def holdsParameters (n : Near) : Bool :=
  match n.after with
  | l :: next :: _ => l.kind = .word && next.text != "]" && next.text != "."
  | _ => false

def behindOperand (n : Near) : Bool :=
  n.touchesPrev && n.before.head?.any fun l =>
    (l.kind = .word && !isOneOf keywords l.text) || l.kind = .text ||
      isOneOf [")", "]", "\x7d"] l.text

/-- What an opening bracket encloses. -/
def opened (s : State) (n : Near) : Place :=
  match n.text with
  | "[" =>
    if n.prev == "map" then .types
    else if n.prev2 == "func" then .names
    else if n.prev2 == "type" || (s.place == .typeDeclarations && n.before.head?.any (·.fresh)) then
      if holdsParameters n then .names else .values
    else if n.prevIsWord && n.touchesPrev && !isOneOf keywords n.prev &&
        (s.here.behindType || opensArguments n) then .types
    else if behindOperand n && !s.typed then .index
    else .values
  | "(" =>
    if s.here.signature then if hasNames n.after then .names else .types
    else if n.prev == "import" then .imports
    else if n.prev == "type" then .typeDeclarations
    else if isOneOf ["var", "const"] n.prev then .declarations
    else if s.place == .methods then if hasNames n.after then .names else .types
    else if n.prev == "." || (s.typed && !n.prevIsWord) then .types
    else .values
  | "\x7b" =>
    if n.prev == "struct" then .fields
    else if n.prev == "interface" then .methods
    else if s.here.onTypes then .typeCases
    else if s.here.signature then .block
    else if n.touchesPrev && isOneOf ["]", "\x7d"] n.prev then .values
    else if n.touchesPrev && n.prevIsWord && !isOneOf keywords n.prev then
      if n.prev2 == "." && (n.back 3).any (·.text == ".") then .block else .values
    else if s.place == .values && isOneOf ["\x7b", ",", ":"] n.prev then .values
    else .block
  | _ => .values

/-- The bracket that closes the parameters is missing before a bracket that opens a block. -/
def State.lacksClosing (s : State) (n : Near) : Bool :=
  n.text == "\x7b" && (s.place == .names || s.place == .types) &&
    s.outer.head?.any (·.signature) && !isOneOf ["struct", "interface"] n.prev

def State.completed (s : State) (n : Near) : State :=
  match s.outer with
  | here :: outer => if s.lacksClosing n then ⟨{ here with typed := false }, outer⟩ else s
  | [] => s

/-- The state behind an opening bracket. -/
def State.push (s : State) (n : Near) : State :=
  let p := opened s n
  let body := p == .block || p == .typeCases
  { here :=
      { place := p
        typed := p == .types || (n.text == "(" && isOneOf ["new", "make"] n.prev) }
    outer :=
      { s.here with
        typed := s.typed && !body
        signature := s.here.signature && !body
        onTypes := s.here.onTypes && !body } :: s.outer }

/-- The state behind a closing bracket. -/
def State.pop (s : State) (n : Near) : State :=
  match s.outer with
  | [] => s.expecting false
  | here :: outer =>
    let p := s.place
    let typed := match n.text with
      | ")" => (here.signature || here.place == .methods) && (p == .names || p == .types)
      | "]" => p == .values || p == .names || (p == .types && !here.behindType && here.typed)
      | _ => false
    let onTypes := here.onTypes || (n.text == ")" && s.here.onTypes)
    ⟨{ here with typed := typed, onTypes := onTypes }, outer⟩

def Level.behindKeyword (s : Level) (word : String) : Level :=
  match word with
  | "func" => { s with typed := false, signature := true }
  | "chan" | "map" => { s with typed := true }
  | "type" => { s with typed := true, onTypes := s.onTypes || s.place == .types }
  | "case" => { s with typed := s.place == .typeCases }
  | _ => { s with typed := false }

def isType (s : State) (n : Near) : Bool :=
  s.typed || s.place == .typeDeclarations || behindDeclared s n ||
    (s.place == .fields && n.prev != ".") || s.place == .methods ||
    (n.prev != "." && namesType (n.here :: n.after)) || isQualified n

def Level.behindName (s : Level) (n : Near) (isType : Bool) : Level :=
  if n.next == "." && n.prev != "." && isType then { s with typed := true }
  else if s.typed then
    { s with
      typed := s.place == .types || s.place == .typeCases || n.next == "." || n.prev == "type" }
  else s

/-- The state before a lexeme: a new line ends what the line before has begun. -/
def State.settle (s : State) (n : Near) : State :=
  if n.here.fresh then
    s.at { s.here with
      typed := s.place == .types
      signature := s.here.signature && s.place != .block && s.place != .methods }
  else s

/-- The state behind a lexeme, but for whether it was the name of a type. -/
def State.follow (s : State) (n : Near) : State :=
  match n.here.kind with
  | .word =>
    if isOneOf keywords n.text then s.at (s.here.behindKeyword n.text)
    else s.at (s.here.behindName n (isType s n))
  | .sign => match n.text with
    | "(" | "[" | "\x7b" => (s.completed n).push n
    | ")" | "]" | "\x7d" => s.pop n
    | "*" => s.expecting (isPointer s n)
    | "..." => s.expecting true
    | "|" | "~" => s.expecting (s.place == .types || s.place == .names)
    | "<-" => s.expecting (n.prev == "chan" || s.place == .types)
    | "," =>
      s.at { s.here with
        typed := s.place == .types || (s.place == .typeCases && s.typed), signature := false }
    | ";" | ":=" => s.at { s.here with typed := s.place == .types, signature := false }
    | "." => s
    | "=" => s.at { s.here with typed := s.typed && n.prev != ")", signature := false }
    | _ => s.expecting (s.place == .types)
  | _ => s.expecting (s.place == .types)

def State.step (s : State) (n : Near) : State :=
  let behindType := n.here.kind = .word && !isOneOf keywords n.text && isType s n
  let opens := n.here.kind = .sign && isOneOf ["(", "[", "\x7b"] n.text
  let next := s.follow n
  if opens then next else next.at { next.here with behindType := behindType }

def isMethodName (s : State) (n : Near) : Bool :=
  s.here.signature && n.prev == ")" && n.next == "("

/-- Nothing follows a bracket on its line or up to the next semicolon, if `depth` more are open. -/
def endsEntry : Nat → List Lexeme → Bool
  | _, [] => true
  | depth, l :: rest =>
    if l.text == "[" then endsEntry (depth + 1) rest
    else if l.text == "]" then
      if depth = 0 then rest.head?.all fun next => next.fresh || isOneOf [";", "\x7d"] next.text
      else endsEntry (depth - 1) rest
    else endsEntry depth rest

def isFieldName (s : State) (n : Near) : Bool :=
  s.place == .fields && (n.here.fresh || isOneOf ["\x7b", ";", ","] n.prev) && !n.endsLine &&
    !(n.touchesNext && n.next == "[" && endsEntry 0 (n.after.drop 1)) &&
    (n.nextIsWord || isOneOf [",", "*", "[", "(", "<-"] n.next)

def isBehindField (s : State) (n : Near) : Bool :=
  s.place == .fields && behindName n && !n.before.head?.any (·.fresh) &&
    !isOneOf ["\x7b", ";", ","] n.prev2

def isLabel (s : State) (n : Near) : Bool :=
  (!n.here.fresh && isOneOf ["goto", "break", "continue"] n.prev) ||
    (s.place == .block && n.next == ":" && (n.here.fresh || isOneOf ["\x7b", ";"] n.prev))

def isPackage (n : Near) : Bool :=
  n.next == "." && n.prev != "." && namesType (n.after.drop 1)

def isCalled (n : Near) : Bool :=
  n.next == "(" || (behindArguments (n.here :: n.after)).head?.any (·.text == "(")

def word (s : State) (n : Near) : Option String :=
  if isOneOf keywords n.text then
    some (if n.prev == "else" && n.text != "if" then "variable" else "keyword")
  else if isOneOf ["true", "false", "nil", "iota"] n.text && n.prev != "." && n.prev != "var" then
    some (if s.typed || (n.touchesPrev && n.prev == "]") then "type" else "constant.builtin")
  else if n.prev == "package" || s.place == .imports || n.prev == "import" then none
  else if n.prev == "func" then some "function"
  else if isMethodName s n then some "function.method"
  else if s.place == .methods && n.next == "(" then some "property"
  else if isFieldName s n then some "property"
  else if isBehindField s n then some "variable"
  else if n.prev == "." && !s.typed && s.place != .methods then
    some (if isQualified n then "type" else if isCalled n then "function.method" else "property")
  else if isLabel s n || isPackage n then none
  else if isType s n then if n.next == "." then none else some "type"
  else if isCalled n then some "function"
  else some "variable"

def lexemeMarks (s : State) (n : Near) : List Mark :=
  match n.here.kind with
  | .word => ((word s n).map n.here.mark).toList
  | .number => [n.here.mark "number"]
  | .text => n.here.mark "string" ::
      (if n.text.startsWith "\"" then n.here.escapes escape else [])
  | .comment | .broken => []
  | .sign => if isOneOf operators n.text then [n.here.mark "operator"] else []

def marks (text : String) : List Mark :=
  walk {} (fun s n => let s := s.settle n; (State.step s n, lexemeMarks s n)) (lexis.lexemes text)

end CodeTint.Highlight.Go
