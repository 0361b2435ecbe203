import CodeTint.Highlight.Script.Lexis

/-!
What is found in the text of a script, in the dialect with type annotations or in the one without.
The walk keeps the brackets that are open, each with what it encloses, and whether the next name
stands for a type.
-/

set_option autoImplicit false
set_option relaxedAutoImplicit false

namespace CodeTint.Highlight.Script

inductive Place where
  | block | object | members | enumeration | names | params | values | types | typeParams | typeArgs
  deriving DecidableEq, Repr

/-- The head of a declaration or a statement, which decides what the next brace or colon means. -/
inductive Head where
  | none | members | enumeration | names | alias | cases
  deriving DecidableEq, Repr

/-- Where the walk is between two brackets. -/
structure Level where
  place : Place := .block
  typed : Bool := false
  head : Head := .none
  /-- Choices between two operands whose second operand comes, each with whether it is a type. -/
  choices : List Bool := []
  initial : Bool := false
  begins : Bool := false
  behindObject : Bool := false
  deriving Repr

structure State where
  here : Level := {}
  outer : List Level := []
  deriving Repr

def State.place (s : State) : Place := s.here.place

def State.typed (s : State) : Bool := s.here.typed

def State.head (s : State) : Head := s.here.head

def State.inMembers (s : State) : Bool := s.place == .members && !s.here.initial

def operators : List String :=
  ["-", "--", "-=", "+", "++", "+=", "*", "*=", "**", "**=", "/", "/=", "%", "%=", "<", "<=", "<<",
   "<<=", "=", "==", "===", "!", "!=", "!==", "=>", ">", ">=", ">>", ">>=", ">>>", ">>>=", "~", "^",
   "&", "|", "^=", "&=", "|=", "&&", "||", "??", "&&=", "||=", "??="]

def keywords : List String :=
  ["await", "break", "case", "catch", "class", "const", "continue", "debugger", "default",
   "delete", "do", "else", "export", "extends", "finally", "for", "function", "if", "import", "in",
   "instanceof", "let", "new", "return", "switch", "throw", "try", "typeof", "var", "void", "while",
   "with", "yield"]

def typedKeywords : List String :=
  ["abstract", "declare", "enum", "implements", "interface", "keyof", "namespace", "private",
   "protected", "public", "type", "readonly", "override", "satisfies"]

def outerKeywords : List String := ["enum", "interface", "namespace", "type"]

def primitives : List String :=
  ["any", "number", "boolean", "string", "symbol", "void", "unknown", "never", "object"]

def modifiers : List String :=
  ["static", "async", "get", "set", "private", "protected", "public", "readonly", "override",
   "abstract", "declare", "accessor", "*"]

def continuing : List String :=
  ["in", "instanceof", "of", "as", "extends", "implements", "satisfies", "is", "from"]

def nameEnds (n : Near) : Bool :=
  isOneOf ["(", ":", "=", ";", ",", "?", "!", "<", "\x7d", ""] n.next

def nextIsText (n : Near) : Bool := n.after.head?.any (·.kind = .text)

def isPart (n : Near) : Bool := isOneOf [".", "?."] n.prev

def isListed (s : State) (n : Near) : Bool :=
  s.place == .names && (isOneOf ["\x7b", ",", "as"] n.prev ||
    (n.prev == "type" && !isOneOf ["as", ",", "\x7d"] n.text))

def isExternal (s : State) (n : Near) : Bool :=
  isListed s n && (isOneOf [",", "\x7d"] n.next || (n.next == "as" && n.text != "type"))

/-- What stands behind the closing bracket, if `depth` brackets are open. -/
def closing? : Nat → List Lexeme → Option (List Lexeme)
  | _, [] => none
  | depth, l :: rest =>
    if isOneOf ["(", "[", "\x7b"] l.text then closing? (depth + 1) rest
    else if isOneOf [")", "]", "\x7d"] l.text then
      if depth = 0 then some rest else closing? (depth - 1) rest
    else closing? depth rest

/-- A type is followed by the arrow of a function, if `depth` brackets are open. -/
def leadsToArrow : Nat → List Lexeme → Bool
  | _, [] => false
  | depth, l :: rest =>
    if isOneOf ["(", "[", "\x7b", "<"] l.text then leadsToArrow (depth + 1) rest
    else if isOneOf [")", "]", "\x7d", ">"] l.text then
      depth != 0 && leadsToArrow (depth - 1) rest
    else if depth = 0 && l.text == "=>" then true
    else if depth = 0 && isOneOf [";", ",", "="] l.text then false
    else leadsToArrow depth rest

/-- The bracket that some lexemes begin with is closed before the arrow of a function. -/
def areArrowParams (d : Dialect) (lexemes : List Lexeme) : Bool :=
  (closing? 0 (lexemes.drop 1)).any fun behind =>
    let next := (behind.head?.map (·.text)).getD ""
    next == "=>" || (d == .typed && next == ":" && leadsToArrow 0 (behind.drop 1))

def beginsName (text : String) : Bool := isOneOf (["", "\x7b", ",", ";", "\x7d"] ++ modifiers) text

def isMethod (s : State) (n : Near) : Bool :=
  s.place == .object && beginsName n.prev && n.next == "(" &&
    (closing? 0 (n.after.drop 1)).any (·.head?.any (·.text == "\x7b"))

def beginsPattern (s : State) (n : Near) : Bool :=
  s.place == .object && s.outer.head?.any (·.place == .params) && isOneOf ["\x7b", ","] n.prev

def takesNames (s : State) (n : Near) : Bool :=
  beginsPattern s n ||
    (s.place == .params && !s.typed && isOneOf ["(", ",", "\x7d", "]"] n.prev &&
      !(n.text == "class" && n.prev == "\x7d"))

def starters : List String :=
  ["break", "case", "class", "const", "continue", "debugger", "default", "delete", "do", "else",
   "export", "for", "function", "if", "import", "let", "new", "return", "switch", "throw", "try",
   "typeof", "var", "while", "with"]

def introducing : List String :=
  ["abstract", "as", "asserts", "async", "declare", "from", "get", "is", "module", "namespace",
   "of", "satisfies", "set", "static", "type"]

/-- How many operands stand in a row before a place on their line, with no sign between them. -/
def operandsBefore : List Lexeme → Nat
  | [] => 0
  | l :: before =>
    let further := if l.fresh then 0 else operandsBefore before
    match l.kind with
    | .sign => if isOneOf [")", "]"] l.text then 1 else 0
    | .word => if isOneOf (keywords ++ introducing) l.text then 0 else further + 1
    | .number => further + 1
    | .text => if opensCode l then 0 else further + 1
    | _ => 0

/-- A word stands where an operand has just ended on its line, and is passed over. Behind one that
is passed over, the next operand begins. -/
def isPassed (s : State) (n : Near) : Bool :=
  !n.here.fresh && !s.typed && !isOneOf introducing n.prev && operandsBefore n.before % 2 = 1

def isDecorated (before : List Lexeme) : Bool :=
  before.head?.any (·.text == ")") ||
    (before.dropWhile fun l => l.kind == .word || l.text == ".").head?.any (·.text == "@")

/-- A statement begins behind an operand in brackets, or on its line, and is taken for a name. -/
def isMisplaced (s : State) (n : Near) : Bool :=
  isOneOf starters n.text && !s.typed && !isDecorated n.before &&
    !(n.text == "with" && s.head == .names) &&
    ((s.place == .values && behindOperand n.before && n.prev != ")" &&
        !isOneOf (introducing ++ keywords) n.prev) ||
      (s.place == .block && n.prev != ")" && (isPassed s n ||
        (s.here.behindObject && !n.here.fresh))))

/-- A word is a keyword where it stands, which hangs on its neighbours for some. -/
def isKeyword (d : Dialect) (s : State) (n : Near) : Bool :=
  if isPart n || isExternal s n || isMisplaced s n then false
  else if n.text == "let" && (n.next == "let" || !(n.nextIsWord || isOneOf ["[", "\x7b"] n.next))
  then false
  else if isOneOf keywords n.text then
    !(n.text == "void" && s.typed) && !takesNames s n &&
      !((s.inMembers || s.place == .object) && isOneOf ["(", ":", "?"] n.next &&
        !(n.text == "new" && s.inMembers && n.next == "(") &&
        isOneOf (["\x7b", ",", ";"] ++ modifiers) n.prev)
  else match n.text with
    | "async" => (!s.inMembers && !isMethod s n &&
          (n.next == "function" || (n.next == "(" && areArrowParams d n.after))) ||
        (n.nextIsWord && n.next != "in") ||
        ((s.inMembers || s.place == .object) && (n.next == "*" || n.next == "[")) ||
        (d == .typed && n.next == "<")
    | "get" | "set" => (s.inMembers || s.place == .object) && !nameEnds n
    | "static" => s.inMembers && !nameEnds n
    | "of" => (n.prevIsWord || isOneOf ["]", "\x7d"] n.prev) && s.place == .values
    | "from" => nextIsText n
    | "as" => (n.prevIsWord || isOneOf ["*", ")", "]", "\x7d", "!"] n.prev ||
        n.before.head?.any (·.kind != .sign)) &&
        (n.nextIsWord || nextIsText n || (d == .typed && isOneOf ["\x7b", "[", "("] n.next)) &&
        (d == .typed || s.head == .names || s.place == .names)
    | "readonly" => d == .typed && (!nameEnds n || n.next == "[") && !n.endsLine &&
        !(isOneOf ["-", "+"] n.prev && n.prev2 != "\x7b")
    | "abstract" => d == .typed && (!nameEnds n ||
        (s.place == .block && isOneOf ["", ";", "\x7b", "\x7d"] n.prev))
    | "keyof" => d == .typed && (n.nextIsWord || isOneOf ["\x7b", "(", "["] n.next)
    | "satisfies" => d == .typed && behindOperand n.before && !nameEnds n
    | word => d == .typed && isOneOf typedKeywords word && !nameEnds n &&
        !(s.inMembers && isOneOf outerKeywords word) && !(n.endsLine && isOneOf names word) &&
        !(takesNames s n && isOneOf ["\x7d", "]"] n.prev) &&
        (n.nextIsWord || nextIsText n || isOneOf ["\x7b", "[", "*"] n.next)
where
  names : List String :=
    ["declare", "namespace", "private", "protected", "public", "override", "type"]

/-- What comes before the angle bracket that opens generics, if `depth` more are closed. -/
def beforeGenerics : Nat → List Lexeme → List Lexeme
  | _, [] => []
  | depth, l :: before =>
    if l.text == ">" then beforeGenerics (depth + 1) before
    else if l.text == "<" then if depth = 0 then before else beforeGenerics (depth - 1) before
    else beforeGenerics depth before

/-- The word before an opening bracket names a member. -/
def isMemberName (s : State) (n : Near) : Bool :=
  let before := if n.prev == "?" then n.before.drop 1 else n.before
  !s.typed && (s.inMembers || s.place == .object) &&
    match before with
    | [] => false
    | l :: rest =>
      l.text == "]" || l.text == "new" || (l.kind != .sign &&
        (beginsName ((rest.head?.map (·.text)).getD "") ||
          (s.inMembers && (l.fresh || isDecorated rest))))

def withoutGenerics (n : Near) : Near :=
  if n.prev == ">" then { n with before := beforeGenerics 0 (n.before.drop 1) } else n

/-- Round brackets hold parameters. -/
def opensParams (d : Dialect) (s : State) (n : Near) : Bool :=
  let generic := n.prev == ">"
  let n := withoutGenerics n
  let behind := (closing? 0 n.after).getD []
  let next := (behind.head?.map (·.text)).getD ""
  n.prev == "function" || n.prev2 == "function" ||
    (n.prev2 == "*" && (n.back 2).any (·.text == "function")) || next == "=>" ||
    (isMemberName s n && (s.place == .members || isOneOf ["\x7b", ":"] next)) ||
    (s.inMembers && !s.typed && (generic || n.here.fresh ||
      isOneOf ["\x7b", ";", ",", "\x7d"] n.prev)) ||
    (d == .typed && next == ":" && n.prev != "?" && leadsToArrow 0 (behind.drop 1) &&
      (n.prev == "async" || !behindOperand n.before))

/-- What stands behind generics, if a text is the inside of some and the rest. -/
def behindGenerics? : List String → List Lexeme → Option (List Lexeme)
  | _, [] => none
  | opened, l :: rest =>
    let closes (opening : String) : Option (List Lexeme) :=
      if opened.head? == some opening then behindGenerics? (opened.drop 1) rest else none
    if isOneOf ["(", "[", "\x7b", "<"] l.text then behindGenerics? (l.text :: opened) rest
    else if l.text == ")" then closes "("
    else if l.text == "]" then closes "["
    else if l.text == "\x7d" then closes "\x7b"
    else if l.text == ">" then if opened.isEmpty then some rest else closes "<"
    else if l.kind != .sign then behindGenerics? opened rest
    else if isOneOf [",", ".", "|", "&", "?", ":", "=>", "=", "...", "-"] l.text ||
        (l.text == ";" && !opened.isEmpty) then behindGenerics? opened rest
    else none

/-- An operand begins with a lexeme, so that it is not behind generics. -/
def beginsOperand (l : Lexeme) : Bool :=
  match l.kind with
  | .word => !l.fresh && !isOneOf continuing l.text
  | .sign => isOneOf ["!", "~", "++", "--", "["] l.text
  | .text | .number => true
  | _ => false

/-- An angle bracket opens the parameters of a declaration. -/
def opensTypeParams (s : State) (n : Near) : Bool :=
  isOneOf ["function", "class", "interface", "type"] n.prev2 ||
    isOneOf ["function", "class", "new"] n.prev ||
    (n.prev2 == "*" && (n.back 2).any (·.text == "function")) || isMemberName s n ||
    (s.inMembers && !s.typed && n.prev != ")") ||
    (n.prev != "?." && (n.prev == "async" || !behindOperand n.before) &&
      (behindGenerics? [] n.after).any (·.head?.any (·.text == "(")))

def opensAssertion (s : State) (n : Near) : Bool :=
  !s.typed && !behindOperand n.before &&
    (behindGenerics? [] n.after).any fun behind => !behind.head?.any (·.text == ";")

/-- Some lexemes, the nearest first, name a part of what is imported where it is used. -/
def isImported (before : List Lexeme) : Bool :=
  match before.dropWhile fun l => l.kind == .word || l.text == "." with
  | closing :: before =>
    closing.text == ")" && (beforeOpening 0 before).head?.any (·.text == "import")
  | [] => false

def opensTypeArgs (s : State) (n : Near) : Bool :=
  !opensTypeParams s n && !isImported n.before && n.next != ";" && (opensAssertion s n ||
    ((behindOperand n.before || n.prev == "?.") && (s.typed ||
      match behindGenerics? [] n.after with
      | some behind => !behind.head?.any beginsOperand
      | none => false)))

def beforeObject (text : String) : Bool :=
  !isOneOf [")", "]", "\x7d", ";", "\x7b", "=>", ">", ""] text

def objectWords : List String :=
  ["return", "const", "let", "var", "default", "in", "of", "yield", "await", "new", "typeof",
   "case", "delete", "void", "throw", "instanceof", "with", "assert"]

def lacksValue : Nat → List Lexeme → Bool
  | depth, l :: next :: rest =>
    if l.text == "\x7b" then lacksValue (depth + 1) (next :: rest)
    else if l.text == "\x7d" then depth != 0 && lacksValue (depth - 1) (next :: rest)
    else (l.text == "=" && next.text == ",") || lacksValue depth (next :: rest)
  | _, _ => false

/-- What an opening brace encloses. -/
def openedByBrace (d : Dialect) (s : State) (n : Near) : Place :=
  let behindSign := n.before.head?.any (·.kind = .sign)
  if s.place == .typeParams || s.place == .typeArgs then .members
  else if d == .typed && s.typed && (if behindSign then
      !isOneOf [")", "]", ">", "\x7d"] n.prev else isOneOf ["readonly", "keyof", "is", "as",
        "satisfies", "extends"] n.prev) then .members
  else if s.head == .names && isOneOf ["import", "export", "type", ","] n.prev then .names
  else if s.head == .members then .members
  else if s.head == .enumeration then if lacksValue 0 n.after then .object else .enumeration
  else if s.inMembers && isOneOf outerKeywords n.prev then .members
  else if s.here.begins then .block
  else if behindSign && beforeObject n.prev then .object
  else if isOneOf objectWords n.prev && n.prev2 != "." && !(s.typed && n.prev == "void") then
    .object
  else if s.place == .values && (n.prev == "\x7b" || (n.prevIsWord &&
      !isOneOf (keywords ++ typedKeywords ++ introducing) n.prev)) then .object
  else .block

def opened (d : Dialect) (s : State) (n : Near) : Place :=
  match n.text with
  | "\x7b" =>
    if d == .untyped && [some .tag, some .children].contains (markupBehind n.before).head? then
      .values
    else openedByBrace d s n
  | "(" => if opensParams d s n then .params else if s.typed then .types else .values
  | _ => if s.typed then .types else .values

def Place.holdsTypes (p : Place) : Bool := p == .types || p == .typeParams || p == .typeArgs

def Place.isAngled (p : Place) : Bool := p == .typeParams || p == .typeArgs

def State.with (s : State) (here : Level) : State := { s with here := here }

def State.push (s : State) (p : Place) : State :=
  ⟨{ place := p, typed := p.holdsTypes }, s.here :: s.outer⟩

/-- The state behind a closing bracket. A brace ends the declaration whose names it encloses. -/
def State.pop (s : State) (n : Near) : State :=
  let closed := if n.text == ">" then s.here :: s.outer
    else (s.here :: s.outer).dropWhile (·.place.isAngled)
  match closed with
  | here :: outer :: rest =>
    let body := outer.head == .members || outer.head == .enumeration
    if n.text == "\x7d" && (here.place == .block || (here.place == .members && body) ||
        here.place == .enumeration) then
      ⟨{ outer with typed := false, head := .none }, rest⟩
    else ⟨{ outer with behindObject := here.place == .object }, rest⟩
  | _ => s.with { s.here with typed := false, head := .none }

/-- The statement before the one that has begun ends with a type in angle brackets and no
operand. -/
def behindBareType (n : Near) : Bool :=
  (n.back 2).any (·.text == ";") && (n.back 3).any (·.text == ">") &&
    (beforeGenerics 0 (n.before.drop 4)).head?.any (·.text == "=")

/-- The state outside the members and the parameters that something else breaks off. -/
def State.leaveMembers (s : State) : State :=
  match (s.here :: s.outer).dropWhile fun l => l.place == .params || l.place == .members with
  | here :: outer => ⟨{ here with typed := false, head := .none }, outer⟩
  | [] => {}

def annotates (s : State) (n : Near) : Bool :=
  match s.place with
  | .params | .members | .types => true
  | .object => n.prev == ")"
  | .enumeration | .names | .typeParams | .typeArgs => false
  | .block | .values =>
    s.head != .cases && (isOneOf ["let", "const", "var", ","] n.prev2 ||
      isOneOf [")", "]", "\x7d"] n.prev ||
      (n.prev == "!" && isOneOf ["let", "const", "var", ","] (((n.back 2).map (·.text)).getD "")) ||
      (s.place == .values && isOneOf ["(", "[", "\x7b"] n.prev2)) && !behindBareType n

def Level.behindKeyword (s : Level) (n : Near) : Level :=
  match n.text with
  | "class" => { s with typed := false, head := .members }
  | "interface" => { s with typed := true, head := .members }
  | "enum" => { s with typed := false, head := .enumeration }
  | "import" => if s.typed then s else { s with head := .names }
  | "export" => { s with typed := false, head := .names }
  | "type" =>
    if s.place == .names || (s.head == .names &&
        (n.prev == "import" || isOneOf ["\x7b", "*"] n.next)) then s
    else { s with typed := true, head := .alias }
  | "case" | "default" =>
    if s.place == .block && s.head != .names then { s with typed := false, head := .cases }
    else { s with typed := false, head := .none }
  | "implements" | "satisfies" => { s with typed := true }
  | "as" => { s with typed := s.head != .names && s.place != .names }
  | "extends" | "keyof" | "readonly" | "typeof" | "abstract" | "from" | "with" | "static" => s
  | "new" => s
  | "in" => { s with typed := s.place.holdsTypes || (s.place == .values && n.prev2 == "[") }
  | "const" => if s.place.isAngled || s.typed then { s with typed := s.place.isAngled }
    else { s with head := .none }
  | "let" | "var" | "function" | "namespace" | "return" => { s with typed := false, head := .none }
  | _ => { s with typed := s.place.holdsTypes }

def isOptional (s : State) (n : Near) : Bool :=
  isOneOf [":", ")", ",", "=", ";", "]", "\x7d"] n.next ||
    ((s.inMembers || s.place == .object) && !s.typed && isOneOf ["(", "<"] n.next &&
      (beginsName n.prev2 || n.before.head?.any (·.fresh)))

def choosesType (n : Near) : Bool :=
  (n.before.takeWhile fun l => !isOneOf [";", "=", "as", "satisfies"] l.text).any
    (·.text == "extends")

def Level.behindChoice (s : Level) (n : Near) : Level :=
  let typed := s.typed && choosesType n
  { s with typed := typed, choices := typed :: s.choices }

def State.behindColon (d : Dialect) (s : State) (n : Near) : Level :=
  match s.here.choices with
  | typed :: rest => { s.here with typed := typed, choices := rest }
  | [] =>
    let typed := d == .typed && annotates s n
    { s.here with
      typed := typed
      head := if s.head == .cases then .none else s.head
      begins := s.place == .block && !typed }

def State.behindSign (d : Dialect) (s : State) (n : Near) : State :=
  let here := s.here
  match n.text with
  | "(" | "[" => s.push (opened d s n)
  | "\x7b" =>
    if d == .typed && s.place == .params && !s.typed && n.prevIsWord && n.prev2 != "class" then
      s.leaveMembers.push .values
    else s.push (opened d s n)
  | ")" | "]" | "\x7d" => s.pop n
  | "<" =>
    if d == .typed && opensTypeParams s n then s.push .typeParams
    else if d == .typed && opensTypeArgs s n then s.push .typeArgs
    else s
  | ">" => if s.place.isAngled then s.pop n else s
  | ":" => s.with (s.behindColon d n)
  | "," =>
    s.with { here with
      typed := s.place.holdsTypes || (s.typed && (s.head == .members || n.prev == ":"))
      initial := false }
  | ";" =>
    if s.place == .params then s.pop n
    else s.with { here with typed := false, head := .none, choices := [], initial := false }
  | "=>" =>
    if s.head == .alias && s.typed then s
    else s.with { here with typed := s.typed && n.prev == ")", head := .none }
  | "=" =>
    s.with { here with
      typed := s.place.holdsTypes || s.head == .alias
      initial := s.place == .members || here.initial }
  | "?" => if isOptional s n then s else s.with (here.behindChoice n)
  | "." | "?." | "|" | "&" | "-" => s
  | _ => s.with { here with typed := s.place.holdsTypes }

/-- The state before a lexeme: the end of a line ends a statement or a member if the next line does
not continue it. -/
def State.settle (s : State) (n : Near) : State :=
  let here := { s.here with begins := s.here.begins && n.prev == ":" }
  let goesOn := match n.here.kind with
    | .word => isOneOf continuing n.text
    | .sign => !(s.place == .members && (n.text == "@" ||
        (!s.here.initial && isOneOf ["[", "(", "<", "-", "+"] n.text)))
    | _ => true
  if n.here.fresh && !goesOn && (s.place == .block || s.place == .members) &&
      n.before.head?.any (fun l => (endsOperand l && !isOneOf (keywords ++ typedKeywords) l.text) ||
        (s.typed && isOneOf [">", "void"] l.text)) then
    s.with { here with typed := false, head := .none, choices := [], initial := false }
  else s.with here

/-- The word stands behind a string that the end of its line leaves open, where no keyword is
expected. -/
def behindOpenString (n : Near) : Bool :=
  n.before.head?.any fun l => l.kind == .broken && ["\"", "'"].any (l.text.startsWith ·)

def State.step (d : Dialect) (s : State) (n : Near) : State :=
  let s := s.with { s.here with behindObject := false }
  match n.here.kind with
  | .sign => s.behindSign d n
  | .word =>
    if isKeyword d s n && !behindOpenString n then s.with (s.here.behindKeyword n) else s
  | .text =>
    let s := if closesCode n.here then s.pop n else s
    if opensCode n.here then s.push (if s.typed then .types else .values) else s
  | _ => s

/-- A word names a property of an object, a member or an entry of an enumeration. -/
def isProperty (d : Dialect) (s : State) (n : Near) : Bool :=
  n.prev != "@" && match s.place with
    | .object => beginsName n.prev && isOneOf [":", "(", "<"] n.next
    | .members => s.inMembers && !s.typed && !(d == .untyped && n.prev == "accessor") &&
        (nameEnds n || (n.endsLine && isOneOf modifiers n.prev) ||
          (d == .untyped && n.text == "accessor") ||
          (n.here.fresh && isOneOf outerKeywords n.text)) &&
        !isOneOf outerKeywords n.prev && !isOneOf ["=", ":", "=>", "<", "|", "&", "."] n.prev
    | .enumeration => isOneOf ["\x7b", ","] n.prev
    | _ => false

def isShorthand (s : State) (n : Near) : Bool :=
  s.place == .object && isOneOf ["\x7b", ","] n.prev && !(n.prev == "," && n.prev2 == ":") &&
    (isOneOf [",", "\x7d", "="] n.next || (beginsPattern s n && !isOneOf [":", "("] n.next))

def isConstant (s : String) : Bool :=
  2 ≤ s.length && s.toList.head?.any (fun c => c.isUpper || c == '_') &&
    s.toList.all fun c => c.isUpper || c == '_' || c.isDigit

def isLabel (s : State) (n : Near) : Bool :=
  (isOneOf ["break", "continue"] n.prev && !n.here.fresh) ||
    (s.place == .block && n.next == ":" && s.here.choices.isEmpty && s.head != .cases &&
      (n.here.fresh || s.here.begins ||
        isOneOf ["", ";", "\x7b", "\x7d", ")", "else", "do"] n.prev))

def chainStart (n : Near) : String :=
  (((n.before.dropWhile fun l => l.text == "." || (l.kind == .word && l.text != "typeof" &&
    !isOneOf keywords l.text)).head?).map (·.text)).getD ""

/-- The type of what a function returns begins behind some lexemes, the nearest first, maybe with
what the function asserts. -/
def isReturned (before : List Lexeme) : Bool :=
  let before := if before.head?.any (·.text == "asserts") then before.drop 1 else before
  before.head?.any (·.text == "=>") ||
    (before.head?.any (·.text == ":") && before[1]?.any (·.text == ")"))

/-- The name of what a word is where types stand. -/
def typeWord (s : State) (n : Near) : Option String :=
  if isOneOf primitives n.text then some "type.builtin"
  else if n.text == "asserts" && n.nextIsWord then
    if isReturned n.before then none else some "type"
  else if n.text == "is" && (n.nextIsWord || nextIsText n || isOneOf ["\x7b", "("] n.next) then
    if isReturned (n.before.drop 1) then none else some "variable"
  else if isOneOf ["infer", "unique"] n.text && (n.nextIsWord || nextIsText n) then none
  else if n.text == "out" && s.place == .typeParams && n.nextIsWord then
    some (if isOneOf ["<", ","] n.prev then "type" else "variable")
  else if isCapitalized n.text then some "type"
  else if isOneOf ["is", "."] n.next || isOneOf ["typeof", "asserts"] n.prev then some "variable"
  else if s.place == .types && (n.next == ":" || (n.next == "?" && n.next2 == ":")) then
    some (if n.prev == "..." then "variable" else "variable.parameter")
  else some "type"

/-- A word that tells what a declaration is for, without a meaning of its own. -/
def isSilent (d : Dialect) (s : State) (n : Near) : Bool :=
  d == .typed && (n.prev == "declare" && isOneOf ["global", "module"] n.text ||
    (n.text == "module" && (n.nextIsWord || nextIsText n) && (n.here.fresh || beginsName n.prev)) ||
    (n.text == "accessor" && s.inMembers && n.nextIsWord) ||
    (n.text == "require" && n.prev == "=" && s.head == .names))

def isVariance (s : State) (n : Near) : Bool :=
  n.text == "in" && s.place == .typeParams && isOneOf ["<", ","] n.prev

def word (d : Dialect) (s : State) (n : Near) : Option String :=
  if n.text.startsWith "#" then none
  else if behindOpenString n then
    some (if d == .typed && isCapitalized n.text then "type" else "variable")
  else if n.prev == "." && n.prev2 == "new" && n.text == "target" then some "keyword"
  else if n.prev == "." && n.prev2 == "import" then none
  else if d == .untyped && inTag n.before && !isPart n then
    some (if isOneOf ["<", ":"] n.prev || n.next == ":" then "variable" else "property")
  else if isPart n && s.typed then
    some (if isOneOf ["typeof", ")"] (chainStart n) || n.next == "." then "property" else "type")
  else if isPart n then some "property"
  else if isVariance s n then some "type"
  else if isKeyword d s n then some "keyword"
  else if isSilent d s n then none
  else if isProperty d s n then some "property"
  else if isExternal s n then
    some (if isCapitalized n.text && d == .typed then "type" else "variable")
  else if isShorthand s n then if isConstant n.text then some "constant" else none
  else if n.text == "this" && s.typed && !(n.next == "is" && isReturned n.before) &&
      !isOneOf ["asserts", "typeof"] n.prev then
    none
  else if isOneOf ["this", "super", "true", "false", "null", "undefined"] n.text then
    some (if isPassed s n then "variable"
      else if isOneOf ["this", "super"] n.text then "variable.builtin" else "constant.builtin")
  else if isLabel s n || (n.text == "assert" && n.next == "\x7b" && s.head == .names) then none
  else if d == .untyped then
    some "variable"
  else if s.place == .params && !s.typed &&
      (isOneOf (["(", ",", "?", ")"] ++ modifiers) n.prev || n.prev2 == "@" ||
        (n.prev == "=" && isOneOf [",", ")"] n.next)) then
    some (if isCapitalized n.text then "type" else "variable.parameter")
  else if s.typed then
    if isOneOf primitives n.prev && !n.here.fresh && !isOneOf continuing n.text then some "variable"
    else typeWord s n
  else if isCapitalized n.text then some "type"
  else if n.next == "in" && n.prev == "[" && s.outer.head?.any (·.place == .members) then
    some "type"
  else some "variable"

def uniqueMarks (s : State) (n : Near) : List Mark :=
  match n.before.head? with
  | some l =>
    if s.typed && l.text == "unique" && n.text == "symbol" then
      [⟨l.start, n.here.stop, 0, "type.builtin"⟩]
    else []
  | none => []

def changesOptional (n : Near) : Bool :=
  n.prev == "]" && isOneOf ["-", "+"] n.text && n.touchesNext && n.next == "?" && n.next2 == ":"

def sign (d : Dialect) (s : State) (n : Near) : Option String :=
  if isOneOf [";", "?.", ".", ","] n.text then some "punctuation.delimiter"
  else if d == .typed && s.place == .members && changesOptional n then none
  else if isOneOf ["(", ")", "[", "]", "\x7b", "\x7d"] n.text then some "punctuation.bracket"
  else if d == .typed && n.text == "<" && opensTypeArgs s n then some "punctuation.bracket"
  else if d == .typed && n.text == ">" && s.place == .typeArgs then some "punctuation.bracket"
  else if isOneOf operators n.text then some "operator"
  else none

def templateEnd? : Nat → List Lexeme → Option Nat
  | _, [] => none
  | depth, l :: rest =>
    if closesCode l && opensCode l then templateEnd? depth rest
    else if closesCode l then if depth = 0 then some l.stop else templateEnd? (depth - 1) rest
    else if opensCode l then templateEnd? (depth + 1) rest
    else templateEnd? depth rest

def typeTemplateMarks (l : Lexeme) : List Mark :=
  if closesCode l then [l.markAt 0 1 "punctuation.bracket"] else []

/-- The marks of a text: a string, a piece of a template or a regular expression. -/
def textMarks (n : Near) : List Mark :=
  let l := n.here
  let length := l.stop - l.start
  let last := if opensCode l then [l.markAt (length - 2) 2 "punctuation.special"] else []
  if closesCode l then l.markAt 0 1 "punctuation.bracket" :: last
  else if opensCode l then
    match templateEnd? 0 n.after with
    | some stop => ⟨l.start, stop, 0, "string"⟩ :: last
    | none => []
  else if l.text.startsWith "/" then
    let flags := (l.text.toList.reverse.takeWhile (· != '/')).length
    [l.mark "string.special", l.markAt 0 1 "operator", l.markAt (length - flags - 1) 1 "operator"]
  else [l.mark "string"]

def lexemeMarks (d : Dialect) (s : State) (n : Near) : List Mark :=
  match n.here.kind with
  | .word => ((word d s n).map n.here.mark).toList ++ uniqueMarks s n
  | .number => [n.here.mark "number"]
  | .text =>
    if d == .typed && ((s.typed && n.text.startsWith "\x60") ||
        (s.place == .types && closesCode n.here)) then typeTemplateMarks n.here
    else textMarks n
  | .comment | .broken => []
  | .sign => ((sign d s n).map n.here.mark).toList

def marks (d : Dialect) (text : String) : List Mark :=
  walk {} (fun s n => let s := s.settle n; (State.step d s n, lexemeMarks d s n))
    ((lexis d).lexemes text)

end CodeTint.Highlight.Script
