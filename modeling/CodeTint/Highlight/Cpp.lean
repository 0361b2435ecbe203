import CodeTint.Highlight.C

/-!
What is found in the text of a C++ program: only what the language adds to C.
-/

set_option autoImplicit false
set_option relaxedAutoImplicit false

namespace CodeTint.Highlight.Cpp

def rawString (cs : List Char) : Nat :=
  match ["R\"", "LR\"", "u8R\"", "uR\"", "UR\""].find? (Lexis.begins · cs) with
  | some opening =>
    let inside := cs.drop opening.length
    let delimiter := inside.takeWhile fun c => c != '(' && c != '"' && c != '\n'
    match Lexis.untilClosed? (')' :: delimiter ++ ['"']) (inside.drop delimiter.length) with
    | some n => opening.length + delimiter.length + n
    | none => 0
  | none => 0

def special (before : List Lexeme) (cs : List Char) : LexemeKind × Nat :=
  if rawString cs != 0 then (.text, rawString cs) else C.special before cs

def lexis : Lexis :=
  { C.lexis with
    special := special
    quotes := []
    signs := "::" :: C.signs.erase ">>" }

def keywords : List String :=
  ["catch", "class", "co_await", "co_return", "co_yield", "constexpr", "constinit", "consteval",
   "delete", "explicit", "final", "friend", "mutable", "namespace", "noexcept", "new", "override",
   "private", "protected", "public", "template", "throw", "try", "typename", "using", "concept",
   "requires", "virtual"]

/-- The state of the walk: for each open bracket, whether members stand in it, and whether the next
brace opens members. -/
structure State where
  places : List Bool := []
  record : Bool := false
  /-- The statement declares a template, a friend or another name for something, so that the names
  in it are not those of members. -/
  special : Bool := false
  deriving Repr

def introducesParameter (n : Near) : Bool :=
  isOneOf ["<", ","] n.prev ||
    (n.prev == ">" && isOneOf [">", ",", "=", "..."] (if n.next == "..." then n.next else n.next2))

def State.step (s : State) (n : Near) : State :=
  match n.text with
  | "class" | "struct" | "union" => { s with record := !introducesParameter n }
  | "template" | "friend" | "using" | "typedef" => { s with special := true }
  | "\x7b" => { s with places := s.record :: s.places, record := false, special := false }
  | "(" => { s with places := false :: s.places }
  | "\x7d" => { s with places := s.places.drop 1, special := false }
  | ")" => { s with places := s.places.drop 1 }
  | ";" => { s with record := false, special := false }
  | _ => s

/-- What follows the angle bracket that closes the arguments of a template. -/
def behindArguments : Nat → List Lexeme → String
  | _, [] => ""
  | depth, l :: rest =>
    if l.text == "<" then behindArguments (depth + 1) rest
    else if l.text == ">" then
      if depth ≤ 1 then (rest.head?.map (·.text)).getD "" else behindArguments (depth - 1) rest
    else if depth = 0 || isOneOf [";", "\x7b", "&&", "||"] l.text then ""
    else behindArguments depth rest

/-- The lexemes before the qualified name that this word ends, whose parts are joined by colons. -/
def beforeQualified : List Lexeme → List Lexeme
  | colons :: l :: before =>
    if colons.text != "::" then colons :: l :: before
    else if l.kind = .word then beforeQualified before
    else l :: before
  | before => before

/-- The word is the second part of a name of two parts, or the only part behind colons. -/
def isQualified (n : Near) : Bool :=
  n.prev == "::" && !(n.back 2).any (·.text == "::") &&
    !(n.prev2 == ">" && beforeTemplate 0 (n.before.drop 2))
where
  /-- Colons stand before the name of the template whose arguments end here. -/
  beforeTemplate : Nat → List Lexeme → Bool
    | _, [] => false
    | depth, l :: before =>
      if l.text == ">" then beforeTemplate (depth + 1) before
      else if l.text == "<" then
        if depth = 0 then before[1]?.any (·.text == "::") else beforeTemplate (depth - 1) before
      else beforeTemplate depth before

def operandSigns : List String := ["&&", "||", "!", "return"]

def beforeCondition : List String := ["if", "while", "static_assert", "constexpr", "assert"]

/-- The word names a template whose arguments follow, as an operand. -/
def isTemplateOperand (n : Near) : Bool :=
  let before := beforeQualified n.before
  let prev := (before.head?.map (·.text)).getD ""
  let behind := behindArguments 0 n.after
  let statement := n.before.takeWhile fun l => !isOneOf [";", "\x7b", "\x7d"] l.text
  n.next == "<" && (
    (isOneOf (operandSigns ++ ["("]) prev && isOneOf [")", ";", "&&", "||", ","] behind &&
      (prev != "(" || before[1]?.any (isOneOf beforeCondition ·.text)) &&
      !statement.any (·.text == "requires")) ||
    (prev == "=" && isOneOf [";", "&&", "||"] behind &&
      !statement.any (isOneOf ["using", "typedef"] ·.text)))

/-- The qualified name that this word ends is that of a type, to make an object or a base of. -/
def makesObject (n : Near) : Bool :=
  let before := beforeQualified n.before
  before.head?.any (·.text == "new") ||
    (before.head?.any (·.text == ":") && before[1]?.any (·.text == ")"))

def namesConversion (n : Near) : Bool :=
  (beforeQualified n.before).head?.any (·.text == "operator")

/-- The word names what a constructor initializes: it stands behind the colon that follows the
parameters, or behind another such name with its value. -/
def initializes (s : State) (n : Near) : Bool :=
  let statement := n.before.takeWhile fun l => !isOneOf [";", "\x7b", "\x7d"] l.text
  (n.prev == ":" && isOneOf [")", "noexcept"] n.prev2 && !statement.any (·.text == "?")) ||
    (n.prev == "," && isOneOf [")", "\x7d"] n.prev2 && s.places.head? == some true)

/-- The word names a function that is called or defined. -/
def isFunction (s : State) (n : Near) : Bool :=
  (isQualified n && n.next == "(" && !makesObject n && !namesConversion n) ||
    isTemplateOperand n ||
    (n.next == "<" && behindArguments 0 n.after == "(" && !makesObject n) ||
    (n.next == "<" && isOneOf ["(", "\x7b"] (behindArguments 0 n.after) && initializes s n) ||
    (s.places.head? == some true && n.next == "(" && !s.special &&
      !isOneOf ("operator" :: keywords) n.prev &&
      (n.before.head?.any C.isName ||
        isOneOf (["*", "&", "&&", ">", "auto"] ++ C.primitives ++ C.sizes) n.prev))

/-- The word is a part of the name of a namespace that is defined here, or of another name for
one. -/
def definesSpace (n : Near) : Bool :=
  let before := n.before.takeWhile fun l => !isOneOf [";", "\x7b", "\x7d"] l.text
  before.any (·.text == "namespace") && !before.any (·.text == "using")

def isStray (n : Near) : Bool :=
  match n.text with
  | "noexcept" => isOneOf ["(", ",", "=", "!", "||", "return"] n.prev
  | "consteval" => isOneOf ["if", "!"] n.prev
  | _ => n.prev == "template" && n.prev2 == "extern"

def word (s : State) (n : Near) : Option String :=
  if isOneOf keywords n.text then if isStray n then none else some "keyword"
  else if n.text == "auto" then some "type"
  else if n.text == "this" then some "variable.builtin"
  else if n.text == "nullptr" then some "constant"
  else if !C.isName n.here || n.text == "operator" then none
  else if isFunction s n then some "function"
  else if isCapitalized n.text && (n.next == "::" || definesSpace n) then some "type"
  else none

def lexemeMarks (s : State) (n : Near) : List Mark :=
  match n.here.kind with
  | .word => ((word s n).map n.here.mark).toList
  | .text => if rawString n.text.toList != 0 then [n.here.mark "string"] else []
  | _ => []

def marks (text : String) : List Mark :=
  walk {} (fun s n => (State.step s n, lexemeMarks s n))
    ((lexis.lexemes text).filter (·.kind != .comment))

end CodeTint.Highlight.Cpp
