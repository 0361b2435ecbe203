import CodeTint.Highlight.Lexeme

/-!
What is found in the text of a Java program. A name is known for a type by what stands around it.
-/

set_option autoImplicit false
set_option relaxedAutoImplicit false

namespace CodeTint.Highlight.Java

/-- The state of the walk. -/
structure State where
  generics : Nat := 0
  typed : Bool := false
  modular : Bool := false
  deriving Repr

/-- The length of a text block behind its first quotes, with the last ones. A backslash takes the
next character along. -/
def blockEnd? : List Char → Option Nat
  | [] => none
  | '\\' :: _ :: rest => (blockEnd? rest).map (· + 2)
  | '"' :: '"' :: '"' :: _ => some 3
  | _ :: rest => (blockEnd? rest).map (· + 1)

def textBlock (cs : List Char) : Nat :=
  if Lexis.begins "\"\"\"" cs then ((blockEnd? (cs.drop 3)).map (· + 3)).getD 0 else 0

/-- What comes before words, numbers and signs: words with other characters than letters in them,
and strings, which may go over lines. One that no quote closes goes to the end of the text. -/
def special (_ : List Lexeme) (cs : List Char) : LexemeKind × Nat :=
  let text := if Lexis.begins "\"\"\"" cs then textBlock cs
    else max (Lexis.quotedBy '"' false cs) (Lexis.quotedBy '\x27' true cs)
  match ["@interface", "non-sealed"].find? (Lexis.begins · cs) with
  | some word => (.word, word.length)
  | none => if text = 0 && cs.head? == some '"' then (.broken, cs.length) else (.text, text)

/-- The lexemes of a program. Closing angle brackets are signs of their own, as types nest. -/
def lexis : Lexis where
  lineComments := ["//"]
  blockComment := some ("/*", "*/")
  isWordStart := fun c => Text.beginsName c || c == '$'
  isWordChar := fun c => Text.continuesName c || c == '$' || c == '¢'
  special := special
  number := Lexis.pointedNumber ['f', 'F', 'd', 'D']
  signs := ["...", "->", "::", "++", "--", "+=", "-=", "*=", "/=", "%=", "&=", "|=", "^=", "==",
    "!=", "<=", ">=", "&&", "||", "<<"]

def keywords : List String :=
  ["abstract", "assert", "break", "case", "catch", "class", "continue", "default", "do", "else",
   "enum", "extends", "final", "finally", "for", "if", "implements", "import", "instanceof",
   "interface", "native", "new", "non-sealed", "package", "private", "protected", "public",
   "return", "static", "strictfp", "switch", "synchronized", "throw", "throws", "transient", "try",
   "volatile", "while"]

def primitives : List String :=
  ["boolean", "byte", "short", "int", "long", "char", "float", "double", "void"]

def inCase (n : Near) : Bool :=
  (n.before.find? fun l => isOneOf ["case", ":", "->", ";", "\x7b", "\x7d"] l.text).any
    (·.text == "case")

def beforeOperand (n : Near) : Bool :=
  n.after.head?.any fun l => match l.kind with
    | .sign => isOneOf ["-", "+", "!", "~"] l.text ||
        (isOneOf ["++", "--"] l.text && !isOneOf [";", ")"] n.next2)
    | _ => true

/-- A word is a keyword where it stands. -/
def isKeyword (n : Near) : Bool :=
  (isOneOf keywords n.text && !(n.text == "default" && n.prev == ",") &&
      !(n.text == "case" && !n.before.any (·.text == "switch"))) || match n.text with
    | "record" => n.prev != "." && n.nextIsWord && isOneOf ["(", "<"] n.next2
    | "sealed" => n.prev != "." && isOneOf ["class", "interface", "abstract", "public", "private",
        "protected", "static"] n.next
    | "permits" => (n.prevIsWord || n.prev == ">") && n.nextIsWord
    | "yield" => isOneOf ["\x7b", ";", "\x7d", ":", "->", ")"] n.prev && beforeOperand n
    | "when" => inCase n && (n.prevIsWord || n.prev == ")") && !isOneOf [",", "->", ":", ")"] n.next
    | _ => false

/-- A word is a keyword in the declaration of a module. -/
def isModuleKeyword (s : State) (n : Near) : Bool :=
  n.nextIsWord && match n.text with
    | "module" => isOneOf ["", ";", "open", "\x7d"] n.prev && !isOneOf ["=", ";"] n.next2
    | "open" => n.next == "module"
    | "requires" | "exports" | "opens" | "uses" | "provides" =>
      s.modular && isOneOf ["\x7b", ";"] n.prev
    | "to" | "with" | "transitive" => s.modular
    | _ => false

def isName (l : Lexeme) : Bool :=
  l.kind == .word && !isOneOf (["true", "false", "null", "this", "super"] ++ keywords ++ primitives)
    l.text

/-- What follows the angle bracket that closes the arguments of a type, if they are some. -/
def behindArguments : Nat → List Lexeme → Option Lexeme
  | _, [] => none
  | depth, l :: rest =>
    if l.text == "<" then behindArguments (depth + 1) rest
    else if l.text == ">" then if depth ≤ 1 then rest.head? else behindArguments (depth - 1) rest
    else if depth != 0 &&
        (l.kind = .word || isOneOf [",", ".", "?", "[", "]", "&", "@"] l.text) then
      behindArguments depth rest
    else none

/-- The lexemes before the round bracket that opens `depth` deep. -/
def beforeRound : Nat → List Lexeme → List Lexeme
  | _, [] => []
  | depth, l :: before =>
    if isOneOf [")", "]", "\x7d"] l.text then beforeRound (depth + 1) before
    else if isOneOf ["(", "[", "\x7b"] l.text then
      if depth = 0 then if l.text == "(" then before else [] else beforeRound (depth - 1) before
    else beforeRound depth before

def behindRound : Nat → List Lexeme → Option Lexeme
  | _, [] => none
  | depth, l :: rest =>
    if isOneOf ["(", "[", "\x7b"] l.text then behindRound (depth + 1) rest
    else if isOneOf [")", "]", "\x7d"] l.text then
      if depth = 0 then rest.head? else behindRound (depth - 1) rest
    else behindRound depth rest

/-- The place is among what a method is called with, where nothing is declared. -/
def inCall (n : Near) : Bool :=
  match beforeRound 0 n.before with
  | name :: l :: _ =>
    isName name && isOneOf [";", "\x7b", "\x7d", "=", ".", "return"] l.text &&
      !(behindRound 0 n.after).any (isOneOf ["\x7b", "throws", "->"] ·.text)
  | _ => false

def hasArguments (n : Near) : Bool :=
  n.next == "<" && match behindArguments 0 n.after with
    | some l => (l.kind = .word && !inCall n) ||
        isOneOf ["(", "[", ">", ",", ")", "\x7b", ".", "...", "&", "::"] l.text
    | none => false

/-- What stands before is the type of a parameter that is not the first one. -/
def behindLaterType : Nat → List Lexeme → Bool
  | _, [] => false
  | depth, l :: before =>
    if isOneOf [">", "]", ")"] l.text then behindLaterType (depth + 1) before
    else if isOneOf ["<", "[", "("] l.text then
      depth != 0 && behindLaterType (depth - 1) before
    else if depth = 0 && l.text == "," then true
    else !isOneOf [";", "\x7b", "\x7d"] l.text && behindLaterType depth before

def isParameter (n : Near) : Bool :=
  n.before.head?.any (fun l => isName l || isOneOf primitives l.text || l.text == ">" ||
    l.text == "]") && behindLaterType 0 n.before

/-- A name in round brackets is a type that what follows is turned into. -/
def isCast (n : Near) : Bool :=
  n.next == ")" && n.after[1]?.any fun l => match l.kind with
    | .sign => isOneOf ["(", "!", "~"] l.text
    | .word => isName l ||
        isOneOf ["this", "super", "new", "switch", "true", "false", "null"] l.text
    | _ => true

def behindCast (before : List Lexeme) : Bool :=
  before.head?.any (·.text == "(") && !before[1]?.any fun l =>
    isName l || isOneOf ["if", "while", "switch", "for", "synchronized", "catch", "try", ")", "]",
      ">", "this", "super"] l.text

/-- A name in round brackets behind others is a type too if an operand follows that no bracket or
sign begins. -/
def isNextCast (before : List Lexeme) (n : Near) : Bool :=
  before.head?.any (·.text == "(") && before[1]?.any (·.text == ")") && isCast n &&
    n.after[1]?.any (·.kind != .sign)

/-- What follows the pairs of square brackets that some lexemes begin with, if there is one. -/
def behindPairs : List Lexeme → Option (List Lexeme)
  | l :: m :: rest =>
    if l.text == "[" && m.text == "]" then some ((behindPairs rest).getD rest) else none
  | _ => none

def followsType (n : Near) : Bool :=
  (n.after.head?.any isName && !(n.next == "when" && inCase n)) || isOneOf ["...", "this"] n.next ||
    hasArguments n || match behindPairs n.after with
      | some rest =>
        !rest.head?.any (fun l => isOneOf ["=", ";", ",", ":"] l.text) &&
          !n.before.head?.any fun l => isName l || isOneOf primitives l.text
      | none => false

def opensJoined : List Lexeme → Bool
  | l :: rest =>
    if l.text == "(" then behindCast (l :: rest)
    else (isName l || isOneOf ["&", "."] l.text) && opensJoined rest
  | [] => false

def inCatch (before : List Lexeme) : Bool :=
  let types := fun (l : Lexeme) => isName l || isOneOf ["|", ".", "final"] l.text
  match (before.dropWhile types).map (·.text) with
  | "(" :: "catch" :: _ => true
  | _ => false

def lastPart : Nat → Near → Near
  | 0, n => n
  | fuel + 1, n => match n.after with
    | dot :: l :: rest =>
      if dot.text == "." && isName l then lastPart fuel ⟨dot :: n.here :: n.before, l, rest⟩ else n
    | _ => n

def beforeName : List Lexeme → List Lexeme
  | dot :: l :: before =>
    if dot.text == "." && isName l then beforeName before else dot :: l :: before
  | before => before

/-- A statement begins with a dotted name that ends in the word for making an object, as if it were
a type, and a name behind it that is declared. -/
def declaresBehindNew (n : Near) : Bool :=
  match beforeName n.before with
  | [] => true
  | l :: _ => isOneOf [";", "\x7b", "\x7d"] l.text

def behindOperand : List Lexeme → Bool
  | [] => false
  | l :: before =>
    (isName l && !(beforeName before).head?.any (·.text == "@")) ||
      isOneOf ["this", "super", "true", "false", "null"] l.text || l.kind == .number ||
      l.kind == .text

def beforeOthers : List String :=
  ["class", "interface", "@interface", "enum", "record", "package", "import", "@", "."]

def beforeTypes : List String := ["new", "extends", "implements", "throws", "permits"]

def isType (s : State) (n : Near) : Bool :=
  let before := beforeName n.before
  let prev := (before.head?.map (·.text)).getD ""
  let last := lastPart n.after.length n
  let plain := (followsType last && !behindOperand before) || (behindCast before && isCast last) ||
    isNextCast before last
  let declares := last.next == "." && last.next2 == "new" && declaresBehindNew n
  !s.modular && (!isOneOf beforeOthers prev || (prev == "." && n.prev2 == ">")) &&
    if prev == "static" then s.typed || plain
    else s.generics != 0 || s.typed || plain || declares ||
      (isOneOf beforeTypes prev && !(prev == "new" && isNewPart before)) ||
      (prev == "instanceof" && last.next != "(") || (last.next == "." && last.next2 == "class") ||
      (prev == "." && n.prev2 == ">") || (last.next == "|" && inCatch before) ||
      (last.next == "&" && behindCast before && joinsCast last.after) ||
      (prev == "&" && isCast last && opensJoined before) || (prev == "|" && n.nextIsWord)
where
  /-- The word for making an object is taken for a type here. -/
  isNewPart : List Lexeme → Bool
    | l :: dot :: before => dot.text == "." && declaresBehindNew ⟨dot :: before, l, []⟩
    | _ => false
  /-- Types joined with each other lead to the bracket that closes a cast. -/
  joinsCast : List Lexeme → Bool
    | l :: rest =>
      if l.text == ")" then rest.head?.any fun l => isName l || l.text == "("
      else (isName l || isOneOf ["&", "."] l.text) && joinsCast rest
    | [] => false

def State.step (s : State) (n : Near) : State :=
  match n.text with
  | "<" =>
    if s.generics != 0 || hasArguments { n with after := n.here :: n.after } || !n.prevIsWord then
      { s with generics := s.generics + 1 }
    else s
  | ">" => { s with generics := s.generics - 1 }
  | "implements" | "throws" | "permits" => { s with typed := true }
  | "extends" => { s with typed := s.generics = 0 }
  | "module" => { s with modular := s.modular || isModuleKeyword s n }
  | "\x7b" | ";" | "(" | ")" | "->" => { s with typed := false, generics := 0 }
  | "\x7d" => { s with modular := false }
  | _ => s

def word (s : State) (n : Near) : Option String :=
  if isOneOf ["true", "false", "null"] n.text then some "constant.builtin"
  else if n.text == "this" then some (if isParameter n then "variable" else "variable.builtin")
  else if n.text == "super" then some "function.builtin"
  else if isOneOf primitives n.text then some "type.builtin"
  else if n.text == "@interface" then none
  else if n.text == "new" && n.prev == "." && declaresBehindNew n then some "type"
  else if isKeyword n || isModuleKeyword s n then some "keyword"
  else if isType s n then some "type"
  else some "variable"

def lexemeMarks (s : State) (n : Near) : List Mark :=
  match n.here.kind with
  | .word => ((word s n).map n.here.mark).toList
  | .number =>
    if ["0b", "0B"].any (Lexis.begins · n.text.toList) then [] else [n.here.mark "number"]
  | .text => [n.here.mark "string"]
  | .comment | .broken => []
  | .sign => if n.text == "@" then [n.here.mark "operator"] else []

def marks (text : String) : List Mark :=
  walk {} (fun s n => (State.step s n, lexemeMarks s n)) (lexis.lexemes text)

end CodeTint.Highlight.Java
