import CodeTint.Highlight.Lexeme

/-!
What is found in the text of a page with PHP code between tags. The text outside the tags is passed
over.
-/

set_option autoImplicit false
set_option relaxedAutoImplicit false

namespace CodeTint.Highlight.Php

inductive Place where
  | code | members | params | caught | attributes | hooks
  deriving DecidableEq, Repr

/-- Where the walk is between two brackets. -/
structure Level where
  place : Place := .code
  record : Bool := false
  statement : String := ""
  /-- A value stands here, behind the name that it belongs to. -/
  value : Bool := false
  returns : Bool := false
  deriving Repr

structure State where
  here : Level := {}
  outer : List Level := []
  deriving Repr

def State.place (s : State) : Place := s.here.place

def State.statement (s : State) : String := s.here.statement

def lowered (s : String) : String := String.ofList (s.toList.map Char.toLower)

def isTag (l : Lexeme) : Bool :=
  l.kind == .text && isOneOf ["<?php", "<?=", "<?", "?>"] (lowered l.text)

def outside : List Char → Nat
  | [] => 0
  | c :: rest => if Lexis.begins "<?" (c :: rest) then 0 else outside rest + 1

def blanks : List Char := ['\u00a0', '\u200b', '\u2060', '\ufeff']

def isNameChar (c : Char) : Bool :=
  c.isAlphanum || c == '_' || (0x80 ≤ c.toNat && c.toNat < 0x10000 && !blanks.contains c)

/-- The length of code up to the brace that closes it, if `depth` more are open. -/
def codeLength : Nat → Nat → List Char → Nat
  | 0, _, _ => 0
  | _, _, [] => 0
  | fuel + 1, depth, c :: rest =>
    if c == '\x7d' then if depth = 0 then 0 else codeLength fuel (depth - 1) rest + 1
    else if c == '\x7b' then codeLength fuel (depth + 1) rest + 1
    else if c == '\x27' || c == '"' then
      let text := max 1 (Lexis.quotedBy c false (c :: rest))
      codeLength fuel depth ((c :: rest).drop text) + text
    else codeLength fuel depth rest + 1

/-- The length of what follows a variable in a string and belongs to it: one property or one
index. -/
def accessLength (cs : List Char) : Nat :=
  let member (letters : Nat) : Nat :=
    let name := ((cs.drop letters).takeWhile isNameChar).length
    if name = 0 then 0 else letters + name
  if Lexis.begins "->" cs then member 2
  else if Lexis.begins "?->" cs then member 3
  else if Lexis.begins "[" cs then
    let inside := (cs.drop 1).takeWhile (· != ']')
    if (cs.drop (inside.length + 1)).isEmpty || inside.any (·.isWhitespace) then 0
    else inside.length + 2
  else 0

/-- The code in a string that goes on at `pos`: each piece with its place and the number of signs
around it that are no code. -/
def codePieces : Nat → Nat → List Char → List (Nat × List Char × Nat)
  | 0, _, _ => []
  | _, _, [] => []
  | fuel + 1, pos, c :: rest =>
    if c == '\\' then codePieces fuel (pos + 2) (rest.drop 1)
    else if c == '\x7b' && rest.head? == some '$' then
      let n := codeLength rest.length 0 rest
      (pos + 1, rest.take n, 1) :: codePieces fuel (pos + 2 + n) (rest.drop (n + 1))
    else if c == '$' && rest.head? == some '\x7b' then
      let n := 2 + codeLength rest.length 0 (rest.drop 1)
      (pos, c :: rest.take n, 0) :: codePieces fuel (pos + 1 + n) (rest.drop n)
    else
      let name := rest.takeWhile isNameChar
      if c == '$' && name.head?.any fun d => !d.isDigit then
        let n := name.length + accessLength (rest.drop name.length)
        (pos, c :: rest.take n, 0) :: codePieces fuel (pos + 1 + n) (rest.drop n)
      else codePieces fuel (pos + 1) rest

/-- The length of a string that nothing closes, behind its first characters: up to the end of the
last code in it. -/
def openLength (head : Nat) (cs : List Char) : Nat :=
  match (codePieces (cs.length + 1) head (cs.drop head)).getLast? with
  | some (start, code, signs) => start + code.length + signs
  | none => head

/-- The length of the lines up to one that begins with a closing word, with that word, if it
comes. -/
def heredocLines? (closing : List Char) : Nat → List Char → Option Nat
  | 0, _ => none
  | _, [] => none
  | fuel + 1, cs =>
    let gap := (cs.takeWhile fun c => c == ' ' || c == '\t').length
    if closing.isPrefixOf (cs.drop gap) then some (gap + closing.length)
    else
      let line := (cs.takeWhile (· != '\n')).length + 1
      (heredocLines? closing fuel (cs.drop line)).map (line + ·)

/-- The length of the first line of a text between two equal words, with its line break, and that
of the rest, if the second word comes. -/
def heredoc? (cs : List Char) : Option (Nat × Option Nat) :=
  if !Lexis.begins "<<<" cs then none
  else
    let head := ((cs.drop 3).takeWhile (· != '\n'))
    let closing := head.filter fun c => c.isAlphanum || c == '_'
    if closing.isEmpty then none
    else
      let before := 3 + head.length + 1
      some (before, heredocLines? closing cs.length (cs.drop before))

def heredoc (cs : List Char) : Nat :=
  match heredoc? cs with
  | some (first, some rest) => first + rest
  | some (first, none) =>
    if Lexis.begins "<<<'" cs then cs.length else min cs.length (openLength first cs)
  | none => 0

/-- The length of a string behind its opening quote, with the quote that closes it. A quote in
code does not. -/
def closedLength? : Nat → List Char → Option Nat
  | 0, _ => none
  | _, [] => none
  | fuel + 1, c :: rest =>
    let code := codeLength rest.length 0 rest
    if c == '"' then some 1
    else if c == '\\' then (closedLength? fuel (rest.drop 1)).map (2 + ·)
    else if c == '\x7b' && rest.head? == some '$' && isOneLine (rest.take (code + 1)) then
      (closedLength? fuel (rest.drop (code + 1))).map (code + 2 + ·)
    else (closedLength? fuel rest).map (1 + ·)
where
  isOneLine (code : List Char) : Bool :=
    code.getLast? == some '\x7d' && !code.contains '\n' && !code.contains ';'

def doubleQuoted? : List Char → Option Nat
  | '"' :: rest => (closedLength? rest.length (Lexis.beforeNull rest)).map (1 + ·)
  | _ => none

/-- The length of a string in double quotes, or up to the last code in one that is left open. -/
def quoted (cs : List Char) : Nat :=
  let length := openLength 1 cs
  match doubleQuoted? cs with
  | some closed => closed
  | none => if cs.head? == some '"' && length != 1 then length else 0

def isInside (before : List Lexeme) : Bool := (before.find? isTag).any (·.text != "?>")

/-- The length of the rest of a comment, up to the end of the line or of the code. A question mark
takes the next character along, or the end of the line. -/
def commentRest : List Char → Nat
  | '?' :: '\n' :: _ => 2
  | '?' :: '\r' :: '\n' :: _ => 3
  | '?' :: '\r' :: _ | '?' :: '>' :: _ | '?' :: '\x00' :: _ | ['?'] | [] => 0
  | '?' :: _ :: rest => commentRest rest + 2
  | c :: rest => if c == '\n' || c == '\r' || c == '\x00' then 0 else commentRest rest + 1

/-- The length of a comment that takes one line, or 0. A sign of attributes is none. -/
def lineComment : List Char → Nat
  | '/' :: '/' :: rest => commentRest rest + 2
  | '#' :: '[' :: _ => 0
  | '#' :: c :: rest => if c == '?' then 1 else commentRest (c :: rest) + 1
  | ['#'] => 1
  | _ => 0

/-- What comes before words, numbers and signs in code: comments and strings. -/
def inCode (cs : List Char) : LexemeKind × Nat :=
  if lineComment cs != 0 then (.comment, lineComment cs)
  else (.text, if Lexis.begins "?>" cs then 2
    else if heredoc cs != 0 then heredoc cs
    else if Lexis.begins "'" cs then
      let length := Lexis.quotedBy '\x27' false cs
      if length = 0 then cs.length else length
    else max (quoted cs) (Lexis.quotedBy '\x60' false cs))

/-- What comes before words, numbers and signs: tags, the text outside of them, comments and
strings. -/
def special (before : List Lexeme) (cs : List Char) : LexemeKind × Nat :=
  let start := (cs.take 5).map Char.toLower
  if isInside before then inCode cs
  else (.text, match ["<?php", "<?=", "<?"].find? (Lexis.begins · start) with
    | some tag => tag.length
    | none => outside cs)

def lexis : Lexis where
  blockComment := some ("/*", "*/")
  hasComments := isInside
  blanks := blanks
  isWordStart := fun c => isNameChar c && !c.isDigit
  isWordChar := isNameChar
  special := special
  number := Lexis.pointedNumber []
  signs := ["<=>", "===", "!==", "**=", "...", "??=", "?->", "->", "=>", "::", "++", "--", "+=",
    "-=", "*=", "/=", "%=", ".=", "&=", "|=", "^=", "==", "!=", "<>", "<=", ">=", "&&", "||", "??",
    "<<", ">>", "**"]

def codeLexis : Lexis :=
  { lexis with hasComments := fun _ => true, special := fun _ cs => inCode cs }

def keywords : List String :=
  ["and", "as", "break", "case", "catch", "class", "clone", "const", "continue", "declare",
   "default", "do", "echo", "else", "elseif", "enddeclare", "endfor", "endforeach", "endif",
   "endswitch", "endwhile", "enum", "exit", "extends", "finally", "fn", "for", "foreach",
   "function", "global", "goto", "if", "implements", "include", "include_once", "instanceof",
   "insteadof", "interface", "match", "namespace", "new", "or", "print", "require",
   "require_once", "return", "switch", "throw", "trait", "try", "use", "while", "xor", "yield",
   "abstract", "final", "readonly", "static", "public", "protected", "private"]

def primitives : List String :=
  ["array", "callable", "iterable", "bool", "float", "int", "string", "void", "mixed", "object",
   "null", "false", "true"]

def castTypes : List String :=
  ["array", "binary", "bool", "boolean", "double", "float", "int", "integer", "object", "string",
   "unset"]

def modifiers : List String :=
  ["abstract", "final", "readonly", "static", "public", "protected", "private", "var"]

def isAnyCase (words : List String) (s : String) : Bool :=
  words.contains (lowered s)

/-- The lexemes before the bracket that opens `depth` deep. -/
def beforeOpening : Nat → List Lexeme → List Lexeme
  | _, [] => []
  | depth, l :: before =>
    if isOneOf [")", "]", "\x7d"] l.text then beforeOpening (depth + 1) before
    else if isOneOf ["(", "[", "\x7b"] l.text then
      if depth = 0 then before else beforeOpening (depth - 1) before
    else beforeOpening depth before

/-- Some lexemes, the nearest first, lead to the parameters of a function. -/
def leadsToParams (before : List Lexeme) : Bool :=
  let texts := (before.take 3).map (·.text)
  match texts with
  | "&" :: word :: _ => isAnyCase ["function", "fn"] word
  | name :: "&" :: word :: _ =>
    isAnyCase ["function", "fn"] word || isAnyCase ["function", "fn"] name
  | name :: word :: _ =>
    isAnyCase ["function", "fn"] name || (isAnyCase ["function"] word && name != "(")
  | [word] => isAnyCase ["function", "fn"] word
  | [] => false

/-- What an opening bracket encloses. -/
def opened (s : State) (n : Near) : Place :=
  match n.text with
  | "(" =>
    if isAnyCase ["catch"] n.prev then .caught
    else if isOneOf [Place.params, .caught] s.place && !s.here.value then s.place
    else if leadsToParams n.before || s.place == .hooks then .params
    else .code
  | "[" => if n.prev == "#" then .attributes else .code
  | _ =>
    if s.here.record then .members
    else if s.place == .members && isAnyCase modifiers s.statement && n.prev != ")" &&
        !s.here.returns then .hooks
    else .code
where
  isOneOf (places : List Place) (p : Place) : Bool := places.contains p

def State.push (s : State) (n : Near) : State :=
  let here := if n.text == "\x7b" && n.prev != "\\" then
      { s.here with record := false, returns := false }
    else s.here
  let statement := if n.text == "\x7b" && n.prev == "\\" then s.statement else ""
  ⟨{ place := opened s n, statement := statement }, here :: s.outer⟩

def State.pop (s : State) (n : Near) : State :=
  match s.outer with
  | here :: outer =>
    let ends := n.text == "\x7d" && (here.statement != "use" || here.place == .members)
    ⟨if ends then { here with statement := "", value := false, returns := false } else here, outer⟩
  | [] => { s with here := { s.here with statement := "" } }

/-- The level behind a colon: the type of what a function returns follows its parameters, and that
of the cases follows the name of an enumeration. -/
def Level.behindColon (s : Level) (n : Near) : Level :=
  let outer := if n.prev == ")" then beforeOpening 0 (n.before.drop 1) else []
  let outer := if outer.head?.any (isAnyCase ["use"] ·.text) then
      beforeOpening 0 (outer.drop 2) else outer
  { s with returns := leadsToParams outer || s.statement == "enum" }

def State.step (s : State) (n : Near) : State :=
  let here := s.here
  match n.here.kind with
  | .word =>
    let isName := n.prev == "$" || (isAnyCase ["namespace"] n.text && n.next == "\\")
    let here := if here.statement == "" && !isName then
        { here with statement := lowered n.text }
      else if here.statement == "" then { here with statement := "$" }
      else here
    if isAnyCase ["class", "interface", "trait"] n.text && !isOneOf ["::", "->"] n.prev &&
        n.prev != "function" then { s with here := { here with record := true } }
    else if n.text == "enum" && n.nextIsWord then
      { s with here := { here with record := true, statement := "enum" } }
    else if isAnyCase ["implements"] n.text then { s with here := { here with returns := false } }
    else { s with here := here }
  | .sign => match n.text with
    | "(" | "[" | "\x7b" => s.push n
    | ")" | "]" | "\x7d" => s.pop n
    | ";" => { s with here := { here with statement := "", value := false, returns := false } }
    | "=" => { s with here := { here with value := true, returns := false } }
    | "=>" => { s with here := { here with value := true, returns := false } }
    | "," => { s with here := { here with value := false, returns := false } }
    | ":" => { s with here := here.behindColon n }
    | _ => s
  | .text => if isTag n.here then { s with here := { here with statement := "" } } else s
  | _ => s

def State.inClass (s : State) : Bool := s.place == .members

def State.imports (s : State) : Bool := s.statement == "use" && !s.inClass

def isTyped (s : State) (n : Near) : Bool :=
  if n.prev == "$" then false
  else s.here.returns ||
    match s.place with
    | .params => !s.here.value
    | .caught => true
    | .members =>
      !s.here.value && n.next != "(" && n.next != "=" &&
        (s.statement == "const" || isAnyCase modifiers s.statement)
    | _ => false

def isConstant (s : String) : Bool :=
  let cs := s.toList.dropWhile (· == '_')
  s.length - cs.length ≤ 1 && 2 ≤ cs.length && cs.head?.any Char.isUpper &&
    cs.all fun c => c.isUpper || c == '_' || c.isDigit

/-- The name of what a word is that stands in a qualified name or alone in an import. -/
def qualified? (s : State) (n : Near) : Option String :=
  if s.statement == "namespace" || n.next == "\\" then some "module"
  else if s.imports then some "type"
  else none

/-- The lexemes of the qualified name that ends here, but for the last one, the last of them
first. -/
def qualifier : List Lexeme → List Lexeme
  | slash :: l :: before =>
    if slash.text != "\\" then []
    else if l.kind = .word && l.stop = slash.start then slash :: l :: qualifier before
    else [slash]
  | [slash] => if slash.text == "\\" then [slash] else []
  | [] => []

def beforeName (n : Near) : String :=
  ((n.before.drop (qualifier n.before).length).head?.map (·.text)).getD ""

/-- A word of capital letters, digits and underscores between two underscores on either side. -/
def isMagic (s : String) : Bool :=
  let inside := (s.toList.drop 2).take (s.length - 4)
  s.startsWith "__" && s.endsWith "__" && 2 ≤ inside.length && inside.head?.any Char.isUpper &&
    inside.all fun c => c.isUpper || c == '_' || c.isDigit

def isMember (n : Near) : Bool := isOneOf ["->", "?->"] n.prev

/-- The name of what a word of no fixed meaning is. -/
def plainWord (s : State) (n : Near) : Option String :=
  if n.prev == "function" && s.inClass && n.text == "__construct" then some "constructor"
  else if isAnyCase ["new"] (beforeName n) then some "constructor"
  else if isConstant n.text || (n.next == "=" && !s.here.value &&
      (s.statement == "const" || (s.inClass && isAnyCase modifiers s.statement))) then
    some "constant"
  else if isMagic n.text then some "constant.builtin"
  else if s.place == .attributes then none
  else if isDefined n then some (if s.inClass then "function.method" else "function")
  else if n.next == "::" && (n.next2 == "\x7b" || n.after[2]?.any (·.text == "(")) then some "type"
  else if n.next == "(" && !isAnyCase ["unset"] n.text && s.place != .hooks then
    if n.prev == "?->" then none
    else some (if isMember n then "function.method" else "function")
  else if isTyped s n && !isMember n && n.prev != "::" && n.text != "never" && n.next != "::" then
    some "type"
  else if n.prev == "->" then some "property"
  else none
where
  /-- The word is the name of a function that is defined here. -/
  isDefined (n : Near) : Bool :=
    isAnyCase ["function"] n.prev || (n.prev == "&" && isAnyCase ["function"] n.prev2)

def isName (n : Near) : Bool :=
  isMember n || n.prev == "::" || (isOneOf ["(", ","] n.prev && n.next == ":") ||
    (isAnyCase ["function"] n.prev && n.next == "(" && !isAnyCase ["use"] n.text) ||
    (isAnyCase ["const"] n.prev && n.next == "=") || isAnyCase ["new"] (beforeName n) &&
      !isAnyCase ["class"] n.text

def statementWords : List String :=
  ["break", "case", "continue", "declare", "default", "do", "echo", "for", "foreach", "global",
   "goto", "if", "return", "switch", "try", "while"]

/-- A statement begins behind an operand in a list, and is taken for a name. -/
def isStray (n : Near) : Bool :=
  isAnyCase statementWords n.text && isOneOf ["(", "["] (opening 0 n.before) &&
    n.before.head?.any fun l => match l.kind with
      | .sign => isOneOf [")", "]"] l.text
      | .word => !isAnyCase keywords l.text
      | _ => true
where
  opening : Nat → List Lexeme → String
    | _, [] => ""
    | depth, l :: before =>
      if isOneOf [")", "]", "\x7d"] l.text then opening (depth + 1) before
      else if isOneOf ["(", "[", "\x7b"] l.text then
        if depth = 0 then l.text else opening (depth - 1) before
      else opening depth before

def word (s : State) (n : Near) : Option String :=
  if n.prev == "$" && n.touchesPrev then
    some (if n.text == "this" then "variable.builtin" else "variable")
  else if isMember n || n.prev == "::" then
    if n.text == "class" && !isMember n then none else plainWord s n
  else if isName n && n.next != "\\" then plainWord s n
  else if isTyped s n && isAnyCase ["null", "true", "false"] n.text then
    some "type.builtin"
  else if isAnyCase ["true", "false", "null"] n.text then some "constant.builtin"
  else if isOneOf ["self", "static", "parent"] n.text && n.next == "::" then
    some "variable.builtin"
  else if n.text == "static" && (s.here.returns || isOneOf ["?", "|"] n.prev) then some "type"
  else if isAnyCase keywords n.text then if isStray n then none else some "keyword"
  else if isOneOf ["array", "list"] n.text && n.next == "(" then
    if n.text == "list" && n.after[1]?.any (·.kind = .number) then none
    else some "function.builtin"
  else if isOneOf primitives n.text && isTyped s n then some "type.builtin"
  else (qualified? s n).or (plainWord s n)

/-- The mark of a qualified name as a whole, or of a keyword of two words, that ends here. -/
def wholeMarks (s : State) (n : Near) : List Mark :=
  if n.prev == "yield" && n.text == "from" then
    (n.before.head?.map fun l => ⟨l.start, n.here.stop, 0, "keyword"⟩).toList
  else match (qualifier n.before).getLast?, plainWord s n with
    | some first, some name =>
      if isOneOf ["function", "type"] name && n.next != "::" && !s.imports then
        [⟨first.start, n.here.stop, 0, name⟩]
      else []
    | _, _ => []

def variableMarks (n : Near) : List Mark :=
  if n.text == "$" then
    let whole := if n.nextIsWord && n.touchesNext then
        (n.after.head?.map fun l => ⟨n.here.start, l.stop, 0, "variable"⟩).toList
      else []
    whole ++ [n.here.mark "operator"]
  else []

/-- The marks of a lexeme of code in a string, where text has no code of its own. -/
def innerMarks (s : State) (n : Near) : List Mark :=
  match n.here.kind with
  | .word => ((word s n).map n.here.mark).toList ++ wholeMarks s n
  | .number => [n.here.mark "number"]
  | .text => [n.here.mark "string"]
  | .comment | .broken => []
  | .sign => variableMarks n

def codeMarks (pos : Nat) (code : List Char) : List Mark :=
  walk {} (fun s n => (s.step n, innerMarks s n))
    (codeLexis.scan (code.length + 1) pos true [] code)

def interpolated (pos : Nat) (cs : List Char) : List Mark :=
  (codePieces (cs.length + 1) pos cs).flatMap fun (start, code, _) => codeMarks start code

/-- The marks of the text between the pieces of code in a string, up to `stop`. -/
def between : Nat → Nat → List (Nat × List Char × Nat) → List Mark
  | pos, stop, [] => if pos < stop then [⟨pos, stop, 0, "string"⟩] else []
  | pos, stop, (start, code, signs) :: rest =>
    let here : List Mark := if pos < start - signs then [⟨pos, start - signs, 0, "string"⟩] else []
    here ++ between (start + code.length + signs) stop rest

/-- The marks of a tag or a string. -/
def textMarks (l : Lexeme) : List Mark :=
  let cs := l.text.toList
  let head := match heredoc? cs with
    | some (first, none) => first
    | some _ => 0
    | none => if Lexis.begins "\"" cs && (doubleQuoted? cs).isNone then 1 else 0
  if isTag l then [l.mark "tag"]
  else if Lexis.begins "'" cs && Lexis.quotedBy '\x27' false cs = 0 then []
  else if head != 0 && !l.text.startsWith "<<<'" then
    let inside := cs.drop head
    between (l.start + head) l.stop (codePieces (cs.length + 1) (l.start + head) inside) ++
      interpolated (l.start + head) inside
  else if l.text.startsWith "\"" || (l.text.startsWith "<<<" && !l.text.startsWith "<<<'") then
    l.mark "string" :: interpolated l.start cs
  else if l.text.startsWith "\x60" then
    let inside := (cs.drop 1).take (cs.length - 2)
    between (l.start + 1) (l.stop - 1) (codePieces (cs.length + 1) (l.start + 1) inside) ++
      interpolated (l.start + 1) inside
  else if l.text.startsWith "<<<'" then
    let first := (cs.takeWhile (· != '\n')).length
    let last := (cs.reverse.takeWhile (· != '\n')).length + 1
    [l.markAt first (cs.length - last - first) "string"]
  else if l.text.startsWith "'" then [l.mark "string"]
  else []

/-- The mark of who may see and who may set a property, which ends here. -/
def visibilityMarks (n : Near) : List Mark :=
  match n.before with
  | inside :: opening :: word :: _ =>
    if n.text == ")" && isAnyCase ["set"] inside.text && opening.text == "(" &&
        isAnyCase ["public", "protected", "private"] word.text then
      [⟨word.start, n.here.stop, 0, "keyword"⟩]
    else []
  | _ => []

def castMarks (n : Near) : List Mark :=
  if isAnyCase castTypes n.text && n.prev == "(" && n.next == ")" && !isName n then
    [n.here.mark "type.builtin"]
  else []

def lexemeMarks (s : State) (n : Near) : List Mark :=
  match n.here.kind with
  | .word => ((word s n).map n.here.mark).toList ++ castMarks n ++ wholeMarks s n
  | .number => [n.here.mark "number"]
  | .text => textMarks n.here
  | .comment | .broken => []
  | .sign => variableMarks n ++ visibilityMarks n

def marks (text : String) : List Mark :=
  walk {} (fun s n => (State.step s n, lexemeMarks s n)) (lexis.lexemes text)

end CodeTint.Highlight.Php
