import CodeTint.Highlight.Lexeme

/-!
What is found in the text of a shell script. The text is read word by word; whether a word is the
name of a command, an argument, an assignment or a keyword hangs on what came before it.
-/

set_option autoImplicit false
set_option relaxedAutoImplicit false

namespace CodeTint.Highlight.Shell

/-- What the words that come next are. -/
inductive Expect where
  | command
  | argument
  | declared
  /-- The parts of a test in square brackets, and the pattern that one of them matches. -/
  | test | matched
  | element
  | variable | loop
  | value | pattern
  | function
  | word
  deriving DecidableEq, Repr

/-- What the quotes and backquotes in a text mean, which hangs on what encloses it. -/
inductive Quoting where
  /-- Nothing encloses it, so that each of them means something. -/
  | none
  /-- Double quotes enclose it, in which single ones mean nothing. -/
  | double
  /-- It is a text up to a closing word, in which none of them means anything. -/
  | document
  deriving DecidableEq, Repr

/-- A quote or another sign means nothing at the start of a text. -/
def Quoting.isPlain (q : Quoting) (cs : List Char) : Bool :=
  match q, cs with
  | .none, _ => false
  | .double, '\x27' :: _ => true
  | .double, '$' :: '\x27' :: _ => true
  | .double, _ => false
  | .document, '$' :: c :: _ => !(c.isAlpha || c == '(' || c == '\x7b')
  | .document, c :: _ => c == '\x27' || c == '"' || c == '\x60'
  | .document, [] => false

/-- A text that follows the line of its command up to a closing word. -/
structure Document where
  closing : List Char
  verbatim : Bool
  deriving Repr

/-- The state of the reading. -/
structure State where
  expect : Expect := .command
  redirected : Bool := false
  choices : Nat := 0
  groups : Nat := 0
  blocks : Nat := 0
  broken : Bool := false
  /-- A choice behind a test that is not well formed: line breaks end no command in it. -/
  joined : Bool := false
  documents : List Document := []
  deriving Repr

def isNameChar (c : Char) : Bool := c.isAlphanum || c == '_'

def nameLength (cs : List Char) : Nat :=
  if cs.head?.any Char.isDigit then 0 else (cs.takeWhile isNameChar).length

def endsWord (c : Char) : Bool := c.isWhitespace || ";|&<>()".toList.contains c

/-- The length of a text up to the bracket that closes it, if `depth` more are open, behind a quote
if one is open. Brackets between some quotes do not count. -/
def balancedFrom (opening closing : Char) (quotes : List Char) :
    Option Char → Nat → List Char → Nat
  | _, _, [] => 0
  | quote, depth, '\\' :: rest => match rest with
    | _ :: more => balancedFrom opening closing quotes quote depth more + 2
    | [] => 1
  | some quote, depth, c :: rest =>
    balancedFrom opening closing quotes (if c == quote then none else some quote) depth rest + 1
  | none, depth, c :: rest =>
    if c == closing then
      if depth = 0 then 1 else balancedFrom opening closing quotes none (depth - 1) rest + 1
    else if quotes.contains c then balancedFrom opening closing quotes (some c) depth rest + 1
    else balancedFrom opening closing quotes none (if c == opening then depth + 1 else depth)
      rest + 1

def balanced (opening closing : Char) (cs : List Char) : Nat :=
  balancedFrom opening closing (if opening == '(' then ['"', '\x27'] else ['"']) none 0 cs

/-- The length of a text in double quotes behind the first one, if it is closed. Quotes in the
brackets of a command or of an expansion do not close it. -/
def doubleQuoted? : Nat → List Char → Option Nat
  | 0, _ => none
  | _, [] => none
  | fuel + 1, c :: rest =>
    let n := match c :: rest with
      | '\\' :: _ => 2
      | '$' :: '(' :: more => balanced '(' ')' more + 2
      | '$' :: '\x7b' :: more => balanced '\x7b' '\x7d' more + 2
      | '\x60' :: more => ((Lexis.untilClosed? ['\x60'] more).map (· + 1)).getD 1
      | _ => 1
    if c == '"' then some 1
    else (doubleQuoted? fuel ((c :: rest).drop n)).map (· + n)

/-- The length of a text in double quotes that nothing closes: up to its last line break. A quote
with nothing behind it is no text. -/
def openLength (behind : List Char) : Nat :=
  1 + (behind.reverse.dropWhile fun c => c == '\n' || c == '\r').length

/-- What stands in brackets, the first of which are `opening` long. Those that close them may be
missing. -/
def inBrackets (opening : Nat) (closing : List Char) (cs : List Char) : List Char :=
  let body := cs.drop opening
  if closing.isSuffixOf body then body.take (body.length - closing.length) else body

/-- The length of a piece of a word: a quoted text, an expansion or one character. -/
def pieceLength : List Char → Nat
  | '\\' :: _ :: _ => 2
  | '$' :: '(' :: rest => balanced '(' ')' rest + 2
  | '$' :: '\x7b' :: rest => balanced '\x7b' '\x7d' rest + 2
  | '$' :: '[' :: rest => balanced '[' ']' rest + 2
  | '$' :: '\x27' :: rest => Lexis.quotedBy '\x27' false ('\x27' :: rest) + 1
  | '"' :: rest => ((doubleQuoted? rest.length rest).map (· + 1)).getD (openLength rest)
  | '\x27' :: rest => ((Lexis.untilClosed? ['\x27'] rest).map (· + 1)).getD 1
  | '\x60' :: rest => ((Lexis.untilClosed? ['\x60'] rest).map (· + 1)).getD (rest.length + 1)
  | _ => 1

/-- The length of the word that a text begins with. -/
def wordLength : Nat → List Char → Nat
  | 0, _ => 0
  | _, [] => 0
  | fuel + 1, c :: rest =>
    if endsWord c then 0
    else
      let n := pieceLength (c :: rest)
      n + wordLength fuel ((c :: rest).drop n)

/-- The length of the variable and the sign of an assignment, or nothing. -/
def assigned? (cs : List Char) : Option (Nat × Nat) :=
  let n := nameLength cs
  let rest := cs.drop n
  let index := match rest with
    | '[' :: more => balanced '[' ']' more + 1
    | _ => 0
  if n = 0 then none
  else match rest.drop index with
    | '+' :: '=' :: _ => some (n, index + 2)
    | '=' :: _ => some (n, index + 1)
    | _ => none

def isAssigned (behind : List Char) : Bool :=
  match behind.dropWhile (·.isWhitespace) with
  | '=' :: '=' :: _ => false
  | '=' :: _ => true
  | _ => false

def expanded (cs : List Char) : Nat := (cs.takeWhile isNameChar).length

/-- The length of a number: decimal digits, and those in a base if they come. A letter before them
is taken along if it is that of a base, but no letter behind them. -/
def numberLength (cs : List Char) : Nat :=
  let letters := if Lexis.begins "0x" cs && cs[2]?.any Char.isDigit then 2 else 0
  let digits := letters + ((cs.drop letters).takeWhile Char.isDigit).length
  match cs.drop digits with
  | '#' :: rest =>
    let inBase := (rest.takeWhile fun c => c.isAlphanum || c == '@' || c == '_').length
    if digits = 0 || inBase = 0 then digits else digits + 1 + inBase
  | _ => digits

/-- The length of the pattern that a text is matched with, if it is one and no word: it ends at a
blank that stands in no bracket. -/
def regexLength? (cs : List Char) : Option Nat :=
  let n := go 0 cs
  let found := cs.take n
  if found.head?.any (fun c => c == '"' || c == '\x27') ||
    found.all (fun c => c.isAlphanum || c == '$' || c == '-' || c == '_') ||
    (Lexis.untilClosed? ['$', '('] found).isSome then none else some n
where
  /-- The length up to the blank, behind so many open brackets. -/
  go : Nat → List Char → Nat
    | _, [] => 0
    | depth, '\\' :: rest => match rest with
      | _ :: more => go depth more + 2
      | [] => 1
    | depth, c :: rest =>
      if c.isWhitespace && depth = 0 then 0
      else if c == '(' then go (depth + 1) rest + 1
      else if c == ')' then if depth = 0 then 0 else go (depth - 1) rest + 1
      else go depth rest + 1

/-- The length of a pattern that begins with a sign and a bracket, or 0. -/
def patternLength : List Char → Nat
  | sign :: '(' :: rest =>
    if "@?*+!".toList.contains sign then
      let length := balanced '(' ')' rest
      length + 2 + ((rest.drop length).takeWhile (!endsWord ·)).length
    else 0
  | _ => 0

/-- A test in square brackets compares words with a sign that has a backslash before it, which makes
it no test. -/
def isBrokenTest (cs : List Char) : Bool :=
  let inside := cs.takeWhile fun c => c != ']' && c != ';' && c != '\n'
  (Lexis.untilClosed? " \\< ".toList inside).isSome ||
    (Lexis.untilClosed? " \\> ".toList inside).isSome

def commandWords : List String := ["if", "elif", "then", "else", "while", "until", "do"]

def closingWords : List String := ["fi", "done", "esac"]

/-- The name of what a word is that may begin a command, and what is expected behind it. -/
def first (word : String) : Option String × Expect :=
  if isOneOf commandWords word then (some "keyword", .command)
  else if isOneOf closingWords word then (some "keyword", .word)
  else match word with
    | "for" | "select" => (some "keyword", .variable)
    | "case" => (some "keyword", .value)
    | "function" => (some "keyword", .function)
    | "export" | "unset" => (some "keyword", .declared)
    | "declare" | "typeset" | "local" | "readonly" => (none, .declared)
    | "[" | "[[" => (none, .test)
    | "!" | "\x7b" => (none, .command)
    | _ => (some "function", .argument)

/-- The sign behind the name that a text begins with: nothing, if it ends there, or what begins an
index. -/
def behindName (cs : List Char) : String :=
  let n := nameLength cs
  if n = 0 then " " else String.ofList ((cs.drop n).take 1)

/-- The name of what a word is, and what is expected behind it. -/
def role (e : Expect) (word : String) : Option String × Expect :=
  match e with
  | .command => first word
  | .argument => (if word.startsWith "-" then some "constant" else none, .argument)
  | .declared => 
    (if isOneOf ["", "["] (behindName word.toList) then some "property" else none, .declared)
  | .test => (none, if isOneOf ["]", "]]"] word then .word
      else if word == "=~" then .matched else .test)
  | .matched => (none, .test)
  | .element => (none, .element)
  | .variable => (some "property", .loop)
  | .loop => if word == "do" then first word
      else (if word == "in" then some "keyword" else none, .word)
  | .value => if word == "in" then (some "keyword", .pattern) else (none, .value)
  | .pattern => if word == "esac" then (some "keyword", .word) else (none, .pattern)
  | .function => (some "function", .command)
  | .word => (none, .word)

/-- The name of what a word is, and the state behind it. A brace that closes no group is the name of
a command. -/
def State.read (s : State) (word : String) : Option String × State :=
  let (name, expect) := role s.expect word
  let blocks := if name != some "keyword" then s.blocks
    else if isOneOf ["if", "for", "select", "while", "until"] word then s.blocks + 1
    else if isOneOf ["fi", "done"] word then s.blocks - 1
    else s.blocks
  let isGroup := s.expect == .command && s.groups != 0 && word == "\x7d"
  let opened := if expect == .pattern && s.expect == .value then 1 else 0
  let closed := if word == "esac" && name.isSome then 1 else 0
  if isGroup then (none, { s with expect := .command, groups := s.groups - 1 })
  else if s.joined && word == "esac" then
    (some "keyword", { s with expect := .word, joined := false })
  else if s.broken && s.expect == .command && word == "case" then
    (some "property", { s with joined := true })
  else (name, { s with
    expect := expect
    choices := s.choices + opened - closed
    blocks := blocks
    groups := if s.expect == .command && word == "\x7b" then s.groups + 1 else s.groups })

def signs : List String :=
  ["<<<", "&>>", ";;&", "&&", "||", "|&", ">>", ">&", "<&", "&>", ">|", ";;", ";&"]

def operators : List String := ["&&", ">", ">>", "<", "|"]

def redirections : List String := ["<<<", "&>>", ">>", ">&", "<&", "&>", ">|", ">", "<"]

def State.behindRedirection (s : State) : State :=
  if s.expect == .argument || s.expect == .declared then { s with expect := .word } else s

def State.behindSign (s : State) (sign : String) : State :=
  if s.expect == .test && sign == ";" then { s with expect := .command }
  else if s.expect == .test || s.expect == .element || (s.joined && sign == "\n") then s
  else if s.joined && sign == ")" then { s with expect := .word }
  else if sign == "<<<" then { s with redirected := true }
  else if isOneOf redirections sign then { s.behindRedirection with redirected := true }
  else if s.expect == .pattern then if sign == ")" then { s with expect := .command } else s
  else if isOneOf [";;", ";&", ";;&"] sign && s.choices != 0 then { s with expect := .pattern }
  else { s with expect := .command, redirected := false }

/-- The length of the lines of a document before its closing word, with the blanks before that. -/
def documentLength (closing : List Char) : Nat → List Char → Nat
  | 0, _ => 0
  | _, [] => 0
  | fuel + 1, cs =>
    let line := cs.takeWhile (· != '\n')
    let gap := (line.takeWhile Char.isWhitespace).length
    if closing.isPrefixOf (line.drop gap) then gap
    else
      let n := line.length + (if (cs.drop line.length).isEmpty then 0 else 1)
      n + documentLength closing fuel (cs.drop n)

def Document.ofWord (word : List Char) : Document :=
  let isMark := fun c => c == '"' || c == '\x27' || c == '\\'
  { closing := word.filter (!isMark ·), verbatim := word.any isMark }

/-- What is behind the name of an expansion begins with the start of a part of the text. -/
def takesPart (cs : List Char) : Bool :=
  match cs with
  | ':' :: c :: _ => !"-=+?".toList.contains c
  | _ => false

mutual

/-- The marks of the names, expansions and operators in an arithmetic expression. In the head of a
loop only the names that are expanded or assigned to count. -/
def arithmetic : Nat → Bool → Nat → List Char → List Mark
  | 0, _, _, _ => []
  | _, _, _, [] => []
  | fuel + 1, loop, pos, c :: rest =>
    let cs := c :: rest
    let number := numberLength cs
    let n := if expanded cs ≤ number then 0 else expanded cs
    let piece := pieceLength cs
    if n != 0 then
      let index := match cs.drop n with
        | '[' :: more => balanced '[' ']' more + 1
        | _ => 0
      (if loop && !isAssigned (cs.drop n) then [] else [(⟨pos, pos + n, 0, "property"⟩ : Mark)]) ++
        pieces fuel .none (pos + n) ((cs.drop n).take index) ++
        arithmetic fuel loop (pos + n + index) (cs.drop (n + index))
    else if number != 0 then arithmetic fuel loop (pos + number) (cs.drop number)
    else if c == '$' && piece = 1 then
      let name := expanded rest
      ⟨pos, pos + 1, 0, "operator"⟩ ::
        (if name = 0 then [] else [(⟨pos + 1, pos + 1 + name, 0, "property"⟩ : Mark)]) ++
        arithmetic fuel loop (pos + 1 + name) (rest.drop name)
    else if piece > 1 then
      pieces fuel .none pos (cs.take piece) ++ arithmetic fuel loop (pos + piece) (cs.drop piece)
    else if Lexis.begins "&&" cs then
      ⟨pos, pos + 2, 0, "operator"⟩ :: arithmetic fuel loop (pos + 2) (rest.drop 1)
    else if ["<<=", ">>="].any (Lexis.begins · cs) then
      arithmetic fuel loop (pos + 3) (rest.drop 2)
    else if ["||", "|=", "<=", ">=", "<<"].any (Lexis.begins · cs) then
      arithmetic fuel loop (pos + 2) (rest.drop 1)
    else if "<>|".toList.contains c then
      ⟨pos, pos + 1, 0, "operator"⟩ :: arithmetic fuel loop (pos + 1) rest
    else arithmetic fuel loop (pos + 1) rest

/-- The marks of what is in a word, a quoted text or a document that begins at `pos`. -/
def pieces : Nat → Quoting → Nat → List Char → List Mark
  | 0, _, _, _ => []
  | _, _, _, [] => []
  | fuel + 1, quoted, pos, c :: rest =>
    let cs := c :: rest
    let n := pieceLength cs
    let piece := cs.take n
    if quoted.isPlain cs then pieces fuel quoted (pos + 1) rest else match cs with
    | '$' :: '(' :: '(' :: _ =>
      arithmetic fuel false (pos + 3) (inBrackets 3 [')', ')'] piece) ++
        pieces fuel quoted (pos + n) (cs.drop n)
    | '$' :: '[' :: _ =>
      arithmetic fuel false (pos + 2) (inBrackets 2 [']'] piece) ++
        pieces fuel quoted (pos + n) (cs.drop n)
    | '$' :: '(' :: _ =>
      commands fuel {} (pos + 2) (inBrackets 2 [')'] piece) ++
        pieces fuel quoted (pos + n) (cs.drop n)
    | '$' :: '\x7b' :: more =>
      let signs := (more.takeWhile fun c => c == '#' || c == '!').length
      let name := expanded (more.drop signs)
      let start := pos + 2 + signs
      let behind := inBrackets (2 + signs + name) ['\x7d'] piece
      (if name = 0 then [] else [⟨start, start + name, 0, "property"⟩]) ++
        (if takesPart behind then arithmetic fuel false (start + name) behind
          else pieces fuel quoted (start + name) behind) ++
        pieces fuel quoted (pos + n) (cs.drop n)
    | '$' :: _ =>
      if n > 1 then pieces fuel quoted (pos + n) (cs.drop n)
      else
        let name := expanded rest
        let width := if rest.head? == some '$' then 1 else name
        ⟨pos, pos + 1, 0, "operator"⟩ ::
          (if name = 0 then [] else [(⟨pos + 1, pos + 1 + name, 0, "property"⟩ : Mark)]) ++
          pieces fuel quoted (pos + width + 1) (cs.drop (width + 1))
    | '"' :: _ =>
      if n = 1 then pieces fuel quoted (pos + 1) rest
      else ⟨pos, pos + n, 0, "string"⟩ ::
        pieces fuel .double (pos + 1) (inBrackets 1 ['"'] piece) ++
        pieces fuel quoted (pos + n) (cs.drop n)
    | '\x27' :: _ =>
      (if n = 1 then [] else [⟨pos, pos + n, 0, "string"⟩]) ++
        pieces fuel quoted (pos + n) (cs.drop n)
    | '\x60' :: _ =>
      commands fuel {} (pos + 1) (inBrackets 1 ['\x60'] piece) ++
        pieces fuel quoted (pos + n) (cs.drop n)
    | _ => pieces fuel quoted (pos + n) (cs.drop n)

/-- The marks of commands that begin at `pos`. -/
def commands : Nat → State → Nat → List Char → List Mark
  | 0, _, _, _ => []
  | _, _, _, [] => []
  | fuel + 1, s, pos, c :: rest =>
    let cs := c :: rest
    if c == '\n' then
      match s.documents with
      | [] => commands fuel (s.behindSign "\n") (pos + 1) rest
      | d :: more =>
        let n := documentLength d.closing rest.length rest
        let stop := n + ((rest.drop n).takeWhile (· != '\n')).length
        let gap := ((rest.take n).takeWhile Char.isWhitespace).length
        ⟨pos + 1 + gap, pos + 1 + n, 0, "string"⟩ ::
          (if d.verbatim then [] else pieces fuel .document (pos + 1) (rest.take n)) ++
          commands fuel { s with documents := more } (pos + 1 + stop) (rest.drop stop)
    else if c.isWhitespace then commands fuel s (pos + 1) rest
    else if Lexis.begins "\\\r\n" cs then commands fuel s (pos + 3) (rest.drop 2)
    else if c == '\\' && rest.head?.any Char.isWhitespace then
      commands fuel s (pos + 2) (rest.drop 1)
    else if c == '#' then
      let n := Lexis.lineLength cs
      ⟨pos, pos + n, 0, "comment"⟩ :: commands fuel s (pos + n) (cs.drop n)
    else if Lexis.begins "((" cs && (s.expect == .command || s.expect == .variable) then
      let n := balanced '(' ')' rest + 1
      let next := if s.expect == .variable then Expect.command else .word
      arithmetic fuel (s.expect == .variable) (pos + 2) (inBrackets 2 [')', ')'] (cs.take n)) ++
        commands fuel { s with expect := next } (pos + n) (cs.drop n)
    else if Lexis.begins "<<" cs && !Lexis.begins "<<<" cs then
      let sign := if Lexis.begins "<<-" cs then 3 else 2
      let gap := ((cs.drop sign).takeWhile (· == ' ')).length
      let word := (cs.drop (sign + gap)).take (wordLength fuel (cs.drop (sign + gap)))
      let start := pos + sign + gap
      if !s.documents.isEmpty && s.expect != .command then
        ⟨pos, pos + sign, 0, "operator"⟩ ::
          commands fuel s (start + word.length) (cs.drop (sign + gap + word.length))
      else ⟨start, start + word.length, 0, "string"⟩ ::
        commands fuel
          { s.behindRedirection with documents := s.documents ++ [Document.ofWord word] }
          (start + word.length) (cs.drop (sign + gap + word.length))
    else if Lexis.begins "<(" cs || Lexis.begins ">(" cs then
      let n := balanced '(' ')' (rest.drop 1) + 2
      commands fuel {} (pos + 2) (inBrackets 2 [')'] (cs.take n)) ++
        commands fuel { s with redirected := false } (pos + n) (cs.drop n)
    else if endsWord c then
      let sign := (signs.find? (Lexis.begins · cs)).getD (String.singleton c)
      (if isOneOf operators sign then [⟨pos, pos + sign.length, 0, "operator"⟩] else []) ++
        commands fuel (s.behindSign sign) (pos + sign.length) (cs.drop sign.length)
    else
      let n := wordLength fuel cs
      let word := cs.take n
      let after := cs.drop n
      let text := String.ofList word
      let isOpen := s.blocks + s.choices + s.groups != 0 && c == '"' &&
        (doubleQuoted? rest.length rest).isNone
      let pattern := if s.expect == .test then patternLength cs else 0
      let regex := if s.expect == .matched then (regexLength? cs).getD 0 else 0
      let assigns := s.expect == .command || s.expect == .declared
      if regex != 0 then commands fuel { s with expect := .test } (pos + regex) (cs.drop regex)
      else if pattern != 0 then commands fuel s (pos + pattern) (cs.drop pattern)
      else if isOpen then
        pieces fuel .double (pos + 1) (word.drop 1) ++ commands fuel s (pos + n) after
      else if s.expect == .command && text == "[" && isBrokenTest after then
        commands fuel { s with broken := true } (pos + n) after
      else if s.redirected then
        pieces fuel .none pos word ++ commands fuel { s with redirected := false } (pos + n) after
      else if word.all Char.isDigit && after.head?.any fun c => c == '<' || c == '>' then
        ⟨pos, pos + n, 0, "number"⟩ :: commands fuel s (pos + n) after
      else match if assigns then assigned? word else none with
        | some (name, sign) =>
          let list := if name + sign = n && after.head? == some '(' then
              balanced '(' ')' (after.drop 1) + 1 else 0
          ⟨pos, pos + name, 0, "property"⟩ ::
            pieces fuel .none (pos + name) (word.drop name) ++
            commands fuel { expect := .element } (pos + n + 1) ((after.take (list - 1)).drop 1) ++
            commands fuel s (pos + n + list) (after.drop list)
        | none =>
          let gap := (after.takeWhile fun c => c == ' ' || c == '\t').length
          if s.expect == .command && Lexis.begins "()" (after.drop gap) then
            ⟨pos, pos + n, 0, "function"⟩ ::
              commands fuel s (pos + n + gap + 2) (after.drop (gap + 2))
          else
            let (name, next) := s.read text
            let length := if s.expect == .declared then nameLength word else n
            (name.map fun w => (⟨pos, pos + length, 0, w⟩ : Mark)).toList ++
              pieces fuel .none pos word ++ commands fuel next (pos + n) after

end

def marks (text : String) : List Mark :=
  let cs := text.toList
  commands (2 * cs.length + 2) {} 0 cs

end CodeTint.Highlight.Shell
