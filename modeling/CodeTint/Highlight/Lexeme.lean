import CodeTint.Highlight.Mark
import CodeTint.Text.Identifier

/-!
Lexemes: the words, numbers, strings, comments and signs of a text in a programming language, and
walks over them that see the neighbours of each. What the lexemes of a language look like is a
record of rules.
-/

set_option autoImplicit false
set_option relaxedAutoImplicit false

namespace CodeTint.Highlight

/-- What a lexeme is. A broken one is a text that no quote closes. -/
inductive LexemeKind where
  | word | number | text | comment | sign | broken
  deriving DecidableEq, Repr

/-- A lexeme with its text and its range of characters. -/
structure Lexeme where
  kind : LexemeKind
  text : String
  start : Nat
  stop : Nat
  /-- Only blanks and comments stand before it on its line. -/
  fresh : Bool
  deriving DecidableEq, Repr

def Lexeme.mark (l : Lexeme) (name : String) : Mark := ⟨l.start, l.stop, 0, name⟩

def Lexeme.markAt (l : Lexeme) (offset length : Nat) (name : String) : Mark :=
  ⟨l.start + offset, l.start + offset + length, 0, name⟩

/-- A lexeme with those around it, the nearest first. -/
structure Near where
  before : List Lexeme
  here : Lexeme
  after : List Lexeme
  deriving Repr

namespace Near

def text (n : Near) : String := n.here.text

def back (n : Near) (steps : Nat) : Option Lexeme := n.before[steps]?

def prev (n : Near) : String := (n.before.head?.map (·.text)).getD ""

def prev2 (n : Near) : String := ((n.back 1).map (·.text)).getD ""

def next (n : Near) : String := (n.after.head?.map (·.text)).getD ""

def next2 (n : Near) : String := ((n.after[1]?).map (·.text)).getD ""

def prevIsWord (n : Near) : Bool := n.before.head?.any (·.kind = .word)

def nextIsWord (n : Near) : Bool := n.after.head?.any (·.kind = .word)

def endsLine (n : Near) : Bool := n.after.head?.all (·.fresh)

def touchesPrev (n : Near) : Bool := n.before.head?.any (·.stop = n.here.start)

def touchesNext (n : Near) : Bool := n.after.head?.any (·.start = n.here.stop)

end Near

def walkFrom {σ : Type} (step : σ → Near → σ × List Mark) :
    σ → List Lexeme → List Lexeme → List Mark
  | _, _, [] => []
  | s, before, l :: after =>
    let (s, marks) := step s ⟨before, l, after⟩
    marks ++ walkFrom step s (l :: before) after

/-- Walk over lexemes with a state. Comments are marked and are neighbours of nothing. -/
def walk {σ : Type} (start : σ) (step : σ → Near → σ × List Mark) (lexemes : List Lexeme) :
    List Mark :=
  let (comments, rest) := lexemes.partition (·.kind = .comment)
  comments.map (·.mark "comment") ++ walkFrom step start [] rest

def separators : List Char :=
  ['\u00a0', '\u1680', '\u2000', '\u2001', '\u2002', '\u2003', '\u2004', '\u2005', '\u2006',
   '\u2007', '\u2008', '\u2009', '\u200a', '\u2028', '\u2029', '\u202f', '\u205f', '\u3000']

/-- The rules for the lexemes of a language. -/
structure Lexis where
  lineComments : List String := []
  /-- The characters before which a comment of one line ends. -/
  lineEnds : List Char := ['\n']
  blockComment : Option (String × String) := none
  nested : Bool := false
  /-- Comments may stand behind some lexemes, the nearest first. -/
  hasComments : List Lexeme → Bool := fun _ => true
  /-- The blanks beyond those of ASCII, which stand in no word. -/
  blanks : List Char := []
  isWordStart : Char → Bool := Text.beginsName
  isWordChar : Char → Bool := Text.continuesName
  /-- What is tried first behind comments: a kind and a length, of 0 where the rule does not
  apply. The lexemes before are given too, the nearest first, without comments. -/
  special : List Lexeme → List Char → LexemeKind × Nat := fun _ _ => (.text, 0)
  /-- What is tried before that where no blank stands behind the lexeme before. -/
  attached : List Char → LexemeKind × Nat := fun _ => (.text, 0)
  /-- The length of a number that begins with a digit, or with a point and a digit. -/
  number : List Char → Nat
  /-- The signs of more than one character, longer ones first. -/
  signs : List String := []
  /-- The quotes that break the rest of the line if they are not closed. -/
  quotes : List Char := []

namespace Lexis

def begins (start : String) (cs : List Char) : Bool := start.toList.isPrefixOf cs

def beforeNull (cs : List Char) : List Char := cs.takeWhile (· != '\x00')

def lineLength (cs : List Char) : Nat :=
  (cs.takeWhile fun c => c != '\n' && c != '\x00').length

def untilClosed? (closing : List Char) : List Char → Option Nat
  | [] => none
  | c :: rest =>
    if closing.isPrefixOf (c :: rest) then some closing.length
    else (untilClosed? closing rest).map (· + 1)

/-- The same for brackets that nest. -/
def untilNested? (opening closing : List Char) : Nat → Nat → List Char → Option Nat
  | 0, _, _ => none
  | _, _, [] => none
  | fuel + 1, depth, c :: rest =>
    if closing.isPrefixOf (c :: rest) then
      if depth = 0 then some closing.length
      else (untilNested? opening closing fuel (depth - 1) ((c :: rest).drop closing.length)).map
        (· + closing.length)
    else if opening.isPrefixOf (c :: rest) then
      (untilNested? opening closing fuel (depth + 1) ((c :: rest).drop opening.length)).map
        (· + opening.length)
    else (untilNested? opening closing fuel depth rest).map (· + 1)

/-- The length of a quoted text behind its opening quote, with the closing one. A backslash takes
the next character along; a text of one line does not pass its end. -/
def quoted? (quote : Char) (oneLine : Bool) : List Char → Option Nat
  | [] => none
  | '\\' :: _ :: rest => (quoted? quote oneLine rest).map (· + 2)
  | c :: rest =>
    if c == quote then some 1
    else if oneLine && c == '\n' then none
    else (quoted? quote oneLine rest).map (· + 1)

def quotedBy (quote : Char) (oneLine : Bool) (cs : List Char) : Nat :=
  match cs with
  | c :: rest =>
    if c == quote then ((quoted? quote oneLine (beforeNull rest)).map (· + 1)).getD 0 else 0
  | [] => 0

def endsNumber (behind : List Char) : Bool :=
  !behind.head?.any fun c => c.isAlphanum || c == '_' || c == '.'

/-- The length of a number: letters, digits and underscores, a point before a digit or at the end,
and a sign behind the letter of an exponent. -/
def numberFrom (hex : Bool) (last : Char) : List Char → Nat
  | [] => 0
  | c :: rest =>
    if c.isAlphanum || c == '_' then numberFrom hex c rest + 1
    else if c == '.' && rest.head?.any Char.isDigit then numberFrom hex c rest + 1
    else if c == '.' && !hex && last.isDigit && endsNumber rest then 1
    else if (c == '+' || c == '-') && (last == 'e' || last == 'E') && !hex then
      numberFrom hex c rest + 1
    else 0

def plainNumber (cs : List Char) : Nat :=
  match cs with
  | '0' :: x :: rest =>
    if x == 'x' || x == 'X' then numberFrom true x rest + 2
    else numberFrom false '0' (x :: rest) + 1
  | c :: rest => if c.isDigit || c == '.' then numberFrom false c rest + 1 else 0
  | [] => 0

/-- The length of a number whose exponent, if it is hexadecimal, may have a sign too. -/
def scientificNumber (cs : List Char) : Nat :=
  let length := plainNumber cs
  let hex := cs.head? == some '0' && cs[1]?.any fun c => c == 'x' || c == 'X'
  let last := (cs.take length).getLast?
  if hex && last.any (fun c => c == 'p' || c == 'P') then
    match cs.drop length with
    | c :: rest =>
      if c == '+' || c == '-' then length + 1 + (rest.takeWhile Char.isDigit).length else length
    | [] => length
  else length

def exponentLength (cs : List Char) : Nat :=
  match cs with
  | e :: rest =>
    let sign := if rest.head?.any fun c => c == '+' || c == '-' then 1 else 0
    let digits := ((rest.drop sign).takeWhile Char.isDigit).length
    if (e == 'e' || e == 'E') && digits != 0 then 1 + sign + digits else 0
  | [] => 0

/-- The same where an exponent or one of some letters may stand right behind the point. -/
def pointedNumber (letters : List Char) (cs : List Char) : Nat :=
  let length := scientificNumber cs
  match cs.drop length with
  | '.' :: rest =>
    let exponent := exponentLength rest
    let letter := if (rest.drop exponent).head?.any letters.contains then 1 else 0
    let isWhole := (cs.take length).all fun c => c.isDigit || c == '_'
    if isWhole && exponent + letter != 0 &&
      !(rest.drop (exponent + letter)).head?.any (fun c => c.isAlphanum || c == '_')
    then length + 1 + exponent + letter else length
  | _ => length

/-- The length of the comment that a text begins with, or 0. -/
def comment (x : Lexis) (cs : List Char) : Nat :=
  if x.lineComments.any (begins · cs) then
    (cs.takeWhile fun c => !x.lineEnds.contains c && c != '\x00').length
  else match x.blockComment with
    | some (opening, closing) =>
      if begins opening cs then
        let inside := cs.drop opening.length
        let found := if x.nested then
            untilNested? opening.toList closing.toList inside.length 0 inside
          else untilClosed? closing.toList (beforeNull inside)
        (found.map (· + opening.length)).getD 0
      else 0
    | none => 0

/-- The kind and length of the first lexeme of a text that begins with no blank, and may touch the
lexeme before. -/
def first (x : Lexis) (touches : Bool) (before : List Lexeme) (cs : List Char) :
    LexemeKind × Nat :=
  let comment := if x.hasComments before then x.comment cs else 0
  let attached := if touches then x.attached cs else (.text, 0)
  let (kind, length) := if attached.2 != 0 then attached else x.special before cs
  if comment != 0 then (.comment, comment)
  else if length != 0 then (kind, length)
  else match cs with
    | [] => (.sign, 0)
    | c :: rest =>
      if x.isWordStart c then
        (.word, (rest.takeWhile fun c => x.isWordChar c && !x.blanks.contains c).length + 1)
      else if c.isDigit || (c == '.' && rest.head?.any Char.isDigit) then
        (.number, max 1 (x.number cs))
      else if x.quotes.contains c then (.broken, lineLength cs)
      else match x.signs.find? (begins · cs) with
        | some s => (.sign, s.length)
        | none => (.sign, 1)

/-- The lexemes of a text that begins at `pos`, behind others. -/
def scan (x : Lexis) : Nat → Nat → Bool → List Lexeme → List Char → List Lexeme
  | 0, _, _, _, _ => []
  | _, _, _, _, [] => []
  | fuel + 1, pos, fresh, before, c :: rest =>
    if c.isWhitespace || c == '\x0b' || c == '\x0c' || x.blanks.contains c then
      scan x fuel (pos + 1) (fresh || c == '\n' || c == '\u2028' || c == '\u2029') before rest
    else
      let touches := before.head?.any (·.stop = pos)
      let (kind, length) := x.first touches before (c :: rest)
      let stop := pos + max 1 length
      let here := (c :: rest).take (stop - pos)
      let found := ⟨kind, String.ofList here, pos, stop, fresh⟩
      let rest := (c :: rest).drop (stop - pos)
      if kind = .comment then
        found :: scan x fuel stop (fresh || here.getLast? == some '\n') before rest
      else found :: scan x fuel stop false (found :: before) rest

def lexemes (x : Lexis) (text : String) : List Lexeme :=
  let cs := text.toList
  x.scan (cs.length + 1) 0 true [] cs

end Lexis

abbrev EscapeRule := List Char → Nat

/-- The marks of the escapes in a text that begins at `pos`. -/
def escapesFrom (rule : EscapeRule) : Nat → Nat → List Char → List Mark
  | 0, _, _ => []
  | _, _, [] => []
  | fuel + 1, pos, c :: rest =>
    if c == '\\' then
      let n := rule rest
      if n = 0 then escapesFrom rule fuel (pos + 1) rest
      else ⟨pos, pos + 1 + n, 0, "escape"⟩ :: escapesFrom rule fuel (pos + 1 + n) (rest.drop n)
    else escapesFrom rule fuel (pos + 1) rest

def Lexeme.escapes (l : Lexeme) (rule : EscapeRule) : List Mark :=
  escapesFrom rule l.text.length l.start l.text.toList

def hexRun (most : Nat) (cs : List Char) : Nat :=
  ((cs.take most).takeWhile fun c => c.isDigit || "abcdefABCDEF".toList.contains c).length

def isOneOf (words : List String) (s : String) : Bool := words.contains s

def isCapitalized (s : String) : Bool := s.toList.head?.any Char.isUpper

end CodeTint.Highlight
