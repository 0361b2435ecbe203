import CodeTint.Yaml.Scalar
import CodeTint.Yaml.Scanner

/-!
Records written as block mappings of one line keys. Each text takes the plainest style that reads
back as the same text: plain, single quoted, double quoted, or literal if it has line feeds.
-/

set_option autoImplicit false
set_option relaxedAutoImplicit false

namespace CodeTint.Yaml.Printer

def isClear (c : Char) : Bool :=
  let n := c.toNat
  n == 10 || (0x20 ≤ n && n ≤ 0x7E) || (0xA0 ≤ n && n < 0xD800) ||
    (0xE000 ≤ n && n ≤ 0xFFFD && n != 0xFEFF) || 0x10000 ≤ n

def isBlankOrEnd : Option Char → Bool
  | none => true
  | some c => isSpace c || isBreak c

/-- What a text shows about the styles it can be written in. -/
structure Traits where
  indicator : Bool
  special : Bool
  broken : Bool
  leadingSpace : Bool
  leadingBreak : Bool
  trailingSpace : Bool
  trailingBreak : Bool
  breakSpace : Bool
  spaceBreak : Bool
  deriving Repr

def anyPair (p : Char → Char → Bool) : List Char → Bool
  | a :: b :: rest => p a b || anyPair p (b :: rest)
  | _ => false

def startsIndicator : List Char → Bool
  | [] => false
  | a :: rest =>
    "#,[]\x7b\x7d&*!|>'\"%@\x60".toList.contains a ||
      ("?:-".toList.contains a && isBlankOrEnd rest.head?) ||
      (match a :: rest with
        | '-' :: '-' :: '-' :: _ => true
        | '.' :: '.' :: '.' :: _ => true
        | _ => false)

/-- An indicator after the start: a colon before a blank, a number sign after one. -/
def holdsIndicator : List Char → Bool
  | a :: b :: rest =>
    (b == ':' && isBlankOrEnd rest.head?) || (b == '#' && (isSpace a || isBreak a)) ||
      holdsIndicator (b :: rest)
  | _ => false

def traits (cs : List Char) : Traits where
  indicator := startsIndicator cs || holdsIndicator cs
  special := cs.any (!isClear ·)
  broken := cs.any isBreak
  leadingSpace := cs.head? == some ' '
  leadingBreak := cs.head?.any isBreak
  trailingSpace := cs.getLast? == some ' '
  trailingBreak := cs.getLast?.any isBreak
  breakSpace := anyPair (fun a b => isBreak a && b == ' ') cs
  spaceBreak := anyPair (fun a b => a == ' ' && isBreak b) cs

namespace Traits

def plain (t : Traits) : Bool :=
  !(t.indicator || t.special || t.broken || t.leadingSpace || t.leadingBreak ||
    t.trailingSpace || t.trailingBreak)

def singleQuoted (t : Traits) : Bool := !(t.breakSpace || t.spaceBreak || t.special)

def literal (t : Traits) : Bool := !(t.trailingSpace || t.spaceBreak || t.special)

end Traits

def style (s : String) : ScalarStyle :=
  let t := traits s.toList
  if s.toList.contains '\n' then (if t.literal then .literal else .doubleQuoted)
  else if Scalar.kind s == .text && !Scalar.isPaddedNumeral s && t.plain then .plain
  else if t.singleQuoted || s = "" then .singleQuoted
  else .doubleQuoted

/-- A character inside double quotes. -/
def escape (c : Char) : List Char :=
  let n := c.toNat
  match c with
  | '\x00' => ['\\', '0'] | '\x07' => ['\\', 'a'] | '\x08' => ['\\', 'b'] | '\t' => ['\\', 't']
  | '\n' => ['\\', 'n'] | '\x0b' => ['\\', 'v'] | '\x0c' => ['\\', 'f'] | '\r' => ['\\', 'r']
  | '\x1b' => ['\\', 'e'] | '"' => ['\\', '"'] | '\\' => ['\\', '\\'] | '\u0085' => ['\\', 'N']
  | '\u2028' => ['\\', 'L'] | '\u2029' => ['\\', 'P']
  | _ =>
    if isClear c then [c]
    else if n ≤ 0xFF then '\\' :: 'x' :: Text.upperHex 2 n
    else if n ≤ 0xFFFF then '\\' :: 'u' :: Text.upperHex 4 n
    else '\\' :: 'U' :: Text.upperHex 8 n

/-- Text with two spaces put in front of every line that is not empty. -/
def indented (afterBreak : Bool) : List Char → List Char
  | [] => []
  | c :: rest =>
    if isBreak c then c :: indented true rest
    else if afterBreak then ' ' :: ' ' :: c :: indented false rest
    else c :: indented false rest

/-- The marks after the bar of a literal block: its depth if the text starts with blank space, and
what becomes of the line breaks at its end. -/
def literalMarks (cs : List Char) : List Char :=
  (if cs.head?.any (fun c => c == ' ' || isBreak c) then ['2'] else []) ++
    (match cs.reverse with
      | [] => ['-']
      | a :: rest =>
        if !isBreak a then ['-']
        else match rest with
          | [] => ['+']
          | b :: _ => if isBreak b then ['+'] else [])

/-- The written form of a text as the value of a key, without the end of the line. -/
def value (s : String) : List Char :=
  let cs := s.toList
  match style s with
  | .plain => cs
  | .singleQuoted =>
    let doubled := cs.flatMap fun c => if c == '\'' then [c, c] else [c]
    let closing := if cs.getLast?.any isBreak then [' ', ' ', '\''] else ['\'']
    '\'' :: indented false doubled ++ closing
  | .doubleQuoted => '"' :: cs.flatMap escape ++ ['"']
  | .literal | .folded => '|' :: literalMarks cs ++ '\n' :: indented true cs

def entry (key : String) (written : List Char) : List Char :=
  let line := key.toList ++ ':' :: ' ' :: written
  if line.getLast?.any isBreak then line else line ++ ['\n']

inductive Field where
  | text (s : String)
  | natural (n : Nat)
  deriving Repr

def record (fields : List (String × Field)) : String :=
  String.ofList <| fields.flatMap fun (key, field) =>
    entry key (match field with
      | .text s => value s
      | .natural n => (toString n).toList)

end CodeTint.Yaml.Printer
