import CodeTint.Json.Value

/-!
Reading JSON from characters. `take` gives the first value of a text and what follows it; arrays
and objects may be nested in each other up to `maxDepth`. `skipValue` passes a value without
keeping it, to any depth.
-/

set_option autoImplicit false
set_option relaxedAutoImplicit false

namespace CodeTint.Json

def maxDepth : Nat := 128

abbrev Front (α : Type) := α × List Char

def isGap (c : Char) : Bool := c == ' ' || c == '\n' || c == '\t' || c == '\r'

def skipGap (cs : List Char) : List Char := cs.dropWhile isGap

def takeWord : List Char → List Char → Except Flaw (List Char)
  | [], cs => .ok cs
  | _ :: _, [] => .error .endInValue
  | w :: ws, c :: cs => if w == c then takeWord ws cs else .error .word

/-! ### Strings -/

/-- The number written by the next four hexadecimal digits. -/
def takeHex : List Char → Except Flaw (Nat × List Char)
  | a :: b :: c :: d :: rest =>
    match Text.numeral? 16 [a, b, c, d] with
    | some n => .ok (n, rest)
    | none => .error .escape
  | short =>
    if (String.ofList short).utf8ByteSize < 4 then .error .endInString else .error .escape

def charOf (n : Nat) : Char := Char.ofNat n

/-- The character of a numeric escape, after its `u`. Surrogates have to come in pairs. -/
def takeUnicode (cs : List Char) : Except Flaw (Char × List Char) := do
  let (n, cs) ← takeHex cs
  if 0xDC00 ≤ n && n ≤ 0xDFFF then throw .loneSurrogate
  if 0xD800 ≤ n && n ≤ 0xDBFF then
    match cs with
    | [] => throw .endInString
    | '\\' :: [] => throw .endInString
    | '\\' :: 'u' :: cs =>
      let (low, cs) ← takeHex cs
      if low < 0xDC00 || low > 0xDFFF then throw .loneSurrogate
      return (charOf ((n - 0xD800) * 0x400 + (low - 0xDC00) + 0x10000), cs)
    | _ => throw .surrogatePair
  else return (charOf n, cs)

def shortEscape? : Char → Option Char
  | '"' => some '"' | '\\' => some '\\' | '/' => some '/' | 'b' => some '\x08'
  | 'f' => some '\x0c' | 'n' => some '\n' | 'r' => some '\r' | 't' => some '\t'
  | _ => none

/-- The rest of a string after its opening quote. -/
def takeString : Nat → List Char → Except Flaw (List Char × List Char)
  | 0, _ => .error .endInString
  | fuel + 1, cs =>
    match cs with
    | [] => .error .endInString
    | '"' :: rest => .ok ([], rest)
    | ['\\'] => .error .endInString
    | '\\' :: 'u' :: rest => do
      let (c, rest) ← takeUnicode rest
      let (more, rest) ← takeString fuel rest
      return (c :: more, rest)
    | '\\' :: e :: rest =>
      match shortEscape? e with
      | some c => do
        let (more, rest) ← takeString fuel rest
        return (c :: more, rest)
      | none => .error .escape
    | c :: rest =>
      if c.toNat < 0x20 then .error .controlCharacter
      else do
        let (more, rest) ← takeString fuel rest
        return (c :: more, rest)

def takeText (cs : List Char) : Except Flaw (Front String) := do
  let (s, rest) ← takeString (cs.length + 1) cs
  return (String.ofList s, rest)

/-- Pass the rest of a string after its opening quote; surrogates may be alone. -/
def skipString : Nat → List Char → Except Flaw (List Char)
  | 0, _ => .error .endInString
  | fuel + 1, cs =>
    match cs with
    | [] => .error .endInString
    | '"' :: rest => .ok rest
    | ['\\'] => .error .endInString
    | '\\' :: 'u' :: rest => do
      let (_, rest) ← takeHex rest
      skipString fuel rest
    | '\\' :: e :: rest =>
      if (shortEscape? e).isSome then skipString fuel rest else .error .escape
    | c :: rest => if c.toNat < 0x20 then .error .controlCharacter else skipString fuel rest

/-! ### Numbers -/

def takeExponent (cs : List Char) : Except Flaw (Int × List Char) :=
  let (negative, cs) := match cs with
    | '-' :: rest => (true, rest)
    | '+' :: rest => (false, rest)
    | cs => (false, cs)
  let ds := cs.takeWhile Char.isDigit
  match Text.numeral? 10 ds with
  | some n => .ok (if negative then -(n : Int) else n, cs.drop ds.length)
  | none => .error (if cs.isEmpty then .endInValue else .number)

def inRange (d : Decimal) : Except Flaw Value :=
  match d.toDouble? with
  | some _ => .ok (.decimal d)
  | none => .error .numberRange

def takeWhole (cs : List Char) : Except Flaw (List Char) :=
  match cs with
  | [] => .error .endInValue
  | '0' :: rest => if rest.head?.any Char.isDigit then .error .number else .ok ['0']
  | c :: _ => if c.isDigit then .ok (cs.takeWhile Char.isDigit) else .error .number

def takeFraction (cs : List Char) : Except Flaw (Front (List Char)) :=
  match cs with
  | '.' :: rest =>
    let fraction := rest.takeWhile Char.isDigit
    if fraction.isEmpty then .error (if rest.isEmpty then .endInValue else .number)
    else .ok (fraction, rest.drop fraction.length)
  | cs => .ok ([], cs)

def takeNumber (negative : Bool) (cs : List Char) : Except Flaw (Front Value) := do
  let whole ← takeWhole cs
  let (fraction, cs) ← takeFraction (cs.drop whole.length)
  let d := Decimal.ofDigits negative whole fraction
  match cs with
  | 'e' :: rest | 'E' :: rest =>
    let (n, rest) ← takeExponent rest
    return (← inRange { d with exponent := d.exponent + n }, rest)
  | _ =>
    if fraction.isEmpty && d.exponent == 0 then return (← integer d.digits, cs)
    else return (← inRange d, cs)
where
  /-- An integer, or a decimal when it is a negative zero or one too small. -/
  integer (n : Nat) : Except Flaw Value :=
    if !negative then .ok (.natural n)
    else if 0 < n && n ≤ Nat.pow 2 63 then .ok (.negative n)
    else inRange ⟨true, n, 0⟩

def skipWhole (cs : List Char) : Except Flaw (List Char) :=
  match cs with
  | '0' :: rest => if rest.head?.any Char.isDigit then .error .number else .ok rest
  | c :: _ => if c.isDigit then .ok (cs.dropWhile Char.isDigit) else .error .number
  | [] => .error .number

def skipFraction (cs : List Char) : Except Flaw (List Char) :=
  match cs with
  | '.' :: rest =>
    if rest.head?.any Char.isDigit then .ok (rest.dropWhile Char.isDigit) else .error .number
  | cs => .ok cs

def skipExponent (cs : List Char) : Except Flaw (List Char) :=
  let cs := match cs with
    | '-' :: rest | '+' :: rest => rest
    | cs => cs
  if cs.head?.any Char.isDigit then .ok (cs.dropWhile Char.isDigit) else .error .number

def skipNumber (cs : List Char) : Except Flaw (List Char) := do
  match ← skipFraction (← skipWhole cs) with
  | 'e' :: rest | 'E' :: rest => skipExponent rest
  | rest => return rest

/-! ### Members and items -/

/-- What comes next in an object: the opening quote of a key, which is passed, or its brace, which
is not. -/
def nextKey (first : Bool) (cs : List Char) : Except Flaw (Option (List Char) × List Char) :=
  match skipGap cs with
  | '\x7d' :: rest => .ok (none, '\x7d' :: rest)
  | ',' :: rest =>
    if first then .error .key
    else match skipGap rest with
      | '"' :: rest => .ok (some rest, rest)
      | '\x7d' :: _ => .error .trailingComma
      | _ :: _ => .error .key
      | [] => .error .endInValue
  | c :: rest =>
    if first then (if c == '"' then .ok (some rest, rest) else .error .key)
    else .error .commaOrBrace
  | [] => .error .endInObject

def takeColon (cs : List Char) : Except Flaw (List Char) :=
  match skipGap cs with
  | ':' :: rest => .ok rest
  | _ :: _ => .error .colon
  | [] => .error .endInObject

/-- Whether another item of an array comes next. -/
def nextItem (first : Bool) (cs : List Char) : Except Flaw (Bool × List Char) :=
  match skipGap cs with
  | ']' :: rest => .ok (false, ']' :: rest)
  | ',' :: rest =>
    if first then .ok (true, ',' :: rest)
    else match skipGap rest with
      | ']' :: _ => .error .trailingComma
      | c :: rest => .ok (true, c :: rest)
      | [] => .error .endInValue
  | c :: rest => if first then .ok (true, c :: rest) else .error .commaOrBracket
  | [] => .error .endInList

def takeBrace (cs : List Char) : Except Flaw (List Char) :=
  match skipGap cs with
  | '\x7d' :: rest => .ok rest
  | ',' :: _ => .error .trailingComma
  | _ :: _ => .error .trailing
  | [] => .error .endInObject

def takeBracket (cs : List Char) : Except Flaw (List Char) :=
  match skipGap cs with
  | ']' :: rest => .ok rest
  | ',' :: rest =>
    match skipGap rest with
    | ']' :: _ => .error .trailingComma
    | _ => .error .trailing
  | _ :: _ => .error .trailing
  | [] => .error .endInList

/-! ### Values -/

mutual

/-- The first value of a text. `depth` is how deep arrays and objects may still be nested. -/
def take : Nat → Nat → List Char → Except Flaw (Front Value)
  | 0, _, _ => .error .endInValue
  | fuel + 1, depth, cs =>
    match skipGap cs with
    | [] => .error .endInValue
    | 'n' :: rest => do return (.null, ← takeWord ['u', 'l', 'l'] rest)
    | 't' :: rest => do return (.boolean true, ← takeWord ['r', 'u', 'e'] rest)
    | 'f' :: rest => do return (.boolean false, ← takeWord ['a', 'l', 's', 'e'] rest)
    | '-' :: rest => takeNumber true rest
    | '"' :: rest => do
      let (s, rest) ← takeText rest
      return (.text s, rest)
    | '[' :: rest =>
      if depth ≤ 1 then .error .depth
      else do
        let (items, rest) ← takeItems fuel (depth - 1) true rest
        return (.array items, ← takeBracket rest)
    | '\x7b' :: rest =>
      if depth ≤ 1 then .error .depth
      else do
        let (members, rest) ← takeMembers fuel (depth - 1) true rest
        return (.object members, ← takeBrace rest)
    | c :: rest => if c.isDigit then takeNumber false (c :: rest) else .error .value

/-- The items of an array up to its bracket. -/
def takeItems : Nat → Nat → Bool → List Char → Except Flaw (Front (List Value))
  | 0, _, _, _ => .error .endInList
  | fuel + 1, depth, first, cs => do
    let (more, cs) ← nextItem first cs
    if more then
      let (v, cs) ← take fuel depth cs
      let (vs, cs) ← takeItems fuel depth false cs
      return (v :: vs, cs)
    else return ([], cs)

/-- The members of an object up to its brace. -/
def takeMembers : Nat → Nat → Bool → List Char → Except Flaw (Front (List (String × Value)))
  | 0, _, _, _ => .error .endInObject
  | fuel + 1, depth, first, cs => do
    match ← nextKey first cs with
    | (none, cs) => return ([], cs)
    | (some cs, _) =>
      let (key, cs) ← takeText cs
      let (v, cs) ← take fuel depth (← takeColon cs)
      let (vs, cs) ← takeMembers fuel depth false cs
      return ((key, v) :: vs, cs)

end

def skipScalar : List Char → Except Flaw (List Char)
  | 'n' :: rest => takeWord ['u', 'l', 'l'] rest
  | 't' :: rest => takeWord ['r', 'u', 'e'] rest
  | 'f' :: rest => takeWord ['a', 'l', 's', 'e'] rest
  | '-' :: rest => skipNumber rest
  | '"' :: rest => skipString (rest.length + 1) rest
  | c :: rest => if c.isDigit then skipNumber (c :: rest) else .error .value
  | [] => .error .endInValue

inductive Frame where
  | list | object
  deriving DecidableEq, Repr

/-- Pass what stands in front of a value in a frame: a key and its colon in an object. -/
def skipKey (frame : Frame) (cs : List Char) : Except Flaw (List Char) :=
  match frame with
  | .list => .ok cs
  | .object =>
    match skipGap cs with
    | '"' :: rest => do takeColon (← skipString (rest.length + 1) rest)
    | _ :: _ => .error .key
    | [] => .error .endInObject

/-- Go on in a frame: to its next value, or out of it at its end. -/
def advance (frame : Frame) (comma : Bool) (cs : List Char) : Except Flaw (Bool × List Char) :=
  let go (cs : List Char) : Except Flaw (Bool × List Char) := (skipKey frame cs).map (true, ·)
  match skipGap cs, frame with
  | ']' :: rest, .list => .ok (false, rest)
  | '\x7d' :: rest, .object => .ok (false, rest)
  | ',' :: rest, _ => if comma then go rest else go (',' :: rest)
  | [], .list => .error .endInList
  | [], .object => .error .endInObject
  | rest, .list => if comma then .error .commaOrBracket else go rest
  | rest, .object => if comma then .error .commaOrBrace else go rest

/-- Pass a value together with the open frames around it, the innermost first. -/
def skipFrames : Nat → List Frame → List Char → Except Flaw (List Char)
  | 0, _, _ => .error .endInValue
  | fuel + 1, frames, cs =>
    match skipGap cs with
    | '[' :: rest => leave fuel .list frames false rest
    | '\x7b' :: rest => leave fuel .object frames false rest
    | cs => do
      let rest ← skipScalar cs
      match frames with
      | [] => return rest
      | f :: frames => leave fuel f frames true rest
where
  leave (fuel : Nat) (frame : Frame) (frames : List Frame) (comma : Bool) (cs : List Char) :
      Except Flaw (List Char) :=
    match fuel with
    | 0 => .error .endInValue
    | fuel + 1 => do
      let (more, cs) ← advance frame comma cs
      if more then skipFrames fuel (frame :: frames) cs
      else match frames with
        | [] => return cs
        | f :: frames => leave fuel f frames true cs

def skipValue (cs : List Char) : Except Flaw (List Char) :=
  skipFrames (2 * cs.length + 2) [] cs

end CodeTint.Json
