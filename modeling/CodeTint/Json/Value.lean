import CodeTint.Decimal.Double
import CodeTint.Text.Digits
import CodeTint.Text.Blank
import CodeTint.Text.Hidden

/-!
JSON values as they were written: the members of an object keep their order and may recur, and a
number with a fraction or an exponent keeps as many of its digits as fit 64 bits.
-/

set_option autoImplicit false
set_option relaxedAutoImplicit false

namespace CodeTint.Json

/-- A number as a decimal: sign, significant digits and power of ten. -/
structure Decimal where
  negative : Bool
  digits : Nat
  exponent : Int
  deriving DecidableEq, Repr, Inhabited

/-- A JSON value. -/
inductive Value where
  | null
  | boolean (b : Bool)
  | natural (n : Nat)
  /-- A negative integer of at most 63 bits, given by its magnitude. -/
  | negative (n : Nat)
  | decimal (d : Decimal)
  | text (s : String)
  | array (items : List Value)
  | object (members : List (String × Value))
  deriving Repr, Inhabited

inductive Flaw where
  | endInList | endInObject | endInString | endInValue
  | colon | commaOrBracket | commaOrBrace | word | value | escape | number | numberRange
  | controlCharacter | key | loneSurrogate | trailingComma | trailing | surrogatePair | depth
  deriving DecidableEq, Repr

def Flaw.message : Flaw → String
  | .endInList => "EOF while parsing a list"
  | .endInObject => "EOF while parsing an object"
  | .endInString => "EOF while parsing a string"
  | .endInValue => "EOF while parsing a value"
  | .colon => "expected \x60:\x60"
  | .commaOrBracket => "expected \x60,\x60 or \x60]\x60"
  | .commaOrBrace => "expected \x60,\x60 or \x60\x7d\x60"
  | .word => "expected ident"
  | .value => "expected value"
  | .escape => "invalid escape"
  | .number => "invalid number"
  | .numberRange => "number out of range"
  | .controlCharacter =>
    "control character (\\u0000-\\u001F) found while parsing a string"
  | .key => "key must be a string"
  | .loneSurrogate => "lone leading surrogate in hex escape"
  | .trailingComma => "trailing comma"
  | .trailing => "trailing characters"
  | .surrogatePair => "unexpected end of hex escape"
  | .depth => "recursion limit exceeded"

/-- Why a text gives no value of the wanted shape. -/
inductive ReadError where
  | flaw (f : Flaw)
  | invalidType (found : Value) (wanted : String)
  | invalidValue (found : Value) (wanted : String)
  | invalidLength (found : Nat) (wanted : String)
  | unknownVariant (name : String) (variants : List String)
  | missingField (name : String)
  | duplicateField (name : String)
  deriving Repr

namespace Decimal

/-- The decimal of a whole part and a fraction: digits are taken while they fit 64 bits, and those
of the whole part that do not fit only raise the exponent. -/
def ofDigits (negative : Bool) (whole fraction : List Char) : Decimal :=
  let start := whole.foldl wholeStep ⟨negative, 0, 0⟩
  (fraction.foldl fractionStep (start, true)).1
where
  append? (n : Nat) (c : Char) : Option Nat :=
    let m := 10 * n + (Text.digitIn? 10 c).getD 0
    if m < Nat.pow 2 64 then some m else none
  wholeStep (d : Decimal) (c : Char) : Decimal :=
    match if d.exponent == 0 then append? d.digits c else none with
    | some m => { d with digits := m }
    | none => { d with exponent := d.exponent + 1 }
  /-- One more digit of the fraction, as long as none was left out. -/
  fractionStep (s : Decimal × Bool) (c : Char) : Decimal × Bool :=
    match if s.2 then append? s.1.digits c else none with
    | some m => ({ s.1 with digits := m, exponent := s.1.exponent - 1 }, true)
    | none => (s.1, false)

/-- The double that a decimal is read as: nothing for zero, failure for one too large. The digits
are rounded first, then the power of ten, then their product or quotient; a power below 10^-308 is
divided by in two steps. -/
def toDouble? (d : Decimal) : Option (Option Double) :=
  if d.digits == 0 then some none
  else if d.exponent > 308 then none
  else if d.exponent < -616 then some none
  else
    let found := (Double.nearest? d.digits 1).bind fun digits =>
      if d.exponent ≥ 0 then digits.mul? (Double.powerOfTen d.exponent.toNat)
      else if d.exponent ≥ -308 then digits.div? (Double.powerOfTen (-d.exponent).toNat)
      else (digits.div? (Double.powerOfTen 308)).bind
        (·.div? (Double.powerOfTen (-d.exponent - 308).toNat))
    found.map fun x => if x.mantissa == 0 then none else some x

def pointed (digits : List Char) (n : Nat) : List Char :=
  let k := digits.length - n
  digits.take k ++ '.' :: digits.drop k

def exponentText (e : Int) : List Char :=
  (if e < 0 then '-' else '+') :: Nat.toDigits 10 e.natAbs

/-- The shortest text of a double: positional between 10^-5 and 10^16, with an exponent beyond. -/
def text (d : Decimal) : String :=
  let unsigned : List Char :=
    match d.toDouble? with
    | some (some x) =>
      let s := x.shortest
      let digits := (toString s.digits).toList
      let zeros := (digits.reverse.takeWhile (· == '0')).length
      let digits := digits.take (digits.length - zeros)
      let k : Int := s.exponent + zeros
      let point : Int := digits.length + k
      if 0 ≤ k && point ≤ 16 then digits ++ List.replicate k.toNat '0' ++ ['.', '0']
      else if 0 < point && point ≤ 16 then pointed digits (-k).toNat
      else if -5 < point && point ≤ 0 then
        '0' :: '.' :: List.replicate (-point).toNat '0' ++ digits
      else
        let whole := digits.take 1
        let fraction := digits.drop 1
        whole ++ (if fraction.isEmpty then [] else '.' :: fraction) ++
          'e' :: exponentText (point - 1)
    | _ => ['0', '.', '0']
  String.ofList (if d.negative then '-' :: unsigned else unsigned)

end Decimal

def codeDigits (n : Nat) : List Char := Nat.toDigits 16 n

/-- A text in quotes as messages show it. -/
def quoted (s : String) : String :=
  String.ofList <| '"' :: (s.toList.flatMap fun c =>
    if c == '"' then ['\\', '"']
    else if c == '\\' then ['\\', '\\']
    else if c == '\n' then ['\\', 'n']
    else if c == '\r' then ['\\', 'r']
    else if c == '\t' then ['\\', 't']
    else if c == '\x00' then ['\\', '0']
    else if Text.isHidden c then '\\' :: 'u' :: '\x7b' :: codeDigits c.toNat ++ ['\x7d']
    else [c]) ++ ['"']

def ticked (s : String) : String := "\x60" ++ s ++ "\x60"

def Value.described : Value → String
  | .null => "null"
  | .boolean b => "boolean " ++ ticked (if b then "true" else "false")
  | .natural n => "integer " ++ ticked (toString n)
  | .negative n => "integer " ++ ticked ("-" ++ toString n)
  | .decimal d => "floating point " ++ ticked d.text
  | .text s => "string " ++ quoted s
  | .array _ => "sequence"
  | .object _ => "map"

def ReadError.message : ReadError → String
  | .flaw f => f.message
  | .invalidType found wanted => "invalid type: " ++ found.described ++ ", expected " ++ wanted
  | .invalidValue found wanted => "invalid value: " ++ found.described ++ ", expected " ++ wanted
  | .invalidLength n wanted => "invalid length " ++ toString n ++ ", expected " ++ wanted
  | .unknownVariant name variants =>
    "unknown variant " ++ ticked name ++ ", expected one of " ++
      Text.join ", " (variants.map ticked)
  | .missingField name => "missing field " ++ ticked name
  | .duplicateField name => "duplicate field " ++ ticked name

end CodeTint.Json
