import CodeTint.Text.Digits
import CodeTint.Yaml.Token

/-!
What a scalar without a tag stands for: nothing, a truth value, a number, or else its own text.
A decimal numeral with a leading zero is text, and so is a numeral too large for a double.
-/

set_option autoImplicit false
set_option relaxedAutoImplicit false

namespace CodeTint.Yaml

inductive ScalarKind where
  | null | boolean | integer | floating | text
  deriving DecidableEq, Repr

namespace Scalar

def isNullWord (s : String) : Bool := ["null", "Null", "NULL", "~"].contains s

def isBooleanWord (s : String) : Bool :=
  ["true", "True", "TRUE", "false", "False", "FALSE"].contains s

/-- Decimal digits after a leading zero: a numeral that counts as text. -/
def isPaddedNumeral (s : String) : Bool :=
  let ds := match s.toList with
    | '-' :: rest | '+' :: rest => rest
    | cs => cs
  match ds with
  | '0' :: rest => !rest.isEmpty && rest.all Char.isDigit
  | _ => false

def below? (bound base : Nat) (cs : List Char) : Option Nat :=
  (Text.numeral? base cs).filter (· < bound)

/-- The digits after the mark of base sixteen, eight or two, with that base. -/
def marked? : List Char → Option (Nat × List Char)
  | '0' :: 'x' :: rest => some (16, rest)
  | '0' :: 'o' :: rest => some (8, rest)
  | '0' :: 'b' :: rest => some (2, rest)
  | _ => none

def isSigned : List Char → Bool
  | '+' :: _ | '-' :: _ => true
  | _ => false

/-- The value of an unsigned numeral below a bound: decimal, or marked with its base. -/
def natural? (bound : Nat) (s : String) : Option Nat :=
  let cs := match s.toList with
    | '+' :: rest => rest
    | cs => cs
  let decimal : Option Nat :=
    if isSigned cs || isPaddedNumeral s then none else below? bound 10 cs
  match marked? cs with
  | some (base, rest) => if isSigned rest then none else (below? bound base rest).or decimal
  | none => decimal

/-- A negative numeral whose magnitude is at most a bound. -/
def isNegative (bound : Nat) (s : String) : Bool :=
  match s.toList with
  | '-' :: rest =>
    let decimal := !isPaddedNumeral s && (below? (bound + 1) 10 rest).isSome
    match marked? rest with
    | some (base, ds) => (below? (bound + 1) base ds).isSome || decimal
    | none => decimal
  | _ => false

/-- Significant digits and decimal exponent of a decimal numeral without a sign. -/
def decimalParts? (cs : List Char) : Option (List Char × Int) :=
  let whole := cs.takeWhile Char.isDigit
  let rest := cs.drop whole.length
  let (fraction, rest) := match rest with
    | '.' :: more => (more.takeWhile Char.isDigit, more.dropWhile Char.isDigit)
    | _ => ([], rest)
  let digits := whole ++ fraction
  let shift : Int := -fraction.length
  if digits.isEmpty then none
  else match rest with
    | [] => some (digits, shift)
    | e :: more =>
      if e == 'e' || e == 'E' then
        match more with
        | '-' :: ds => (Text.numeral? 10 ds).map fun n => (digits, shift - n)
        | '+' :: ds => (Text.numeral? 10 ds).map fun n => (digits, shift + n)
        | ds => (Text.numeral? 10 ds).map fun n => (digits, shift + n)
      else none

def doubleBound : Nat := Nat.pow 2 1024 - Nat.pow 2 970

/-- The value of the digits, scaled by a power of ten, rounds to a finite double. -/
def fitsDouble (digits : List Char) (exponent : Int) : Bool :=
  let ds := digits.dropWhile (· == '0')
  let order : Int := ds.length + exponent
  if ds.isEmpty || order < 300 then true
  else if order > 310 then false
  else
    let n := (Text.numeral? 10 ds).getD 0
    if exponent ≥ 0 then n * Nat.pow 10 exponent.toNat < doubleBound
    else n < doubleBound * Nat.pow 10 (-exponent).toNat

/-- A numeral of a double: decimal, infinite or undefined. -/
def isFloating (s : String) : Bool :=
  let unsigned := match s.toList with
    | '+' :: rest => rest
    | cs => cs
  let signedTwice := s.toList.head? == some '+' && isSigned unsigned
  let decimal := match unsigned with
    | '-' :: rest => rest
    | cs => cs
  let word := String.ofList unsigned
  !signedTwice &&
    ([".inf", ".Inf", ".INF"].contains word ||
      ["-.inf", "-.Inf", "-.INF", ".nan", ".NaN", ".NAN"].contains s ||
      (match decimalParts? decimal with
        | some (digits, exponent) => fitsDouble digits exponent
        | none => false))

def kind (s : String) : ScalarKind :=
  if s = "" || isNullWord s then .null
  else if isBooleanWord s then .boolean
  else if (natural? (Nat.pow 2 128) s).isSome || isNegative (Nat.pow 2 127) s then .integer
  else if !isPaddedNumeral s && isFloating s then .floating
  else .text

end Scalar

end CodeTint.Yaml
