/-!
Doubles as integers times powers of two: the double nearest to a fraction, and the shortest decimal
digits that are read back as the same double.
-/

set_option autoImplicit false
set_option relaxedAutoImplicit false

namespace CodeTint

structure Double where
  mantissa : Nat
  exponent : Int
  deriving DecidableEq, Repr

namespace Double

def divEven (num den : Nat) : Nat :=
  let q := num / den
  let r := num % den
  if 2 * r > den || (2 * r == den && q % 2 == 1) then q + 1 else q

def scaled (num den : Nat) (e : Int) : Nat × Nat :=
  if e ≥ 0 then (num, den * Nat.pow 2 e.toNat) else (num * Nat.pow 2 (-e).toNat, den)

/-- The exponent at which a fraction has 53 binary digits before the point, never below that of
the smallest double. -/
def exponentFor (num den : Nat) : Int :=
  let guess : Int := (Nat.log2 num : Int) - (Nat.log2 den : Int) - 53
  let fits (e : Int) : Bool :=
    let (n, d) := scaled num den e
    n < d * Nat.pow 2 53
  let e := if fits guess then guess else if fits (guess + 1) then guess + 1 else guess + 2
  max e (-1074)

/-- The double nearest to a positive fraction; nothing if that is infinite. -/
def nearest? (num den : Nat) : Option Double :=
  let e := exponentFor num den
  let (n, d) := scaled num den e
  let m := divEven n d
  let (m, e) := if m == Nat.pow 2 53 then (Nat.pow 2 52, e + 1) else (m, e)
  if e > 971 then none else some ⟨m, e⟩

def fraction (x : Double) : Nat × Nat :=
  if x.exponent ≥ 0 then (x.mantissa * Nat.pow 2 x.exponent.toNat, 1)
  else (x.mantissa, Nat.pow 2 (-x.exponent).toNat)

def mul? (x y : Double) : Option Double :=
  nearest? (x.fraction.1 * y.fraction.1) (x.fraction.2 * y.fraction.2)

def div? (x y : Double) : Option Double :=
  nearest? (x.fraction.1 * y.fraction.2) (x.fraction.2 * y.fraction.1)

def powerOfTen (k : Nat) : Double :=
  (nearest? (Nat.pow 10 k) 1).getD ⟨1, 0⟩

structure Digits where
  digits : Nat
  exponent : Int
  deriving DecidableEq, Repr

/-- A double as a fraction with four times its unit in the last place, so that the ends of its
interval are whole numbers. -/
def quarters (x : Double) : Nat × Nat :=
  if x.exponent ≥ 0 then (4 * x.mantissa * Nat.pow 2 x.exponent.toNat, 4)
  else (4 * x.mantissa, 4 * Nat.pow 2 (-x.exponent).toNat)

def quarterUnit (x : Double) : Nat :=
  if x.exponent ≥ 0 then Nat.pow 2 x.exponent.toNat else 1

/-- Whether a decimal is read back as the double. -/
def readsBack (x : Double) (d : Digits) : Bool :=
  let (n, den) := x.quarters
  let u := x.quarterUnit
  let low := if x.mantissa == Nat.pow 2 52 && x.exponent > -1074 then n - u else n - 2 * u
  let high := n + 2 * u
  let (a, b) := if d.exponent ≥ 0 then (d.digits * Nat.pow 10 d.exponent.toNat, 1)
    else (d.digits, Nat.pow 10 (-d.exponent).toNat)
  let (v, low, high) := (a * den, low * b, high * b)
  if x.mantissa % 2 == 0 then low ≤ v && v ≤ high else low < v && v < high

/-- The power of ten that the first digit of a positive fraction stands for. -/
def leading (num den : Nat) : Int :=
  let digits (n : Nat) : Int := (Nat.toDigits 10 n).length
  let guess := digits num - digits den
  let least := if guess ≥ 0 then den * Nat.pow 10 guess.toNat else den
  let value := if guess ≥ 0 then num else num * Nat.pow 10 (-guess).toNat
  if value ≥ least then guess else guess - 1

/-- The two decimals with a number of digits that enclose a double, the nearer one first. -/
def neighbours (x : Double) (count : Nat) : List Digits :=
  let (num, den) := x.quarters
  let k := leading num den - (count : Int) + 1
  let (n, d) := if k ≥ 0 then (num, den * Nat.pow 10 k.toNat)
    else (num * Nat.pow 10 (-k).toNat, den)
  let q := n / d
  let r := n % d
  if r == 0 then [⟨q, k⟩]
  else if 2 * r < d || (2 * r == d && q % 2 == 0) then [⟨q, k⟩, ⟨q + 1, k⟩]
  else [⟨q + 1, k⟩, ⟨q, k⟩]

/-- The shortest decimal that is read back as a positive double, the nearest of that length. -/
def shortest (x : Double) : Digits :=
  ((List.range 17).findSome? fun i => (neighbours x (i + 1)).find? (readsBack x)).getD
    ⟨x.mantissa, 0⟩

end Double

end CodeTint
