/-!
Numerals read from characters: digits of a base up to sixteen, and the two digit forms that colors
are written in.
-/

set_option autoImplicit false
set_option relaxedAutoImplicit false

namespace CodeTint.Text

def digitValue? (c : Char) : Option Nat :=
  if '0' ≤ c && c ≤ '9' then some (c.toNat - '0'.toNat)
  else if 'a' ≤ c && c ≤ 'f' then some (c.toNat - 'a'.toNat + 10)
  else if 'A' ≤ c && c ≤ 'F' then some (c.toNat - 'A'.toNat + 10)
  else none

def digitIn? (base : Nat) (c : Char) : Option Nat :=
  (digitValue? c).filter (· < base)

/-- Extend the value `acc` by the digits of a numeral, most significant first. -/
def foldDigits? (base : Nat) : Nat → List Char → Option Nat
  | acc, [] => some acc
  | acc, c :: rest => do
    let d ← digitIn? base c
    foldDigits? base (acc * base + d) rest

def numeral? (base : Nat) (cs : List Char) : Option Nat :=
  if cs.isEmpty then none else foldDigits? base 0 cs

def signedNumeral? (base : Nat) : List Char → Option Nat
  | '+' :: rest => numeral? base rest
  | cs => numeral? base cs

def upperDigit (n : Nat) : Char :=
  if n < 10 then Char.ofNat ('0'.toNat + n) else Char.ofNat ('A'.toNat + (n - 10))

def lowerDigit (n : Nat) : Char :=
  if n < 10 then Char.ofNat ('0'.toNat + n) else Char.ofNat ('a'.toNat + (n - 10))

def upperHex (width : Nat) (n : Nat) : List Char :=
  (List.range width).reverse.map fun i => upperDigit (n / Nat.pow 16 i % 16)

def lowerHex (width : Nat) (n : Nat) : List Char :=
  (List.range width).reverse.map fun i => lowerDigit (n / Nat.pow 16 i % 16)

end CodeTint.Text
