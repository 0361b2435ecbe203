import CodeTint.Text.Digits

/-!
Colors with an opacity, and their hexadecimal texts. A written color reads back as itself:
`ofHex_toHex` in the theory of themes rests on the two definitions here.
-/

set_option autoImplicit false
set_option relaxedAutoImplicit false

namespace CodeTint

/-- Red, green, blue and opacity, each from 0 to 255. -/
structure Color where
  red : UInt8
  green : UInt8
  blue : UInt8
  alpha : UInt8 := 255
  deriving DecidableEq, Repr, Inhabited

inductive ColorError where
  /-- The text, given without its leading number signs, has a wrong length or leaves ASCII. -/
  | format (text : String)
  | digit
  deriving DecidableEq, Repr

namespace ColorError

def message : ColorError → String
  | .format text => "Invalid color format: " ++ text
  | .digit => "invalid digit found in string"

end ColorError

namespace Color

def channel (a b : Char) : Except ColorError UInt8 :=
  match Text.signedNumeral? 16 [a, b] with
  | some n => .ok (UInt8.ofNat n)
  | none => .error .digit

/-- The color written by the given digits, which follow the leading number signs. -/
def ofDigits (cs : List Char) : Except ColorError Color :=
  if cs.all (fun c => c.toNat < 128) then
    match cs with
    | [r₁, r₂, g₁, g₂, b₁, b₂] => do
      return { red := ← channel r₁ r₂, green := ← channel g₁ g₂, blue := ← channel b₁ b₂ }
    | [r₁, r₂, g₁, g₂, b₁, b₂, a₁, a₂] => do
      return { red := ← channel r₁ r₂, green := ← channel g₁ g₂, blue := ← channel b₁ b₂,
               alpha := ← channel a₁ a₂ }
    | _ => .error (.format (String.ofList cs))
  else .error (.format (String.ofList cs))

def ofHex (text : String) : Except ColorError Color :=
  ofDigits (text.toList.dropWhile (· == '#'))

def channelHex (n : UInt8) : List Char :=
  Text.upperHex 2 n.toNat

def toHex (c : Color) : String :=
  let opaqueDigits := channelHex c.red ++ channelHex c.green ++ channelHex c.blue
  let digits := if c.alpha == 255 then opaqueDigits else opaqueDigits ++ channelHex c.alpha
  String.ofList ('#' :: digits)

end Color

end CodeTint
