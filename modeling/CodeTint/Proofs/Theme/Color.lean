import CodeTint.Proofs.Attempt
import CodeTint.Proofs.Text.Digits
import CodeTint.Style.Color

/-!
What texts are read as colors. A color is written with two hexadecimal digits for each channel, and
reading accepts whatever is written so; but it takes a numeral for each channel, and a numeral of
one digit may have a plus sign in front of it. Main statement: the accepted texts are those that
spell three or four channels after their number signs, the hexadecimal colors are the accepted texts
without a plus sign, and every color reads back from its own text.
-/

set_option autoImplicit false
set_option relaxedAutoImplicit false

namespace CodeTint

namespace Color

open Text (IsHexDigit digitValue?)

/-- Two characters that spell a channel: two digits, or a plus sign and one digit. -/
inductive Channel : List Char → UInt8 → Prop
  | digits {a b : Char} {high low : Nat} : digitValue? a = some high → digitValue? b = some low →
      Channel [a, b] (UInt8.ofNat (16 * high + low))
  | plus {b : Char} {low : Nat} : digitValue? b = some low → Channel ['+', b] (UInt8.ofNat low)

/-- Characters that spell a color: three channels, or four of which the last is the opacity. -/
inductive Spelled : List Char → Color → Prop
  | solid {r g b : List Char} {red green blue : UInt8} :
      Channel r red → Channel g green → Channel b blue →
      Spelled (r ++ g ++ b) { red, green, blue }
  | translucent {r g b a : List Char} {red green blue alpha : UInt8} :
      Channel r red → Channel g green → Channel b blue → Channel a alpha →
      Spelled (r ++ g ++ b ++ a) { red, green, blue, alpha }

/-- What follows the leading number signs. -/
def afterSigns (text : String) : List Char := text.toList.dropWhile (· == '#')

/-- Six or eight hexadecimal digits follow the leading number signs. -/
def IsHex (text : String) : Prop :=
  ((afterSigns text).length = 6 ∨ (afterSigns text).length = 8) ∧
    ∀ c ∈ afterSigns text, IsHexDigit c

private theorem channel_eq_ok_iff {a b : Char} {n : UInt8} :
    channel a b = .ok n ↔ Channel [a, b] n := by
  have spelled : Channel [a, b] n ↔ (∃ high low, digitValue? a = some high ∧
      digitValue? b = some low ∧ n = UInt8.ofNat (16 * high + low)) ∨
      (a = '+' ∧ ∃ low, digitValue? b = some low ∧ n = UInt8.ofNat low) := by
    constructor
    · rintro (⟨first, second⟩ | ⟨second⟩)
      · exact .inl ⟨_, _, first, second, rfl⟩
      · exact .inr ⟨rfl, _, second, rfl⟩
    · rintro (⟨high, low, first, second, rfl⟩ | ⟨rfl, low, second, rfl⟩)
      · exact .digits first second
      · exact .plus second
  have read : channel a b = .ok n ↔
      ∃ value, Text.signedNumeral? 16 [a, b] = some value ∧ n = UInt8.ofNat value := by
    unfold channel
    cases Text.signedNumeral? 16 [a, b] <;> simp [eq_comm]
  rw [spelled, read]
  by_cases sign : a = '+'
  · subst sign
    have none : digitValue? '+' = none := rfl
    simp [Text.signedNumeral?, Text.numeral?_single, none]
  · have unsigned : Text.signedNumeral? 16 [a, b] = Text.numeral? 16 [a, b] := by
      unfold Text.signedNumeral?
      split
      · simp_all
      · rfl
    simp only [unsigned, Text.numeral?_pair, sign, false_and, or_false]
    grind

private theorem Channel.exists_pair {ds : List Char} {n : UInt8} (spelled : Channel ds n) :
    ∃ a b, ds = [a, b] ∧ a.toNat < 128 ∧ b.toNat < 128 := by
  have ascii : ∀ {c : Char} {n : Nat}, digitValue? c = some n → c.toNat < 128 :=
    fun value => (Text.exists_digitValue?_iff.mp ⟨_, value⟩).toNat_lt
  cases spelled with
  | digits first second => exact ⟨_, _, rfl, ascii first, ascii second⟩
  | plus second => exact ⟨_, _, rfl, by decide, ascii second⟩

private theorem ofDigits_of_spelled {cs : List Char} {c : Color} (spelled : Spelled cs c) :
    ofDigits cs = .ok c := by
  cases spelled with
  | solid r g b =>
    obtain ⟨r₁, r₂, rfl, _, _⟩ := r.exists_pair
    obtain ⟨g₁, g₂, rfl, _, _⟩ := g.exists_pair
    obtain ⟨b₁, b₂, rfl, _, _⟩ := b.exists_pair
    rw [← channel_eq_ok_iff] at r g b
    simp [ofDigits, *]
    rfl
  | translucent r g b a =>
    obtain ⟨r₁, r₂, rfl, _, _⟩ := r.exists_pair
    obtain ⟨g₁, g₂, rfl, _, _⟩ := g.exists_pair
    obtain ⟨b₁, b₂, rfl, _, _⟩ := b.exists_pair
    obtain ⟨a₁, a₂, rfl, _, _⟩ := a.exists_pair
    rw [← channel_eq_ok_iff] at r g b a
    simp [ofDigits, *]
    rfl

private theorem spelled_of_ofDigits {cs : List Char} {c : Color} (read : ofDigits cs = .ok c) :
    Spelled cs c := by
  unfold ofDigits at read
  split at read
  · split at read
    · obtain ⟨red, r, read⟩ := bind_eq_ok_iff.mp read
      obtain ⟨green, g, read⟩ := bind_eq_ok_iff.mp read
      obtain ⟨blue, b, read⟩ := bind_eq_ok_iff.mp read
      cases read
      exact .solid (channel_eq_ok_iff.mp r) (channel_eq_ok_iff.mp g) (channel_eq_ok_iff.mp b)
    · obtain ⟨red, r, read⟩ := bind_eq_ok_iff.mp read
      obtain ⟨green, g, read⟩ := bind_eq_ok_iff.mp read
      obtain ⟨blue, b, read⟩ := bind_eq_ok_iff.mp read
      obtain ⟨alpha, a, read⟩ := bind_eq_ok_iff.mp read
      cases read
      exact .translucent (channel_eq_ok_iff.mp r) (channel_eq_ok_iff.mp g)
        (channel_eq_ok_iff.mp b) (channel_eq_ok_iff.mp a)
    · cases read
  · cases read

private theorem ofHex_eq_ok_iff {text : String} {c : Color} :
    ofHex text = .ok c ↔ Spelled (afterSigns text) c :=
  ⟨spelled_of_ofDigits, ofDigits_of_spelled⟩

/-! Hexadecimal colors. -/

private theorem exists_spelled {cs : List Char} (count : cs.length = 6 ∨ cs.length = 8)
    (digits : ∀ c ∈ cs, IsHexDigit c) : ∃ c, Spelled cs c := by
  have pair : ∀ a ∈ cs, ∀ b ∈ cs, ∃ n, Channel [a, b] n := by
    intro a first b second
    obtain ⟨high, first⟩ := Text.exists_digitValue?_iff.mpr (digits a first)
    obtain ⟨low, second⟩ := Text.exists_digitValue?_iff.mpr (digits b second)
    exact ⟨_, .digits first second⟩
  rcases count with six | eight
  · match cs, six with
    | [r₁, r₂, g₁, g₂, b₁, b₂], _ =>
      obtain ⟨red, r⟩ := pair r₁ (by simp) r₂ (by simp)
      obtain ⟨green, g⟩ := pair g₁ (by simp) g₂ (by simp)
      obtain ⟨blue, b⟩ := pair b₁ (by simp) b₂ (by simp)
      exact ⟨_, .solid r g b⟩
  · match cs, eight with
    | [r₁, r₂, g₁, g₂, b₁, b₂, a₁, a₂], _ =>
      obtain ⟨red, r⟩ := pair r₁ (by simp) r₂ (by simp)
      obtain ⟨green, g⟩ := pair g₁ (by simp) g₂ (by simp)
      obtain ⟨blue, b⟩ := pair b₁ (by simp) b₂ (by simp)
      obtain ⟨alpha, a⟩ := pair a₁ (by simp) a₂ (by simp)
      exact ⟨_, .translucent r g b a⟩

private theorem Channel.isHexDigit {ds : List Char} {n : UInt8} (spelled : Channel ds n)
    (unsigned : '+' ∉ ds) : ds.length = 2 ∧ ∀ c ∈ ds, IsHexDigit c := by
  cases spelled with
  | digits first second =>
    have high := Text.exists_digitValue?_iff.mp ⟨_, first⟩
    have low := Text.exists_digitValue?_iff.mp ⟨_, second⟩
    simp [high, low]
  | plus second => simp at unsigned

private theorem Spelled.isHexDigit {ds : List Char} {c : Color} (spelled : Spelled ds c)
    (unsigned : '+' ∉ ds) : (ds.length = 6 ∨ ds.length = 8) ∧ ∀ c ∈ ds, IsHexDigit c := by
  cases spelled with
  | solid r g b =>
    simp only [List.mem_append, not_or] at unsigned
    obtain ⟨⟨noR, noG⟩, noB⟩ := unsigned
    obtain ⟨countR, r⟩ := r.isHexDigit noR
    obtain ⟨countG, g⟩ := g.isHexDigit noG
    obtain ⟨countB, b⟩ := b.isHexDigit noB
    refine ⟨by simp [*], ?_⟩
    simp only [List.mem_append]
    grind
  | translucent r g b a =>
    simp only [List.mem_append, not_or] at unsigned
    obtain ⟨⟨⟨noR, noG⟩, noB⟩, noA⟩ := unsigned
    obtain ⟨countR, r⟩ := r.isHexDigit noR
    obtain ⟨countG, g⟩ := g.isHexDigit noG
    obtain ⟨countB, b⟩ := b.isHexDigit noB
    obtain ⟨countA, a⟩ := a.isHexDigit noA
    refine ⟨by simp [*], ?_⟩
    simp only [List.mem_append]
    grind

private theorem mem_afterSigns {text : String} {c : Char} (other : c ≠ '#') :
    c ∈ afterSigns text ↔ c ∈ text.toList := by
  unfold afterSigns
  induction text.toList with
  | nil => simp
  | cons first rest ih =>
    rw [List.dropWhile_cons]
    split
    · next sign =>
      have differ : c ≠ first := by simp_all
      simp [ih, differ]
    · rfl

private theorem isHex_iff {text : String} :
    IsHex text ↔ '+' ∉ text.toList ∧ ∃ c, ofHex text = .ok c := by
  have inside : '+' ∈ afterSigns text ↔ '+' ∈ text.toList := mem_afterSigns (by decide)
  simp only [ofHex_eq_ok_iff, ← inside]
  constructor
  · rintro ⟨count, digits⟩
    exact ⟨fun plus => absurd (digits _ plus) (by decide), exists_spelled count digits⟩
  · rintro ⟨unsigned, c, spelled⟩
    exact spelled.isHexDigit unsigned

/-! Colors that are written. -/

private theorem channelHex_eq (n : UInt8) :
    channelHex n = [Text.upperDigit (n.toNat / 16), Text.upperDigit (n.toNat % 16)] := by
  have small := n.toNat_lt
  have high : n.toNat / 16 < 16 := by omega
  simp [channelHex, Text.upperHex, List.range_succ, Nat.mod_eq_of_lt high]

private theorem digitValue?_channelHex (n : UInt8) :
    digitValue? (Text.upperDigit (n.toNat / 16)) = some (n.toNat / 16) ∧
      digitValue? (Text.upperDigit (n.toNat % 16)) = some (n.toNat % 16) := by
  have small := n.toNat_lt
  exact ⟨Text.digitValue?_upperDigit (by omega), Text.digitValue?_upperDigit (by omega)⟩

private theorem channel_channelHex (n : UInt8) : Channel (channelHex n) n := by
  obtain ⟨high, low⟩ := digitValue?_channelHex n
  have value : UInt8.ofNat (16 * (n.toNat / 16) + n.toNat % 16) = n := by
    rw [Nat.div_add_mod, UInt8.ofNat_toNat]
  have spelled := Channel.digits high low
  rwa [value, ← channelHex_eq] at spelled

private theorem isHexDigit_of_mem_channelHex {n : UInt8} {c : Char} (member : c ∈ channelHex n) :
    IsHexDigit c := by
  obtain ⟨high, low⟩ := digitValue?_channelHex n
  rw [channelHex_eq] at member
  rcases List.mem_pair.mp member with rfl | rfl
  · exact Text.exists_digitValue?_iff.mp ⟨_, high⟩
  · exact Text.exists_digitValue?_iff.mp ⟨_, low⟩

def hexDigits (c : Color) : List Char :=
  channelHex c.red ++ channelHex c.green ++ channelHex c.blue ++
    if c.alpha == 255 then [] else channelHex c.alpha

private theorem isHexDigit_of_mem_hexDigits {c : Color} {d : Char} (member : d ∈ hexDigits c) :
    IsHexDigit d := by
  unfold hexDigits at member
  split at member <;> simp only [List.append_nil, List.mem_append] at member <;>
    grind [isHexDigit_of_mem_channelHex]

private theorem spelled_hexDigits (c : Color) : Spelled (hexDigits c) c := by
  have red := channel_channelHex c.red
  have green := channel_channelHex c.green
  have blue := channel_channelHex c.blue
  have alpha := channel_channelHex c.alpha
  unfold hexDigits
  split
  · next full =>
    obtain ⟨r, g, b, a⟩ := c
    obtain rfl : a = 255 := by simpa using full
    simpa using Spelled.solid red green blue
  · exact .translucent red green blue alpha

private theorem afterSigns_toHex (c : Color) : afterSigns c.toHex = hexDigits c := by
  have written : c.toHex = String.ofList ('#' :: hexDigits c) := by
    unfold toHex hexDigits
    split <;> simp [*]
  have first : ∀ d ∈ (hexDigits c).head?, ¬d = '#' := by
    rintro d member rfl
    exact absurd (isHexDigit_of_mem_hexDigits (List.mem_of_mem_head? member)) (by decide)
  rw [written, afterSigns, String.toList_ofList, List.dropWhile_cons_of_pos (by decide)]
  cases digits : hexDigits c with
  | nil => rfl
  | cons d rest =>
    rw [List.dropWhile_cons_of_neg]
    simpa using first d (by simp [digits])

private theorem ofHex_toHex (c : Color) : ofHex c.toHex = .ok c := by
  rw [ofHex_eq_ok_iff, afterSigns_toHex]
  exact spelled_hexDigits c

/-- The accepted texts are those that spell three or four channels. Of these the hexadecimal colors
are those without a plus sign, and the text of a color is one of them that reads back as it. -/
theorem accepted_iff_spelled (text : String) (c : Color) :
    (ofHex text = .ok c ↔ Spelled (afterSigns text) c) ∧
      (IsHex text ↔ '+' ∉ text.toList ∧ ∃ c, ofHex text = .ok c) ∧
      IsHex c.toHex ∧ ofHex c.toHex = .ok c := by
  have own := ofHex_toHex c
  refine ⟨ofHex_eq_ok_iff, isHex_iff, isHex_iff.mpr ⟨fun plus => ?_, c, own⟩, own⟩
  rw [← mem_afterSigns (by decide), afterSigns_toHex] at plus
  exact absurd (isHexDigit_of_mem_hexDigits plus) (by decide)

/-- A plus sign and a digit stand for a channel, so not only hexadecimal colors are accepted. -/
theorem accepts_plus_signs :
    ofHex "#+1+2+3" = .ok ⟨1, 2, 3, 255⟩ ∧
      ¬∀ text, (∃ c, ofHex text = .ok c) ↔ IsHex text := by
  have accepted : ofHex "#+1+2+3" = .ok ⟨1, 2, 3, 255⟩ := by decide +kernel
  refine ⟨accepted, fun always => ?_⟩
  exact (isHex_iff.mp ((always "#+1+2+3").mp ⟨_, accepted⟩)).1 (by decide)

end Color

end CodeTint
