import CodeTint.Text.Digits
import Mathlib.Tactic.SplitIfs

/-!
Digits of base sixteen, and the numerals of one or two of them.
-/

set_option autoImplicit false
set_option relaxedAutoImplicit false

namespace CodeTint.Text

/-- A digit of base sixteen, in either case. -/
def IsHexDigit (c : Char) : Prop :=
  ('0' ≤ c ∧ c ≤ '9') ∨ ('a' ≤ c ∧ c ≤ 'f') ∨ ('A' ≤ c ∧ c ≤ 'F')

instance (c : Char) : Decidable (IsHexDigit c) := by
  unfold IsHexDigit
  infer_instance

theorem exists_digitValue?_iff {c : Char} : (∃ n, digitValue? c = some n) ↔ IsHexDigit c := by
  unfold digitValue? IsHexDigit
  split_ifs <;> simp_all

private theorem digitValue?_lt {c : Char} {n : Nat} (value : digitValue? c = some n) : n < 16 := by
  have bounds : ∀ {a b : Char}, a ≤ b ↔ a.toNat ≤ b.toNat := Iff.rfl
  unfold digitValue? at value
  split_ifs at value with decimal lower upper
  all_goals
    simp only [Bool.and_eq_true, decide_eq_true_eq, bounds, Char.reduceToNat] at *
    simp only [Option.some.injEq] at value
    omega

theorem IsHexDigit.toNat_lt {c : Char} (digit : IsHexDigit c) : c.toNat < 128 := by
  have bounds : ∀ {a b : Char}, a ≤ b ↔ a.toNat ≤ b.toNat := Iff.rfl
  simp only [IsHexDigit, bounds, Char.reduceToNat] at digit
  omega

theorem digitIn?_sixteen (c : Char) : digitIn? 16 c = digitValue? c := by
  unfold digitIn?
  cases value : digitValue? c with
  | none => rfl
  | some n => simp [Option.filter, digitValue?_lt value]

theorem digitValue?_upperDigit {n : Nat} (small : n < 16) :
    digitValue? (upperDigit n) = some n := by
  have all : ∀ n < 16, digitValue? (upperDigit n) = some n := by decide
  exact all n small

theorem numeral?_pair {a b : Char} {n : Nat} :
    numeral? 16 [a, b] = some n ↔
      ∃ high low, digitValue? a = some high ∧ digitValue? b = some low ∧ n = 16 * high + low := by
  unfold numeral?
  simp only [List.isEmpty_cons, Bool.false_eq_true, if_false, foldDigits?, digitIn?_sixteen,
    Option.bind_eq_bind, Option.bind_eq_some_iff, Option.some.injEq]
  constructor
  · rintro ⟨high, first, low, second, rfl⟩
    exact ⟨high, low, first, second, by omega⟩
  · rintro ⟨high, low, first, second, rfl⟩
    exact ⟨high, first, low, second, by omega⟩

theorem numeral?_single {b : Char} {n : Nat} :
    numeral? 16 [b] = some n ↔ digitValue? b = some n := by
  unfold numeral?
  simp [foldDigits?, digitIn?_sixteen]

end CodeTint.Text
