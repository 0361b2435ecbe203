import CodeTint.Json.Reader
import CodeTint.Proofs.Text.Digits
import Mathlib.Data.List.TakeWhile

/-!
The grammar of JSON texts, as phrases of characters, and where a bracket is closed again. Main
statement: an array of the grammar ends at its own bracket, so that no array is the beginning of
another one.
-/

set_option autoImplicit false
set_option relaxedAutoImplicit false

namespace CodeTint.Json

open Text (IsHexDigit)

/-- Spaces, tabs, line feeds and carriage returns. -/
def Gap (cs : List Char) : Prop := ∀ c ∈ cs, isGap c = true

def Digits (cs : List Char) : Prop := cs ≠ [] ∧ ∀ c ∈ cs, c.isDigit = true

/-- The whole part of a number, which begins with a zero only if it is one. -/
def Whole (cs : List Char) : Prop := cs = ['0'] ∨ Digits cs ∧ cs.head? ≠ some '0'

def Fraction (cs : List Char) : Prop := cs = [] ∨ ∃ digits, Digits digits ∧ cs = '.' :: digits

def Exponent (cs : List Char) : Prop :=
  cs = [] ∨ ∃ mark sign digits, (mark = 'e' ∨ mark = 'E') ∧
    (sign = [] ∨ sign = ['+'] ∨ sign = ['-']) ∧ Digits digits ∧ cs = mark :: (sign ++ digits)

def Magnitude (cs : List Char) : Prop :=
  ∃ whole fraction exponent, Whole whole ∧ Fraction fraction ∧ Exponent exponent ∧
    cs = whole ++ (fraction ++ exponent)

/-- What stands between the quotes of a string. -/
inductive Quoted : List Char → Prop
  | nil : Quoted []
  | plain {c : Char} {rest : List Char} : c ≠ '"' → c ≠ '\\' → ¬c.toNat < 0x20 → Quoted rest →
      Quoted (c :: rest)
  | short {c : Char} {rest : List Char} : c ∈ ['"', '\\', '/', 'b', 'f', 'n', 'r', 't'] →
      Quoted rest → Quoted ('\\' :: c :: rest)
  | code {a b c d : Char} {rest : List Char} : IsHexDigit a → IsHexDigit b → IsHexDigit c →
      IsHexDigit d → Quoted rest → Quoted ('\\' :: 'u' :: a :: b :: c :: d :: rest)

/-- The kinds of phrases. An element is a value with gaps around it; elements and members are one
or more of them with commas between. -/
inductive Form where
  | value | array | object | element | elements | member | members
  deriving DecidableEq, Repr

/-- The phrases of each kind. -/
inductive Phrase : Form → List Char → Prop
  | null : Phrase .value ['n', 'u', 'l', 'l']
  | yes : Phrase .value ['t', 'r', 'u', 'e']
  | no : Phrase .value ['f', 'a', 'l', 's', 'e']
  | number {cs : List Char} : Magnitude cs → Phrase .value cs
  | negative {cs : List Char} : Magnitude cs → Phrase .value ('-' :: cs)
  | text {cs : List Char} : Quoted cs → Phrase .value ('"' :: (cs ++ ['"']))
  | ofArray {cs : List Char} : Phrase .array cs → Phrase .value cs
  | ofObject {cs : List Char} : Phrase .object cs → Phrase .value cs
  | emptyArray {gap : List Char} : Gap gap → Phrase .array ('[' :: (gap ++ [']']))
  | array {cs : List Char} : Phrase .elements cs → Phrase .array ('[' :: (cs ++ [']']))
  | emptyObject {gap : List Char} : Gap gap → Phrase .object ('\x7b' :: (gap ++ ['\x7d']))
  | object {cs : List Char} : Phrase .members cs → Phrase .object ('\x7b' :: (cs ++ ['\x7d']))
  | element {before cs behind : List Char} : Gap before → Phrase .value cs → Gap behind →
      Phrase .element (before ++ (cs ++ behind))
  | lastElement {cs : List Char} : Phrase .element cs → Phrase .elements cs
  | elements {cs rest : List Char} : Phrase .element cs → Phrase .elements rest →
      Phrase .elements (cs ++ ',' :: rest)
  | member {before key behind cs : List Char} : Gap before → Quoted key → Gap behind →
      Phrase .element cs → Phrase .member (before ++ '"' :: (key ++ '"' :: (behind ++ ':' :: cs)))
  | lastMember {cs : List Char} : Phrase .member cs → Phrase .members cs
  | members {cs rest : List Char} : Phrase .member cs → Phrase .members rest →
      Phrase .members (cs ++ ',' :: rest)

/-- A text that is an object, with gaps around it. -/
def IsObject (text : String) : Prop :=
  ∃ before cs behind, Gap before ∧ Phrase .object cs ∧ Gap behind ∧
    text.toList = before ++ (cs ++ behind)

/-- A text that is an array with another array as its only element, where `element` is what stands
between its brackets. -/
def IsArrayOf (text element : String) : Prop :=
  (∃ before cs behind, Gap before ∧ Phrase .array cs ∧ Gap behind ∧
      element.toList = before ++ (cs ++ behind)) ∧
    ∃ before behind, Gap before ∧ Gap behind ∧
      text.toList = before ++ '[' :: (element.toList ++ ']' :: behind)

/-! Gaps. -/

theorem gap_nil : Gap [] := by
  simp [Gap]

theorem Gap.append {cs ds : List Char} (first : Gap cs) (second : Gap ds) : Gap (cs ++ ds) := by
  intro c inside
  rcases List.mem_append.mp inside with inside | inside
  · exact first c inside
  · exact second c inside

theorem skipGap_append {gap : List Char} (blank : Gap gap) (cs : List Char) :
    skipGap (gap ++ cs) = skipGap cs :=
  List.dropWhile_append_of_pos blank

theorem skipGap_eq_nil_iff {cs : List Char} : skipGap cs = [] ↔ Gap cs :=
  List.dropWhile_eq_nil_iff

theorem exists_gap (cs : List Char) : ∃ gap, Gap gap ∧ cs = gap ++ skipGap cs :=
  ⟨cs.takeWhile isGap, fun _ inside => List.mem_takeWhile_imp inside,
    List.takeWhile_append_dropWhile.symm⟩

theorem skipGap_eq_cons_iff {cs rest : List Char} {c : Char} :
    skipGap cs = c :: rest ↔ isGap c = false ∧ ∃ gap, Gap gap ∧ cs = gap ++ c :: rest := by
  constructor
  · intro skipped
    have solid : isGap c = false := by
      have first := List.head?_dropWhile_not isGap cs
      rw [← skipGap, skipped] at first
      simpa using first
    obtain ⟨gap, blank, split⟩ := exists_gap cs
    exact ⟨solid, gap, blank, by rw [← skipped, ← split]⟩
  · rintro ⟨solid, gap, blank, rfl⟩
    rw [skipGap_append blank]
    exact List.dropWhile_cons_of_neg (by simp [solid])

/-! The bracket that closes an array. -/

/-- What is left of a text behind the bracket or brace that closes the innermost of those that are
open. Brackets in strings do not count. -/
def afterClosing : Nat → Bool → List Char → List Char
  | _, _, [] => []
  | opened, true, '\\' :: _ :: rest => afterClosing opened true rest
  | opened, true, c :: rest => afterClosing opened (c != '"') rest
  | opened, false, c :: rest =>
    if c == '"' then afterClosing opened true rest
    else if c == '[' || c == '\x7b' then afterClosing (opened + 1) false rest
    else if c == ']' || c == '\x7d' then
      if opened ≤ 1 then rest else afterClosing (opened - 1) false rest
    else afterClosing opened false rest

def Flat (c : Char) : Prop :=
  c ≠ '"' ∧ c ≠ '[' ∧ c ≠ ']' ∧ c ≠ '\x7b' ∧ c ≠ '\x7d'

private theorem afterClosing_flat {cs : List Char} (flat : ∀ c ∈ cs, Flat c) (opened : Nat)
    (rest : List Char) :
    afterClosing opened false (cs ++ rest) = afterClosing opened false rest := by
  induction cs with
  | nil => rfl
  | cons c cs ih =>
    rw [List.forall_mem_cons] at flat
    obtain ⟨⟨quote, bracket, bracket', brace, brace'⟩, later⟩ := flat
    rw [List.cons_append, afterClosing]
    simp [quote, bracket, bracket', brace, brace', ih later]

private theorem afterClosing_inside {c : Char} (quote : c ≠ '"') (slash : c ≠ '\\') (opened : Nat)
    (rest : List Char) : afterClosing opened true (c :: rest) = afterClosing opened true rest := by
  have open' : (c != '"') = true := by simpa using quote
  rw [afterClosing, open']
  intro _ _ same
  exact absurd same slash

private theorem afterClosing_quoted {cs : List Char} (quoted : Quoted cs) (opened : Nat)
    (rest : List Char) :
    afterClosing opened true (cs ++ '"' :: rest) = afterClosing opened false rest := by
  have digit : ∀ {c : Char}, IsHexDigit c → ∀ cs : List Char,
      afterClosing opened true (c :: cs) = afterClosing opened true cs := by
    intro c hex cs
    apply afterClosing_inside
    · rintro rfl
      exact absurd hex (by decide)
    · rintro rfl
      exact absurd hex (by decide)
  induction quoted with
  | nil => rw [List.nil_append, afterClosing] <;> simp
  | plain quote slash _ _ ih => rw [List.cons_append, afterClosing_inside quote slash, ih]
  | short _ _ ih => rw [List.cons_append, List.cons_append, afterClosing, ih]
  | code first second third fourth _ ih =>
    simp only [List.cons_append, afterClosing, digit first, digit second, digit third,
      digit fourth, ih]

private theorem flat_of_isDigit {c : Char} (digit : c.isDigit = true) : Flat c := by
  refine ⟨?_, ?_, ?_, ?_, ?_⟩ <;>
  · rintro rfl
    exact absurd digit (by decide)

private theorem Gap.flat {cs : List Char} (gap : Gap cs) : ∀ c ∈ cs, Flat c := by
  intro c inside
  have blank := gap c inside
  refine ⟨?_, ?_, ?_, ?_, ?_⟩ <;>
  · rintro rfl
    exact absurd blank (by decide)

private theorem Magnitude.flat {cs : List Char} (number : Magnitude cs) : ∀ c ∈ cs, Flat c := by
  obtain ⟨whole, fraction, exponent, own, point, power, rfl⟩ := number
  have mark : ∀ c ∈ ['.', 'e', 'E', '+', '-', '0'], Flat c := by
    simp [Flat]
  intro c inside
  rcases List.mem_append.mp inside with inside | inside
  · rcases own with rfl | ⟨⟨-, digits⟩, -⟩
    · exact mark c (by simp_all)
    · exact flat_of_isDigit (digits c inside)
  rcases List.mem_append.mp inside with inside | inside
  · rcases point with rfl | ⟨ds, ⟨-, digits⟩, rfl⟩
    · simp at inside
    · rcases List.mem_cons.mp inside with rfl | inside
      · exact mark _ (by simp)
      · exact flat_of_isDigit (digits c inside)
  · rcases power with rfl | ⟨m, sign, ds, letter, signs, ⟨-, digits⟩, rfl⟩
    · simp at inside
    · rw [List.mem_cons, List.mem_append] at inside
      rcases inside with rfl | inside | inside
      · exact mark c (by rcases letter with rfl | rfl <;> simp)
      · exact mark c (by rcases signs with rfl | rfl | rfl <;> simp_all)
      · exact flat_of_isDigit (digits c inside)

private theorem afterClosing_gap {gap : List Char} (blank : Gap gap) (opened : Nat)
    (rest : List Char) : afterClosing opened false (gap ++ rest) = afterClosing opened false rest :=
  afterClosing_flat blank.flat opened rest

private theorem Phrase.afterClosing_append {form : Form} {cs : List Char} (phrase : Phrase form cs)
    (opened : Nat) (rest : List Char) :
    afterClosing (opened + 1) false (cs ++ rest) = afterClosing (opened + 1) false rest := by
  induction phrase generalizing opened rest with
  | null => rfl
  | yes => rfl
  | no => rfl
  | number number => exact afterClosing_flat number.flat _ _
  | negative number => exact afterClosing_flat number.flat (opened + 1) rest
  | text quoted => simp [afterClosing, afterClosing_quoted quoted]
  | ofArray _ ih => exact ih opened rest
  | ofObject _ ih => exact ih opened rest
  | emptyArray gap => simp [afterClosing, afterClosing_gap gap]
  | array _ ih => simp [afterClosing, ih]
  | emptyObject gap => simp [afterClosing, afterClosing_gap gap]
  | object _ ih => simp [afterClosing, ih]
  | element before _ behind ih =>
    simp only [List.append_assoc, afterClosing_gap before, ih, afterClosing_gap behind]
  | lastElement _ ih => exact ih opened rest
  | elements _ _ first later => simp [first, afterClosing, later]
  | member before key behind _ ih =>
    simp [afterClosing_gap before, afterClosing, afterClosing_quoted key, afterClosing_gap behind,
      ih]
  | lastMember _ ih => exact ih opened rest
  | members _ _ first later => simp [first, afterClosing, later]

theorem Phrase.array_unique {cs ds rest rest' : List Char} (first : Phrase .array cs)
    (second : Phrase .array ds) (same : cs ++ rest = ds ++ rest') : rest = rest' := by
  have closed : ∀ {cs : List Char}, Phrase .array cs → ∀ rest,
      afterClosing 0 false (cs ++ rest) = rest := by
    intro cs array rest
    cases array with
    | emptyArray gap => simp [afterClosing, afterClosing_gap gap]
    | array elements => simp [afterClosing, elements.afterClosing_append]
  rw [← closed first rest, same, closed second]

end CodeTint.Json
