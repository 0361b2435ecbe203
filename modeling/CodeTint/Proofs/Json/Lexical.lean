import CodeTint.Proofs.Attempt
import CodeTint.Proofs.Json.Grammar
import CodeTint.Proofs.Json.Written

/-!
What the readers of marks, strings and numbers take off the front of a text. Main statements: what
they take is a phrase of the grammar, and they take the same again when another text follows it.
-/

set_option autoImplicit false
set_option relaxedAutoImplicit false

namespace CodeTint.Json

open Text (IsHexDigit)

/-! Marks and words. -/

theorem takeColon_eq_ok_iff {cs rest : List Char} :
    takeColon cs = .ok rest ↔ ∃ gap, Gap gap ∧ cs = gap ++ ':' :: rest := by
  unfold takeColon
  constructor
  · intro taken
    split at taken <;> cases taken
    next skipped => exact (skipGap_eq_cons_iff.mp skipped).2
  · rintro ⟨gap, blank, rfl⟩
    rw [skipGap_append blank]
    rfl

theorem takeBracket_eq_ok_iff {cs rest : List Char} :
    takeBracket cs = .ok rest ↔ ∃ gap, Gap gap ∧ cs = gap ++ ']' :: rest := by
  unfold takeBracket
  constructor
  · intro taken
    split at taken
    · next skipped =>
      cases taken
      exact (skipGap_eq_cons_iff.mp skipped).2
    · split at taken <;> cases taken
    · cases taken
    · cases taken
  · rintro ⟨gap, blank, rfl⟩
    rw [skipGap_append blank]
    rfl

/-- What stands in front of an item or member: a gap, and a comma in it unless it is the first. -/
def Lead : Bool → List Char → Prop
  | true, cs => Gap cs
  | false, cs => ∃ before behind, Gap before ∧ Gap behind ∧ cs = before ++ ',' :: behind

theorem nextItem_eq_ok_false_iff {first : Bool} {cs rest : List Char} :
    nextItem first cs = .ok (false, rest) ↔
      ∃ gap tail, Gap gap ∧ rest = ']' :: tail ∧ cs = gap ++ rest := by
  unfold nextItem
  constructor
  · intro found
    split at found
    · next skipped =>
      cases found
      obtain ⟨-, gap, blank, rfl⟩ := skipGap_eq_cons_iff.mp skipped
      exact ⟨gap, _, blank, rfl, rfl⟩
    · split at found
      · cases found
      · split at found <;> cases found
    · split at found <;> cases found
    · cases found
  · rintro ⟨gap, tail, blank, rfl, rfl⟩
    rw [skipGap_append blank]
    rfl

theorem nextItem_eq_ok_true_iff {first : Bool} {cs rest : List Char} :
    nextItem first cs = .ok (true, rest) ↔
      (∃ c more, rest = c :: more ∧ isGap c = false ∧ c ≠ ']') ∧
        ∃ lead, Lead first lead ∧ cs = lead ++ rest := by
  unfold nextItem
  constructor
  · intro found
    split at found
    · cases found
    · next rest' skipped =>
      obtain ⟨-, gap, blank, rfl⟩ := skipGap_eq_cons_iff.mp skipped
      cases first with
      | true =>
        cases found
        exact ⟨⟨',', _, rfl, rfl, by decide⟩, gap, blank, rfl⟩
      | false =>
        rw [if_neg Bool.false_ne_true] at found
        split at found
        · cases found
        · next c more open' next' =>
          cases found
          obtain ⟨solid, gap', blank', rfl⟩ := skipGap_eq_cons_iff.mp next'
          refine ⟨⟨c, more, rfl, solid, open'⟩, gap ++ ',' :: gap',
            ⟨gap, gap', blank, blank', rfl⟩, ?_⟩
          simp
        · cases found
    · next c more bracket comma skipped =>
      cases first with
      | true =>
        cases found
        obtain ⟨solid, gap, blank, rfl⟩ := skipGap_eq_cons_iff.mp skipped
        exact ⟨⟨c, more, rfl, solid, bracket⟩, gap, blank, rfl⟩
      | false => cases found
    · cases found
  · rintro ⟨⟨c, more, rfl, solid, open'⟩, lead, own, rfl⟩
    cases first with
    | true =>
      have skipped : skipGap (lead ++ c :: more) = c :: more :=
        skipGap_eq_cons_iff.mpr ⟨solid, lead, own, rfl⟩
      rw [skipped]
      split
      · next same => exact absurd (List.cons.inj same).1 open'
      · next same =>
        cases same
        rfl
      · next same =>
        cases same
        rfl
      · next same => cases same
    | false =>
      obtain ⟨before, behind, blank, blank', rfl⟩ := own
      have skipped : skipGap (behind ++ c :: more) = c :: more :=
        skipGap_eq_cons_iff.mpr ⟨solid, behind, blank', rfl⟩
      have comma : skipGap (before ++ ',' :: behind ++ c :: more) =
          ',' :: (behind ++ c :: more) := by
        rw [List.append_assoc, skipGap_append blank]
        rfl
      rw [comma]
      simp only [skipped, Bool.false_eq_true, if_false]

theorem nextItem_ok {first : Bool} {cs used rest : List Char} (some : used ≠ [])
    (next : nextItem first cs = .ok (true, used ++ rest)) :
    ∃ lead, Lead first lead ∧ cs = lead ++ (used ++ rest) ∧
      ∀ rest, nextItem first (lead ++ (used ++ rest)) = .ok (true, used ++ rest) := by
  obtain ⟨⟨c, more, front, solid, open'⟩, lead, leads, rfl⟩ := nextItem_eq_ok_true_iff.mp next
  refine ⟨lead, leads, rfl, ?_⟩
  intro rest
  obtain ⟨d, used, rfl⟩ := List.exists_cons_of_ne_nil some
  cases front
  exact nextItem_eq_ok_true_iff.mpr ⟨⟨c, _, rfl, solid, open'⟩, lead, leads, rfl⟩

theorem nextKey_eq_ok_none_iff {first : Bool} {cs rest : List Char} :
    nextKey first cs = .ok (none, rest) ↔
      ∃ gap tail, Gap gap ∧ rest = '\x7d' :: tail ∧ cs = gap ++ rest := by
  unfold nextKey
  constructor
  · intro found
    split at found
    · next skipped =>
      cases found
      obtain ⟨-, gap, blank, rfl⟩ := skipGap_eq_cons_iff.mp skipped
      exact ⟨gap, _, blank, rfl, rfl⟩
    · split at found
      · cases found
      · split at found <;> cases found
    · split at found
      · split at found <;> cases found
      · cases found
    · cases found
  · rintro ⟨gap, tail, blank, rfl, rfl⟩
    rw [skipGap_append blank]
    rfl

theorem nextKey_eq_ok_some_iff {first : Bool} {cs rest rest' : List Char} :
    nextKey first cs = .ok (some rest, rest') ↔
      rest' = rest ∧ ∃ lead, Lead first lead ∧ cs = lead ++ '"' :: rest := by
  unfold nextKey
  constructor
  · intro found
    split at found
    · cases found
    · next skipped =>
      obtain ⟨-, gap, blank, rfl⟩ := skipGap_eq_cons_iff.mp skipped
      cases first with
      | true => cases found
      | false =>
        rw [if_neg Bool.false_ne_true] at found
        split at found
        · next next' =>
          cases found
          obtain ⟨-, gap', blank', rfl⟩ := skipGap_eq_cons_iff.mp next'
          refine ⟨rfl, gap ++ ',' :: gap', ⟨gap, gap', blank, blank', rfl⟩, ?_⟩
          simp
        all_goals cases found
    · next c more _ _ skipped =>
      cases first with
      | true =>
        rw [if_pos rfl] at found
        split at found
        · next quote =>
          cases found
          obtain ⟨-, gap, blank, rfl⟩ := skipGap_eq_cons_iff.mp skipped
          rw [beq_iff_eq.mp quote]
          exact ⟨rfl, gap, blank, rfl⟩
        · cases found
      | false => cases found
    · cases found
  · rintro ⟨rfl, lead, own, rfl⟩
    cases first with
    | true =>
      rw [skipGap_append own]
      rfl
    | false =>
      obtain ⟨before, behind, blank, blank', rfl⟩ := own
      have comma : skipGap (before ++ ',' :: behind ++ '"' :: rest') =
          ',' :: (behind ++ '"' :: rest') := by
        rw [List.append_assoc, skipGap_append blank]
        rfl
      have quote : skipGap (behind ++ '"' :: rest') = '"' :: rest' := by
        rw [skipGap_append blank']
        rfl
      rw [comma]
      simp only [quote]
      rfl

theorem takeWord_eq_ok_iff {word cs rest : List Char} :
    takeWord word cs = .ok rest ↔ cs = word ++ rest := by
  induction word generalizing cs with
  | nil => simp [takeWord]
  | cons w word ih =>
    cases cs with
    | nil => simp [takeWord]
    | cons c cs =>
      rw [takeWord, List.cons_append, List.cons.injEq]
      by_cases same : w = c
      · rw [if_pos (beq_iff_eq.mpr same), ih]
        exact ⟨fun split => ⟨same.symm, split⟩, fun split => split.2⟩
      · rw [if_neg (by simpa using same)]
        constructor
        · intro taken
          cases taken
        · rintro ⟨rfl, -⟩
          exact absurd rfl same

/-! Strings. -/

def Gives {ε α : Type} (read : List Char → Except ε (α × List Char)) (used : List Char) (a : α) :
    Prop :=
  ∀ rest, read (used ++ rest) = .ok (a, rest)

private theorem isHexDigit_of_numeral? {a b c d : Char} {n : Nat}
    (value : Text.numeral? 16 [a, b, c, d] = some n) :
    IsHexDigit a ∧ IsHexDigit b ∧ IsHexDigit c ∧ IsHexDigit d := by
  unfold Text.numeral? at value
  simp only [List.isEmpty_cons, Bool.false_eq_true, if_false, Text.foldDigits?,
    Text.digitIn?_sixteen, Option.bind_eq_bind, Option.bind_eq_some_iff] at value
  obtain ⟨_, first, _, second, _, third, _, fourth, -⟩ := value
  exact ⟨Text.exists_digitValue?_iff.mp ⟨_, first⟩, Text.exists_digitValue?_iff.mp ⟨_, second⟩,
    Text.exists_digitValue?_iff.mp ⟨_, third⟩, Text.exists_digitValue?_iff.mp ⟨_, fourth⟩⟩

private theorem takeHex_ok {cs rest : List Char} {n : Nat} (taken : takeHex cs = .ok (n, rest)) :
    ∃ a b c d, (IsHexDigit a ∧ IsHexDigit b ∧ IsHexDigit c ∧ IsHexDigit d) ∧
      cs = [a, b, c, d] ++ rest ∧ Gives takeHex [a, b, c, d] n := by
  unfold takeHex at taken
  split at taken
  · next a b c d rest' =>
    split at taken <;> cases taken
    next value =>
    refine ⟨a, b, c, d, isHexDigit_of_numeral? value, rfl, ?_⟩
    intro rest'
    simp [takeHex, value]
  · split at taken <;> cases taken

private theorem takeUnicode_ok {cs rest : List Char} {c : Char}
    (taken : takeUnicode cs = .ok (c, rest)) :
    ∃ used, (∀ more, Quoted more → Quoted ('\\' :: 'u' :: (used ++ more))) ∧ cs = used ++ rest ∧
      Gives takeUnicode used c := by
  unfold takeUnicode at taken
  rw [bind_eq_ok_iff] at taken
  obtain ⟨⟨n, cs'⟩, hex, taken⟩ := taken
  obtain ⟨h, i, j, k, ⟨first, second, third, fourth⟩, rfl, again⟩ := takeHex_ok hex
  dsimp only at taken
  split at taken
  · cases taken
  next noTrail =>
  split at taken
  · next lead =>
    split at taken
    · cases taken
    · cases taken
    · next cs' =>
      rw [bind_eq_ok_iff] at taken
      obtain ⟨⟨low, cs'⟩, hex', taken⟩ := taken
      obtain ⟨h', i', j', k', ⟨first', second', third', fourth'⟩, rfl, again'⟩ := takeHex_ok hex'
      dsimp only at taken
      split at taken
      · cases taken
      next trail =>
      simp only [pure, Except.pure, Except.ok.injEq, Prod.mk.injEq] at taken
      obtain ⟨rfl, rfl⟩ := taken
      refine ⟨[h, i, j, k, '\\', 'u', h', i', j', k'], fun more quoted =>
        .code first second third fourth (.code first' second' third' fourth' quoted), rfl, ?_⟩
      intro rest'
      have front := again ('\\' :: 'u' :: ([h', i', j', k'] ++ rest'))
      have back := again' rest'
      simp only [List.cons_append, List.nil_append] at front back ⊢
      simp only [takeUnicode, front, ok_bind, noTrail, lead, Bool.false_eq_true, if_false, if_true,
        back, trail]
      rfl
    · cases taken
  · next noLead =>
    cases taken
    refine ⟨[h, i, j, k], fun more quoted => .code first second third fourth quoted, rfl, ?_⟩
    intro rest'
    simp only [takeUnicode, again rest', ok_bind, noTrail, noLead]
    rfl

private theorem mem_of_isSome_shortEscape? {e : Char} (short : (shortEscape? e).isSome) :
    e ∈ ['"', '\\', '/', 'b', 'f', 'n', 'r', 't'] := by
  unfold shortEscape? at short
  split at short
  case h_9 => cases short
  all_goals simp

private theorem ne_slash {c : Char} {body rest : List Char}
    (other : ∀ e cs, c = '\\' → body ++ '"' :: rest = e :: cs → False) : c ≠ '\\' := by
  intro slash
  obtain ⟨e, cs, follows⟩ := List.exists_cons_of_ne_nil (by simp : body ++ '"' :: rest ≠ [])
  exact other e cs slash follows

private theorem takeString_ok {fuel : Nat} {cs s rest : List Char}
    (taken : takeString fuel cs = .ok (s, rest)) : ∃ body, Quoted body ∧ cs = body ++ '"' :: rest ∧
      ∀ fuel, body.length < fuel → Gives (takeString fuel) (body ++ ['"']) s := by
  induction fuel generalizing cs s with
  | zero => cases taken
  | succ fuel ih =>
    unfold takeString at taken
    split at taken
    · cases taken
    · cases taken
      refine ⟨[], .nil, rfl, ?_⟩
      intro fuel enough rest'
      obtain ⟨fuel, rfl⟩ := Nat.exists_eq_add_one_of_ne_zero (Nat.ne_of_gt enough)
      rfl
    · cases taken
    · simp only [bind_eq_ok_iff] at taken
      obtain ⟨⟨c, cs'⟩, code, ⟨more, rest'⟩, later, taken⟩ := taken
      cases taken
      obtain ⟨used, quoted, rfl, again⟩ := takeUnicode_ok code
      obtain ⟨body, own, rfl, again'⟩ := ih later
      refine ⟨'\\' :: 'u' :: (used ++ body), quoted body own, by simp, ?_⟩
      intro fuel enough rest'
      rw [List.length_cons, List.length_cons, List.length_append] at enough
      obtain ⟨fuel, rfl⟩ : ∃ n, fuel = n + 1 := ⟨fuel - 1, by omega⟩
      have front := again (body ++ ['"'] ++ rest')
      have back := again' fuel (by omega) rest'
      simp only [List.append_assoc, List.cons_append, List.nil_append] at front back ⊢
      simp only [takeString, front, ok_bind, back]
      rfl
    · next e cs' notCode =>
      split at taken
      · next c short =>
        rw [bind_eq_ok_iff] at taken
        obtain ⟨⟨more, rest'⟩, later, taken⟩ := taken
        cases taken
        obtain ⟨body, own, rfl, again⟩ := ih later
        have letter := mem_of_isSome_shortEscape? (by rw [short]; rfl)
        refine ⟨'\\' :: e :: body, .short letter own, rfl, ?_⟩
        intro fuel enough rest'
        rw [List.length_cons, List.length_cons] at enough
        obtain ⟨fuel, rfl⟩ : ∃ n, fuel = n + 1 := ⟨fuel - 1, by omega⟩
        have back := again fuel (by omega) rest'
        simp only [List.append_assoc, List.cons_append, List.nil_append] at back ⊢
        rw [takeString]
        simp only [short, back, ok_bind]
        · rfl
        · exact notCode
      · cases taken
    · next c cs' quote _ _ notShort =>
      split at taken
      · cases taken
      next visible =>
      rw [bind_eq_ok_iff] at taken
      obtain ⟨⟨more, rest'⟩, later, taken⟩ := taken
      cases taken
      obtain ⟨body, own, rfl, again⟩ := ih later
      have slash := ne_slash notShort
      refine ⟨c :: body, .plain quote slash visible own, rfl, ?_⟩
      intro fuel enough rest'
      rw [List.length_cons] at enough
      obtain ⟨fuel, rfl⟩ : ∃ n, fuel = n + 1 := ⟨fuel - 1, by omega⟩
      have back := again fuel (by omega) rest'
      rw [List.cons_append, List.cons_append, takeString_visible quote slash visible, back]
      rfl

theorem takeText_ok {cs rest : List Char} {s : String} (taken : takeText cs = .ok (s, rest)) :
    ∃ body, Quoted body ∧ cs = body ++ '"' :: rest ∧ Gives takeText (body ++ ['"']) s := by
  unfold takeText at taken
  rw [bind_eq_ok_iff] at taken
  obtain ⟨⟨chars, rest'⟩, own, taken⟩ := taken
  cases taken
  obtain ⟨body, quoted, rfl, again⟩ := takeString_ok own
  refine ⟨body, quoted, rfl, ?_⟩
  intro rest'
  have enough : body.length < (body ++ ['"'] ++ rest').length + 1 := by
    simp only [List.length_append]
    omega
  rw [takeText, again _ enough rest']
  rfl

theorem skipString_ok {fuel : Nat} {cs rest : List Char} (passed : skipString fuel cs = .ok rest) :
    ∃ body, Quoted body ∧ cs = body ++ '"' :: rest := by
  induction fuel generalizing cs with
  | zero => cases passed
  | succ fuel ih =>
    unfold skipString at passed
    split at passed
    · cases passed
    · cases passed
      exact ⟨[], .nil, rfl⟩
    · cases passed
    · rw [bind_eq_ok_iff] at passed
      obtain ⟨⟨n, cs'⟩, hex, passed⟩ := passed
      obtain ⟨a, b, c, d, ⟨first, second, third, fourth⟩, rfl, -⟩ := takeHex_ok hex
      obtain ⟨body, own, rfl⟩ := ih passed
      exact ⟨_, .code first second third fourth own, rfl⟩
    · next e cs' _ =>
      split at passed
      · next short =>
        obtain ⟨body, own, rfl⟩ := ih passed
        exact ⟨_, .short (mem_of_isSome_shortEscape? short) own, rfl⟩
      · cases passed
    · next c cs' quote _ _ notShort =>
      split at passed
      · cases passed
      next visible =>
      obtain ⟨body, own, rfl⟩ := ih passed
      have slash := ne_slash notShort
      exact ⟨_, .plain quote slash visible own, rfl⟩

/-! Numbers. -/

def Ended (cs : List Char) : Prop :=
  ∀ c ∈ cs.head?, c.isDigit = false ∧ c ≠ '.' ∧ c ≠ 'e' ∧ c ≠ 'E'

private theorem digits_takeWhile {cs : List Char} (some : cs.takeWhile Char.isDigit ≠ []) :
    Digits (cs.takeWhile Char.isDigit) :=
  ⟨some, fun _ inside => List.mem_takeWhile_imp inside⟩

private theorem takeWhile_isDigit {ds rest : List Char} (digits : ∀ c ∈ ds, c.isDigit = true)
    (stop : ∀ c ∈ rest.head?, c.isDigit = false) : (ds ++ rest).takeWhile Char.isDigit = ds := by
  rw [List.takeWhile_append_of_pos digits]
  cases rest with
  | nil => simp
  | cons c rest => rw [List.takeWhile_cons_of_neg (by simp [stop c rfl]), List.append_nil]

private theorem takeWhole_ok {cs whole : List Char} (taken : takeWhole cs = .ok whole) :
    Whole whole ∧ (∃ rest, cs = whole ++ rest) ∧
      ∀ rest : List Char, (∀ c ∈ rest.head?, c.isDigit = false) →
        takeWhole (whole ++ rest) = .ok whole := by
  unfold takeWhole at taken
  split at taken
  · cases taken
  · split at taken <;> cases taken
    refine ⟨.inl rfl, ⟨_, rfl⟩, ?_⟩
    intro rest stop
    cases rest with
    | nil => rfl
    | cons c rest => simp [takeWhole, stop c rfl]
  · next c rest notZero =>
    split at taken <;> cases taken
    next digit =>
    have first : (c :: rest).takeWhile Char.isDigit = c :: rest.takeWhile Char.isDigit :=
      List.takeWhile_cons_of_pos digit
    have digits : Digits ((c :: rest).takeWhile Char.isDigit) := digits_takeWhile (by simp [first])
    refine ⟨.inr ⟨digits, by simpa [first] using notZero⟩, ?_, ?_⟩
    · exact ⟨(c :: rest).dropWhile Char.isDigit, List.takeWhile_append_dropWhile.symm⟩
    · intro rest' stop
      have again := takeWhile_isDigit digits.2 stop
      rw [first] at again ⊢
      rw [List.cons_append, takeWhole, if_pos digit, ← List.cons_append, again]
      exact fun zero => notZero zero

private theorem takeFraction_ok {cs digits rest : List Char}
    (taken : takeFraction cs = .ok (digits, rest)) : ∃ used, Fraction used ∧ cs = used ++ rest ∧
      ∀ rest : List Char, (∀ c ∈ rest.head?, c.isDigit = false ∧ c ≠ '.') →
        takeFraction (used ++ rest) = .ok (digits, rest) := by
  unfold takeFraction at taken
  split at taken
  · next more =>
    dsimp only at taken
    split at taken <;> cases taken
    next some =>
    have digits := digits_takeWhile (by simpa using some)
    have split := List.prefix_iff_eq_append.mp (List.takeWhile_prefix (l := more) Char.isDigit)
    refine ⟨'.' :: more.takeWhile Char.isDigit, .inr ⟨_, digits, rfl⟩,
      by rw [List.cons_append, split], ?_⟩
    intro rest stop
    have again := takeWhile_isDigit digits.2 fun c inside => (stop c inside).1
    rw [List.cons_append, takeFraction, again, if_neg some]
    simp
  · next noPoint =>
    cases taken
    refine ⟨[], .inl rfl, rfl, ?_⟩
    intro rest stop
    rw [List.nil_append]
    cases rest with
    | nil => rfl
    | cons c rest =>
      rw [takeFraction]
      rintro _ ⟨⟩
      exact (stop '.' rfl).2 rfl

private theorem takeExponent_append {sign digits rest : List Char} {n : Nat}
    (signs : sign = [] ∨ sign = ['+'] ∨ sign = ['-']) (own : Digits digits)
    (value : Text.numeral? 10 digits = some n) (stop : ∀ c ∈ rest.head?, c.isDigit = false) :
    takeExponent (sign ++ digits ++ rest) = .ok (if sign = ['-'] then -(n : Int) else n, rest) := by
  have whole := takeWhile_isDigit own.2 stop
  rcases signs with rfl | rfl | rfl
  · obtain ⟨d, others, rfl⟩ := List.exists_cons_of_ne_nil own.1
    have digit := own.2 d List.mem_cons_self
    unfold takeExponent
    split
    next more negative cs split =>
    split at split
    · next start =>
      rw [List.nil_append, List.cons_append, List.cons.injEq] at start
      exact absurd digit (by rw [start.1]; decide)
    · next start =>
      rw [List.nil_append, List.cons_append, List.cons.injEq] at start
      exact absurd digit (by rw [start.1]; decide)
    · cases split
      rw [List.nil_append, whole]
      simp [value]
  · simp [takeExponent, whole, value]
  · simp [takeExponent, whole, value]

private theorem takeExponent_ok {cs rest : List Char} {n : Int}
    (taken : takeExponent cs = .ok (n, rest)) :
    ∃ sign digits, (sign = [] ∨ sign = ['+'] ∨ sign = ['-']) ∧ Digits digits ∧
      cs = sign ++ digits ++ rest ∧
        ∀ rest : List Char, (∀ c ∈ rest.head?, c.isDigit = false) →
          takeExponent (sign ++ digits ++ rest) = .ok (n, rest) := by
  unfold takeExponent at taken
  split at taken
  next _ negative more signed =>
  have signs : ∃ sign, (sign = [] ∨ sign = ['+'] ∨ sign = ['-']) ∧ cs = sign ++ more ∧
      (negative = true ↔ sign = ['-']) := by
    split at signed <;> cases signed
    · exact ⟨['-'], by simp⟩
    · exact ⟨['+'], by simp⟩
    · exact ⟨[], by simp⟩
  obtain ⟨sign, signs, rfl, minus⟩ := signs
  dsimp only at taken
  split at taken
  · next m value =>
    have some : more.takeWhile Char.isDigit ≠ [] := by
      intro none
      rw [none] at value
      cases value
    have split := List.prefix_iff_eq_append.mp (List.takeWhile_prefix (l := more) Char.isDigit)
    simp only [Except.ok.injEq, Prod.mk.injEq] at taken
    obtain ⟨rfl, rfl⟩ := taken
    refine ⟨sign, more.takeWhile Char.isDigit, signs, digits_takeWhile some, ?_, ?_⟩
    · rw [List.append_assoc, split]
    · intro rest stop
      rw [takeExponent_append signs (digits_takeWhile some) value stop]
      simp only [minus]
  · cases taken

private theorem Ended.isDigit {cs : List Char} (ended : Ended cs) :
    ∀ c ∈ cs.head?, c.isDigit = false :=
  fun c inside => (ended c inside).1

private theorem Exponent.stop {cs rest : List Char} (exponent : Exponent cs) (ended : Ended rest) :
    ∀ c ∈ (cs ++ rest).head?, c.isDigit = false ∧ c ≠ '.' := by
  rcases exponent with rfl | ⟨mark, sign, digits, letter, -, -, rfl⟩
  · intro c inside
    exact ⟨(ended c inside).1, (ended c inside).2.1⟩
  · rintro c ⟨⟩
    rcases letter with rfl | rfl <;> exact ⟨by decide, by decide⟩

private theorem Fraction.stop {cs rest : List Char} (fraction : Fraction cs)
    (stop : ∀ c ∈ rest.head?, c.isDigit = false ∧ c ≠ '.') :
    ∀ c ∈ (cs ++ rest).head?, c.isDigit = false := by
  rcases fraction with rfl | ⟨digits, -, rfl⟩
  · intro c inside
    exact (stop c inside).1
  · rintro c ⟨⟩
    rfl

section Parts

variable {negative : Bool} {cs whole digits : List Char}

private theorem takeNumber_of_mark {mark : Char} {more : List Char}
    (letter : mark = 'e' ∨ mark = 'E')
    (first : takeWhole cs = .ok whole)
    (second : takeFraction (cs.drop whole.length) = .ok (digits, mark :: more)) :
    takeNumber negative cs = (do
      let (n, rest) ← takeExponent more
      let d := Decimal.ofDigits negative whole digits
      return (← inRange { d with exponent := d.exponent + n }, rest)) := by
  rcases letter with rfl | rfl <;>
  · rw [takeNumber, first, ok_bind, second]
    rfl

private theorem takeNumber_of_end {more : List Char} (last : ∀ c ∈ more.head?, c ≠ 'e' ∧ c ≠ 'E')
    (first : takeWhole cs = .ok whole)
    (second : takeFraction (cs.drop whole.length) = .ok (digits, more)) :
    takeNumber negative cs =
      (if digits.isEmpty && (Decimal.ofDigits negative whole digits).exponent == 0 then
        takeNumber.integer negative (Decimal.ofDigits negative whole digits).digits
      else inRange (Decimal.ofDigits negative whole digits)).map (·, more) := by
  have closed : takeNumber negative cs = (do
      let d := Decimal.ofDigits negative whole digits
      if digits.isEmpty && d.exponent == 0 then
        return (← takeNumber.integer negative d.digits, more)
      else return (← inRange d, more)) := by
    rw [takeNumber, first, ok_bind, second, ok_bind]
    cases more with
    | nil => rfl
    | cons c more =>
      obtain ⟨lower, upper⟩ := last c rfl
      dsimp only
      split
      · next same => exact absurd (List.cons.inj same).1 lower
      · next same => exact absurd (List.cons.inj same).1 upper
      · rfl
  rw [closed]
  dsimp only
  split <;> rfl

end Parts

theorem takeNumber_ok {negative : Bool} {cs rest : List Char} {v : Value}
    (taken : takeNumber negative cs = .ok (v, rest)) : ∃ used, Magnitude used ∧ cs = used ++ rest ∧
      ∀ rest, Ended rest → takeNumber negative (used ++ rest) = .ok (v, rest) := by
  have parts := taken
  unfold takeNumber at parts
  simp only [bind_eq_ok_iff] at parts
  obtain ⟨whole, own, ⟨digits, more⟩, point, -⟩ := parts
  obtain ⟨isWhole, ⟨behind, rfl⟩, again⟩ := takeWhole_ok own
  have first := point
  rw [List.drop_left] at first
  obtain ⟨fraction, isFraction, rfl, again'⟩ := takeFraction_ok first
  -- both parts are read the same in front of any exponent and of any end
  have front : ∀ {exponent rest : List Char}, Exponent exponent → Ended rest →
      takeWhole (whole ++ (fraction ++ exponent) ++ rest) = .ok whole ∧
        takeFraction ((whole ++ (fraction ++ exponent) ++ rest).drop whole.length) =
          .ok (digits, exponent ++ rest) := by
    intro exponent rest isExponent ended
    have stop := isExponent.stop ended
    rw [List.append_assoc, List.append_assoc, List.drop_left]
    exact ⟨again _ (isFraction.stop stop), again' _ stop⟩
  by_cases marked : ∃ mark tail, (mark = 'e' ∨ mark = 'E') ∧ more = mark :: tail
  · obtain ⟨mark, tail, letter, rfl⟩ := marked
    rw [takeNumber_of_mark letter own point] at taken
    simp only [bind_eq_ok_iff] at taken
    obtain ⟨⟨n, rest'⟩, power, v', ranged, taken⟩ := taken
    cases taken
    obtain ⟨sign, ds, signs, isDigits, rfl, again''⟩ := takeExponent_ok power
    have isExponent : Exponent (mark :: (sign ++ ds)) :=
      .inr ⟨mark, sign, ds, letter, signs, isDigits, rfl⟩
    refine ⟨whole ++ (fraction ++ mark :: (sign ++ ds)),
      ⟨whole, fraction, _, isWhole, isFraction, isExponent, rfl⟩, by simp, ?_⟩
    intro rest ended
    obtain ⟨first, second⟩ := front isExponent ended
    rw [List.cons_append] at second
    rw [takeNumber_of_mark letter first second, again'' rest ended.isDigit, ok_bind]
    dsimp only at ranged ⊢
    rw [ranged]
    rfl
  · have last : ∀ c ∈ more.head?, c ≠ 'e' ∧ c ≠ 'E' := by
      intro c inside
      obtain ⟨tail, rfl⟩ : ∃ tail, more = c :: tail := by
        cases more with
        | nil => cases inside
        | cons d tail =>
          cases inside
          exact ⟨tail, rfl⟩
      constructor
      · intro lower
        exact marked ⟨c, tail, .inl lower, rfl⟩
      · intro upper
        exact marked ⟨c, tail, .inr upper, rfl⟩
    rw [takeNumber_of_end last own point, map_eq_ok_iff] at taken
    obtain ⟨_, value, same⟩ := taken
    cases same
    have isExponent : Exponent [] := .inl rfl
    refine ⟨whole ++ (fraction ++ []),
      ⟨whole, fraction, _, isWhole, isFraction, isExponent, rfl⟩, by simp, ?_⟩
    intro rest' ended
    obtain ⟨first, second⟩ := front isExponent ended
    rw [takeNumber_of_end (fun c inside => (ended c inside).2.2) first second, value]
    rfl

private theorem exists_digits_of_head {cs : List Char} (some : cs.head?.any Char.isDigit = true) :
    ∃ digits, Digits digits ∧ cs = digits ++ cs.dropWhile Char.isDigit := by
  refine ⟨cs.takeWhile Char.isDigit, digits_takeWhile ?_, List.takeWhile_append_dropWhile.symm⟩
  cases cs with
  | nil => cases some
  | cons c cs =>
    rw [List.takeWhile_cons_of_pos (by simpa using some)]
    exact List.cons_ne_nil _ _

private theorem skipWhole_ok {cs rest : List Char} (passed : skipWhole cs = .ok rest) :
    ∃ used, Whole used ∧ cs = used ++ rest := by
  unfold skipWhole at passed
  split at passed
  · split at passed <;> cases passed
    exact ⟨['0'], .inl rfl, rfl⟩
  · next c tail notZero =>
    split at passed <;> cases passed
    next digit =>
    have some : (c :: tail).head?.any Char.isDigit = true := by simpa using digit
    obtain ⟨digits, own, split⟩ := exists_digits_of_head some
    refine ⟨digits, .inr ⟨own, ?_⟩, split⟩
    obtain ⟨d, digits, rfl⟩ := List.exists_cons_of_ne_nil own.1
    rw [List.cons_append, List.cons.injEq] at split
    simpa [← split.1] using notZero
  · cases passed

private theorem skipFraction_ok {cs rest : List Char} (passed : skipFraction cs = .ok rest) :
    ∃ used, Fraction used ∧ cs = used ++ rest := by
  unfold skipFraction at passed
  split at passed
  · next more =>
    split at passed <;> cases passed
    next some =>
    obtain ⟨digits, own, split⟩ := exists_digits_of_head some
    refine ⟨'.' :: digits, .inr ⟨digits, own, rfl⟩, ?_⟩
    rw [List.cons_append, ← split]
  · cases passed
    exact ⟨[], .inl rfl, rfl⟩

private theorem skipExponent_ok {cs rest : List Char} (passed : skipExponent cs = .ok rest) :
    ∃ sign digits, (sign = [] ∨ sign = ['+'] ∨ sign = ['-']) ∧ Digits digits ∧
      cs = sign ++ digits ++ rest := by
  have front : ∀ (sign : List Char) {more : List Char}, (sign = [] ∨ sign = ['+'] ∨ sign = ['-']) →
      (if more.head?.any Char.isDigit then .ok (more.dropWhile Char.isDigit)
        else .error .number : Except Flaw (List Char)) = .ok rest →
      ∃ sign' digits, (sign' = [] ∨ sign' = ['+'] ∨ sign' = ['-']) ∧ Digits digits ∧
        sign ++ more = sign' ++ digits ++ rest := by
    intro sign more signs passed
    split at passed <;> cases passed
    next some =>
    obtain ⟨digits, own, split⟩ := exists_digits_of_head some
    refine ⟨sign, digits, signs, own, ?_⟩
    rw [List.append_assoc, ← split]
  unfold skipExponent at passed
  dsimp only at passed
  split at passed
  · exact front ['-'] (.inr (.inr rfl)) passed
  · exact front ['+'] (.inr (.inl rfl)) passed
  · exact front [] (.inl rfl) passed

theorem skipNumber_ok {cs rest : List Char} (passed : skipNumber cs = .ok rest) :
    ∃ used, Magnitude used ∧ cs = used ++ rest := by
  unfold skipNumber at passed
  simp only [bind_eq_ok_iff] at passed
  obtain ⟨rest', first, rest'', second, passed⟩ := passed
  obtain ⟨whole, isWhole, rfl⟩ := skipWhole_ok first
  obtain ⟨fraction, isFraction, rfl⟩ := skipFraction_ok second
  have withExponent : ∀ {mark : Char} {more : List Char}, mark = 'e' ∨ mark = 'E' →
      skipExponent more = .ok rest → ∃ used, Magnitude used ∧
        whole ++ (fraction ++ mark :: more) = used ++ rest := by
    intro mark more letter passed
    obtain ⟨sign, digits, signs, own, rfl⟩ := skipExponent_ok passed
    refine ⟨_, ⟨whole, fraction, _, isWhole, isFraction,
      .inr ⟨mark, sign, digits, letter, signs, own, rfl⟩, rfl⟩, ?_⟩
    simp
  split at passed
  · exact withExponent (.inl rfl) passed
  · exact withExponent (.inr rfl) passed
  · cases passed
    exact ⟨_, ⟨whole, fraction, [], isWhole, isFraction, .inl rfl, rfl⟩, by simp⟩

end CodeTint.Json
