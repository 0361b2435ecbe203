import CodeTint.Proofs.Json.Lexical

/-!
What the readers of values, items and members take off the front of a text. Main statements: it is a
phrase of the grammar, at least as long as the value is large, and it is taken again with any fuel
that its length allows, whatever follows it. What is passed over is a phrase as well.
-/

set_option autoImplicit false
set_option relaxedAutoImplicit false

namespace CodeTint.Json

/-! The size of a value. -/

mutual

/-- The number of values in a value, itself included. -/
def Value.size : Value → Nat
  | .array items => sizes items + 1
  | .object members => memberSizes members + 1
  | _ => 1

def Value.sizes : List Value → Nat
  | [] => 0
  | v :: rest => size v + sizes rest

def Value.memberSizes : List (String × Value) → Nat
  | [] => 0
  | (_, v) :: rest => size v + memberSizes rest

end

/-! What stands between brackets or braces. -/

namespace Frame

/-- What a frame is made of. -/
def one : Frame → Form
  | .list => .element
  | .object => .member

def many : Frame → Form
  | .list => .elements
  | .object => .members

def mark : Frame → Char
  | .list => ']'
  | .object => '\x7d'

end Frame

private theorem Phrase.last {f : Frame} {cs : List Char} (phrase : Phrase f.one cs) :
    Phrase f.many cs := by
  cases f
  · exact .lastElement phrase
  · exact .lastMember phrase

private theorem Phrase.next {f : Frame} {cs rest : List Char} (phrase : Phrase f.one cs)
    (later : Phrase f.many rest) : Phrase f.many (cs ++ ',' :: rest) := by
  cases f
  · exact .elements phrase later
  · exact .members phrase later

private theorem Phrase.ne_nil {form : Form} {cs : List Char} (phrase : Phrase form cs) :
    cs ≠ [] := by
  have magnitude : ∀ {cs : List Char}, Magnitude cs → cs ≠ [] := by
    rintro _ ⟨whole, fraction, exponent, own, -, -, rfl⟩
    rcases own with rfl | ⟨digits, -⟩
    · simp
    · simp [digits.1]
  induction phrase with
  | number number => exact magnitude number
  | ofArray _ ih => exact ih
  | ofObject _ ih => exact ih
  | lastElement _ ih => exact ih
  | lastMember _ ih => exact ih
  | element _ _ _ ih => simp [ih]
  | _ => simp

def Led (form : Form) (cs : List Char) : Prop :=
  ∃ gap phrase, Gap gap ∧ Phrase form phrase ∧ cs = gap ++ phrase

def Inside (f : Frame) : Bool → List Char → Prop
  | true, cs => Gap cs ∨ Phrase f.many cs
  | false, cs => Gap cs ∨ ∃ gap rest, Gap gap ∧ Phrase f.many rest ∧ cs = gap ++ ',' :: rest

def Item (f : Frame) (cs : List Char) : Prop :=
  ∀ gap behind, Gap gap → Gap behind → Phrase f.one (gap ++ (cs ++ behind))

theorem Led.item {cs : List Char} (led : Led .value cs) : Item .list cs := by
  obtain ⟨gap', phrase, blank', own, rfl⟩ := led
  intro gap behind blank blank''
  have element := Phrase.element (blank.append blank') own blank''
  simpa [Frame.one] using element

theorem Led.ne_nil {form : Form} {cs : List Char} (led : Led form cs) : cs ≠ [] := by
  obtain ⟨gap, phrase, -, own, rfl⟩ := led
  intro none
  exact own.ne_nil (List.append_eq_nil_iff.mp none).2

private theorem item_member {key gap cs : List Char} (quoted : Quoted key) (blank : Gap gap)
    (led : Led .value cs) : Item .object ('"' :: (key ++ '"' :: (gap ++ ':' :: cs))) := by
  intro gap' behind blank' blank''
  have member := Phrase.member blank' quoted blank (led.item [] behind gap_nil blank'')
  simpa [Frame.one] using member

theorem Inside.gap {f : Frame} {first : Bool} {cs : List Char} (blank : Gap cs) :
    Inside f first cs := by
  cases first <;> exact .inl blank

theorem Inside.cons {f : Frame} {first : Bool} {lead cs later : List Char}
    (leads : Lead first lead) (item : Item f cs) (inside : Inside f false later) :
    Inside f first (lead ++ (cs ++ later)) := by
  have phrase : ∀ gap, Gap gap → Phrase f.many (gap ++ (cs ++ later)) := by
    intro gap blank
    rcases inside with blank' | ⟨behind, rest, blank', phrase, rfl⟩
    · exact (item gap later blank blank').last
    · have next := (item gap behind blank blank').next phrase
      simpa using next
  cases first with
  | true => exact .inr (phrase lead leads)
  | false =>
    obtain ⟨before, behind, blank, blank', rfl⟩ := leads
    refine .inr ⟨before, behind ++ (cs ++ later), blank, phrase behind blank', ?_⟩
    simp

private theorem not_number_of_isGap {c : Char} (space : isGap c = true) :
    c.isDigit = false ∧ c ≠ '.' ∧ c ≠ 'e' ∧ c ≠ 'E' := by
  simp only [isGap, Bool.or_eq_true, beq_iff_eq] at space
  rcases space with ((rfl | rfl) | rfl) | rfl <;> decide

theorem Inside.ended {f : Frame} {cs rest : List Char} (inside : Inside f false cs) :
    Ended (cs ++ f.mark :: rest) := by
  have blank : ∀ {gap rest : List Char} {c : Char}, Gap gap →
      (c.isDigit = false ∧ c ≠ '.' ∧ c ≠ 'e' ∧ c ≠ 'E') → Ended (gap ++ c :: rest) := by
    intro gap rest c blank mark d front
    cases gap with
    | nil =>
      cases front
      exact mark
    | cons e gap =>
      cases front
      exact not_number_of_isGap (blank d List.mem_cons_self)
  rcases inside with gap | ⟨gap, more, isGap, -, rfl⟩
  · apply blank gap
    cases f <;> decide
  · rw [List.append_assoc, List.cons_append]
    exact blank isGap (by decide)

/-- These characters are taken for a key and its colon. `body` begins behind the quote that opens
the key, `colon` behind the one that closes it. -/
structure Keyed (first : Bool) (cs body colon : List Char) (name : String) : Prop where
  next : ∀ rest, nextKey first (cs ++ rest) = .ok (some (body ++ rest), body ++ rest)
  text : ∀ rest, takeText (body ++ rest) = .ok (name, colon ++ rest)
  colon : ∀ rest, takeColon (colon ++ rest) = .ok rest
  inside : ∀ {used later : List Char}, Led .value used → Inside .object false later →
    Inside .object first (cs ++ (used ++ later))

theorem keyed_of_ok {first : Bool} {cs behind behind' behind'' rest : List Char} {name : String}
    (next : nextKey first cs = .ok (some behind, behind'))
    (text : takeText behind = .ok (name, behind'')) (colon : takeColon behind'' = .ok rest) :
    ∃ used body colon, Keyed first used body colon name ∧ cs = used ++ rest := by
  obtain ⟨rfl, lead, leads, rfl⟩ := nextKey_eq_ok_some_iff.mp next
  obtain ⟨key, quoted, rfl, reads⟩ := takeText_ok text
  obtain ⟨gap, blank, rfl⟩ := takeColon_eq_ok_iff.mp colon
  refine ⟨lead ++ '"' :: (key ++ '"' :: (gap ++ [':'])), key ++ '"' :: (gap ++ [':']), gap ++ [':'],
    ⟨?_, ?_, ?_, ?_⟩, by simp⟩
  · intro rest
    exact nextKey_eq_ok_some_iff.mpr ⟨rfl, lead, leads, by simp⟩
  · intro rest
    have given := reads (gap ++ [':'] ++ rest)
    simpa using given
  · intro rest
    exact takeColon_eq_ok_iff.mpr ⟨gap, blank, by simp⟩
  · intro used later led inside
    have members := Inside.cons leads (item_member quoted blank led) inside
    simpa using members

/-! Values. -/

private theorem take_append_gap {gap : List Char} (blank : Gap gap) (fuel depth : Nat)
    (cs : List Char) : take fuel depth (gap ++ cs) = take fuel depth cs := by
  cases fuel with
  | zero => rfl
  | succ fuel => rw [take, skipGap_append blank, take]

private theorem take_quote (fuel depth : Nat) (cs : List Char) :
    take (fuel + 1) depth ('"' :: cs) = (do
      let (s, rest) ← takeText cs
      return (.text s, rest)) := by
  rw [take, skipGap_of_not_isGap (by decide)]
  rfl

private theorem size_of_inRange {d : Decimal} {v : Value} (own : inRange d = .ok v) :
    v.size = 1 := by
  unfold inRange at own
  split at own <;> cases own
  rfl

private theorem size_of_takeNumber {negative : Bool} {cs rest : List Char} {v : Value}
    (taken : takeNumber negative cs = .ok (v, rest)) : v.size = 1 := by
  have integer : ∀ {n : Nat}, takeNumber.integer negative n = .ok v → v.size = 1 := by
    intro n own
    unfold takeNumber.integer at own
    split at own
    · cases own
      rfl
    split at own
    · cases own
      rfl
    · exact size_of_inRange own
  unfold takeNumber at taken
  simp only [bind_eq_ok_iff] at taken
  obtain ⟨whole, -, ⟨digits, more⟩, -, taken⟩ := taken
  dsimp only at taken
  split at taken
  · obtain ⟨⟨n, rest'⟩, -, taken⟩ := bind_eq_ok_iff.mp taken
    obtain ⟨v', own, same⟩ := bind_eq_ok_iff.mp taken
    cases same
    exact size_of_inRange own
  · obtain ⟨⟨n, rest'⟩, -, taken⟩ := bind_eq_ok_iff.mp taken
    obtain ⟨v', own, same⟩ := bind_eq_ok_iff.mp taken
    cases same
    exact size_of_inRange own
  · split at taken
    · obtain ⟨v', own, same⟩ := bind_eq_ok_iff.mp taken
      cases same
      exact integer own
    · obtain ⟨v', own, same⟩ := bind_eq_ok_iff.mp taken
      cases same
      exact size_of_inRange own

/-- These characters are taken for a value wherever they stand. -/
structure Taken (depth : Nat) (cs : List Char) (v : Value) : Prop where
  led : Led .value cs
  size_le : v.size ≤ cs.length
  again : ∀ fuel rest, cs.length ≤ fuel → Ended rest → take fuel depth (cs ++ rest) = .ok (v, rest)

/-- These characters are taken for the items of an array up to its bracket. -/
structure ItemsTaken (depth : Nat) (first : Bool) (cs : List Char) (vs : List Value) : Prop where
  inside : Inside .list first cs
  sizes_le : Value.sizes vs ≤ cs.length
  again : ∀ fuel rest, cs.length < fuel →
    takeItems fuel depth first (cs ++ ']' :: rest) = .ok (vs, ']' :: rest)

/-- These characters are taken for the members of an object up to its brace. -/
structure MembersTaken (depth : Nat) (first : Bool) (cs : List Char)
    (ms : List (String × Value)) : Prop where
  inside : Inside .object first cs
  sizes_le : Value.memberSizes ms ≤ cs.length
  again : ∀ fuel rest, cs.length < fuel →
    takeMembers fuel depth first (cs ++ '\x7d' :: rest) = .ok (ms, '\x7d' :: rest)

section Steps

variable {depth : Nat} {first : Bool} {gap cs lead later : List Char} {v : Value}
  {vs : List Value} {ms : List (String × Value)}

private theorem Taken.behind (taken : Taken depth cs v) (blank : Gap gap) :
    Taken depth (gap ++ cs) v := by
  obtain ⟨⟨gap', phrase, blank', own, rfl⟩, size_le, again⟩ := taken
  refine ⟨⟨gap ++ gap', phrase, blank.append blank', own, by simp⟩, ?_, ?_⟩
  · rw [List.length_append]
    omega
  · intro fuel rest enough ended
    rw [List.length_append] at enough
    rw [List.append_assoc, take_append_gap blank]
    exact again fuel rest (by omega) ended

private theorem taken_single (phrase : Phrase .value cs) (single : v.size = 1)
    (again : ∀ fuel rest, Ended rest → take (fuel + 1) depth (cs ++ rest) = .ok (v, rest)) :
    Taken depth cs v := by
  have some := List.length_pos_of_ne_nil phrase.ne_nil
  refine ⟨⟨[], cs, gap_nil, phrase, rfl⟩, ?_, ?_⟩
  · rw [single]
    exact some
  · intro fuel rest enough ended
    obtain ⟨fuel, rfl⟩ : ∃ n, fuel = n + 1 := ⟨fuel - 1, by omega⟩
    exact again fuel rest ended

private theorem taken_word {c : Char} {word more rest : List Char} {w : Value}
    (phrase : Phrase .value (c :: word)) (single : w.size = 1)
    (again : ∀ fuel rest, take (fuel + 1) depth (c :: (word ++ rest)) = .ok (w, rest))
    (taken : (do return (w, ← takeWord word more)) = (.ok (v, rest) : Except Flaw (Front Value))) :
    ∃ used, Taken depth used v ∧ c :: more = used ++ rest := by
  rw [bind_eq_ok_iff] at taken
  obtain ⟨_, own, same⟩ := taken
  cases same
  refine ⟨c :: word, taken_single phrase single fun fuel rest _ => again fuel rest, ?_⟩
  rw [takeWord_eq_ok_iff.mp own]
  rfl

private theorem ItemsTaken.array (items : ItemsTaken (depth - 1) true cs vs) (deep : ¬depth ≤ 1) :
    Taken depth ('[' :: (cs ++ [']'])) (.array vs) := by
  have array : Phrase .array ('[' :: (cs ++ [']'])) := by
    rcases items.inside with blank | elements
    · exact .emptyArray blank
    · exact .array elements
  refine ⟨⟨[], _, gap_nil, .ofArray array, rfl⟩, ?_, ?_⟩
  · have few := items.sizes_le
    rw [Value.size, List.length_cons, List.length_append]
    omega
  · intro fuel rest enough _
    rw [List.length_cons, List.length_append] at enough
    obtain ⟨fuel, rfl⟩ : ∃ n, fuel = n + 1 := ⟨fuel - 1, by omega⟩
    have inner := items.again fuel rest (by simp at enough; omega)
    rw [List.cons_append, List.append_assoc, List.singleton_append, take_bracket, if_neg deep,
      inner]
    rfl

private theorem MembersTaken.object (members : MembersTaken (depth - 1) true cs ms)
    (deep : ¬depth ≤ 1) : Taken depth ('\x7b' :: (cs ++ ['\x7d'])) (.object ms) := by
  have object : Phrase .object ('\x7b' :: (cs ++ ['\x7d'])) := by
    rcases members.inside with blank | members
    · exact .emptyObject blank
    · exact .object members
  refine ⟨⟨[], _, gap_nil, .ofObject object, rfl⟩, ?_, ?_⟩
  · have few := members.sizes_le
    rw [Value.size, List.length_cons, List.length_append]
    omega
  · intro fuel rest enough _
    rw [List.length_cons, List.length_append] at enough
    obtain ⟨fuel, rfl⟩ : ∃ n, fuel = n + 1 := ⟨fuel - 1, by omega⟩
    have inner := members.again fuel rest (by simp at enough; omega)
    rw [List.cons_append, List.append_assoc, List.singleton_append, take_brace, if_neg deep, inner]
    rfl

private theorem itemsTaken_nil (blank : Gap gap) : ItemsTaken depth first gap [] := by
  refine ⟨.gap blank, Nat.zero_le _, ?_⟩
  intro fuel rest enough
  obtain ⟨fuel, rfl⟩ : ∃ n, fuel = n + 1 := ⟨fuel - 1, by omega⟩
  rw [takeItems, nextItem_eq_ok_false_iff.mpr ⟨gap, rest, blank, rfl, rfl⟩]
  rfl

private theorem ItemsTaken.cons (items : ItemsTaken depth false later vs) (leads : Lead first lead)
    (taken : Taken depth cs v)
    (next : ∀ rest, nextItem first (lead ++ (cs ++ rest)) = .ok (true, cs ++ rest)) :
    ItemsTaken depth first (lead ++ (cs ++ later)) (v :: vs) := by
  have some := List.length_pos_of_ne_nil taken.led.ne_nil
  refine ⟨.cons leads taken.led.item items.inside, ?_, ?_⟩
  · have size := taken.size_le
    have sizes := items.sizes_le
    rw [Value.sizes, List.length_append, List.length_append]
    omega
  · intro fuel rest enough
    rw [List.length_append, List.length_append] at enough
    obtain ⟨fuel, rfl⟩ : ∃ n, fuel = n + 1 := ⟨fuel - 1, by omega⟩
    have value := taken.again fuel (later ++ ']' :: rest) (by omega) items.inside.ended
    have others := items.again fuel rest (by omega)
    rw [List.append_assoc, List.append_assoc, takeItems, next, ok_bind]
    dsimp only
    rw [if_pos rfl, value, ok_bind]
    dsimp only
    rw [others]
    rfl

private theorem membersTaken_nil (blank : Gap gap) : MembersTaken depth first gap [] := by
  refine ⟨.gap blank, Nat.zero_le _, ?_⟩
  intro fuel rest enough
  obtain ⟨fuel, rfl⟩ : ∃ n, fuel = n + 1 := ⟨fuel - 1, by omega⟩
  rw [takeMembers, nextKey_eq_ok_none_iff.mpr ⟨gap, rest, blank, rfl, rfl⟩]
  rfl

private theorem MembersTaken.cons {key body colon : List Char} {name : String}
    (members : MembersTaken depth false later ms) (keyed : Keyed first key body colon name)
    (taken : Taken depth cs v) :
    MembersTaken depth first (key ++ (cs ++ later)) ((name, v) :: ms) := by
  have some := List.length_pos_of_ne_nil taken.led.ne_nil
  refine ⟨keyed.inside taken.led members.inside, ?_, ?_⟩
  · have size := taken.size_le
    have sizes := members.sizes_le
    rw [Value.memberSizes, List.length_append, List.length_append]
    omega
  · intro fuel rest enough
    rw [List.length_append, List.length_append] at enough
    obtain ⟨fuel, rfl⟩ : ∃ n, fuel = n + 1 := ⟨fuel - 1, by omega⟩
    have value := taken.again fuel (later ++ '\x7d' :: rest) (by omega) members.inside.ended
    have others := members.again fuel rest (by omega)
    rw [List.append_assoc, List.append_assoc, takeMembers, keyed.next, ok_bind]
    dsimp only
    rw [keyed.text, ok_bind]
    dsimp only
    rw [keyed.colon, ok_bind, value, ok_bind]
    dsimp only
    rw [others]
    rfl

end Steps

mutual

theorem take_ok {fuel depth : Nat} {cs rest : List Char} {v : Value}
    (taken : take fuel depth cs = .ok (v, rest)) :
    ∃ used, Taken depth used v ∧ cs = used ++ rest := by
  cases fuel with
  | zero => cases taken
  | succ fuel =>
    -- the gap in front of a value is taken with it
    have front : ∀ {c : Char} {more : List Char}, skipGap cs = c :: more →
        (∃ used, Taken depth used v ∧ c :: more = used ++ rest) →
          ∃ used, Taken depth used v ∧ cs = used ++ rest := by
      rintro c more skipped ⟨used, own, split⟩
      obtain ⟨-, gap, blank, rfl⟩ := skipGap_eq_cons_iff.mp skipped
      exact ⟨gap ++ used, own.behind blank, by rw [split, List.append_assoc]⟩
    rw [take] at taken
    split at taken
    · cases taken
    · next more skipped =>
      exact front skipped (taken_word .null rfl (fun _ _ => by rw [take]; rfl) taken)
    · next more skipped =>
      exact front skipped (taken_word .yes rfl (fun _ _ => by rw [take]; rfl) taken)
    · next more skipped =>
      exact front skipped (taken_word .no rfl (fun _ _ => by rw [take]; rfl) taken)
    · next more skipped =>
      obtain ⟨used, number, rfl, again⟩ := takeNumber_ok taken
      refine front skipped ⟨'-' :: used, taken_single (.negative number) ?_ ?_, rfl⟩
      · exact size_of_takeNumber taken
      · intro fuel rest ended
        rw [List.cons_append, take, skipGap_of_not_isGap (by decide)]
        exact again rest ended
    · next more skipped =>
      rw [bind_eq_ok_iff] at taken
      obtain ⟨⟨s, rest'⟩, text, same⟩ := taken
      cases same
      obtain ⟨body, quoted, rfl, reads⟩ := takeText_ok text
      refine front skipped ⟨'"' :: (body ++ ['"']), taken_single (.text quoted) rfl ?_, by simp⟩
      intro fuel rest _
      rw [List.cons_append, take_quote, reads rest]
      rfl
    · next more skipped =>
      split at taken
      · cases taken
      next deep =>
      simp only [bind_eq_ok_iff] at taken
      obtain ⟨⟨vs, rest'⟩, items, _, close, same⟩ := taken
      cases same
      obtain ⟨used, tail, rfl, own, rfl⟩ := takeItems_ok items
      cases close
      exact front skipped ⟨_, own.array deep, by simp⟩
    · next more skipped =>
      split at taken
      · cases taken
      next deep =>
      simp only [bind_eq_ok_iff] at taken
      obtain ⟨⟨ms, rest'⟩, members, _, close, same⟩ := taken
      cases same
      obtain ⟨used, tail, rfl, own, rfl⟩ := takeMembers_ok members
      cases close
      exact front skipped ⟨_, own.object deep, by simp⟩
    · next c more _ _ _ _ _ _ _ skipped =>
      split at taken
      · next digit =>
        obtain ⟨used, number, split, again⟩ := takeNumber_ok taken
        refine front skipped ⟨used, taken_single (.number number) ?_ ?_, split⟩
        · exact size_of_takeNumber taken
        · intro fuel rest ended
          obtain ⟨d, used, rfl⟩ := List.exists_cons_of_ne_nil (Phrase.number number).ne_nil
          cases split
          rw [List.cons_append, take_of_isDigit digit]
          exact again rest ended
      · cases taken

theorem takeItems_ok {fuel depth : Nat} {first : Bool} {cs rest : List Char} {vs : List Value}
    (taken : takeItems fuel depth first cs = .ok (vs, rest)) :
    ∃ used tail, rest = ']' :: tail ∧ ItemsTaken depth first used vs ∧ cs = used ++ rest := by
  cases fuel with
  | zero => cases taken
  | succ fuel =>
    rw [takeItems, bind_eq_ok_iff] at taken
    obtain ⟨⟨more, cs'⟩, next, taken⟩ := taken
    dsimp only at taken
    cases more with
    | false =>
      cases taken
      obtain ⟨gap, tail, blank, rfl, rfl⟩ := nextItem_eq_ok_false_iff.mp next
      exact ⟨gap, tail, rfl, itemsTaken_nil blank, rfl⟩
    | true =>
      rw [if_pos rfl] at taken
      simp only [bind_eq_ok_iff] at taken
      obtain ⟨⟨v, cs''⟩, value, ⟨vs', rest'⟩, others, taken⟩ := taken
      cases taken
      obtain ⟨used, own, rfl⟩ := take_ok value
      obtain ⟨later, tail, rfl, items, rfl⟩ := takeItems_ok others
      obtain ⟨lead, leads, rfl, again⟩ := nextItem_ok own.led.ne_nil next
      exact ⟨_, tail, rfl, items.cons leads own again, by simp⟩

theorem takeMembers_ok {fuel depth : Nat} {first : Bool} {cs rest : List Char}
    {ms : List (String × Value)} (taken : takeMembers fuel depth first cs = .ok (ms, rest)) :
    ∃ used tail, rest = '\x7d' :: tail ∧ MembersTaken depth first used ms ∧ cs = used ++ rest := by
  cases fuel with
  | zero => cases taken
  | succ fuel =>
    rw [takeMembers, bind_eq_ok_iff] at taken
    obtain ⟨⟨key, cs'⟩, next, taken⟩ := taken
    cases key with
    | none =>
      cases taken
      obtain ⟨gap, tail, blank, rfl, rfl⟩ := nextKey_eq_ok_none_iff.mp next
      exact ⟨gap, tail, rfl, membersTaken_nil blank, rfl⟩
    | some cs'' =>
      simp only [bind_eq_ok_iff] at taken
      obtain ⟨⟨name, behind⟩, text, cs₁, colon, ⟨v, cs₂⟩, value, taken⟩ := taken
      obtain ⟨⟨ms', rest'⟩, others, taken⟩ := taken
      cases taken
      obtain ⟨key, body, behind, keyed, rfl⟩ := keyed_of_ok next text colon
      obtain ⟨used, own, rfl⟩ := take_ok value
      obtain ⟨later, tail, rfl, members, rfl⟩ := takeMembers_ok others
      exact ⟨_, tail, rfl, members.cons keyed own, by simp⟩

end

/-! Passing over a value. -/

/-- The rest of a text behind the frames that are open in it, the innermost first. -/
inductive Closes : List Frame → List Char → List Char → Prop
  | nil {rest : List Char} : Closes [] rest rest
  | cons {f : Frame} {frames : List Frame} {used tail rest : List Char} : Inside f false used →
      Closes frames tail rest → Closes (f :: frames) (used ++ f.mark :: tail) rest

theorem Inside.enclosed {f : Frame} {cs : List Char} (inside : Inside f true cs) :
    Phrase .value ((match f with | .list => '[' | .object => '\x7b') :: (cs ++ [f.mark])) := by
  cases f with
  | list => exact .ofArray (inside.elim .emptyArray .array)
  | object => exact .ofObject (inside.elim .emptyObject .object)

private theorem skipScalar_ok {cs rest : List Char} (passed : skipScalar cs = .ok rest) :
    ∃ used, Phrase .value used ∧ cs = used ++ rest := by
  unfold skipScalar at passed
  split at passed
  · rw [takeWord_eq_ok_iff.mp passed]
    exact ⟨_, .null, rfl⟩
  · rw [takeWord_eq_ok_iff.mp passed]
    exact ⟨_, .yes, rfl⟩
  · rw [takeWord_eq_ok_iff.mp passed]
    exact ⟨_, .no, rfl⟩
  · obtain ⟨used, number, rfl⟩ := skipNumber_ok passed
    exact ⟨'-' :: used, .negative number, rfl⟩
  · obtain ⟨body, quoted, rfl⟩ := skipString_ok passed
    exact ⟨'"' :: (body ++ ['"']), .text quoted, by simp⟩
  · split at passed
    · obtain ⟨used, number, split⟩ := skipNumber_ok passed
      exact ⟨used, .number number, split⟩
    · cases passed
  · cases passed

private theorem skipKey_ok {f : Frame} {cs rest : List Char} (passed : skipKey f cs = .ok rest) :
    ∃ gap key, Gap gap ∧ cs = gap ++ (key ++ rest) ∧
      ∀ {used : List Char}, Led .value used → Item f (key ++ used) := by
  unfold skipKey at passed
  cases f with
  | list =>
    cases passed
    exact ⟨[], [], gap_nil, rfl, Led.item⟩
  | object =>
    dsimp only at passed
    split at passed
    · next skipped =>
      obtain ⟨-, gap, blank, rfl⟩ := skipGap_eq_cons_iff.mp skipped
      rw [bind_eq_ok_iff] at passed
      obtain ⟨_, string, colon⟩ := passed
      obtain ⟨key, quoted, rfl⟩ := skipString_ok string
      obtain ⟨gap', blank', rfl⟩ := takeColon_eq_ok_iff.mp colon
      refine ⟨gap, '"' :: (key ++ '"' :: (gap' ++ [':'])), blank, by simp, ?_⟩
      intro used led
      have item := item_member quoted blank' led
      simpa using item
    · cases passed
    · cases passed

private theorem advance_ok {f : Frame} {comma more : Bool} {cs rest : List Char}
    (advanced : advance f comma cs = .ok (more, rest)) :
    (more = false ∧ ∃ gap, Gap gap ∧ cs = gap ++ f.mark :: rest) ∨
      (more = true ∧ ∃ lead key, Lead (!comma) lead ∧ cs = lead ++ (key ++ rest) ∧
        ∀ {used : List Char}, Led .value used → Item f (key ++ used)) := by
  -- behind a gap, or behind a comma with a gap before it, a value is led up to by its key
  have go : ∀ (before : List Char) {cs' : List Char},
      (∀ gap, Gap gap → Lead (!comma) (before ++ gap)) → cs = before ++ cs' →
        (skipKey f cs').map (true, ·) = .ok (more, rest) →
          more = true ∧ ∃ lead key, Lead (!comma) lead ∧ cs = lead ++ (key ++ rest) ∧
            ∀ {used : List Char}, Led .value used → Item f (key ++ used) := by
    intro before cs' leads split passed
    obtain ⟨_, passed, same⟩ := map_eq_ok_iff.mp passed
    cases same
    obtain ⟨gap, key, blank, rfl, item⟩ := skipKey_ok passed
    exact ⟨rfl, before ++ gap, key, leads gap blank, by rw [split, List.append_assoc], item⟩
  obtain ⟨gap, blank, split⟩ := exists_gap cs
  unfold advance at advanced
  dsimp only at advanced
  split at advanced
  · next skipped =>
    cases advanced
    rw [skipped] at split
    exact .inl ⟨rfl, gap, blank, split⟩
  · next skipped =>
    cases advanced
    rw [skipped] at split
    exact .inl ⟨rfl, gap, blank, split⟩
  · next behind _ skipped =>
    rw [skipped] at split
    cases comma with
    | true =>
      rw [if_pos rfl] at advanced
      refine .inr (go (gap ++ [',']) ?_ (by simp [split]) advanced)
      intro gap' blank'
      exact ⟨gap, gap', blank, blank', by simp⟩
    | false =>
      rw [if_neg Bool.false_ne_true] at advanced
      exact .inr (go gap (fun _ => blank.append) split advanced)
  · cases advanced
  · cases advanced
  all_goals
    split at advanced
    · cases advanced
    · next first =>
      rw [Bool.not_eq_true] at first
      subst first
      exact .inr (go gap (fun _ => blank.append) split advanced)

-- The frames around a value are closed behind it: `Closes` says what is still to come for each.
mutual

private theorem skipFrames_ok {fuel : Nat} {frames : List Frame} {cs rest : List Char}
    (passed : skipFrames fuel frames cs = .ok rest) :
    ∃ used tail, Led .value used ∧ cs = used ++ tail ∧ Closes frames tail rest := by
  cases fuel with
  | zero => cases passed
  | succ fuel =>
    rw [skipFrames] at passed
    split at passed
    · next more skipped =>
      obtain ⟨-, gap, blank, rfl⟩ := skipGap_eq_cons_iff.mp skipped
      obtain ⟨used, tail, inside, rfl, closes⟩ := leave_ok passed
      exact ⟨_, tail, ⟨gap, _, blank, inside.enclosed, rfl⟩, by simp [Frame.mark], closes⟩
    · next more skipped =>
      obtain ⟨-, gap, blank, rfl⟩ := skipGap_eq_cons_iff.mp skipped
      obtain ⟨used, tail, inside, rfl, closes⟩ := leave_ok passed
      exact ⟨_, tail, ⟨gap, _, blank, inside.enclosed, rfl⟩, by simp [Frame.mark], closes⟩
    · rw [bind_eq_ok_iff] at passed
      obtain ⟨behind, scalar, passed⟩ := passed
      obtain ⟨used, phrase, skipped⟩ := skipScalar_ok scalar
      obtain ⟨gap, blank, split⟩ := exists_gap cs
      rw [skipped, ← List.append_assoc] at split
      refine ⟨gap ++ used, behind, ⟨gap, used, blank, phrase, rfl⟩, split, ?_⟩
      split at passed
      · cases passed
        exact .nil
      · next f frames =>
        obtain ⟨used, tail, inside, rfl, closes⟩ := leave_ok passed
        exact .cons inside closes

private theorem leave_ok {fuel : Nat} {f : Frame} {frames : List Frame} {comma : Bool}
    {cs rest : List Char} (passed : skipFrames.leave fuel f frames comma cs = .ok rest) :
    ∃ used tail, Inside f (!comma) used ∧ cs = used ++ f.mark :: tail ∧
      Closes frames tail rest := by
  cases fuel with
  | zero => cases passed
  | succ fuel =>
    rw [skipFrames.leave, bind_eq_ok_iff] at passed
    obtain ⟨⟨more, behind⟩, advanced, passed⟩ := passed
    dsimp only at passed
    rcases advance_ok advanced with ⟨rfl, gap, blank, rfl⟩ | ⟨rfl, lead, key, leads, rfl, item⟩
    · rw [if_neg Bool.false_ne_true] at passed
      refine ⟨gap, behind, .gap blank, rfl, ?_⟩
      split at passed
      · cases passed
        exact .nil
      · next f frames =>
        obtain ⟨used, tail, inside, rfl, closes⟩ := leave_ok passed
        exact .cons inside closes
    · rw [if_pos rfl] at passed
      obtain ⟨used, tail, led, rfl, closes⟩ := skipFrames_ok passed
      cases closes with
      | cons inside closes => exact ⟨_, _, .cons leads (item led) inside, by simp, closes⟩

end

theorem skipValue_ok {cs rest : List Char} (passed : skipValue cs = .ok rest) :
    ∃ used, Led .value used ∧ cs = used ++ rest := by
  obtain ⟨used, tail, led, rfl, closes⟩ := skipFrames_ok passed
  cases closes
  exact ⟨used, led, rfl⟩

end CodeTint.Json
