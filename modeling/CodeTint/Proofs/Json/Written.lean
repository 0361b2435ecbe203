import CodeTint.Document.Writer
import CodeTint.Json.Reader
import CodeTint.Proofs.Attempt
import Mathlib.Data.List.Forall2

/-!
Values that are written and read back. Main statements: a written string reads back as itself, and a
block of values that read back reads back as their array or object, unless it is nested too deep for
the reader.
-/

set_option autoImplicit false
set_option relaxedAutoImplicit false

namespace CodeTint.Json

/-! Strings. -/

private theorem numeral?_lowerHex : ∀ n < 0x20, Text.numeral? 16 (Text.lowerHex 4 n) = some n := by
  decide +kernel

private theorem takeHex_lowerHex {n : Nat} (control : n < 0x20) (rest : List Char) :
    takeHex (Text.lowerHex 4 n ++ rest) = .ok (n, rest) := by
  have value := numeral?_lowerHex n control
  have digits : ∃ a b c d, Text.lowerHex 4 n = [a, b, c, d] := ⟨_, _, _, _, rfl⟩
  obtain ⟨a, b, c, d, digits⟩ := digits
  rw [digits] at value ⊢
  simp [takeHex, value]

private theorem takeUnicode_lowerHex {c : Char} (control : c.toNat < 0x20) (rest : List Char) :
    takeUnicode (Text.lowerHex 4 c.toNat ++ rest) = .ok (c, rest) := by
  have noTrail : (decide (0xDC00 ≤ c.toNat) && decide (c.toNat ≤ 0xDFFF)) = false := by
    simp only [Bool.and_eq_false_iff, decide_eq_false_iff_not]
    omega
  have noLead : (decide (0xD800 ≤ c.toNat) && decide (c.toNat ≤ 0xDBFF)) = false := by
    simp only [Bool.and_eq_false_iff, decide_eq_false_iff_not]
    omega
  simp only [takeUnicode, takeHex_lowerHex control, bind, Except.bind, noTrail, noLead,
    Bool.false_eq_true, if_false, charOf, Char.ofNat_toNat]
  rfl

theorem takeString_visible {c : Char} (quote : c ≠ '"') (slash : c ≠ '\\')
    (visible : ¬c.toNat < 0x20) (fuel : Nat) (more : List Char) :
    takeString (fuel + 1) (c :: more) = (do
      let (s, rest) ← takeString fuel more
      return (c :: s, rest)) := by
  rw [takeString, if_neg visible]
  · exact quote
  · exact fun backslash _ => slash backslash
  · exact fun _ backslash _ => slash backslash
  · exact fun _ _ backslash _ => slash backslash

private theorem takeString_escapeChar (c : Char) (fuel : Nat) (more : List Char) :
    takeString (fuel + 1) (escapeChar c ++ more) = (do
      let (s, rest) ← takeString fuel more
      return (c :: s, rest)) := by
  unfold escapeChar
  split
  case h_8 quote slash _ _ _ _ _ =>
    split
    · next control =>
      simp only [List.cons_append, takeString, takeUnicode_lowerHex control]
      rfl
    · next visible => exact takeString_visible quote slash visible fuel more
  all_goals simp [takeString, shortEscape?]

private theorem takeString_written (cs : List Char) (rest : List Char) {fuel : Nat}
    (enough : cs.length < fuel) :
    takeString fuel (cs.flatMap escapeChar ++ '"' :: rest) = .ok (cs, rest) := by
  induction cs generalizing fuel with
  | nil =>
    obtain ⟨fuel, rfl⟩ := Nat.exists_eq_add_one_of_ne_zero (Nat.ne_of_gt enough)
    rfl
  | cons c more ih =>
    obtain ⟨fuel, rfl⟩ := Nat.exists_eq_add_one_of_ne_zero (by omega : fuel ≠ 0)
    rw [List.flatMap_cons, List.append_assoc, takeString_escapeChar,
      ih (by simpa using enough)]
    rfl

private theorem length_le_escaped (cs : List Char) :
    cs.length ≤ (cs.flatMap escapeChar).length := by
  induction cs with
  | nil => simp
  | cons c more ih =>
    have first : 0 < (escapeChar c).length := by
      unfold escapeChar
      split
      case h_8 => split <;> simp
      all_goals simp
    rw [List.flatMap_cons, List.length_append, List.length_cons]
    omega

theorem takeText_written (s : String) (rest : List Char) :
    takeText (s.toList.flatMap escapeChar ++ '"' :: rest) = .ok (s, rest) := by
  have enough := length_le_escaped s.toList
  unfold takeText
  rw [takeString_written]
  · simp [bind, Except.bind, pure, Except.pure]
  · simp only [List.length_append]
    omega

/-! Numbers. -/

def Stops (rest : List Char) : Prop := ∃ c more, rest = c :: more ∧ (c = ',' ∨ c = '\n')

private theorem writeNat_spec : ∀ n < 256, (writeNat n).all Char.isDigit = true ∧
    (writeNat n ≠ []) ∧ ((writeNat n).head? = some '0' → writeNat n = ['0']) ∧
    Decimal.ofDigits false (writeNat n) [] = ⟨false, n, 0⟩ := by
  decide +kernel

private theorem takeNumber_written {n : Nat} (small : n < 256) {rest : List Char}
    (stops : Stops rest) : takeNumber false (writeNat n ++ rest) = .ok (.natural n, rest) := by
  obtain ⟨digits, some, zero, value⟩ := writeNat_spec n small
  obtain ⟨c, more, rfl, separator⟩ := stops
  have stop : c.isDigit = false := by rcases separator with rfl | rfl <;> rfl
  generalize writeNat n = ds at *
  obtain ⟨d, others, rfl⟩ := List.exists_cons_of_ne_nil some
  rw [List.all_cons, Bool.and_eq_true] at digits
  have whole : (others ++ c :: more).takeWhile Char.isDigit = others := by
    rw [List.takeWhile_append_of_pos (List.all_eq_true.mp digits.2),
      List.takeWhile_cons_of_neg (by simp [stop]), List.append_nil]
  unfold takeNumber
  by_cases lead : d = '0'
  · subst lead
    obtain ⟨⟩ := zero rfl
    rcases separator with rfl | rfl <;>
      simp [takeWhole, takeFraction, stop, value, takeNumber.integer, bind, Except.bind, pure,
        Except.pure]
  · rcases separator with rfl | rfl <;>
      simp [takeWhole, takeFraction, value, digits.1, whole, takeNumber.integer, bind, Except.bind,
        pure, Except.pure]

/-! Blocks. -/

namespace Value

mutual

def nesting : Value → Nat
  | .array items => nestingItems items + 1
  | .object members => nestingMembers members + 1
  | _ => 0

def nestingItems : List Value → Nat
  | [] => 0
  | v :: rest => max (nesting v) (nestingItems rest)

def nestingMembers : List (String × Value) → Nat
  | [] => 0
  | (_, v) :: rest => max (nesting v) (nestingMembers rest)

end

private theorem nesting_array (items : List Value) :
    (array items).nesting = nestingItems items + 1 := by
  rw [nesting]

theorem nesting_object (members : List (String × Value)) :
    (object members).nesting = nestingMembers members + 1 := by
  rw [nesting]

theorem nestingItems_cons_le {v : Value} {items : List Value} {k : Nat} :
    nestingItems (v :: items) ≤ k ↔ v.nesting ≤ k ∧ nestingItems items ≤ k := by
  rw [nestingItems]
  exact Nat.max_le

theorem nestingMembers_cons_le {m : String × Value} {members : List (String × Value)} {k : Nat} :
    nestingMembers (m :: members) ≤ k ↔ m.2.nesting ≤ k ∧ nestingMembers members ≤ k := by
  rw [nestingMembers]
  exact Nat.max_le

end Value

/-- The text of a block after its opening bracket, from its first piece on or from a later one. -/
def blockText (closing : Char) (depth : Nat) : Bool → List (List Char) → List Char
  | true, [] => [closing]
  | false, [] => newline depth ++ [closing]
  | first, piece :: rest =>
    (if first then [] else [',']) ++ newline (depth + 1) ++ piece ++
      blockText closing depth false rest

theorem writeBlock_eq (opening closing : Char) (depth : Nat) (pieces : List (List Char)) :
    writeBlock opening closing depth pieces = opening :: blockText closing depth true pieces := by
  have later : ∀ rest : List (List Char),
      rest.flatMap (fun p => ',' :: newline (depth + 1) ++ p) ++ (newline depth ++ [closing]) =
        blockText closing depth false rest := by
    intro rest
    induction rest with
    | nil => rfl
    | cons p rest ih => simp [blockText, ← ih]
  cases pieces with
  | nil => rfl
  | cons first rest => simp [writeBlock, blockText, ← later]

theorem stops_blockText (closing : Char) (depth : Nat) (pieces : List (List Char))
    (rest : List Char) : Stops (blockText closing depth false pieces ++ rest) := by
  cases pieces with
  | nil => exact ⟨'\n', _, rfl, .inr rfl⟩
  | cons piece more => exact ⟨',', _, rfl, .inl rfl⟩

private theorem skipGap_newline (depth : Nat) (cs : List Char) :
    skipGap (newline depth ++ cs) = skipGap cs := by
  have blank : ∀ n, skipGap (List.replicate n ' ' ++ cs) = skipGap cs := by
    intro n
    induction n with
    | zero => rfl
    | succ n ih => rwa [List.replicate_succ, List.cons_append]
  exact blank (2 * depth)

theorem skipGap_of_not_isGap {c : Char} (solid : isGap c = false) (cs : List Char) :
    skipGap (c :: cs) = c :: cs :=
  List.dropWhile_cons_of_neg (by simp [solid])

/-- Characters that are a value as it is written: they are read as the value if what is around them
leaves room for its nesting, and refused as nested too deep otherwise. -/
structure Reads (cs : List Char) (v : Value) : Prop where
  opens : ∃ c more, cs = c :: more ∧ isGap c = false ∧ c ≠ ',' ∧ c ≠ ']'
  take : ∀ fuel depth rest, cs.length ≤ fuel → Stops rest →
    take fuel depth (cs ++ rest) =
      if v.nesting ≤ depth - 1 then .ok (v, rest) else .error .depth

def ReadsMember (piece : List Char) (m : String × Value) : Prop :=
  ∃ cs, piece = writeMember m.1 cs ∧ Reads cs m.2

theorem take_of_gap (fuel depth : Nat) {c : Char} (gap : isGap c = true) (cs : List Char) :
    take fuel depth (c :: cs) = take fuel depth cs := by
  cases fuel with
  | zero => rfl
  | succ fuel =>
    have skipped : skipGap (c :: cs) = skipGap cs := List.dropWhile_cons_of_pos gap
    rw [Json.take, skipped, Json.take]

theorem ite_deeper_eq {ε α β : Type} {depth inner outer : Nat} {a : α} {b : β} {e : ε}
    {f : α → Except ε β} (nested : outer = inner + 1) (gives : f a = .ok b) :
    (if depth ≤ 1 then .error e
      else (if inner ≤ depth - 1 - 1 then .ok a else .error e) >>= f) =
      if outer ≤ depth - 1 then .ok b else .error e := by
  by_cases room : depth ≤ 1
  · rw [if_pos room, if_neg (by omega)]
  · rw [if_neg room]
    by_cases fits : inner ≤ depth - 1 - 1
    · rw [if_pos fits, if_pos (by omega)]
      exact gives
    · rw [if_neg fits, if_neg (by omega)]
      rfl

theorem take_bracket (fuel depth : Nat) (cs : List Char) :
    take (fuel + 1) depth ('[' :: cs) = if depth ≤ 1 then .error .depth else (do
      let (items, rest) ← takeItems fuel (depth - 1) true cs
      return (.array items, ← takeBracket rest)) := by
  rw [Json.take, skipGap_of_not_isGap (by decide)]
  rfl

theorem take_brace (fuel depth : Nat) (cs : List Char) :
    take (fuel + 1) depth ('\x7b' :: cs) = if depth ≤ 1 then .error .depth else (do
      let (members, rest) ← takeMembers fuel (depth - 1) true cs
      return (.object members, ← takeBrace rest)) := by
  rw [Json.take, skipGap_of_not_isGap (by decide)]
  rfl

theorem reads_text (s : String) : Reads (writeString s) (.text s) where
  opens := ⟨'"', _, rfl, by decide, by decide, by decide⟩
  take fuel depth rest enough stops := by
    obtain ⟨fuel, rfl⟩ : ∃ n, fuel = n + 1 := Nat.exists_eq_add_one_of_ne_zero (by
      simp [writeString] at enough
      omega)
    have start : writeString s ++ rest = '"' :: (s.toList.flatMap escapeChar ++ '"' :: rest) := by
      simp [writeString]
    rw [start, Json.take, skipGap_of_not_isGap (by decide)]
    simp [takeText_written, Value.nesting, bind, Except.bind, pure, Except.pure]

private theorem opens_of_isDigit {d : Char} (digit : d.isDigit = true) :
    isGap d = false ∧ d ≠ ',' ∧ d ≠ ']' := by
  refine ⟨?_, ?_, ?_⟩
  · by_contra gap
    simp only [isGap, Bool.not_eq_false, Bool.or_eq_true, beq_iff_eq] at gap
    rcases gap with ((rfl | rfl) | rfl) | rfl <;> exact absurd digit (by decide)
  · rintro rfl
    exact absurd digit (by decide)
  · rintro rfl
    exact absurd digit (by decide)

theorem take_of_isDigit {d : Char} (digit : d.isDigit = true) (fuel depth : Nat) (cs : List Char) :
    take (fuel + 1) depth (d :: cs) = takeNumber false (d :: cs) := by
  rw [Json.take, skipGap_of_not_isGap (opens_of_isDigit digit).1]
  split <;> simp_all

theorem reads_natural {n : Nat} (small : n < 256) : Reads (writeNat n) (.natural n) := by
  obtain ⟨digits, some, -⟩ := writeNat_spec n small
  obtain ⟨d, others, written⟩ := List.exists_cons_of_ne_nil some
  rw [written, List.all_cons, Bool.and_eq_true] at digits
  constructor
  case opens => exact ⟨d, others, written, opens_of_isDigit digits.1⟩
  case take =>
    intro fuel depth rest enough stops
    obtain ⟨fuel, rfl⟩ : ∃ n, fuel = n + 1 := Nat.exists_eq_add_one_of_ne_zero (by
      simp [written] at enough
      omega)
    rw [written, List.cons_append, take_of_isDigit digits.1, ← List.cons_append, ← written,
      takeNumber_written small stops]
    simp [Value.nesting]

theorem nextItem_blockText_nil (first : Bool) (depth : Nat) (rest : List Char) :
    nextItem first (blockText ']' depth first [] ++ rest) = .ok (false, ']' :: rest) := by
  cases first with
  | true => rfl
  | false =>
    rw [blockText, List.append_assoc, nextItem, skipGap_newline]
    rfl

theorem nextItem_blockText_cons (first : Bool) (depth : Nat) {piece : List Char}
    (opens : ∃ c more, piece = c :: more ∧ isGap c = false ∧ c ≠ ',' ∧ c ≠ ']')
    (pieces : List (List Char)) (rest : List Char) :
    nextItem first (blockText ']' depth first (piece :: pieces) ++ rest) =
      .ok (true, piece ++ (blockText ']' depth false pieces ++ rest)) := by
  obtain ⟨c, more, rfl, solid, comma, bracket⟩ := opens
  cases first with
  | true =>
    simp only [blockText, List.append_assoc, List.cons_append, nextItem, if_true, List.nil_append,
      skipGap_newline, skipGap_of_not_isGap solid]
  | false =>
    simp only [blockText, List.append_assoc, List.cons_append, nextItem, Bool.false_eq_true,
      if_false, List.nil_append, skipGap_newline, skipGap_of_not_isGap solid,
      skipGap_of_not_isGap (by decide : isGap ',' = false)]

private theorem takeItems_blockText {items : List Value} {pieces : List (List Char)}
    (reads : List.Forall₂ (fun v piece => Reads piece v) items pieces) (d depth : Nat)
    (rest : List Char) (fuel : Nat) (first : Bool)
    (enough : (blockText ']' d first pieces).length ≤ fuel) :
    takeItems fuel depth first (blockText ']' d first pieces ++ rest) =
      if Value.nestingItems items ≤ depth - 1 then .ok (items, ']' :: rest) else .error .depth := by
  induction reads generalizing fuel first with
  | nil =>
    obtain ⟨fuel, rfl⟩ : ∃ n, fuel = n + 1 := Nat.exists_eq_add_one_of_ne_zero (by
      cases first <;> simp [blockText] at enough <;> omega)
    rw [takeItems, nextItem_blockText_nil]
    simp [Value.nestingItems, bind, Except.bind, pure, Except.pure]
  | @cons v piece items pieces own later ih =>
    simp only [blockText, List.length_append] at enough
    obtain ⟨fuel, rfl⟩ : ∃ n, fuel = n + 1 := Nat.exists_eq_add_one_of_ne_zero (by
      simp [newline] at enough
      omega)
    have room : piece.length ≤ fuel ∧ (blockText ']' d false pieces).length ≤ fuel := by
      simp [newline] at enough
      omega
    rw [takeItems, nextItem_blockText_cons first d own.opens]
    simp only [ok_bind, if_true]
    rw [own.take fuel depth _ room.1 (stops_blockText _ _ _ _)]
    refine ite_bind_eq Value.nestingItems_cons_le ?_
    dsimp only
    rw [ih fuel false room.2]
    split <;> rfl

theorem reads_array {items : List Value} {pieces : List (List Char)}
    (reads : List.Forall₂ (fun v piece => Reads piece v) items pieces) (d : Nat) :
    Reads (writeArray d pieces) (.array items) where
  opens := by
    rw [writeArray, writeBlock_eq]
    exact ⟨'[', _, rfl, by decide, by decide, by decide⟩
  take fuel depth rest enough _ := by
    rw [writeArray, writeBlock_eq] at enough ⊢
    obtain ⟨fuel, rfl⟩ : ∃ n, fuel = n + 1 := Nat.exists_eq_add_one_of_ne_zero (by
      simp at enough
      omega)
    rw [List.cons_append, take_bracket, takeItems_blockText reads d _ _ _ _ (by simpa using enough)]
    exact ite_deeper_eq (Value.nesting_array items) rfl

/-! Members. -/

theorem nextKey_blockText_nil (first : Bool) (depth : Nat) (rest : List Char) :
    nextKey first (blockText '\x7d' depth first [] ++ rest) = .ok (none, '\x7d' :: rest) := by
  cases first with
  | true => rfl
  | false =>
    rw [blockText, List.append_assoc, nextKey, skipGap_newline]
    rfl

theorem nextKey_blockText_cons (first : Bool) (depth : Nat) (key : String) (value : List Char)
    (pieces : List (List Char)) (rest : List Char) :
    nextKey first (blockText '\x7d' depth first (writeMember key value :: pieces) ++ rest) =
      .ok (some (key.toList.flatMap escapeChar ++ '"' :: ':' :: ' ' ::
          (value ++ (blockText '\x7d' depth false pieces ++ rest))),
        key.toList.flatMap escapeChar ++ '"' :: ':' :: ' ' ::
          (value ++ (blockText '\x7d' depth false pieces ++ rest))) := by
  cases first with
  | true =>
    simp only [blockText, writeMember, writeString, List.append_assoc, List.cons_append, nextKey,
      if_true, List.nil_append, skipGap_newline,
      skipGap_of_not_isGap (by decide : isGap '"' = false)]
    simp
  | false =>
    simp only [blockText, writeMember, writeString, List.append_assoc, List.cons_append, nextKey,
      Bool.false_eq_true, if_false, List.nil_append, skipGap_newline,
      skipGap_of_not_isGap (by decide : isGap ',' = false),
      skipGap_of_not_isGap (by decide : isGap '"' = false)]

theorem takeColon_written (cs : List Char) : takeColon (':' :: cs) = .ok cs := rfl

private theorem takeMembers_blockText {members : List (String × Value)} {pieces : List (List Char)}
    (reads : List.Forall₂ (fun m piece => ReadsMember piece m) members pieces) (d depth : Nat)
    (rest : List Char) (fuel : Nat) (first : Bool)
    (enough : (blockText '\x7d' d first pieces).length ≤ fuel) :
    takeMembers fuel depth first (blockText '\x7d' d first pieces ++ rest) =
      if Value.nestingMembers members ≤ depth - 1 then .ok (members, '\x7d' :: rest)
      else .error .depth := by
  induction reads generalizing fuel first with
  | nil =>
    obtain ⟨fuel, rfl⟩ : ∃ n, fuel = n + 1 := Nat.exists_eq_add_one_of_ne_zero (by
      cases first <;> simp [blockText] at enough <;> omega)
    rw [takeMembers, nextKey_blockText_nil]
    simp [Value.nestingMembers, bind, Except.bind, pure, Except.pure]
  | @cons m piece members pieces own later ih =>
    obtain ⟨key, v⟩ := m
    obtain ⟨value, rfl, own⟩ := own
    simp only [blockText, List.length_append] at enough
    obtain ⟨fuel, rfl⟩ : ∃ n, fuel = n + 1 := Nat.exists_eq_add_one_of_ne_zero (by
      simp [newline] at enough
      omega)
    have room : value.length ≤ fuel ∧ (blockText '\x7d' d false pieces).length ≤ fuel := by
      simp [newline, writeMember] at enough
      omega
    rw [takeMembers, nextKey_blockText_cons first d key value]
    simp only [ok_bind, takeText_written, takeColon_written,
      take_of_gap fuel depth (by decide : isGap ' ' = true)]
    rw [own.take fuel depth _ room.1 (stops_blockText _ _ _ _)]
    refine ite_bind_eq Value.nestingMembers_cons_le ?_
    dsimp only
    rw [ih fuel false room.2]
    split <;> rfl

theorem reads_object {members : List (String × Value)} {pieces : List (List Char)}
    (reads : List.Forall₂ (fun m piece => ReadsMember piece m) members pieces) (d : Nat) :
    Reads (writeObject d pieces) (.object members) where
  opens := by
    rw [writeObject, writeBlock_eq]
    exact ⟨'\x7b', _, rfl, by decide, by decide, by decide⟩
  take fuel depth rest enough _ := by
    rw [writeObject, writeBlock_eq] at enough ⊢
    obtain ⟨fuel, rfl⟩ : ∃ n, fuel = n + 1 := Nat.exists_eq_add_one_of_ne_zero (by
      simp at enough
      omega)
    rw [List.cons_append, take_brace, takeMembers_blockText reads d _ _ _ _ (by simpa using enough)]
    exact ite_deeper_eq (Value.nesting_object members) rfl

end CodeTint.Json
