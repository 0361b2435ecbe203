import CodeTint.Proofs.Document.Fuel
import CodeTint.Proofs.Document.RoundTrip

/-!
What the reader of documents takes off the front of a text. Main statements: a list of nodes is an
array of the grammar, and it is taken again with any fuel that its length allows, whatever follows
it; what is taken for the members of a document stands in an object.
-/

set_option autoImplicit false
set_option relaxedAutoImplicit false

namespace CodeTint.Document.Reader

open Json (Value ReadError Flaw Gap Led Inside Lead Keyed Phrase Taken skipGap)

theorem flawed_eq_ok_iff {α : Type} {r : Except Flaw α} {a : α} : flawed r = .ok a ↔ r = .ok a :=
  mapError_eq_ok_iff

theorem wrongType_ne_ok {α : Type} (fuel : Nat) (wanted : String) (cs : List Char) (a : Front α) :
    wrongType fuel wanted cs ≠ .ok a := by
  intro taken
  unfold wrongType at taken
  split at taken
  · cases taken
  · cases taken
  · cases taken
  · obtain ⟨_, -, thrown⟩ := bind_eq_ok_iff.mp taken
    cases thrown

/-! Nodes. -/

/-- These characters are taken for the kind of a node wherever they stand. -/
structure KindTaken (cs : List Char) (k : NodeKind) : Prop where
  led : Led .value cs
  again : ∀ fuel rest, takeKind fuel (cs ++ rest) = .ok (k, rest)

/-- These characters are taken for the members of a node up to the brace. -/
structure NodeMembersTaken (depth : Nat) (first : Bool) (kind : Option NodeKind) (cs : List Char)
    (k : NodeKind) (ms : List (String × Value)) : Prop where
  inside : Inside .object first cs
  sizes_le : Value.memberSizes ms ≤ cs.length
  again : ∀ fuel rest, cs.length < fuel →
    takeNodeMembers depth fuel first kind (cs ++ '\x7d' :: rest) = .ok ((k, ms), '\x7d' :: rest)

structure NodeTaken (depth : Nat) (cs : List Char) (n : Node) : Prop where
  led : Led .value cs
  again : ∀ fuel rest, 4 * cs.length ≤ fuel → takeNode fuel depth (cs ++ rest) = .ok (n, rest)

/-- These characters are taken for the nodes of a list up to its bracket. -/
structure NodesTaken (depth : Nat) (first : Bool) (cs : List Char) (ns : List Node) : Prop where
  inside : Inside .list first cs
  again : ∀ fuel rest, 4 * cs.length < fuel →
    takeNodes depth fuel first (cs ++ ']' :: rest) = .ok (ns, ']' :: rest)

/-- These characters are taken for a list of nodes wherever they stand. -/
structure ContentTaken (depth : Nat) (cs : List Char) (ns : List Node) : Prop where
  array : Phrase .array cs
  again : ∀ fuel rest, 4 * cs.length ≤ fuel → takeContent fuel depth (cs ++ rest) = .ok (ns, rest)

private theorem takeKind_append_gap {gap : List Char} (blank : Gap gap) (fuel : Nat)
    (cs : List Char) : takeKind fuel (gap ++ cs) = takeKind fuel cs := by
  rw [takeKind, Json.skipGap_append blank, takeKind]

private theorem takeKind_quote (fuel : Nat) (cs : List Char) :
    takeKind fuel ('"' :: cs) = (do
      let (s, rest) ← flawed (Json.takeText cs)
      return (← Node.kindOfWord s, rest)) := by
  rw [takeKind, Json.skipGap_of_not_isGap (by decide)]
  rfl

private theorem takeNode_append_gap {gap : List Char} (blank : Gap gap) (fuel depth : Nat)
    {c : Char}
    (mark : c = '\x7b' ∨ c = '[') (cs : List Char) :
    takeNode fuel depth (gap ++ c :: cs) = takeNode fuel depth (c :: cs) := by
  rcases mark with rfl | rfl
  · rw [takeNode, Json.skipGap_append blank, takeNode]
    rfl
  · rw [takeNode, Json.skipGap_append blank, takeNode]
    rfl

private theorem takeNode_bracket (fuel depth : Nat) (cs : List Char) :
    takeNode fuel depth ('[' :: cs) = if depth ≤ 1 then .error (.flaw .depth) else (do
      let (more, rest) ← flawed (Json.nextItem true cs)
      if !more then throw (.missingField "type")
      let (kind, rest) ← takeKind fuel rest
      let (items, rest) ← flawed (Json.takeItems fuel (depth - 1) false rest)
      let rest ← flawed (Json.takeBracket rest)
      return (← Node.ofElements fuel kind items, rest)) := by
  rw [takeNode, Json.skipGap_of_not_isGap (by decide)]
  rfl

theorem takeContent_append_gap {gap : List Char} (blank : Gap gap) (fuel depth : Nat)
    (cs : List Char) : takeContent fuel depth (gap ++ cs) = takeContent fuel depth cs := by
  rw [takeContent, Json.skipGap_append blank, takeContent]

private theorem takeContent_bracket (fuel depth : Nat) (cs : List Char) :
    takeContent fuel depth ('[' :: cs) = if depth ≤ 1 then .error (.flaw .depth) else (do
      let (nodes, rest) ← takeNodes (depth - 1) fuel true cs
      return (nodes, ← flawed (Json.takeBracket rest))) := by
  rw [takeContent, Json.skipGap_of_not_isGap (by decide)]
  rfl

private theorem takeKind_ok {fuel : Nat} {cs rest : List Char} {k : NodeKind}
    (taken : takeKind fuel cs = .ok (k, rest)) : ∃ used, KindTaken used k ∧ cs = used ++ rest := by
  unfold takeKind at taken
  split at taken
  · next more skipped =>
    simp only [bind_eq_ok_iff, flawed_eq_ok_iff] at taken
    obtain ⟨⟨s, rest'⟩, text, k', named, same⟩ := taken
    cases same
    obtain ⟨-, gap, blank, rfl⟩ := Json.skipGap_eq_cons_iff.mp skipped
    obtain ⟨body, quoted, rfl, reads⟩ := Json.takeText_ok text
    refine ⟨gap ++ '"' :: (body ++ ['"']), ⟨⟨gap, _, blank, .text quoted, rfl⟩, ?_⟩, by simp⟩
    intro fuel rest
    rw [List.append_assoc, takeKind_append_gap blank, List.cons_append, takeKind_quote, reads rest,
      flawed_ok, ok_bind]
    dsimp only at named ⊢
    rw [named]
    rfl
  · exact absurd taken (wrongType_ne_ok _ _ _ _)

section Steps

variable {depth : Nat} {first : Bool} {kind : Option NodeKind} {k k' : NodeKind}
  {gap cs lead later key body colon : List Char} {name : String} {v : Value}
  {ms : List (String × Value)} {n : Node} {ns : List Node}

private theorem nodeMembersTaken_nil (blank : Gap gap) :
    NodeMembersTaken depth first (some k) gap k [] := by
  refine ⟨.gap blank, Nat.zero_le _, ?_⟩
  intro fuel rest enough
  obtain ⟨fuel, rfl⟩ : ∃ n, fuel = n + 1 := ⟨fuel - 1, by omega⟩
  rw [takeNodeMembers, Json.nextKey_eq_ok_none_iff.mpr ⟨gap, rest, blank, rfl, rfl⟩]
  rfl

private theorem NodeMembersTaken.named (members : NodeMembersTaken depth false (some k) later k' ms)
    (keyed : Keyed first key body colon "type") (taken : KindTaken cs k) :
    NodeMembersTaken depth first none (key ++ (cs ++ later)) k' ms := by
  have some := List.length_pos_of_ne_nil taken.led.ne_nil
  refine ⟨keyed.inside taken.led members.inside, ?_, ?_⟩
  · have sizes := members.sizes_le
    rw [List.length_append, List.length_append]
    omega
  · intro fuel rest enough
    rw [List.length_append, List.length_append] at enough
    obtain ⟨fuel, rfl⟩ : ∃ n, fuel = n + 1 := ⟨fuel - 1, by omega⟩
    have others := members.again fuel rest (by omega)
    rw [List.append_assoc, List.append_assoc, takeNodeMembers, keyed.next, flawed_ok, ok_bind]
    dsimp only
    rw [keyed.text, flawed_ok, ok_bind]
    dsimp only
    rw [if_pos (by decide), if_neg (by decide), keyed.colon, flawed_ok, ok_bind, taken.again,
      ok_bind]
    exact others

private theorem NodeMembersTaken.cons (members : NodeMembersTaken depth false kind later k ms)
    (keyed : Keyed first key body colon name) (other : name ≠ "type") (taken : Taken depth cs v) :
    NodeMembersTaken depth first kind (key ++ (cs ++ later)) k ((name, v) :: ms) := by
  have some := List.length_pos_of_ne_nil taken.led.ne_nil
  refine ⟨keyed.inside taken.led members.inside, ?_, ?_⟩
  · have size := taken.size_le
    have sizes := members.sizes_le
    rw [Value.memberSizes, List.length_append, List.length_append]
    omega
  · intro fuel rest enough
    rw [List.length_append, List.length_append] at enough
    obtain ⟨fuel, rfl⟩ : ∃ n, fuel = n + 1 := ⟨fuel - 1, by omega⟩
    have value := taken.again fuel (later ++ '\x7d' :: rest) (by omega) members.inside.ended
    have others := members.again fuel rest (by omega)
    rw [List.append_assoc, List.append_assoc, takeNodeMembers, keyed.next, flawed_ok, ok_bind]
    dsimp only
    rw [keyed.text, flawed_ok, ok_bind]
    dsimp only
    rw [if_neg (by simpa using other), keyed.colon, ok_bind, value, flawed_ok, ok_bind]
    dsimp only
    rw [others]
    rfl

private theorem NodeMembersTaken.node {fuel : Nat}
    (members : NodeMembersTaken (depth - 1) true none cs k ms)
    (deep : ¬depth ≤ 1) (own : Node.ofMembers fuel k ms = .ok n) (blank : Gap gap) :
    NodeTaken depth (gap ++ '\x7b' :: (cs ++ ['\x7d'])) n := by
  refine ⟨⟨gap, _, blank, members.inside.enclosed, rfl⟩, ?_⟩
  intro fuel' rest enough
  simp only [List.length_append, List.length_cons, List.length_nil] at enough
  have small := members.sizes_le
  have inner := members.again fuel' rest (by omega)
  have node : Node.ofMembers fuel' k ms = .ok n := Node.ofMembers_enough own (by omega)
  rw [List.append_assoc, List.cons_append, takeNode_append_gap blank _ _ (.inl rfl),
    takeNode_brace, if_neg deep, List.append_assoc, List.singleton_append, inner, ok_bind]
  dsimp only
  rw [node]
  rfl

private theorem nodeTaken_array {fuel : Nat} {vs : List Value}
    (next : ∀ rest, Json.nextItem true (lead ++ (cs ++ rest)) = .ok (true, cs ++ rest))
    (leads : Lead true lead) (kind : KindTaken cs k)
    (items : Json.ItemsTaken (depth - 1) false later vs) (deep : ¬depth ≤ 1)
    (own : Node.ofElements fuel k vs = .ok n) (blank : Gap gap) :
    NodeTaken depth (gap ++ '[' :: (lead ++ (cs ++ later) ++ [']'])) n := by
  have inside : Inside .list true (lead ++ (cs ++ later)) :=
    .cons leads kind.led.item items.inside
  refine ⟨⟨gap, _, blank, inside.enclosed, rfl⟩, ?_⟩
  intro fuel' rest enough
  simp only [List.length_append, List.length_cons, List.length_nil] at enough
  have small := items.sizes_le
  have inner := items.again fuel' rest (by omega)
  have node : Node.ofElements fuel' k vs = .ok n := Node.ofElements_enough own (by omega)
  rw [List.append_assoc, List.cons_append, takeNode_append_gap blank _ _ (.inr rfl),
    takeNode_bracket, if_neg deep]
  simp only [List.append_assoc, List.singleton_append]
  rw [next, flawed_ok, ok_bind]
  dsimp only
  rw [if_neg (by decide), kind.again, ok_bind]
  dsimp only
  rw [inner, flawed_ok, ok_bind]
  dsimp only
  rw [node]
  rfl

private theorem nodesTaken_nil (blank : Gap gap) : NodesTaken depth first gap [] := by
  refine ⟨.gap blank, ?_⟩
  intro fuel rest enough
  obtain ⟨fuel, rfl⟩ : ∃ n, fuel = n + 1 := ⟨fuel - 1, by omega⟩
  rw [takeNodes, Json.nextItem_eq_ok_false_iff.mpr ⟨gap, rest, blank, rfl, rfl⟩]
  rfl

private theorem NodesTaken.cons (nodes : NodesTaken depth false later ns) (leads : Lead first lead)
    (node : NodeTaken depth cs n)
    (next : ∀ rest, Json.nextItem first (lead ++ (cs ++ rest)) = .ok (true, cs ++ rest)) :
    NodesTaken depth first (lead ++ (cs ++ later)) (n :: ns) := by
  refine ⟨.cons leads node.led.item nodes.inside, ?_⟩
  intro fuel rest enough
  have some := List.length_pos_of_ne_nil node.led.ne_nil
  rw [List.length_append, List.length_append] at enough
  obtain ⟨fuel, rfl⟩ : ∃ n, fuel = n + 1 := ⟨fuel - 1, by omega⟩
  have own := node.again fuel (later ++ ']' :: rest) (by omega)
  have others := nodes.again fuel rest (by omega)
  rw [List.append_assoc, List.append_assoc, takeNodes, next, flawed_ok, ok_bind]
  dsimp only
  rw [if_pos rfl, own, ok_bind]
  dsimp only
  rw [others]
  rfl

private theorem NodesTaken.content (nodes : NodesTaken (depth - 1) true cs ns) (deep : ¬depth ≤ 1) :
    ContentTaken depth ('[' :: (cs ++ [']'])) ns := by
  refine ⟨nodes.inside.elim .emptyArray .array, ?_⟩
  intro fuel rest enough
  rw [List.length_cons, List.length_append] at enough
  have inner := nodes.again fuel rest (by omega)
  rw [List.cons_append, List.append_assoc, List.singleton_append, takeContent_bracket,
    if_neg deep, inner]
  rfl

end Steps

private theorem takeNodeMembers_ok {fuel depth : Nat} {first : Bool} {kind : Option NodeKind}
    {cs rest : List Char} {k : NodeKind} {ms : List (String × Value)}
    (taken : takeNodeMembers depth fuel first kind cs = .ok ((k, ms), rest)) :
    ∃ used tail, rest = '\x7d' :: tail ∧ NodeMembersTaken depth first kind used k ms ∧
      cs = used ++ rest := by
  induction fuel generalizing first kind cs ms with
  | zero => cases taken
  | succ fuel ih =>
    rw [takeNodeMembers, bind_eq_ok_iff] at taken
    obtain ⟨⟨key, cs'⟩, next, taken⟩ := taken
    rw [flawed_eq_ok_iff] at next
    cases key with
    | none =>
      cases kind with
      | none => cases taken
      | some k =>
        cases taken
        obtain ⟨gap, tail, blank, rfl, rfl⟩ := Json.nextKey_eq_ok_none_iff.mp next
        exact ⟨gap, tail, rfl, nodeMembersTaken_nil blank, rfl⟩
    | some cs'' =>
      rw [bind_eq_ok_iff] at taken
      obtain ⟨⟨name, behind⟩, text, taken⟩ := taken
      rw [flawed_eq_ok_iff] at text
      dsimp only at taken
      split at taken
      · next named =>
        split at taken
        · cases taken
        next fresh =>
        simp only [bind_eq_ok_iff, flawed_eq_ok_iff] at taken
        obtain ⟨cs₁, colon, ⟨k', cs₂⟩, own, taken⟩ := taken
        obtain rfl : kind = none := by simpa using fresh
        obtain rfl : name = "type" := by simpa using named
        obtain ⟨key, body, behind, keyed, rfl⟩ := Json.keyed_of_ok next text colon
        obtain ⟨used, isKind, rfl⟩ := takeKind_ok own
        obtain ⟨later, tail, rfl, members, rfl⟩ := ih taken
        exact ⟨_, tail, rfl, members.named keyed isKind, by simp⟩
      · next other =>
        simp only [bind_eq_ok_iff, flawed_eq_ok_iff] at taken
        obtain ⟨⟨v, cs₁⟩, ⟨cs₂, colon, own⟩, ⟨⟨k', ms'⟩, rest'⟩, later, same⟩ := taken
        cases same
        obtain ⟨key, body, behind, keyed, rfl⟩ := Json.keyed_of_ok next text colon
        obtain ⟨used, isValue, rfl⟩ := Json.take_ok own
        obtain ⟨later, tail, rfl, members, rfl⟩ := ih later
        exact ⟨_, tail, rfl, members.cons keyed (by simpa using other) isValue, by simp⟩

private theorem takeNode_ok {fuel depth : Nat} {cs rest : List Char} {n : Node}
    (taken : takeNode fuel depth cs = .ok (n, rest)) :
    ∃ used, NodeTaken depth used n ∧ cs = used ++ rest := by
  unfold takeNode at taken
  split at taken
  · next more skipped =>
    obtain ⟨-, gap, blank, rfl⟩ := Json.skipGap_eq_cons_iff.mp skipped
    split at taken
    · cases taken
    next deep =>
    simp only [bind_eq_ok_iff, flawed_eq_ok_iff] at taken
    obtain ⟨⟨⟨k, ms⟩, rest'⟩, read, rest'', close, n', own, same⟩ := taken
    cases same
    obtain ⟨used, tail, rfl, members, rfl⟩ := takeNodeMembers_ok read
    cases close
    exact ⟨_, members.node deep own blank, by simp⟩
  · next more skipped =>
    obtain ⟨-, gap, blank, rfl⟩ := Json.skipGap_eq_cons_iff.mp skipped
    split at taken
    · cases taken
    next deep =>
    simp only [bind_eq_ok_iff, flawed_eq_ok_iff] at taken
    obtain ⟨⟨more, cs₁⟩, next, taken⟩ := taken
    dsimp only at taken
    split at taken
    · cases taken
    next some =>
    obtain rfl : more = true := by simpa using some
    simp only [bind_eq_ok_iff, flawed_eq_ok_iff] at taken
    obtain ⟨⟨k, cs₂⟩, readKind, ⟨vs, cs₃⟩, readItems, cs₄, close, n', own, same⟩ := taken
    cases same
    obtain ⟨used, kind, rfl⟩ := takeKind_ok readKind
    obtain ⟨later, tail, rfl, items, rfl⟩ := Json.takeItems_ok readItems
    obtain ⟨lead, leads, rfl, again⟩ := Json.nextItem_ok kind.led.ne_nil next
    cases close
    exact ⟨_, nodeTaken_array again leads kind items deep own blank, by simp⟩
  · exact absurd taken (wrongType_ne_ok _ _ _ _)
  · exact absurd taken (wrongType_ne_ok _ _ _ _)
  · exact absurd taken (wrongType_ne_ok _ _ _ _)
  · exact absurd taken (wrongType_ne_ok _ _ _ _)
  · exact absurd taken (wrongType_ne_ok _ _ _ _)
  · split at taken
    · exact absurd taken (wrongType_ne_ok _ _ _ _)
    · cases taken
  · cases taken

private theorem takeNodes_ok {fuel depth : Nat} {first : Bool} {cs rest : List Char}
    {ns : List Node}
    (taken : takeNodes depth fuel first cs = .ok (ns, rest)) :
    ∃ used tail, rest = ']' :: tail ∧ NodesTaken depth first used ns ∧ cs = used ++ rest := by
  induction fuel generalizing first cs ns with
  | zero => cases taken
  | succ fuel ih =>
    rw [takeNodes, bind_eq_ok_iff] at taken
    obtain ⟨⟨more, cs'⟩, next, taken⟩ := taken
    rw [flawed_eq_ok_iff] at next
    dsimp only at taken
    cases more with
    | false =>
      cases taken
      obtain ⟨gap, tail, blank, rfl, rfl⟩ := Json.nextItem_eq_ok_false_iff.mp next
      exact ⟨gap, tail, rfl, nodesTaken_nil blank, rfl⟩
    | true =>
      rw [if_pos rfl] at taken
      simp only [bind_eq_ok_iff] at taken
      obtain ⟨⟨n, cs₁⟩, readNode, ⟨ns', rest'⟩, others, same⟩ := taken
      cases same
      obtain ⟨used, own, rfl⟩ := takeNode_ok readNode
      obtain ⟨later, tail, rfl, nodes, rfl⟩ := ih others
      obtain ⟨lead, leads, rfl, again⟩ := Json.nextItem_ok own.led.ne_nil next
      exact ⟨_, tail, rfl, nodes.cons leads own again, by simp⟩

theorem takeContent_ok {fuel depth : Nat} {cs rest : List Char} {ns : List Node}
    (taken : takeContent fuel depth cs = .ok (ns, rest)) :
    ∃ gap used, Gap gap ∧ ContentTaken depth used ns ∧ cs = gap ++ (used ++ rest) := by
  unfold takeContent at taken
  split at taken
  · next more skipped =>
    obtain ⟨-, gap, blank, rfl⟩ := Json.skipGap_eq_cons_iff.mp skipped
    split at taken
    · cases taken
    next deep =>
    simp only [bind_eq_ok_iff, flawed_eq_ok_iff] at taken
    obtain ⟨⟨ns', cs'⟩, read, _, close, same⟩ := taken
    cases same
    obtain ⟨used, tail, rfl, nodes, rfl⟩ := takeNodes_ok read
    cases close
    exact ⟨gap, _, blank, nodes.content deep, by simp⟩
  · exact absurd taken (wrongType_ne_ok _ _ _ _)

theorem contentTaken_of_array {fuel depth : Nat} {cs rest rest' : List Char} {ns : List Node}
    (array : Phrase .array cs) (taken : takeContent fuel depth (cs ++ rest) = .ok (ns, rest')) :
    rest' = rest ∧ ContentTaken depth cs ns := by
  have solid : ∀ {ds : List Char}, Phrase .array ds →
      ∀ rest, skipGap (ds ++ rest) = ds ++ rest := by
    intro ds array rest
    cases array <;> rfl
  obtain ⟨gap, used, blank, own, split⟩ := takeContent_ok taken
  -- two arrays at the front of one text are the same array
  have same : cs ++ rest = used ++ rest' := by
    rw [← solid array, split, Json.skipGap_append blank, solid own.array]
  obtain rfl := Phrase.array_unique array own.array same
  obtain rfl := List.append_cancel_right same
  exact ⟨rfl, own⟩

theorem takeMembers_ok {fuel depth : Nat} {first : Bool} {content : Option (List Node)}
    {cs rest : List Char} {ns : List Node}
    (taken : takeMembers depth fuel first content cs = .ok (ns, rest)) :
    ∃ used tail, rest = '\x7d' :: tail ∧ Inside .object first used ∧ cs = used ++ rest := by
  induction fuel generalizing first content cs with
  | zero => cases taken
  | succ fuel ih =>
    rw [takeMembers, bind_eq_ok_iff] at taken
    obtain ⟨⟨key, cs'⟩, next, taken⟩ := taken
    rw [flawed_eq_ok_iff] at next
    cases key with
    | none =>
      cases content with
      | none => cases taken
      | some nodes =>
        cases taken
        obtain ⟨gap, tail, blank, rfl, rfl⟩ := Json.nextKey_eq_ok_none_iff.mp next
        exact ⟨gap, tail, rfl, .gap blank, rfl⟩
    | some cs'' =>
      rw [bind_eq_ok_iff] at taken
      obtain ⟨⟨name, behind⟩, text, taken⟩ := taken
      rw [flawed_eq_ok_iff] at text
      dsimp only at taken
      split at taken
      · split at taken
        · cases taken
        simp only [bind_eq_ok_iff, flawed_eq_ok_iff] at taken
        obtain ⟨cs₁, colon, ⟨nodes, cs₂⟩, read, taken⟩ := taken
        obtain ⟨key, body, behind, keyed, rfl⟩ := Json.keyed_of_ok next text colon
        obtain ⟨gap, used, blank, own, rfl⟩ := takeContent_ok read
        obtain ⟨later, tail, rfl, inside, rfl⟩ := ih taken
        have led : Led .value (gap ++ used) := ⟨gap, used, blank, .ofArray own.array, rfl⟩
        exact ⟨_, tail, rfl, keyed.inside led inside, by simp⟩
      · simp only [bind_eq_ok_iff, flawed_eq_ok_iff] at taken
        obtain ⟨cs₁, ⟨cs₂, colon, own⟩, taken⟩ := taken
        obtain ⟨key, body, behind, keyed, rfl⟩ := Json.keyed_of_ok next text colon
        obtain ⟨used, led, rfl⟩ := Json.skipValue_ok own
        obtain ⟨later, tail, rfl, inside, rfl⟩ := ih taken
        exact ⟨_, tail, rfl, keyed.inside led inside, by simp⟩

end CodeTint.Document.Reader
