import CodeTint.Document.Reader
import CodeTint.Proofs.Json.Written

/-!
Documents that are written and read back. Main statements: a written node is read as the node, and a
document read from a text is written so that reading it again gives the same content, just if no
code block and no block quote stands inside 62 block quotes.
-/

set_option autoImplicit false
set_option relaxedAutoImplicit false

namespace CodeTint

open Json (Value Reads ReadsMember ReadError)

def CodeAttrs.members (a : CodeAttrs) : List (String × Value) :=
  (a.language.map fun s => ("language", Value.text s)).toList ++
    (a.theme.map fun s => ("theme", Value.text s)).toList

namespace Node

mutual

def members : Node → List (String × Value)
  | paragraph text => [("text", .text text)]
  | heading level text => [("level", .natural level.toNat), ("text", .text text)]
  | codeBlock attrs text => [("attrs", .object attrs.members), ("text", .text text)]
  | blockquote content => [("content", .array (values content))]
  | horizontalRule => []

def values : List Node → List Value
  | [] => []
  | n :: rest => .object (("type", .text n.kind.word) :: members n) :: values rest

end

/-- The value as which a node is written. -/
def value (n : Node) : Value := .object (("type", .text n.kind.word) :: n.members)

private theorem values_cons (n : Node) (rest : List Node) :
    values (n :: rest) = n.value :: values rest := by
  rw [values, value]

def pieces (depth : Nat) : Node → List (List Char)
  | paragraph text => [writeText text]
  | heading level text => [Json.writeMember "level" (Json.writeNat level.toNat), writeText text]
  | codeBlock attrs text =>
    [Json.writeMember "attrs" (writeAttrs (depth + 1) attrs), writeText text]
  | blockquote content =>
    [Json.writeMember "content" (Json.writeArray (depth + 1) (writeAll (depth + 2) content))]
  | horizontalRule => []

private theorem write_eq (depth : Nat) (n : Node) :
    write depth n = Json.writeObject depth (writeKind n.kind :: pieces depth n) := by
  cases n <;> rw [write] <;> rfl

/-! A written node reads back as its value. -/

private theorem readsMember_text (key s : String) :
    ReadsMember (Json.writeMember key (Json.writeString s)) (key, .text s) :=
  ⟨_, rfl, Json.reads_text s⟩

private theorem reads_writeAttrs (depth : Nat) (a : CodeAttrs) :
    Reads (writeAttrs depth a) (.object a.members) := by
  apply Json.reads_object
  obtain ⟨language, theme⟩ := a
  cases language <;> cases theme <;> simp [CodeAttrs.members, readsMember_text]

mutual

private theorem readsMembers_pieces (depth : Nat) (n : Node) :
    List.Forall₂ (fun m piece => ReadsMember piece m) n.members (pieces depth n) := by
  cases n with
  | paragraph text => simp [members, pieces, writeText, readsMember_text]
  | heading level text =>
    have level : ReadsMember (Json.writeMember "level" (Json.writeNat level.toNat))
        ("level", .natural level.toNat) := ⟨_, rfl, Json.reads_natural level.toNat_lt⟩
    simp [members, pieces, writeText, readsMember_text, level]
  | codeBlock attrs text =>
    have attrs : ReadsMember (Json.writeMember "attrs" (writeAttrs (depth + 1) attrs))
        ("attrs", .object attrs.members) := ⟨_, rfl, reads_writeAttrs _ attrs⟩
    simp [members, pieces, writeText, readsMember_text, attrs]
  | blockquote content =>
    have content : ReadsMember
        (Json.writeMember "content" (Json.writeArray (depth + 1) (writeAll (depth + 2) content)))
        ("content", .array (values content)) :=
      ⟨_, rfl, Json.reads_array (reads_writeAll (depth + 2) content) _⟩
    simp [members, pieces, content]
  | horizontalRule => simp [members, pieces]

private theorem reads_writeAll (depth : Nat) (ns : List Node) :
    List.Forall₂ (fun v piece => Reads piece v) (values ns) (writeAll depth ns) := by
  cases ns with
  | nil => simp [values, writeAll]
  | cons n rest =>
    rw [values, writeAll, write_eq]
    refine .cons ?_ (reads_writeAll depth rest)
    exact Json.reads_object (.cons (readsMember_text _ _) (readsMembers_pieces depth n)) depth

end

/-! The value of a node is taken for the node. -/

private theorem kindOfWord_word (k : NodeKind) : kindOfWord k.word = .ok k := by
  cases k <;> rfl

private theorem attrsOf_members (a : CodeAttrs) : attrsOf (.object a.members) = .ok a := by
  obtain ⟨language, theme⟩ := a
  cases language <;> cases theme <;> rfl

private theorem levelOf_toNat (level : UInt8) : levelOf (.natural level.toNat) = .ok level := by
  rw [levelOf, if_pos level.toNat_lt, UInt8.ofNat_toNat]

private theorem splitKind_written (k : NodeKind) {members : List (String × Value)}
    (others : ∀ m ∈ members, m.1 ≠ "type") :
    splitKind kindOfValue (("type", .text k.word) :: members) = .ok (k, members) := by
  have passed : ∀ ms : List (String × Value), (∀ m ∈ ms, m.1 ≠ "type") →
      ms.foldlM (fun (acc : Option NodeKind) (m : String × Value) =>
        if m.1 == "type" then
          if acc.isSome then .error (ReadError.duplicateField "type")
          else do return some (← kindOfValue m.2)
        else .ok acc) (some k) = .ok (some k) := by
    intro ms others
    induction ms with
    | nil => rfl
    | cons m rest ih =>
      rw [List.foldlM_cons, if_neg (by simpa using others m List.mem_cons_self)]
      exact ih fun m inside => others m (List.mem_cons_of_mem _ inside)
  have kept : members.filter (fun m => m.1 != "type") = members :=
    List.filter_eq_self.mpr fun m inside => by simpa using others m inside
  have named : kindOfValue (.text k.word) = .ok k := kindOfWord_word k
  unfold splitKind
  dsimp only
  rw [List.foldlM_cons, if_pos (beq_self_eq_true _), if_neg (by simp), named]
  simp only [bind, Except.bind, pure, Except.pure] at passed ⊢
  rw [passed members others]
  simp [kept]

private theorem key_ne_type {n : Node} : ∀ m ∈ n.members, m.1 ≠ "type" := by
  cases n <;> simp [members]

mutual

private theorem ofMembers_members (depth : Nat) (n : Node) {fuel : Nat}
    (enough : (write depth n).length ≤ fuel) : ofMembers fuel n.kind n.members = .ok n := by
  rw [write_eq, Json.writeObject, Json.writeBlock_eq] at enough
  simp only [Json.blockText, Json.newline, writeKind, Json.writeMember, List.length_append,
    List.length_cons] at enough
  obtain ⟨fuel, rfl⟩ : ∃ m, fuel = m + 2 := ⟨fuel - 2, by omega⟩
  cases n with
  | paragraph text => rfl
  | heading level text =>
    simp [members, kind, ofMembers, fieldsOf, fieldNames, putField, levelOf_toNat, textOf, ofFields,
      bind, Except.bind, pure, Except.pure]
  | codeBlock attrs text =>
    simp [members, kind, ofMembers, fieldsOf, fieldNames, putField, attrsOf_members, textOf,
      ofFields, bind, Except.bind, pure, Except.pure]
  | blockquote content =>
    have inside : ofValues fuel (values content) = .ok content := by
      refine ofValues_values (depth + 2) (depth + 1) content true ?_
      simp [pieces, Json.blockText, Json.writeMember, Json.writeArray, Json.writeBlock_eq] at enough
      omega
    simp [members, kind, ofMembers, fieldsOf, fieldNames, putField, inside, ofFields, bind,
      Except.bind, pure, Except.pure]
  | horizontalRule => rfl

private theorem ofValues_values (depth d : Nat) (ns : List Node) (first : Bool) {fuel : Nat}
    (enough : (Json.blockText ']' d first (writeAll depth ns)).length ≤ fuel) :
    ofValues fuel (values ns) = .ok ns := by
  cases ns with
  | nil => simp [values, ofValues]
  | cons n rest =>
    simp only [writeAll, Json.blockText, Json.newline, List.length_append, List.length_cons,
      List.length_replicate] at enough
    obtain ⟨fuel, rfl⟩ : ∃ m, fuel = m + 2 := ⟨fuel - 2, by omega⟩
    have own : ofValue (fuel + 1) (.object (("type", .text n.kind.word) :: n.members)) = .ok n := by
      rw [ofValue, splitKind_written n.kind key_ne_type]
      exact ofMembers_members depth n (by omega)
    rw [values, ofValues, own, ofValues_values depth d rest false (by omega)]
    rfl

end

end Node

namespace Document.Reader

open Json (Stops blockText writeMember takeColon_written takeText_written)

/-! The streaming readers on written text. -/

theorem flawed_ok {α : Type} (a : α) : flawed (.ok a) = .ok a := rfl

private theorem flawed_ite {α : Type} {A : Prop} [Decidable A] (a : α) (e : Json.Flaw) :
    flawed (if A then .ok a else .error e) = if A then .ok a else .error (.flaw e) := by
  split <;> rfl

private theorem takeKind_written (k : NodeKind) (fuel : Nat) (rest : List Char) :
    takeKind fuel (' ' :: (Json.writeString k.word ++ rest)) = .ok (k, rest) := by
  have start : Json.skipGap (' ' :: (Json.writeString k.word ++ rest)) =
      '"' :: (k.word.toList.flatMap Json.escapeChar ++ '"' :: rest) := by
    simp [Json.writeString, Json.skipGap, Json.isGap]
  rw [takeKind, start]
  simp only [flawed, Except.mapError, takeText_written, Node.kindOfWord_word, bind, Except.bind,
    pure, Except.pure]

private theorem takeNodeMembers_blockText {members : List (String × Value)}
    {pieces : List (List Char)}
    (reads : List.Forall₂ (fun m piece => ReadsMember piece m) members pieces)
    (others : ∀ m ∈ members, m.1 ≠ "type") (kind : NodeKind) (d depth : Nat) (rest : List Char)
    {fuel : Nat} (enough : (blockText '\x7d' d false pieces).length ≤ fuel) :
    takeNodeMembers depth fuel false (some kind) (blockText '\x7d' d false pieces ++ rest) =
      if Value.nestingMembers members ≤ depth - 1 then .ok ((kind, members), '\x7d' :: rest)
      else .error (.flaw .depth) := by
  induction reads generalizing fuel with
  | nil =>
    obtain ⟨fuel, rfl⟩ : ∃ n, fuel = n + 1 := Nat.exists_eq_add_one_of_ne_zero (by
      simp [blockText] at enough
      omega)
    rw [takeNodeMembers, Json.nextKey_blockText_nil]
    simp [Value.nestingMembers, flawed, Except.mapError, bind, Except.bind, pure, Except.pure]
  | @cons m piece members pieces own later ih =>
    -- the first member that is nested too deep ends the reading, whatever is behind it
    obtain ⟨key, v⟩ := m
    obtain ⟨value, rfl, own⟩ := own
    rw [List.forall_mem_cons] at others
    simp only [blockText, List.length_append] at enough
    obtain ⟨fuel, rfl⟩ : ∃ n, fuel = n + 1 := Nat.exists_eq_add_one_of_ne_zero (by
      simp [Json.newline] at enough
      omega)
    have room : value.length ≤ fuel ∧ (blockText '\x7d' d false pieces).length ≤ fuel := by
      simp [Json.newline, writeMember] at enough
      omega
    have read := own.take fuel depth _ room.1 (Json.stops_blockText '\x7d' d pieces rest)
    rw [takeNodeMembers, Json.nextKey_blockText_cons false d key value]
    simp only [flawed_ok, ok_bind, takeText_written, takeColon_written,
      Json.take_of_gap fuel depth (by decide : Json.isGap ' ' = true),
      beq_eq_false_iff_ne.mpr others.1, Bool.false_eq_true, if_false, read, flawed_ite]
    refine ite_bind_eq Value.nestingMembers_cons_le ?_
    dsimp only
    rw [ih others.2 room.2]
    split <;> rfl

private theorem takeNodeMembers_object {kind : NodeKind} {members : List (String × Value)}
    {pieces : List (List Char)}
    (reads : List.Forall₂ (fun m piece => ReadsMember piece m) members pieces)
    (others : ∀ m ∈ members, m.1 ≠ "type") (d depth : Nat) (rest : List Char) {fuel : Nat}
    (enough : (blockText '\x7d' d true (Node.writeKind kind :: pieces)).length ≤ fuel) :
    takeNodeMembers depth fuel true none
        (blockText '\x7d' d true (Node.writeKind kind :: pieces) ++ rest) =
      if Value.nestingMembers members ≤ depth - 1 then .ok ((kind, members), '\x7d' :: rest)
      else .error (.flaw .depth) := by
  simp only [blockText, Json.newline, List.length_append, List.length_cons] at enough
  obtain ⟨fuel, rfl⟩ : ∃ n, fuel = n + 1 := ⟨fuel - 1, by omega⟩
  have later := takeNodeMembers_blockText reads others kind d depth rest (by omega : _ ≤ fuel)
  rw [takeNodeMembers, Node.writeKind, Json.nextKey_blockText_cons true d "type"]
  simp only [flawed, Except.mapError, bind, Except.bind, takeText_written, takeColon_written,
    beq_self_eq_true, if_true, Option.isSome_none, Bool.false_eq_true, if_false, takeKind_written,
    later]

theorem takeNode_brace (fuel depth : Nat) (cs : List Char) :
    takeNode fuel depth ('\x7b' :: cs) = if depth ≤ 1 then .error (.flaw .depth) else (do
      let ((kind, members), rest) ← takeNodeMembers (depth - 1) fuel true none cs
      let rest ← flawed (Json.takeBrace rest)
      return (← Node.ofMembers fuel kind members, rest)) := by
  rw [takeNode, Json.skipGap_of_not_isGap (by decide)]
  rfl

/-- Characters that are taken for a node of the outermost list, if what is around them leaves room
for as many levels. -/
structure Takes (piece : List Char) (n : Node) (levels : Nat) : Prop where
  opens : ∃ c more, piece = c :: more ∧ Json.isGap c = false ∧ c ≠ ',' ∧ c ≠ ']'
  take : ∀ fuel depth rest, piece.length ≤ fuel →
    takeNode fuel depth (piece ++ rest) =
      if levels ≤ depth - 1 then .ok (n, rest) else .error (.flaw .depth)

private theorem takes_object {kind : NodeKind} {members : List (String × Value)}
    {pieces : List (List Char)} {n : Node} {d : Nat}
    (reads : List.Forall₂ (fun m piece => ReadsMember piece m) members pieces)
    (others : ∀ m ∈ members, m.1 ≠ "type")
    (gives : ∀ fuel, (Json.writeObject d (Node.writeKind kind :: pieces)).length ≤ fuel →
      Node.ofMembers fuel kind members = .ok n) :
    Takes (Json.writeObject d (Node.writeKind kind :: pieces)) n
      (Value.nestingMembers members + 1) where
  opens := by
    rw [Json.writeObject, Json.writeBlock_eq]
    exact ⟨'\x7b', _, rfl, by decide, by decide, by decide⟩
  take fuel depth rest enough := by
    have given := gives fuel enough
    rw [Json.writeObject, Json.writeBlock_eq] at enough ⊢
    have inside := takeNodeMembers_object reads others d (depth - 1) rest
      (Nat.le_of_succ_le enough)
    rw [List.cons_append, takeNode_brace, inside]
    refine Json.ite_deeper_eq rfl ?_
    simp only [bind, Except.bind, given]
    rfl

private theorem takes_write (d : Nat) (n : Node) : Takes (n.write d) n n.value.nesting := by
  have levels : n.value.nesting = Value.nestingMembers n.members + 1 := by
    rw [Node.value, Value.nesting_object, Value.nestingMembers]
    simp [Value.nesting]
  rw [levels, Node.write_eq]
  refine takes_object (n.readsMembers_pieces d) Node.key_ne_type ?_
  intro fuel enough
  rw [← Node.write_eq] at enough
  exact n.ofMembers_members d enough

variable {ns : List Node} {pieces : List (List Char)} {levels : Node → Nat}

private theorem takeNodes_blockText
    (takes : List.Forall₂ (fun n piece => Takes piece n (levels n)) ns pieces) (d depth : Nat)
    (first : Bool) (rest : List Char) {fuel : Nat}
    (enough : (blockText ']' d first pieces).length ≤ fuel) :
    takeNodes depth fuel first (blockText ']' d first pieces ++ rest) =
      if ∀ n ∈ ns, levels n ≤ depth - 1 then .ok (ns, ']' :: rest)
      else .error (.flaw .depth) := by
  induction takes generalizing fuel first with
  | nil =>
    obtain ⟨fuel, rfl⟩ : ∃ n, fuel = n + 1 := Nat.exists_eq_add_one_of_ne_zero (by
      cases first <;> simp [blockText] at enough <;> omega)
    rw [takeNodes, Json.nextItem_blockText_nil]
    simp [flawed, Except.mapError, bind, Except.bind, pure, Except.pure]
  | @cons n piece ns pieces own later ih =>
    simp only [blockText, List.length_append] at enough
    obtain ⟨fuel, rfl⟩ : ∃ n, fuel = n + 1 := Nat.exists_eq_add_one_of_ne_zero (by
      simp [Json.newline] at enough
      omega)
    have room : piece.length ≤ fuel ∧ (blockText ']' d false pieces).length ≤ fuel := by
      simp [Json.newline] at enough
      omega
    rw [takeNodes, Json.nextItem_blockText_cons first d own.opens]
    simp only [flawed_ok, ok_bind, if_true]
    rw [own.take fuel depth _ room.1]
    refine ite_bind_eq List.forall_mem_cons ?_
    dsimp only
    rw [ih false room.2]
    split <;> rfl

private theorem takeContent_writeArray
    (takes : List.Forall₂ (fun n piece => Takes piece n (levels n)) ns pieces) (d depth : Nat)
    (rest : List Char) {fuel : Nat} (enough : (Json.writeArray d pieces).length ≤ fuel) :
    takeContent fuel (depth + 2) (' ' :: (Json.writeArray d pieces ++ rest)) =
      if ∀ n ∈ ns, levels n ≤ depth then .ok (ns, rest) else .error (.flaw .depth) := by
  rw [Json.writeArray, Json.writeBlock_eq, List.length_cons] at enough
  have start : ∀ cs, Json.skipGap (' ' :: '[' :: cs) = '[' :: cs := fun _ => rfl
  have nodes := takeNodes_blockText takes d (depth + 1) true rest (by omega : _ ≤ fuel)
  rw [Json.writeArray, Json.writeBlock_eq, List.cons_append, takeContent, start]
  simp only [Nat.add_one_sub_one] at nodes ⊢
  rw [if_neg (by omega), nodes]
  split <;> rfl

end Document.Reader

namespace Document

open Json (blockText writeMember takeColon_written takeText_written)

variable {ns : List Node} {pieces : List (List Char)} {levels : Node → Nat}

private theorem takeMembers_writeArray
    (takes : List.Forall₂ (fun n piece => Reader.Takes piece n (levels n)) ns pieces)
    (depth : Nat) {fuel : Nat}
    (enough : (writeMember "content" (Json.writeArray 1 pieces)).length ≤ fuel) :
    Reader.takeMembers (depth + 2) (fuel + 1) true none
        (blockText '\x7d' 0 true [writeMember "content" (Json.writeArray 1 pieces)] ++ []) =
      if ∀ n ∈ ns, levels n ≤ depth then .ok (ns, ['\x7d']) else .error (.flaw .depth) := by
  rw [writeMember, List.length_append, List.length_cons, List.length_cons] at enough
  obtain ⟨fuel, rfl⟩ : ∃ n, fuel = n + 1 := ⟨fuel - 1, by omega⟩
  have content := Reader.takeContent_writeArray takes 1 depth (blockText '\x7d' 0 false [] ++ [])
    (by omega : _ ≤ fuel + 1)
  have closed : Reader.takeMembers (depth + 2) (fuel + 1) false (some ns)
      (blockText '\x7d' 0 false [] ++ []) = .ok (ns, ['\x7d']) := by
    rw [Reader.takeMembers, Json.nextKey_blockText_nil]
    rfl
  rw [Reader.takeMembers, Json.nextKey_blockText_cons]
  simp only [Reader.flawed, Except.mapError, bind, Except.bind, takeText_written,
    takeColon_written, beq_self_eq_true, if_true, Option.isSome_none, Bool.false_eq_true,
    if_false, content]
  by_cases fits : ∀ n ∈ ns, levels n ≤ depth
  · rw [if_pos fits, if_pos fits]
    exact closed
  · rw [if_neg fits, if_neg fits]

def textOfPieces (pieces : List (List Char)) : String :=
  String.ofList (Json.writeObject 0 [writeMember "content" (Json.writeArray 1 pieces)])

/-- A text made of pieces that are taken for nodes is read as the nodes, if there is room for the
levels that each takes. -/
theorem parse_textOfPieces
    (takes : List.Forall₂ (fun n piece => Reader.Takes piece n (levels n)) ns pieces) :
    parse (textOfPieces pieces) =
      if ∀ n ∈ ns, levels n ≤ 125 then .ok ns else .error (.flaw .depth) := by
  have start : ∀ cs, Json.skipGap ('\x7b' :: cs) = '\x7b' :: cs := fun _ => rfl
  have written : (textOfPieces pieces).toList = '\x7b' :: (blockText '\x7d' 0 true
      [writeMember "content" (Json.writeArray 1 pieces)] ++ []) := by
    rw [textOfPieces, String.toList_ofList, Json.writeObject, Json.writeBlock_eq, List.append_nil]
  have enough : (writeMember "content" (Json.writeArray 1 pieces)).length ≤
      4 * (textOfPieces pieces).toList.length + 7 := by
    simp only [written, blockText, List.length_append, List.length_cons]
    omega
  have members := takeMembers_writeArray takes 125 enough
  rw [parse, Reader.takeDocument, written, start]
  rw [written] at members
  simp only [Json.maxDepth, members]
  split <;> rfl

private theorem parse_toJson (d : Document) :
    parse d.toJson = if ∀ n ∈ d.content, n.value.nesting ≤ 125 then .ok d.content
      else .error (.flaw .depth) := by
  have takes : ∀ ns : List Node, List.Forall₂
      (fun n piece => Reader.Takes piece n n.value.nesting) ns (Node.writeAll 2 ns) := by
    intro ns
    induction ns with
    | nil => exact .nil
    | cons n ns ih => exact .cons (Reader.takes_write 2 n) ih
  exact parse_textOfPieces (takes d.content)

end Document

/-! How deep a document is nested. -/

/-- A code block or a block quote stands inside this many block quotes. -/
def Node.HoldsBlockAt : Nat → Node → Prop
  | 0, n => n.isCodeBlock ∨ n.isContainer
  | k + 1, n => ∃ inner ∈ n.children, Node.HoldsBlockAt k inner

namespace Node

@[simp] theorem nesting_paragraph (text : String) : (paragraph text).value.nesting = 1 := by
  simp [value, members, Value.nesting, Value.nestingMembers]

@[simp] theorem nesting_heading (level : UInt8) (text : String) :
    (heading level text).value.nesting = 1 := by
  simp [value, members, Value.nesting, Value.nestingMembers]

@[simp] private theorem nesting_codeBlock (attrs : CodeAttrs) (text : String) :
    (codeBlock attrs text).value.nesting = 2 := by
  have flat : Value.nestingMembers attrs.members = 0 := by
    obtain ⟨language, theme⟩ := attrs
    cases language <;> cases theme <;>
      simp [CodeAttrs.members, Value.nesting, Value.nestingMembers]
  simp [value, members, Value.nesting, Value.nestingMembers, flat]

@[simp] private theorem nesting_blockquote (content : List Node) :
    (blockquote content).value.nesting = Value.nestingItems (values content) + 2 := by
  simp [value, members, Value.nesting, Value.nestingMembers]

@[simp] theorem nesting_horizontalRule : horizontalRule.value.nesting = 1 := by
  simp [value, members, Value.nesting, Value.nestingMembers]

private theorem lt_nestingItems_iff {ns : List Node} {k : Nat} :
    k < Value.nestingItems (values ns) ↔ ∃ n ∈ ns, k < n.value.nesting := by
  induction ns with
  | nil => simp [values, Value.nestingItems]
  | cons n ns ih =>
    have within : Value.nestingItems (n.value :: values ns) ≤ k ↔
        n.value.nesting ≤ k ∧ Value.nestingItems (values ns) ≤ k := Value.nestingItems_cons_le
    rw [values_cons, List.exists_mem_cons_iff, ← ih]
    omega

private theorem holdsBlockAt_iff {k : Nat} {n : Node} :
    n.HoldsBlockAt k ↔ 2 * k + 1 < n.value.nesting := by
  induction k generalizing n with
  | zero => cases n <;> simp [HoldsBlockAt, isCodeBlock, isContainer]
  | succ k ih =>
    cases n with
    | blockquote content =>
      simp only [HoldsBlockAt, children, ih, ← lt_nestingItems_iff, nesting_blockquote]
      omega
    | codeBlock attrs text =>
      have room : ¬2 * (k + 1) + 1 < 2 := by omega
      simp only [nesting_codeBlock, iff_false_right room]
      simp [HoldsBlockAt, children]
    | paragraph text => simp [HoldsBlockAt, children]
    | heading level text => simp [HoldsBlockAt, children]
    | horizontalRule => simp [HoldsBlockAt, children]

end Node

namespace Document

private theorem ofJson_ok_iff {clock after : Nat} {text : String} {d : Document} :
    ofJson clock text = .ok (d, after) ↔
      parse text = .ok d.content ∧ d.version = clock ∧ after = clock + 1 := by
  obtain ⟨content, version⟩ := d
  unfold ofJson
  cases parse text <;> simp [bind, Except.bind, pure, Except.pure, eq_comm, and_assoc]

/-- A document that was read from a text and is written is read again with the same content and a
larger version, just if none of its code blocks and block quotes stands inside 62 block quotes. -/
theorem ofJson_toJson {clock after later : Nat} {text : String} {d : Document}
    (read : ofJson clock text = .ok (d, after)) (ticked : after ≤ later) :
    ((∀ n ∈ d.content, ¬n.HoldsBlockAt 62) →
      ∃ again next, ofJson later d.toJson = .ok (again, next) ∧ again.content = d.content ∧
        d.version < again.version) ∧
    ((∃ n ∈ d.content, n.HoldsBlockAt 62) → ofJson later d.toJson = .error (.flaw .depth)) := by
  obtain ⟨-, version, next⟩ := ofJson_ok_iff.mp read
  have room : ∀ n : Node, n.HoldsBlockAt 62 ↔ ¬n.value.nesting ≤ 125 := by
    intro n
    rw [Node.holdsBlockAt_iff, Nat.not_le]
  constructor
  · intro shallow
    have parsed : parse d.toJson = .ok d.content := by
      rw [parse_toJson, if_pos fun n inside => not_not.mp (mt (room n).mpr (shallow n inside))]
    refine ⟨⟨d.content, later⟩, later + 1, ofJson_ok_iff.mpr ⟨parsed, rfl, rfl⟩, rfl, ?_⟩
    show d.version < later
    omega
  · rintro ⟨n, inside, held⟩
    have parsed : parse d.toJson = .error (.flaw .depth) := by
      rw [parse_toJson, if_neg fun all => (room n).mp held (all n inside)]
    rw [ofJson, parsed]
    rfl

/-! A code block inside block quotes, in a text that leaves its attributes out. -/

namespace Deep

def node : Nat → Node
  | 0 => .codeBlock {} "x"
  | n + 1 => .blockquote [node n]

def members : Nat → List (String × Value)
  | 0 => [("text", .text "x")]
  | n + 1 => [("content", .array [.object (("type", .text (node n).kind.word) :: members n)])]

def pieces (d : Nat) : Nat → List (List Char)
  | 0 => [Node.writeText "x"]
  | n + 1 => [Json.writeMember "content" (Json.writeArray (d + 1)
      [Json.writeObject (d + 2) (Node.writeKind (node n).kind :: pieces (d + 2) n)])]

/-- The text of a document with the code block inside `n` block quotes. -/
def text (n : Nat) : String :=
  textOfPieces [Json.writeObject 2 (Node.writeKind (node n).kind :: pieces 2 n)]

private theorem readsMembers_pieces (d n : Nat) :
    List.Forall₂ (fun m piece => ReadsMember piece m) (members n) (pieces d n) := by
  induction n generalizing d with
  | zero => exact .cons (Node.readsMember_text "text" "x") .nil
  | succ n ih =>
    have inner := Json.reads_object (.cons (Node.readsMember_text "type" (node n).kind.word)
      (ih (d + 2))) (d + 2)
    exact .cons ⟨_, rfl, Json.reads_array (.cons inner .nil) (d + 1)⟩ .nil

private theorem key_ne_type (n : Nat) : ∀ m ∈ members n, m.1 ≠ "type" := by
  cases n <;> simp [members]

private theorem ofMembers_members (d n fuel : Nat)
    (enough : (Json.writeObject d (Node.writeKind (node n).kind :: pieces d n)).length ≤ fuel) :
    Node.ofMembers fuel (node n).kind (members n) = .ok (node n) := by
  induction n generalizing d fuel with
  | zero =>
    obtain ⟨fuel, rfl⟩ : ∃ m, fuel = m + 2 := ⟨fuel - 2, by
      simp [Json.writeObject, Json.writeBlock_eq, Json.blockText, Json.newline] at enough
      omega⟩
    rfl
  | succ n ih =>
    simp only [Json.writeObject, Json.writeArray, Json.writeBlock_eq, Json.blockText, Json.newline,
      pieces, Json.writeMember, List.length_append, List.length_cons, List.length_replicate,
      List.length_nil] at enough
    obtain ⟨fuel, rfl⟩ : ∃ m, fuel = m + 4 := ⟨fuel - 4, by omega⟩
    have inner : Node.ofMembers fuel (node n).kind (members n) = .ok (node n) := by
      refine ih (d + 2) fuel ?_
      simp only [Json.writeObject, Json.writeBlock_eq, Json.blockText, Json.newline,
        List.length_append, List.length_cons, List.length_replicate]
      omega
    have value : Node.ofValue (fuel + 1)
        (.object (("type", .text (node n).kind.word) :: members n)) = .ok (node n) := by
      rw [Node.ofValue, Node.splitKind_written (node n).kind (key_ne_type n)]
      exact inner
    have content : Node.ofValues (fuel + 2)
        [.object (("type", .text (node n).kind.word) :: members n)] = .ok [node n] := by
      rw [Node.ofValues, value]
      rfl
    have put : Node.putField (fuel + 3) {} "content"
        (.array [.object (("type", .text (node n).kind.word) :: members n)]) =
          .ok { content := [node n] } := by
      simp only [Node.putField, content]
      rfl
    show Node.ofMembers (fuel + 4) .blockquote
      [("content", .array [.object (("type", .text (node n).kind.word) :: members n)])] = _
    simp [node, Node.ofMembers, Node.fieldsOf, Node.fieldNames, put, Node.ofFields, bind,
      Except.bind, pure, Except.pure]

private theorem nestingMembers_members (n : Nat) : Value.nestingMembers (members n) = 2 * n := by
  induction n with
  | zero => simp [members, Value.nestingMembers, Value.nesting]
  | succ n ih =>
    simp [members, Value.nestingMembers, Value.nestingItems, Value.nesting, ih]
    omega

private theorem parse_text {n : Nat} (room : n ≤ 62) : parse (text n) = .ok [node n] := by
  have takes := Reader.takes_object (readsMembers_pieces 2 n) (key_ne_type n)
    (ofMembers_members 2 n)
  have fits : Value.nestingMembers (members n) + 1 ≤ 125 := by
    rw [nestingMembers_members]
    omega
  have all : List.Forall₂
      (fun m piece => Reader.Takes piece m (Value.nestingMembers (members n) + 1))
      [node n] [Json.writeObject 2 (Node.writeKind (node n).kind :: pieces 2 n)] := .cons takes .nil
  rw [text, parse_textOfPieces all, if_pos (by simpa using fits)]

private theorem holdsBlockAt (n : Nat) : (node n).HoldsBlockAt n := by
  induction n with
  | zero => exact .inl rfl
  | succ n ih => exact ⟨node n, List.mem_singleton_self _, ih⟩

theorem ofJson_toJson_once :
    ofJson 1 (text 1) = .ok (⟨[node 1], 1⟩, 2) ∧ 2 ≤ 2 ∧
      ∃ again next, ofJson 2 (toJson ⟨[node 1], 1⟩) = .ok (again, next) ∧
        again.content = [node 1] ∧ 1 < again.version := by
  have read : ofJson 1 (text 1) = .ok (⟨[node 1], 1⟩, 2) :=
    ofJson_ok_iff.mpr ⟨parse_text (by decide), rfl, rfl⟩
  have shallow : ∀ n ∈ [node 1], ¬n.HoldsBlockAt 62 := by
    intro n inside
    rw [List.mem_singleton.mp inside, Node.holdsBlockAt_iff, node, Node.nesting_blockquote,
      Node.values_cons, node]
    simp [Node.values, Value.nestingItems]
  exact ⟨read, Nat.le_refl 2, (ofJson_toJson read (Nat.le_refl 2)).1 shallow⟩

/-- With its attributes left out, a code block can be read where its written form cannot. -/
theorem refused_again : ∃ d after, ofJson 1 (text 62) = .ok (d, after) ∧
    ofJson after d.toJson = .error (.flaw .depth) := by
  have read := parse_text (Nat.le_refl 62)
  have tooDeep : ¬(node 62).value.nesting ≤ 125 :=
    Nat.not_le.mpr (Node.holdsBlockAt_iff.mp (holdsBlockAt 62))
  have refused : parse (toJson ⟨[node 62], 1⟩) = .error (.flaw .depth) := by
    rw [parse_toJson, if_neg (by simpa using tooDeep)]
  refine ⟨⟨[node 62], 1⟩, 2, ofJson_ok_iff.mpr ⟨read, rfl, rfl⟩, ?_⟩
  rw [ofJson, refused]
  rfl

end Deep

end Document

end CodeTint
