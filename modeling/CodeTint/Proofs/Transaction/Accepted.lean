import CodeTint.Proofs.Transaction.Step

/-!
Which steps a document takes. Main statement: text is replaced just inside one text block, a node is
inserted just where two nodes of a sequence meet or a sequence ends, a node is deleted and an
attribute is written just where such a node begins; every other step is refused with its cause.
-/

set_option autoImplicit false
set_option relaxedAutoImplicit false

namespace CodeTint

namespace Place

def beside (left right : List Node) : Place := left.foldr behind (here right)

def into : Place → Place → Place
  | here rest, inner => inside inner rest
  | behind first later, inner => behind first (later.into inner)
  | inside outer rest, inner => inside (outer.into inner) rest

private theorem pos_beside (left right : List Node) :
    (beside left right).pos = Node.sizes left := by
  induction left with
  | nil => rfl
  | cons n left ih => exact congrArg (n.size + ·) ih

private theorem fill_beside (left right ns : List Node) :
    (beside left right).fill ns = left ++ ns ++ right := by
  induction left with
  | nil => rfl
  | cons n left ih => exact congrArg (n :: ·) ih

private theorem pos_into (outer inner : Place) :
    (outer.into inner).pos = outer.pos + (1 + inner.pos) := by
  induction outer with
  | here rest => simp only [into, pos, Nat.zero_add]
  | behind first later ih => simp only [into, pos, ih, Nat.add_assoc]
  | inside outer rest ih => simp only [into, pos, ih, Nat.add_assoc]

private theorem fill_into (outer inner : Place) (ns : List Node) :
    (outer.into inner).fill ns = outer.fill [.blockquote (inner.fill ns)] := by
  induction outer with
  | here rest => rfl
  | behind first later ih => simp only [into, fill, ih]
  | inside outer rest ih => simp only [into, fill, ih]

private theorem eq_beside_or_into (p : Place) : (∃ left right, p = beside left right) ∨
    ∃ outer left right, p = into outer (beside left right) := by
  induction p with
  | here rest => exact .inl ⟨[], rest, rfl⟩
  | behind first later ih =>
    rcases ih with ⟨left, right, rfl⟩ | ⟨outer, left, right, rfl⟩
    · exact .inl ⟨first :: left, right, rfl⟩
    · exact .inr ⟨.behind first outer, left, right, rfl⟩
  | inside inner rest ih =>
    rcases ih with ⟨left, right, rfl⟩ | ⟨outer, left, right, rfl⟩
    · exact .inr ⟨.here rest, left, right, rfl⟩
    · exact .inr ⟨.inside outer rest, left, right, rfl⟩

end Place

private theorem Node.isSome_mapText? (f : String → String) (n : Node) :
    (n.mapText? f).isSome = n.isTextblock := by
  cases n <;> rfl

namespace Document

/-- The nodes of a sequence that begins at a position: the content of the document, or that of a
block quote in it. -/
def HasSequence (d : Document) (start : Nat) (ns : List Node) : Prop :=
  start = 0 ∧ ns = d.content ∨ ∃ pos, start = pos + 1 ∧ (pos, .blockquote ns) ∈ d.nodes

/-- A position before, between or behind the nodes of a sequence. -/
def IsBoundary (d : Document) (pos : Nat) : Prop :=
  ∃ start left right, d.HasSequence start (left ++ right) ∧ pos = start + Node.sizes left

theorem isBoundary_iff {d : Document} {pos : Nat} :
    d.IsBoundary pos ↔ ∃ p : Place, pos = p.pos ∧ d.content = p.fill [] := by
  constructor
  · rintro ⟨start, left, right, ⟨rfl, content⟩ | ⟨quote, rfl, member⟩, rfl⟩
    · refine ⟨.beside left right, ?_, ?_⟩
      · rw [Place.pos_beside, Nat.zero_add]
      · rw [Place.fill_beside, List.append_nil, content]
    · obtain ⟨outer, rfl, content⟩ := mem_nodes_iff.mp member
      refine ⟨outer.into (.beside left right), ?_, ?_⟩
      · rw [Place.pos_into, Place.pos_beside, Nat.add_assoc]
      · rw [Place.fill_into, Place.fill_beside, List.append_nil, content]
  · rintro ⟨p, rfl, content⟩
    rcases p.eq_beside_or_into with ⟨left, right, rfl⟩ | ⟨outer, left, right, rfl⟩
    · rw [Place.fill_beside, List.append_nil] at content
      exact ⟨0, left, right, .inl ⟨rfl, content.symm⟩, by rw [Place.pos_beside, Nat.zero_add]⟩
    · rw [Place.fill_into, Place.fill_beside, List.append_nil] at content
      refine ⟨outer.pos + 1, left, right, .inr ⟨outer.pos, rfl, ?_⟩, ?_⟩
      · exact mem_nodes_iff.mpr ⟨outer, rfl, content⟩
      · rw [Place.pos_into, Place.pos_beside, Nat.add_assoc]

end Document

namespace Step

/-- A step makes sense in a document. -/
def HasPlace (d : Document) : Step → Prop
  | replace start stop _ => start ≤ stop ∧ ∃ block ∈ d.nodes, block.2.isTextblock = true ∧
      block.1 < start ∧ stop < block.1 + block.2.size
  | insertNode pos _ => d.IsBoundary pos
  | deleteNode pos => ∃ n, (pos, n) ∈ d.nodes
  | setAttr pos _ _ => ∃ n, (pos, n) ∈ d.nodes ∧ n.isCodeBlock = true

/-- The cause that a step is refused for. -/
def refusal (d : Document) : Step → TransformError
  | replace start stop _ =>
    if stop < start ∨ d.size < stop then .outOfRange stop d.size else .notInTextblock start stop
  | insertNode pos _ => .notABlockBoundary pos
  | deleteNode pos => .noNodeAt pos
  | setAttr pos _ _ => if ∃ node ∈ d.nodes, node.1 = pos then .notACodeBlock pos else .noNodeAt pos

variable {d : Document}

theorem exists_ok_iff {s : Step} : (∃ result, s.apply d = .ok result) ↔ s.HasPlace d := by
  have taken {α β : Type} (f : α → β) (done : Except TransformError α) :
      (∃ result, done.map f = .ok result) ↔ ∃ result, done = .ok result := by
    simp only [map_eq_ok_iff, exists_comm, exists_eq_right']
  cases s with
  | replace start stop text =>
    rw [apply, taken]
    simp only [Document.replaceText_eq_ok_iff, HasPlace]
    constructor
    · rintro ⟨content, ordered, p, old, put, retyped, before, -⟩
      have kind : old.isTextblock = true := by
        rw [← Node.isSome_mapText?, retyped.put]
        rfl
      exact ⟨ordered, (p.pos, old), Document.mem_nodes_iff.mpr ⟨p, rfl, before⟩, kind,
        retyped.first, retyped.last⟩
    · rintro ⟨ordered, ⟨pos, n⟩, member, kind, first, last⟩
      obtain ⟨p, rfl, before⟩ := Document.mem_nodes_iff.mp member
      rw [← Node.isSome_mapText?] at kind
      obtain ⟨put, written⟩ := Option.isSome_iff_exists.mp kind
      exact ⟨_, ordered, p, n, put, ⟨first, last, written⟩, before, rfl⟩
  | insertNode pos node =>
    rw [apply, taken]
    simp only [Document.insertNode_eq_ok_iff, HasPlace, Document.isBoundary_iff]
    constructor
    · rintro ⟨content, p, place, before, -⟩
      exact ⟨p, place, before⟩
    · rintro ⟨p, place, before⟩
      exact ⟨_, p, place, before, rfl⟩
  | deleteNode pos =>
    rw [apply, taken]
    simp only [Prod.exists, Document.deleteNode_eq_ok_iff, HasPlace, Document.mem_nodes_iff]
    constructor
    · rintro ⟨content, gone, p, place, before, -⟩
      exact ⟨gone, p, place, before⟩
    · rintro ⟨gone, p, place, before⟩
      exact ⟨_, gone, p, place, before, rfl⟩
  | setAttr pos attr value =>
    rw [apply, taken]
    simp only [Document.setAttr_eq_ok_iff, HasPlace, Document.mem_nodes_iff]
    constructor
    · rintro ⟨content, p, attrs, text, place, before, -⟩
      exact ⟨_, ⟨p, place, before⟩, rfl⟩
    · rintro ⟨n, ⟨p, place, before⟩, code⟩
      cases n with
      | codeBlock attrs text => exact ⟨_, p, attrs, text, place, before, rfl⟩
      | _ => cases code

private theorem apply_eq_ok_or_error (d : Document) (s : Step) :
    (∃ result, s.apply d = .ok result) ∨ s.apply d = .error (s.refusal d) := by
  cases s with
  | replace start stop text =>
    simp only [apply, Document.replaceText, Bool.or_eq_true, decide_eq_true_eq, refusal]
    split
    · exact .inr rfl
    · split
      · exact .inl ⟨_, rfl⟩
      · exact .inr rfl
  | insertNode pos node =>
    simp only [apply, Document.insertNode]
    split
    · exact .inl ⟨_, rfl⟩
    · exact .inr rfl
  | deleteNode pos =>
    simp only [apply, Document.deleteNode]
    split
    · exact .inl ⟨_, rfl⟩
    · exact .inr rfl
  | setAttr pos attr value =>
    have there : (∃ node ∈ d.nodes, node.1 = pos) ↔ ∃ n, d.nodeAt pos = some n := by
      simp only [Document.nodeAt_eq_some_iff, Prod.exists, exists_and_right, exists_eq_right]
    simp only [apply, Document.setAttr, refusal]
    cases found : d.nodeAt pos with
    | none =>
      rw [if_neg]
      · exact .inr rfl
      · rw [there, found]
        rintro ⟨n, other⟩
        cases other
    | some n =>
      rw [if_pos (there.mpr ⟨n, found⟩)]
      dsimp only
      split
      · exact .inl ⟨_, rfl⟩
      · exact .inr rfl

/-- A document takes exactly the steps that make sense in it, and refuses all others with the cause
of the refusal. -/
theorem taken_iff_hasPlace (d : Document) (s : Step) :
    ((∃ result, s.apply d = .ok result) ↔ s.HasPlace d) ∧
      (s.apply d = .error (s.refusal d) ↔ ¬s.HasPlace d) := by
  refine ⟨exists_ok_iff, ?_⟩
  rw [← exists_ok_iff]
  constructor
  · rintro refused ⟨result, taken⟩
    rw [refused] at taken
    cases taken
  · exact (s.apply_eq_ok_or_error d).resolve_left

/-! Text is taken behind the last character of a block, and behind the block a node. -/

example : apply ⟨[.paragraph "ab"], 1⟩ (.replace 3 3 "c") =
    .ok ([.paragraph "abc"], .single 3 0 1) := rfl

example : apply ⟨[.paragraph "ab"], 1⟩ (.replace 4 4 "c") = .error (.notInTextblock 4 4) := rfl

example : apply ⟨[.paragraph "ab"], 1⟩ (.insertNode 4 .horizontalRule) =
    .ok ([.paragraph "ab", .horizontalRule], .single 4 0 1) := rfl

end Step

end CodeTint
