import CodeTint.Proofs.Document.Flat

/-!
Places between the children of a document or of a block quote, at any depth. The walks that insert,
delete and change nodes, and those that find them, each come to one place; a sequence of nodes is
told by a place and by the nodes that fill it, and so is what a walk makes of it.
-/

set_option autoImplicit false
set_option relaxedAutoImplicit false

namespace CodeTint

/-- The way to a place in a sequence of nodes. -/
inductive Place where
  | here (rest : List Node)
  | behind (first : Node) (later : Place)
  /-- A place in the block quote that the sequence begins with. -/
  | inside (inner : Place) (rest : List Node)

namespace Place

/-- The position of a place, if the sequence begins at 0. -/
def pos : Place → Nat
  | here _ => 0
  | behind first later => first.size + later.pos
  | inside inner _ => 1 + inner.pos

def fill : Place → List Node → List Node
  | here rest, ns => ns ++ rest
  | behind first later, ns => first :: later.fill ns
  | inside inner rest, ns => .blockquote (inner.fill ns) :: rest

end Place

namespace Node

theorem size_pos (n : Node) : 0 < n.size := by
  cases n <;> simp only [size] <;> omega

theorem tokens_pos (n : Node) : 0 < n.tokens.length := by
  rw [length_tokens]
  exact n.size_pos

private theorem tokensAll_append (ns ms : List Node) :
    tokensAll (ns ++ ms) = tokensAll ns ++ tokensAll ms := by
  induction ns with
  | nil => rfl
  | cons n rest ih => simp only [List.cons_append, tokensAll, ih, List.append_assoc]

theorem tokensAll_singleton (n : Node) : tokensAll [n] = n.tokens := by
  simp only [tokensAll, List.append_nil]

end Node

namespace Place

theorem spliced_fill (gone put : List Node) (p : Place) :
    Spliced p.pos (Node.tokensAll gone) (Node.tokensAll put) (Node.tokensAll (p.fill gone))
      (Node.tokensAll (p.fill put)) := by
  induction p with
  | here rest =>
    simp only [fill, Node.tokensAll_append]
    exact (Spliced.whole _ _).before _
  | behind first later ih =>
    simp only [fill, Node.tokensAll, pos, ← Node.length_tokens first]
    exact ih.after _
  | inside inner rest ih =>
    simp only [fill, Node.tokensAll, Node.tokens]
    exact ((ih.before [.closing]).after [.opening .blockquote]).before _

theorem stop_le_sizes (p : Place) (ns : List Node) :
    p.pos + Node.sizes ns ≤ Node.sizes (p.fill ns) := by
  have inside := (p.spliced_fill ns ns).stop_le
  rwa [Node.length_tokensAll, Node.length_tokensAll] at inside

variable {at_ pos : Nat}

theorem enters (p : Place) (ns : List Node) (place : at_ = pos + (1 + p.pos)) :
    (decide (pos < at_) && decide (at_ < pos + (Node.blockquote (p.fill ns)).size)) = true := by
  have inside := p.stop_le_sizes ns
  rw [Bool.and_eq_true, decide_eq_true_eq, decide_eq_true_eq, Node.size]
  omega

theorem passes {size : Nat} (le : pos + size ≤ at_) :
    ¬(decide (pos < at_) && decide (at_ < pos + size)) = true := by
  rw [Bool.and_eq_true, decide_eq_true_eq, decide_eq_true_eq]
  omega

end Place

namespace Node

variable {at_ pos : Nat}

section Find

mutual

private theorem exists_place_of_mem_visit : ∀ (n : Node) (pos : Nat) (found : Node),
    (at_, found) ∈ visit (fun _ _ => true) n pos → at_ = pos ∧ found = n ∨
      ∃ p : Place, at_ = pos + (1 + p.pos) ∧ n = blockquote (p.fill [found])
  | paragraph _, pos, found, h | heading _ _, pos, found, h | codeBlock _ _, pos, found, h
  | horizontalRule, pos, found, h => by
      simp only [visit, List.mem_singleton, Prod.mk.injEq] at h
      exact .inl h
  | blockquote content, pos, found, h => by
      simp only [visit, if_true, List.mem_cons, Prod.mk.injEq] at h
      rcases h with own | inner
      · exact .inl own
      · obtain ⟨p, place, rfl⟩ := exists_place_of_mem_visitAll content (pos + 1) found inner
        exact .inr ⟨p, by omega, rfl⟩

theorem exists_place_of_mem_visitAll : ∀ (ns : List Node) (pos : Nat) (found : Node),
    (at_, found) ∈ visitAll (fun _ _ => true) ns pos →
      ∃ p : Place, at_ = pos + p.pos ∧ ns = p.fill [found]
  | [], pos, found, h => by simp [visitAll] at h
  | n :: rest, pos, found, h => by
      simp only [visitAll, List.mem_append] at h
      rcases h with first | later
      · rcases exists_place_of_mem_visit n pos found first with ⟨place, rfl⟩ | ⟨p, place, rfl⟩
        · exact ⟨.here rest, place, rfl⟩
        · exact ⟨.inside p rest, place, rfl⟩
      · obtain ⟨p, place, rfl⟩ := exists_place_of_mem_visitAll rest (pos + n.size) found later
        exact ⟨.behind n p, by rw [Place.pos]; omega, rfl⟩

end

private theorem mem_visitAll_fill (n : Node) (p : Place) (place : at_ = pos + p.pos) :
    (at_, n) ∈ visitAll (fun _ _ => true) (p.fill [n]) pos := by
  induction p generalizing pos with
  | here rest =>
    have own : (pos, n) ∈ visit (fun _ _ => true) n pos := by
      cases n <;> exact List.mem_cons_self
    rw [place]
    exact List.mem_append_left _ own
  | behind first later ih =>
    rw [Place.pos] at place
    rw [Place.fill, visitAll]
    exact List.mem_append_right _ (ih (by omega))
  | inside inner rest ih =>
    rw [Place.pos] at place
    rw [Place.fill, visitAll, visit]
    exact List.mem_append_left _ (List.mem_cons_of_mem _ (ih (by omega)))

section Search

variable (p : Node → Bool)

mutual

private theorem search_eq_filter : ∀ (n : Node) (pos : Nat),
    search p n pos = (visit (fun _ _ => true) n pos).filter fun found => p found.2
  | paragraph _, pos | heading _ _, pos | codeBlock _ _, pos | horizontalRule, pos => by
      simp only [search, visit, List.filter_cons, List.filter_nil]
      split <;> rfl
  | blockquote content, pos => by
      simp only [search, visit, if_true, List.filter_cons, searchAll_eq_filter content (pos + 1)]
      split <;> rfl

theorem searchAll_eq_filter : ∀ (ns : List Node) (pos : Nat),
    searchAll p ns pos = (visitAll (fun _ _ => true) ns pos).filter fun found => p found.2
  | [], pos => rfl
  | n :: rest, pos => by
      rw [searchAll, visitAll, List.filter_append, search_eq_filter n pos,
        searchAll_eq_filter rest (pos + n.size)]

end

end Search

private theorem startingAt_of_le {n : Node} (le : pos + n.size ≤ at_) :
    startingAt at_ n pos = none := by
  have long := n.size_pos
  cases n with
  | blockquote content => rw [startingAt, if_neg (by omega), if_neg (Place.passes le)]
  | _ => exact if_neg (by omega)

mutual

private theorem exists_place_of_startingAt : ∀ (n : Node) (pos : Nat) (found : Node),
    startingAt at_ n pos = some found → at_ = pos ∧ found = n ∨
      ∃ p : Place, at_ = pos + (1 + p.pos) ∧ n = blockquote (p.fill [found])
  | paragraph _, pos, found, h | heading _ _, pos, found, h | codeBlock _ _, pos, found, h
  | horizontalRule, pos, found, h => by
      simp only [startingAt, Option.ite_none_right_eq_some, Option.some.injEq] at h
      exact .inl ⟨h.1.symm, h.2.symm⟩
  | blockquote content, pos, found, h => by
      simp only [startingAt] at h
      split at h
      · rename_i place
        exact .inl ⟨place.symm, (Option.some.inj h).symm⟩
      · obtain ⟨-, inner⟩ := Option.ite_none_right_eq_some.mp h
        obtain ⟨p, place, rfl⟩ := exists_place_of_startingAtAll content (pos + 1) found inner
        exact .inr ⟨p, by omega, rfl⟩

private theorem exists_place_of_startingAtAll : ∀ (ns : List Node) (pos : Nat) (found : Node),
    startingAtAll at_ ns pos = some found →
      ∃ p : Place, at_ = pos + p.pos ∧ ns = p.fill [found]
  | [], pos, found, h => by simp [startingAtAll] at h
  | n :: rest, pos, found, h => by
      simp only [startingAtAll, Option.or_eq_some_iff] at h
      rcases h with first | ⟨-, later⟩
      · rcases exists_place_of_startingAt n pos found first with ⟨place, rfl⟩ | ⟨p, place, rfl⟩
        · exact ⟨.here rest, place, rfl⟩
        · exact ⟨.inside p rest, place, rfl⟩
      · obtain ⟨p, place, rfl⟩ := exists_place_of_startingAtAll rest (pos + n.size) found later
        exact ⟨.behind n p, by rw [Place.pos]; omega, rfl⟩

end

private theorem startingAtAll_fill (n : Node) (p : Place) (place : at_ = pos + p.pos) :
    startingAtAll at_ (p.fill [n]) pos = some n := by
  induction p generalizing pos with
  | here rest =>
    have own : startingAt at_ n pos = some n := by
      cases n <;> exact if_pos place.symm
    rw [Place.fill, List.singleton_append, startingAtAll, own]
    rfl
  | behind first later ih =>
    rw [Place.pos] at place
    rw [Place.fill, startingAtAll, startingAt_of_le (by omega), Option.none_or]
    exact ih (by omega)
  | inside inner rest ih =>
    rw [Place.pos] at place
    rw [Place.fill, startingAtAll, startingAt, if_neg (by omega), if_pos (inner.enters [n] place),
      ih (by omega)]
    rfl

end Find

end Node

namespace Document

variable {d : Document} {pos : Nat} {n : Node}

theorem mem_nodes_iff : (pos, n) ∈ d.nodes ↔ ∃ p : Place, pos = p.pos ∧ d.content = p.fill [n] := by
  constructor
  · intro member
    obtain ⟨p, place, content⟩ := Node.exists_place_of_mem_visitAll d.content 0 n member
    exact ⟨p, by omega, content⟩
  · rintro ⟨p, rfl, content⟩
    rw [nodes, visit, content]
    exact Node.mem_visitAll_fill n p (Nat.zero_add _).symm

theorem nodeAt_eq_some_iff : d.nodeAt pos = some n ↔ (pos, n) ∈ d.nodes := by
  rw [mem_nodes_iff]
  constructor
  · intro found
    obtain ⟨p, place, content⟩ := Node.exists_place_of_startingAtAll d.content 0 n found
    exact ⟨p, by omega, content⟩
  · rintro ⟨p, rfl, content⟩
    rw [nodeAt, content]
    exact Node.startingAtAll_fill n p (Nat.zero_add _).symm

end Document

end CodeTint
