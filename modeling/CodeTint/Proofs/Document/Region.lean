import CodeTint.Proofs.Document.Place
import Mathlib.Tactic.ByContra

/-!
Code blocks in the tokens of a document. A search lists the code blocks from left to right, apart
from each other, and lists exactly those whose tokens stand in the sequence: so what an edit does
to the sequence decides what becomes of the code blocks.
-/

set_option autoImplicit false
set_option relaxedAutoImplicit false

namespace CodeTint

namespace Stands

variable {start : Nat} {part whole : List Token}

theorem singleton {token : Token} (h : whole[start]? = some token) :
    Stands start [token] whole := by
  obtain ⟨inside, rfl⟩ := List.getElem?_eq_some_iff.mp h
  refine ⟨whole.take start, whole.drop (start + 1), ?_, ?_⟩
  · rw [List.length_take]
    omega
  · rw [List.append_assoc, List.singleton_append, List.getElem_cons_drop, List.take_append_drop]

theorem map (f : Token → Token) (h : Stands start part whole) :
    Stands start (part.map f) (whole.map f) := by
  obtain ⟨left, right, rfl, rfl⟩ := h
  exact ⟨left.map f, right.map f, by simp, by simp⟩

theorem stop_le (h : Stands start part whole) : start + part.length ≤ whole.length := by
  obtain ⟨left, right, rfl, rfl⟩ := h
  simp only [List.length_append]
  omega

theorem getElem?_inside (h : Stands start part whole) {i : Nat} (inside : i < part.length) :
    whole[start + i]? = part[i]? := by
  obtain ⟨left, right, rfl, rfl⟩ := h
  rw [List.append_assoc, List.getElem?_append_right (Nat.le_add_right _ _), Nat.add_sub_cancel_left,
    List.getElem?_append_left inside]

theorem getElem?_start {first : Token} {rest : List Token}
    (h : Stands start (first :: rest) whole) : whole[start]? = some first :=
  h.getElem?_inside (Nat.zero_lt_succ _)

end Stands

def Token.opensCode : Token → Bool
  | .opening (.codeBlock _) => true
  | _ => false

theorem countP_opensCode_chars (cs : List Char) :
    (cs.map Token.char).countP Token.opensCode = 0 := by
  simp [Token.opensCode]

private theorem countP_opensCode_textTokens (block : Opening) (text : String) :
    (textTokens block text).countP Token.opensCode =
      if Token.opensCode (.opening block) then 1 else 0 := by
  rw [textTokens, List.countP_cons, List.countP_append, countP_opensCode_chars]
  simp [Token.opensCode]

namespace Node

private theorem one_lt_size_of_isCodeBlock {n : Node} (h : n.isCodeBlock = true) : 1 < n.size := by
  cases n with
  | codeBlock attrs text => simp [size]
  | _ => simp [isCodeBlock] at h

mutual

theorem length_search_codeBlock : ∀ (n : Node) (pos : Nat),
    (search isCodeBlock n pos).length = n.tokens.countP Token.opensCode
  | paragraph _, pos | heading _ _, pos | codeBlock _ _, pos | horizontalRule, pos => by
      simp [search, isCodeBlock, tokens, countP_opensCode_textTokens, Token.opensCode]
  | blockquote content, pos => by
      have inner := length_searchAll_codeBlock content (pos + 1)
      simp [search, isCodeBlock, tokens, Token.opensCode, inner]

private theorem length_searchAll_codeBlock : ∀ (ns : List Node) (pos : Nat),
    (searchAll isCodeBlock ns pos).length = (tokensAll ns).countP Token.opensCode
  | [], pos => rfl
  | n :: rest, pos => by
      simp only [searchAll, tokensAll, List.length_append, List.countP_append,
        length_search_codeBlock n pos, length_searchAll_codeBlock rest (pos + n.size)]

end

private theorem mem_searchAll {p : Node → Bool} (ns : List Node) (pos at_ : Nat) (found : Node)
    (h : (at_, found) ∈ searchAll p ns pos) :
    p found = true ∧ ∃ here, at_ = pos + here ∧ Stands here found.tokens (tokensAll ns) := by
  rw [searchAll_eq_filter] at h
  obtain ⟨visited, holds⟩ := List.mem_filter.mp h
  obtain ⟨place, rfl, rfl⟩ := exists_place_of_mem_visitAll ns pos found visited
  refine ⟨holds, place.pos, rfl, ?_⟩
  have stands := (place.spliced_fill [found] [found]).stands_put
  rwa [tokensAll_singleton] at stands

theorem mem_searchAll_bounds {p : Node → Bool} {ns : List Node} {pos : Nat} {found : Nat × Node}
    (h : found ∈ searchAll p ns pos) : pos ≤ found.1 ∧ found.1 + found.2.size ≤ pos + sizes ns := by
  obtain ⟨-, here, place, stands⟩ := mem_searchAll ns pos found.1 found.2 h
  have inside := stands.stop_le
  rw [length_tokens, length_tokensAll] at inside
  omega

/-- A code block stands apart from the next one. -/
def Apart (a b : Nat × Node) : Prop := a.1 + a.2.size ≤ b.1

mutual

private theorem search_codeBlock_apart : ∀ (n : Node) (pos : Nat),
    (search isCodeBlock n pos).Pairwise Apart
  | paragraph _, pos | heading _ _, pos | codeBlock _ _, pos | horizontalRule, pos => by
      simp [search, isCodeBlock]
  | blockquote content, pos => by
      simpa [search, isCodeBlock] using searchAll_codeBlock_apart content (pos + 1)

private theorem searchAll_codeBlock_apart : ∀ (ns : List Node) (pos : Nat),
    (searchAll isCodeBlock ns pos).Pairwise Apart
  | [], pos => by simp [searchAll]
  | n :: rest, pos => by
      simp only [searchAll]
      refine List.pairwise_append.mpr
        ⟨search_codeBlock_apart n pos, searchAll_codeBlock_apart rest _, ?_⟩
      intro a first b later
      have one : a ∈ searchAll isCodeBlock [n] pos := by simpa [searchAll] using first
      have left := (mem_searchAll_bounds one).2
      have right := (mem_searchAll_bounds later).1
      simp only [sizes] at left
      exact Nat.le_trans left right

end

private theorem opening_textTokens {block other : Opening} {text : String} {i : Nat}
    (h : (textTokens block text)[i]? = some (.opening other)) : i = 0 ∧ other = block := by
  cases i with
  | zero => simpa [textTokens, eq_comm] using h
  | succ i =>
    have member := List.mem_of_getElem? (by simpa [textTokens] using h)
    simp at member

mutual

private theorem search_of_opening : ∀ (n : Node) (pos i : Nat) (attrs : CodeAttrs),
    n.tokens[i]? = some (.opening (.codeBlock attrs)) →
      ∃ text, (pos + i, codeBlock attrs text) ∈ search isCodeBlock n pos
  | paragraph _, pos, i, attrs, h | heading _ _, pos, i, attrs, h => by
      have other := (opening_textTokens h).2
      simp at other
  | codeBlock own text, pos, i, attrs, h => by
      obtain ⟨rfl, same⟩ := opening_textTokens h
      obtain rfl := Opening.codeBlock.inj same
      exact ⟨text, by simp [search, isCodeBlock]⟩
  | blockquote content, pos, i, attrs, h => by
      cases i with
      | zero => simp [tokens] at h
      | succ i =>
        have inner : (tokensAll content)[i]? = some (.opening (.codeBlock attrs)) := by
          simp only [tokens, List.getElem?_cons_succ, List.getElem?_append] at h
          split at h
          · exact h
          · have closing := List.mem_of_getElem? h
            simp at closing
        obtain ⟨text, member⟩ := searchAll_of_opening content (pos + 1) i attrs inner
        refine ⟨text, ?_⟩
        have place : pos + 1 + i = pos + (i + 1) := by omega
        simpa [search, isCodeBlock, place] using member
  | horizontalRule, pos, i, attrs, h => by
      have rule := List.mem_of_getElem? h
      simp [tokens] at rule

theorem searchAll_of_opening : ∀ (ns : List Node) (pos i : Nat) (attrs : CodeAttrs),
    (tokensAll ns)[i]? = some (.opening (.codeBlock attrs)) →
      ∃ text, (pos + i, codeBlock attrs text) ∈ searchAll isCodeBlock ns pos
  | [], pos, i, attrs, h => by simp [tokensAll] at h
  | n :: rest, pos, i, attrs, h => by
      simp only [tokensAll, List.getElem?_append, length_tokens] at h
      split at h
      · obtain ⟨text, member⟩ := search_of_opening n pos i attrs h
        exact ⟨text, by simp [searchAll, member]⟩
      · obtain ⟨text, member⟩ := searchAll_of_opening rest (pos + n.size) _ attrs h
        refine ⟨text, ?_⟩
        have place : pos + n.size + (i - n.size) = pos + i := by omega
        rw [place] at member
        simp [searchAll, member]

end

end Node

def Token.begins : Token → Bool
  | .opening _ => true
  | .rule => true
  | _ => false

private theorem Node.exists_begins (n : Node) :
    ∃ first rest, n.tokens = first :: rest ∧ first.begins = true := by
  cases n <;> exact ⟨_, _, rfl, rfl⟩

private theorem begins_textTokens {block : Opening} {text : String} {i : Nat} {token : Token}
    (h : (textTokens block text)[i]? = some token) (begins : token.begins = true) : i = 0 := by
  cases i with
  | zero => rfl
  | succ i =>
    have member := List.mem_of_getElem? (by simpa [textTokens] using h)
    simp only [List.mem_append, List.mem_map, List.mem_singleton] at member
    rcases member with ⟨c, -, rfl⟩ | rfl <;> exact Bool.noConfusion begins

theorem Stands.apart_of_begins {start i : Nat} {block : Opening} {text : String}
    {whole : List Token} (h : Stands start (textTokens block text) whole) {token : Token}
    (found : whole[i]? = some token) (begins : token.begins = true) :
    i ≤ start ∨ start + (text.length + 2) ≤ i := by
  by_contra inside
  have bound : i - start < (textTokens block text).length := by
    rw [length_textTokens]
    omega
  have here := h.getElem?_inside bound
  rw [Nat.add_sub_cancel' (by omega), found] at here
  have first := begins_textTokens here.symm begins
  omega

private theorem chars_closing_inj {cs ds : List Char} {front back : List Token}
    (h : cs.map Token.char ++ .closing :: front = ds.map Token.char ++ .closing :: back) :
    cs = ds := by
  induction cs generalizing ds with
  | nil =>
    cases ds with
    | nil => rfl
    | cons d ds => simp at h
  | cons c cs ih =>
    cases ds with
    | nil => simp at h
    | cons d ds =>
      simp only [List.map_cons, List.cons_append, List.cons.injEq, Token.char.injEq] at h
      rw [h.1, ih h.2]

theorem textTokens_inj {start : Nat} {block other : Opening} {text new : String}
    {whole : List Token} (one : Stands start (textTokens block text) whole)
    (two : Stands start (textTokens other new) whole) : block = other ∧ text = new := by
  obtain ⟨left, right, length, rfl⟩ := one
  obtain ⟨front, back, same, whole⟩ := two
  rw [List.append_assoc, List.append_assoc] at whole
  have rest := (List.append_inj whole (by rw [length, same])).2
  simp only [textTokens, List.cons_append, List.append_assoc, List.cons.injEq,
    Token.opening.injEq, List.nil_append] at rest
  exact ⟨rest.1, String.toList_inj.mp (chars_closing_inj rest.2)⟩

namespace Document

/-- The code blocks with their positions, from left to right. -/
abbrev codeBlocks (d : Document) : List (Nat × Node) := d.nodesWhere Node.isCodeBlock

theorem codeBlocks_apart (d : Document) : d.codeBlocks.Pairwise Node.Apart :=
  Node.searchAll_codeBlock_apart d.content 0

theorem codeBlocks_ordered (d : Document) : d.codeBlocks.Pairwise fun a b => a.1 < b.1 := by
  refine d.codeBlocks_apart.imp_of_mem fun member _ apart => ?_
  obtain ⟨code, -⟩ := Node.mem_searchAll d.content 0 _ _ member
  have long := Node.one_lt_size_of_isCodeBlock code
  exact Nat.lt_of_lt_of_le (by omega) apart

theorem regionCount_eq_countP (d : Document) :
    d.regionCount = d.tokens.countP Token.opensCode :=
  Node.length_searchAll_codeBlock d.content 0

theorem stop_le_size {d : Document} {block : Nat × Node} (h : block ∈ d.codeBlocks) :
    block.1 + block.2.size ≤ d.size := by
  have bounds := Node.mem_searchAll_bounds h
  have size : d.size = Node.sizes d.content := rfl
  omega

theorem mem_codeBlocks_iff {d : Document} {pos : Nat} {n : Node} :
    (pos, n) ∈ d.codeBlocks ↔ n.isCodeBlock = true ∧ Stands pos n.tokens d.tokens := by
  constructor
  · intro member
    obtain ⟨code, here, place, stands⟩ := Node.mem_searchAll d.content 0 pos n member
    obtain rfl : pos = here := by omega
    exact ⟨code, stands⟩
  · rintro ⟨code, stands⟩
    cases n with
    | codeBlock attrs text =>
      have opening : d.tokens[pos]? = some (.opening (.codeBlock attrs)) := stands.getElem?_start
      obtain ⟨other, member⟩ := Node.searchAll_of_opening d.content 0 pos attrs opening
      rw [Nat.zero_add] at member
      obtain ⟨-, here, place, found⟩ := Node.mem_searchAll d.content 0 _ _ member
      obtain rfl : pos = here := by omega
      obtain ⟨-, rfl⟩ := textTokens_inj stands found
      exact member
    | _ => simp [Node.isCodeBlock] at code

section CodeBlock

variable {d : Document} {block : Nat × Node}

theorem textTokens_of_mem_codeBlocks (member : block ∈ d.codeBlocks) : ∃ attrs text,
    block.2 = .codeBlock attrs text ∧ block.2.size = text.length + 2 ∧
      Stands block.1 (textTokens (.codeBlock attrs) text) d.tokens := by
  obtain ⟨start, n⟩ := block
  obtain ⟨code, stands⟩ := mem_codeBlocks_iff.mp member
  cases n with
  | codeBlock attrs text => exact ⟨attrs, text, rfl, rfl, stands⟩
  | _ => exact Bool.noConfusion code

theorem apart_of_begins (member : block ∈ d.codeBlocks) {i : Nat} {token : Token}
    (found : d.tokens[i]? = some token) (begins : token.begins = true) :
    i ≤ block.1 ∨ block.1 + block.2.size ≤ i := by
  obtain ⟨attrs, text, -, size, stands⟩ := textTokens_of_mem_codeBlocks member
  rw [size]
  exact stands.apart_of_begins found begins

theorem apart_of_textblock (member : block ∈ d.codeBlocks) {other : Nat × Node}
    (found : other ∈ d.nodesWhere fun n => n.isTextblock && !n.isCodeBlock) :
    other.1 + other.2.size ≤ block.1 ∨ block.1 + block.2.size ≤ other.1 := by
  obtain ⟨attrs, text, -, size, stands⟩ := textTokens_of_mem_codeBlocks member
  obtain ⟨start, n⟩ := other
  obtain ⟨kind, here, place, stands'⟩ := Node.mem_searchAll d.content 0 _ _ found
  obtain rfl : start = here := by omega
  simp only [Bool.and_eq_true, Bool.not_eq_true'] at kind
  obtain ⟨opening, words, tokens, size', other⟩ : ∃ opening words,
      n.tokens = textTokens opening words ∧ n.size = words.length + 2 ∧
        opening ≠ .codeBlock attrs := by
    cases n with
    | paragraph words => exact ⟨_, words, rfl, rfl, by simp⟩
    | heading level words => exact ⟨_, words, rfl, rfl, by simp⟩
    | codeBlock _ _ => exact Bool.noConfusion kind.2
    | _ => exact Bool.noConfusion kind.1
  rw [tokens] at stands'
  have first := stands.apart_of_begins stands'.getElem?_start rfl
  have second := stands'.apart_of_begins stands.getElem?_start rfl
  have distinct : start ≠ block.1 := by
    rintro rfl
    exact other (textTokens_inj stands' stands).1
  dsimp only
  omega

/-- No node can be inserted inside a code block: it would begin inside the block that the opening
of the code block then opens. -/
theorem apart_of_inserted (member : block ∈ d.codeBlocks) {content : List Node} {pos : Nat}
    {node : Node} (spliced : Spliced pos [] node.tokens d.tokens (Node.tokensAll content)) :
    pos ≤ block.1 ∨ block.1 + block.2.size ≤ pos := by
  obtain ⟨attrs, text, -, size, stands⟩ := textTokens_of_mem_codeBlocks member
  by_contra inside
  have opening : (Node.tokensAll content)[block.1]? = some (.opening (.codeBlock attrs)) := by
    refine (spliced.stands_before (.singleton stands.getElem?_start) ?_).getElem?_start
    rw [List.length_singleton]
    omega
  obtain ⟨other, member'⟩ := Node.searchAll_of_opening content 0 block.1 attrs opening
  rw [Nat.zero_add] at member'
  obtain ⟨-, here, place, stands'⟩ := Node.mem_searchAll content 0 _ _ member'
  obtain rfl : block.1 = here := by omega
  obtain ⟨first, rest, tokens, begins⟩ := node.exists_begins
  have found : (Node.tokensAll content)[pos]? = some first := by
    have put := spliced.stands_put
    rw [tokens] at put
    exact put.getElem?_start
  have apart := Stands.apart_of_begins stands' found begins
  have length := length_textTokens (.codeBlock attrs) other
  have stands'' := spliced.symm.stands_before stands' (by rw [Node.tokens]; omega)
  obtain ⟨-, rfl⟩ := textTokens_inj stands stands''
  omega

theorem apart_of_deleted (member : block ∈ d.codeBlocks) {node : Node} {pos : Nat}
    (stands : Stands pos node.tokens d.tokens)
    (none : node.tokens.countP Token.opensCode = 0) :
    pos + node.size ≤ block.1 ∨ block.1 + block.2.size ≤ pos := by
  obtain ⟨first, rest, tokens, begins⟩ := node.exists_begins
  have found : d.tokens[pos]? = some first := by
    rw [tokens] at stands
    exact stands.getElem?_start
  rcases apart_of_begins member found begins with before | behind
  · by_contra inside
    obtain ⟨attrs, text, -, -, block_stands⟩ := textTokens_of_mem_codeBlocks member
    have bound : block.1 - pos < node.tokens.length := by
      rw [Node.length_tokens]
      omega
    have opening := stands.getElem?_inside bound
    rw [Nat.add_sub_cancel' before, block_stands.getElem?_start] at opening
    exact List.countP_eq_zero.mp none _ (List.mem_of_getElem? opening.symm) rfl
  · exact .inr behind

end CodeBlock

end Document

end CodeTint
