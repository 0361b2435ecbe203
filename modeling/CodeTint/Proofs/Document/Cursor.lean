import CodeTint.Proofs.Decoration.Coverage
import CodeTint.Proofs.Document.Edit

/-!
The code block that a cursor is in. The walk that looks for it prunes what lies behind the cursor
and counts code blocks by itself; it finds the first code block in the list of all that has the
cursor in its text, and there is no other.
-/

set_option autoImplicit false
set_option relaxedAutoImplicit false

namespace CodeTint

namespace Node

def holds (cursor : Nat) (block : Nat × Node) : Bool :=
  block.1 < cursor && cursor < block.1 + block.2.size

mutual

theorem length_search_eq_codeBlocks : ∀ (n : Node) (pos : Nat),
    (search isCodeBlock n pos).length = n.codeBlocks
  | paragraph _, pos | heading _ _, pos | codeBlock _ _, pos | horizontalRule, pos => by
      simp [search, isCodeBlock, codeBlocks]
  | blockquote content, pos => by
      simp [search, isCodeBlock, codeBlocks, length_searchAll_eq_codeBlocks content (pos + 1)]

private theorem length_searchAll_eq_codeBlocks : ∀ (ns : List Node) (pos : Nat),
    (searchAll isCodeBlock ns pos).length = codeBlocksAll ns
  | [], pos => rfl
  | n :: rest, pos => by
      simp only [searchAll, codeBlocksAll, List.length_append, length_search_eq_codeBlocks n pos,
        length_searchAll_eq_codeBlocks rest (pos + n.size)]

end

private theorem findIdx?_search_of_lt {cursor : Nat} (n : Node) {pos : Nat}
    (before : cursor < pos) : (search isCodeBlock n pos).findIdx? (holds cursor) = none := by
  refine List.findIdx?_eq_none_iff.mpr fun block member => ?_
  have one : block ∈ searchAll isCodeBlock [n] pos := by simpa [searchAll] using member
  have bounds := mem_searchAll_bounds one
  simp only [holds, Bool.and_eq_false_iff, decide_eq_false_iff_not]
  omega

mutual

private theorem regionAround_eq_findIdx? : ∀ (cursor : Nat) (n : Node) (pos index : Nat),
    regionAround cursor n pos index =
      ((search isCodeBlock n pos).findIdx? (holds cursor)).map (index + ·)
  | cursor, paragraph _, pos, index | cursor, heading _ _, pos, index
  | cursor, horizontalRule, pos, index => by simp [regionAround, search, isCodeBlock]
  | cursor, codeBlock attrs text, pos, index => by
      by_cases before : cursor < pos
      · rw [findIdx?_search_of_lt _ before]
        simp [regionAround, before]
      · have own : regionAround cursor (codeBlock attrs text) pos index =
            if holds cursor (pos, codeBlock attrs text) then some index else none := by
          rw [regionAround, if_neg before]
          rfl
        rw [own]
        cases held : holds cursor (pos, codeBlock attrs text) <;> simp [search, isCodeBlock, held]
  | cursor, blockquote content, pos, index => by
      by_cases before : cursor < pos
      · rw [findIdx?_search_of_lt _ before]
        simp [regionAround, before]
      · have inner := regionAroundAll_eq_findIdx? cursor content (pos + 1) index
        simp [regionAround, before, search, isCodeBlock, inner]

private theorem regionAroundAll_eq_findIdx? : ∀ (cursor : Nat) (ns : List Node) (pos index : Nat),
    regionAroundAll cursor ns pos index =
      ((searchAll isCodeBlock ns pos).findIdx? (holds cursor)).map (index + ·)
  | cursor, [], pos, index => by simp [regionAroundAll, searchAll]
  | cursor, n :: rest, pos, index => by
      have first := regionAround_eq_findIdx? cursor n pos index
      have later := regionAroundAll_eq_findIdx? cursor rest (pos + n.size) (index + n.codeBlocks)
      simp only [regionAroundAll, searchAll, first, later, List.findIdx?_append,
        length_search_eq_codeBlocks]
      cases (search isCodeBlock n pos).findIdx? (holds cursor) with
      | some here => rfl
      | none =>
        cases (searchAll isCodeBlock rest (pos + n.size)).findIdx? (holds cursor) with
        | some there =>
          simp only [Option.map_none, Option.none_or, Option.map_some, Option.some.injEq]
          omega
        | none => rfl

end

end Node

namespace Document

variable {d : Document}

/-- A cursor is in the text of the code block with an index. -/
def HoldsCursor (d : Document) (index cursor : Nat) : Prop :=
  ∃ r ∈ d.regions, r.index = index ∧ r.containsCursor cursor = true

theorem containsCursor_ofBlock {index cursor : Nat} {block : Nat × Node} (long : 0 < block.2.size) :
    (CodeRegion.ofBlock index block).containsCursor cursor = Node.holds cursor block := by
  simp only [CodeRegion.containsCursor, CodeRegion.contentStart, CodeRegion.contentStop,
    CodeRegion.ofBlock, Node.holds]
  grind

private theorem holdsCursor_iff {index cursor : Nat} : d.HoldsCursor index cursor ↔
    ∃ block, d.codeBlocks[index]? = some block ∧ Node.holds cursor block = true := by
  simp only [HoldsCursor, mem_regions_iff]
  constructor
  · rintro ⟨_, ⟨i, block, found, rfl⟩, rfl, held⟩
    rw [containsCursor_ofBlock block.2.size_pos] at held
    exact ⟨block, found, held⟩
  · rintro ⟨block, found, held⟩
    rw [← containsCursor_ofBlock block.2.size_pos] at held
    exact ⟨_, ⟨index, block, found, rfl⟩, rfl, held⟩

theorem regionAt_eq_findIdx? (d : Document) (cursor : Nat) :
    d.regionAt cursor = d.codeBlocks.findIdx? (Node.holds cursor) := by
  rw [regionAt, Node.regionAroundAll_eq_findIdx?]
  simp only [Nat.zero_add, Option.map_id']
  rfl

theorem regionAt_eq_some_iff {index cursor : Nat} :
    d.regionAt cursor = some index ↔ d.HoldsCursor index cursor := by
  rw [regionAt_eq_findIdx?, holdsCursor_iff, List.findIdx?_eq_some_iff_getElem]
  constructor
  · rintro ⟨inside, held, -⟩
    exact ⟨_, List.getElem?_eq_getElem inside, held⟩
  · rintro ⟨block, found, held⟩
    obtain ⟨inside, rfl⟩ := List.getElem?_eq_some_iff.mp found
    refine ⟨inside, held, fun j before => ?_⟩
    -- the blocks before it end before it begins
    have apart := List.pairwise_iff_getElem.mp d.codeBlocks_apart j index (by omega) inside before
    simp only [Node.holds, Node.Apart, Bool.and_eq_true, decide_eq_true_eq] at held apart ⊢
    omega

private theorem regionAt_eq_none_iff {cursor : Nat} :
    d.regionAt cursor = none ↔ ∀ r ∈ d.regions, r.containsCursor cursor = false := by
  rw [Option.eq_none_iff_forall_ne_some]
  simp only [ne_eq, regionAt_eq_some_iff, HoldsCursor]
  constructor
  · intro none r member
    rw [← Bool.not_eq_true]
    exact fun held => none r.index ⟨r, member, rfl, held⟩
  · rintro none index ⟨r, member, -, held⟩
    exact Bool.false_ne_true ((none r member).symm.trans held)

private theorem eq_of_containsCursor {r s : CodeRegion} {cursor : Nat} (first : r ∈ d.regions)
    (second : s ∈ d.regions) (held : r.containsCursor cursor = true)
    (held' : s.containsCursor cursor = true) : r = s := by
  have own : d.regionAt cursor = some r.index := regionAt_eq_some_iff.mpr ⟨r, first, rfl, held⟩
  have other : d.regionAt cursor = some s.index := regionAt_eq_some_iff.mpr ⟨s, second, rfl, held'⟩
  obtain ⟨i, block, found, rfl⟩ := mem_regions_iff.mp first
  obtain ⟨j, block', found', rfl⟩ := mem_regions_iff.mp second
  obtain rfl : i = j := Option.some.inj (own.symm.trans other)
  rw [Option.some.inj (found.symm.trans found')]

private theorem map_index_regions (d : Document) :
    d.regions.map (·.index) = List.range d.regions.length := by
  rw [regions_eq_mapIdx]
  refine List.ext_getElem (by simp) fun i _ _ => ?_
  rw [List.getElem_map, List.getElem_mapIdx, List.getElem_range]
  rfl

/-- The walk that looks for the code block of a cursor agrees with the list of all code blocks,
which are numbered from left to right and have no position in common. -/
theorem regionAt_agrees (d : Document) (cursor : Nat) :
    (∀ index, d.regionAt cursor = some index ↔
      ∃ r ∈ d.regions, r.index = index ∧ r.containsCursor cursor = true) ∧
    (∀ r ∈ d.regions, ∀ s ∈ d.regions, r.containsCursor cursor = true →
      s.containsCursor cursor = true → r = s) ∧
    (d.regionAt cursor = none ↔ ∀ r ∈ d.regions, r.containsCursor cursor = false) ∧
    d.regionCount = d.regions.length ∧
    d.regions.map (·.index) = List.range d.regions.length ∧
    (∀ r ∈ d.regions, r.start < r.stop) ∧
    d.regions.Pairwise fun r s => r.stop ≤ s.start := by
  refine ⟨fun index => regionAt_eq_some_iff, fun r first s second => eq_of_containsCursor first
    second, regionAt_eq_none_iff, ?_, d.map_index_regions, fun r member => ?_, d.regions_apart⟩
  · rw [regions_eq_mapIdx, List.length_mapIdx]
    rfl
  · rw [stop_of_mem_regions member]
    omega

/-! Three code blocks, two of them in block quotes and one without text, and a cursor in that one;
another cursor is between two of them. -/

namespace Quoted

def document : Document :=
  ⟨[.blockquote [], .blockquote [.codeBlock {} "ab", .blockquote [.codeBlock {} ""]],
    .codeBlock {} "x"], 1⟩

theorem regionAt_agrees_quoted :
    document.regionAt 9 = some 1 ∧
      (∃ r ∈ document.regions, r.index = 1 ∧ r.containsCursor 9 = true) ∧
      (∀ r ∈ document.regions, r.containsCursor 9 = true → r = ⟨1, 8, 10, none, none, ""⟩) ∧
    document.regionAt 8 = none ∧ (∀ r ∈ document.regions, r.containsCursor 8 = false) ∧
    document.regionCount = document.regions.length ∧
    document.regions.map (·.index) = List.range document.regions.length ∧
    (∀ r ∈ document.regions, r.start < r.stop) ∧
    document.regions.Pairwise fun r s => r.stop ≤ s.start := by
  obtain ⟨found, single, -, count, indices, long, apart⟩ := regionAt_agrees document 9
  obtain ⟨-, -, none, -⟩ := regionAt_agrees document 8
  have inside : document.regionAt 9 = some 1 := by decide
  have between : document.regionAt 8 = Option.none := by decide
  have member : (⟨1, 8, 10, Option.none, Option.none, ""⟩ : CodeRegion) ∈ document.regions := by
    decide
  exact ⟨inside, (found 1).mp inside, fun r other held => single r other _ member held (by decide),
    between, none.mp between, count, indices, long, apart⟩

end Quoted

end Document

end CodeTint
