import CodeTint.Proofs.Decoration.Computed
import Mathlib.Data.List.Forall2

/-!
What the decorations that are computed for a document cover. Main statement: code block by code
block, they are one decoration of the whole and then runs that tile its text; so each character of
code is shown by one run, and nothing else is.
-/

set_option autoImplicit false
set_option relaxedAutoImplicit false

namespace CodeTint

namespace Decoration

/-- Styled runs that cover the positions from `start` up to `stop`, none of them empty. -/
def Tile (start : Nat) : List Decoration → Nat → Prop
  | [], stop => start = stop
  | d :: rest, stop => d.isInline = true ∧ d.start = start ∧ start < d.stop ∧ Tile d.stop rest stop

variable {start stop : Nat} {ds : List Decoration}

private theorem tile_of_spans {spans : List Span} (offset : Nat)
    (tile : Span.Tile start spans stop) :
    Tile (offset + start) (spans.map (Span.decoration offset)) (offset + stop) := by
  induction spans generalizing start with
  | nil => exact congrArg (offset + ·) tile
  | cons s rest ih =>
    obtain ⟨begins, long, later⟩ := tile
    exact ⟨rfl, congrArg (offset + ·) begins, Nat.add_lt_add_left long offset, ih later⟩

private theorem Tile.bounds (tile : Tile start ds stop) : start ≤ stop ∧
    ∀ d ∈ ds, d.isInline = true ∧ start ≤ d.start ∧ d.start < d.stop ∧ d.stop ≤ stop := by
  induction ds generalizing start with
  | nil => exact ⟨Nat.le_of_eq tile, fun d member => absurd member List.not_mem_nil⟩
  | cons first rest ih =>
    obtain ⟨inline, begins, long, later⟩ := tile
    obtain ⟨le, inside⟩ := ih later
    refine ⟨by omega, fun d member => ?_⟩
    rcases List.mem_cons.mp member with rfl | member
    · exact ⟨inline, by omega, by omega, le⟩
    · obtain ⟨own, bounds⟩ := inside d member
      exact ⟨own, by omega⟩

private theorem Tile.countP_eq_one (tile : Tile start ds stop) {pos : Nat} (above : start ≤ pos)
    (below : pos < stop) : ds.countP (fun d => d.overlaps pos (pos + 1)) = 1 := by
  induction ds generalizing start with
  | nil =>
    have empty : start = stop := tile
    omega
  | cons first rest ih =>
    obtain ⟨-, begins, long, later⟩ := tile
    rw [List.countP_cons]
    by_cases here : pos < first.stop
    · have none : rest.countP (fun d => d.overlaps pos (pos + 1)) = 0 := by
        refine List.countP_eq_zero.mpr fun d member => ?_
        have bounds := later.bounds.2 d member
        simp only [overlaps, Bool.and_eq_true, decide_eq_true_eq]
        omega
      have shown : first.overlaps pos (pos + 1) = true := by
        simp only [overlaps, Bool.and_eq_true, decide_eq_true_eq]
        omega
      rw [none, if_pos shown]
    · have hidden : ¬first.overlaps pos (pos + 1) = true := by
        simp only [overlaps, Bool.and_eq_true, decide_eq_true_eq]
        omega
      rw [ih later (Nat.not_lt.mp here), if_neg hidden]

end Decoration

/-- Decorations that show a code block: one of the whole, then runs that tile its text. -/
def CodeRegion.ShownBy (r : CodeRegion) (ds : List Decoration) : Prop :=
  ∃ shown runs, ds = .node r.start r.stop shown :: runs ∧
    Decoration.Tile r.contentStart runs r.contentStop

namespace Document

variable (d : Document) (c : Cache) (config : Config)

theorem regions_eq_mapIdx : d.regions = d.codeBlocks.mapIdx CodeRegion.ofBlock := rfl

theorem mem_regions_iff {d : Document} {r : CodeRegion} : r ∈ d.regions ↔
    ∃ index block, d.codeBlocks[index]? = some block ∧ r = .ofBlock index block := by
  rw [regions_eq_mapIdx, List.mem_mapIdx]
  constructor
  · rintro ⟨index, bound, rfl⟩
    exact ⟨index, d.codeBlocks[index], List.getElem?_eq_getElem bound, rfl⟩
  · rintro ⟨index, block, found, rfl⟩
    obtain ⟨bound, rfl⟩ := List.getElem?_eq_some_iff.mp found
    exact ⟨index, bound, rfl⟩

theorem stop_of_mem_regions {d : Document} {r : CodeRegion} (member : r ∈ d.regions) :
    r.stop = r.start + r.text.length + 2 := by
  obtain ⟨index, block, found, rfl⟩ := mem_regions_iff.mp member
  have code : block.2.isCodeBlock = true := (mem_codeBlocks_iff.mp (List.mem_of_getElem? found)).1
  obtain ⟨start, n⟩ := block
  cases n with
  | codeBlock attrs text => exact (Nat.add_assoc start text.length 2).symm
  | _ => exact absurd code Bool.false_ne_true

theorem regions_apart : d.regions.Pairwise fun r s => r.stop ≤ s.start := by
  rw [regions_eq_mapIdx, List.pairwise_iff_getElem]
  intro i j first second less
  rw [List.getElem_mapIdx, List.getElem_mapIdx]
  exact List.pairwise_iff_getElem.mp d.codeBlocks_apart i j _ _ less

private theorem shownBy_decorationsIn {d : Document} {r : CodeRegion} (member : r ∈ d.regions) :
    r.ShownBy (r.decorationsIn c config) := by
  let grammar := c.grammarFor config r.language
  let theme := c.themeFor config r.theme
  have tile := Decoration.tile_of_spans r.contentStart (tile_highlight r.text grammar theme)
  have stop : r.contentStart + r.text.length = r.contentStop := by
    rw [CodeRegion.contentStart, CodeRegion.contentStop, stop_of_mem_regions member]
    omega
  rw [stop] at tile
  exact ⟨(r.nodeDecoration theme config).shown, _, rfl, tile⟩

private theorem mem_inlines_decorate {a : Decoration} : a ∈ (d.decorate c config).inlines ↔
    a.isInline = true ∧ ∃ r ∈ d.regions, a ∈ r.decorationsIn c config := by
  rw [decorate_eq, DecorationSet.inlines, List.mem_filter, and_comm]
  exact and_congr_right fun _ => List.mem_flatMap

private theorem inside_of_mem_decorationsIn {d : Document} {r : CodeRegion} (member : r ∈ d.regions)
    {a : Decoration} (own : a ∈ r.decorationsIn c config) (inline : a.isInline = true) :
    r.contentStart ≤ a.start ∧ a.stop ≤ r.contentStop := by
  obtain ⟨shown, runs, parts, tile⟩ := shownBy_decorationsIn c config member
  rw [parts] at own
  rcases List.mem_cons.mp own with rfl | run
  · cases inline
  · have bounds := tile.bounds.2 a run
    exact ⟨bounds.2.1, bounds.2.2.2⟩

theorem within_of_mem_region {d : Document} {r : CodeRegion} (member : r ∈ d.regions)
    {a : Decoration} (own : a ∈ r.decorationsIn c config) : a.Within r.start r.stop := by
  obtain ⟨index, block, found, rfl⟩ := mem_regions_iff.mp member
  exact within_of_mem_blockDecorations (mem_codeBlocks_iff.mp (List.mem_of_getElem? found)).1 own

theorem filter_decorationsIn {r : CodeRegion} (member : r ∈ d.regions) {p : Decoration → Bool}
    (elsewhere : ∀ s ∈ d.regions, s.stop ≤ r.start ∨ r.stop ≤ s.start →
      ∀ a ∈ s.decorationsIn c config, p a = false) :
    (d.decorationsIn c config).filter p = (r.decorationsIn c config).filter p := by
  show (d.regions.flatMap (·.decorationsIn c config)).filter p = _
  have apart := d.regions_apart
  obtain ⟨front, back, regions⟩ := List.mem_iff_append.mp member
  rw [regions] at apart elsewhere ⊢
  obtain ⟨-, later, crossing⟩ := List.pairwise_append.mp apart
  have before : (front.flatMap (·.decorationsIn c config)).filter p = [] := by
    refine List.filter_eq_nil_iff.mpr fun a shown => ?_
    obtain ⟨s, other, own⟩ := List.mem_flatMap.mp shown
    rw [elsewhere s (List.mem_append_left _ other)
      (.inl (crossing s other r List.mem_cons_self)) a own]
    exact Bool.false_ne_true
  have after : (back.flatMap (·.decorationsIn c config)).filter p = [] := by
    refine List.filter_eq_nil_iff.mpr fun a shown => ?_
    obtain ⟨s, other, own⟩ := List.mem_flatMap.mp shown
    rw [elsewhere s (List.mem_append_right _ (List.mem_cons_of_mem _ other))
      (.inr ((List.pairwise_cons.mp later).1 s other)) a own]
    exact Bool.false_ne_true
  rw [List.flatMap_append, List.flatMap_cons, List.filter_append, List.filter_append, before, after,
    List.nil_append, List.append_nil]

private theorem countP_inlines_decorate {r : CodeRegion} (member : r ∈ d.regions) {pos : Nat}
    (first : r.contentStart ≤ pos) (last : pos < r.contentStop) :
    (d.decorate c config).inlines.countP (·.overlaps pos (pos + 1)) = 1 := by
  rw [decorate_eq, DecorationSet.inlines, List.countP_filter, List.countP_eq_length_filter,
    d.filter_decorationsIn c config member, ← List.countP_eq_length_filter]
  · obtain ⟨shown, runs, parts, tile⟩ := shownBy_decorationsIn c config member
    rw [parts, List.countP_cons, ← List.countP_filter]
    have all : runs.filter (·.isInline) = runs :=
      List.filter_eq_self.mpr fun a run => (tile.bounds.2 a run).1
    rw [all, tile.countP_eq_one first last]
    simp [Decoration.isInline, Decoration.span?]
  · intro s other apart a own
    rw [← Bool.not_eq_true, Bool.and_eq_true, not_and]
    intro overlaps inline
    obtain ⟨left, right⟩ := inside_of_mem_decorationsIn c config other own inline
    simp only [Decoration.overlaps, Bool.and_eq_true, decide_eq_true_eq] at overlaps
    simp only [CodeRegion.contentStart, CodeRegion.contentStop] at first last left right
    omega

private theorem nodes_decorate : (d.decorate c config).nodes.map (fun a => (a.start, a.stop)) =
    d.regions.map fun r => (r.start, r.stop) := by
  rw [decorate_eq, DecorationSet.nodes]
  show ((d.regions.flatMap (·.decorationsIn c config)).filter _).map _ = _
  rw [List.filter_flatMap, List.map_flatMap, List.map_eq_flatMap]
  refine List.flatMap_congr fun r member => ?_
  obtain ⟨shown, runs, parts, tile⟩ := shownBy_decorationsIn c config member
  have none : runs.filter (fun a => !a.isInline) = [] :=
    List.filter_eq_nil_iff.mpr fun a run => by simp [(tile.bounds.2 a run).1]
  rw [parts, List.filter_cons, none]
  rfl

/-- What a decoration set of a document has to be. -/
structure CoveredBy (d : Document) (s : DecorationSet) : Prop where
  version : s.version = d.version
  parts : ∃ parts, s.decorations = parts.flatten ∧
    List.Forall₂ CodeRegion.ShownBy d.regions parts
  /-- The text of a code block has a position for each character. -/
  text : ∀ r ∈ d.regions, r.contentStop = r.contentStart + r.text.length
  once : ∀ r ∈ d.regions, ∀ pos, r.contentStart ≤ pos → pos < r.contentStop →
    s.inlines.countP (·.overlaps pos (pos + 1)) = 1
  only : ∀ a ∈ s.inlines, ∃ r ∈ d.regions, r.contentStart ≤ a.start ∧ a.stop ≤ r.contentStop
  nodes : s.nodes.map (fun a => (a.start, a.stop)) = d.regions.map fun r => (r.start, r.stop)

/-- Whatever is loaded, the computed decorations show each code block as a whole and each character
of its text by one run, in the order of the document; sorting them moves none. -/
theorem coveredBy_decorate : d.CoveredBy (d.decorate c config) ∧
    (d.decorate c config).decorations = d.decorationsIn c config := by
  refine ⟨⟨rfl, ⟨d.regions.map (·.decorationsIn c config), ?_, ?_⟩, ?_, ?_, ?_, ?_⟩, ?_⟩
  · rw [decorate_eq]
    rfl
  · rw [List.forall₂_map_right_iff, List.forall₂_same]
    exact fun r member => shownBy_decorationsIn c config member
  · intro r member
    rw [CodeRegion.contentStart, CodeRegion.contentStop, stop_of_mem_regions member]
    omega
  · exact fun r member pos => d.countP_inlines_decorate c config member
  · intro a member
    obtain ⟨inline, r, found, own⟩ := (d.mem_inlines_decorate c config).mp member
    exact ⟨r, found, inside_of_mem_decorationsIn c config found own inline⟩
  · exact d.nodes_decorate c config
  · rw [decorate_eq]

end Document

end CodeTint
