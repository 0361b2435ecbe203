import CodeTint.Decoration.Compute
import CodeTint.Proofs.Attempt
import CodeTint.Proofs.Document.Region
import CodeTint.Proofs.Highlight.Tiling
import CodeTint.Proofs.Position.Carry
import Mathlib.Tactic.Conv

/-!
The decorations that are computed for a document: where they lie and in what order. Main statement:
if a mapping carries every code block as a whole, and the new document has just these blocks, then
the computed decorations carried through the mapping are those computed for the new document.
-/

set_option autoImplicit false
set_option relaxedAutoImplicit false

namespace CodeTint

namespace CodeRegion

def ofBlock (index : Nat) (block : Nat × Node) : CodeRegion :=
  { index, start := block.1, stop := block.1 + block.2.size,
    language := block.2.codeAttrs?.bind (·.language), theme := block.2.codeAttrs?.bind (·.theme),
    text := block.2.text?.getD "" }

/-- The decorations of a region with what is loaded. -/
def decorationsIn (r : CodeRegion) (c : Cache) (config : Config) : List Decoration :=
  r.decorations (c.grammarFor config r.language) (c.themeFor config r.theme) config

end CodeRegion

def blockDecorations (c : Cache) (config : Config) (block : Nat × Node) : List Decoration :=
  (CodeRegion.ofBlock 0 block).decorationsIn c config

theorem Document.decorationsIn_eq_flatMap (d : Document) (c : Cache) (config : Config) :
    d.decorationsIn c config = d.codeBlocks.flatMap (blockDecorations c config) := by
  have regions : d.regions = d.codeBlocks.mapIdx CodeRegion.ofBlock := rfl
  have each : (d.codeBlocks.mapIdx CodeRegion.ofBlock).map (·.decorationsIn c config) =
      d.codeBlocks.map (blockDecorations c config) := by
    rw [List.mapIdx_eq_zipIdx_map, List.map_map]
    conv => rhs; rw [← List.zipIdx_map_fst 0 d.codeBlocks, List.map_map]
    rfl
  show d.regions.flatMap (fun r => r.decorationsIn c config) = _
  rw [regions, List.flatMap_def, each, ← List.flatMap_def]

namespace Decoration

def Within (start stop : Nat) (d : Decoration) : Prop :=
  start ≤ d.start ∧ d.start < d.stop ∧ d.stop ≤ stop

def rebase (old new : Nat) : Decoration → Decoration
  | inline start stop shown span =>
    inline (new + (start - old)) (new + (stop - old)) shown span
  | node start stop shown => node (new + (start - old)) (new + (stop - old)) shown

end Decoration

section Block

variable {c : Cache} {config : Config} {block : Nat × Node}

private theorem blockDecorations_eq (code : block.2.isCodeBlock = true) :
    ∃ shown text spans, block.2.size = text + 2 ∧ Span.Tile 0 spans text ∧
      ∀ pos, blockDecorations c config (pos, block.2) =
        .node pos (pos + block.2.size) shown :: spans.map (Span.decoration (pos + 1)) := by
  obtain ⟨start, n⟩ := block
  cases n with
  | codeBlock attrs text =>
    let grammar := c.grammarFor config attrs.language
    let theme := c.themeFor config attrs.theme
    let region := CodeRegion.ofBlock 0 (start, .codeBlock attrs text)
    exact ⟨(region.nodeDecoration theme config).shown, text.length, highlight text grammar theme,
      rfl, tile_highlight text grammar theme, fun pos => rfl⟩
  | _ => simp [Node.isCodeBlock] at code

theorem within_of_mem_blockDecorations (code : block.2.isCodeBlock = true) {d : Decoration}
    (member : d ∈ blockDecorations c config block) : d.Within block.1 (block.1 + block.2.size) := by
  obtain ⟨shown, text, spans, size, tile, decorations⟩ := blockDecorations_eq (c := c) code
  rw [decorations block.1] at member
  rcases List.mem_cons.mp member with rfl | span
  · simp only [Decoration.Within, Decoration.start, Decoration.stop]
    omega
  · obtain ⟨s, inside, rfl⟩ := List.mem_map.mp span
    have bounds := tile.bounds.2 s inside
    simp only [Decoration.Within, Span.decoration, Decoration.start, Decoration.stop]
    omega

private theorem sorted_blockDecorations (code : block.2.isCodeBlock = true) :
    (blockDecorations c config block).Pairwise fun a b => a.start ≤ b.start := by
  obtain ⟨shown, text, spans, size, tile, decorations⟩ := blockDecorations_eq (c := c) code
  rw [decorations block.1]
  refine List.Pairwise.cons ?_ (List.pairwise_map.mpr (tile.pairwise.imp_of_mem ?_))
  · intro d member
    obtain ⟨s, inside, rfl⟩ := List.mem_map.mp member
    simp only [Decoration.start, Span.decoration]
    omega
  · intro s t first second le
    have bounds := tile.bounds.2 s first
    simp only [Decoration.start, Span.decoration]
    omega

private theorem sorted_flatMap_blockDecorations {blocks : List (Nat × Node)}
    (code : ∀ block ∈ blocks, block.2.isCodeBlock = true) (apart : blocks.Pairwise Node.Apart) :
    (blocks.flatMap (blockDecorations c config)).Pairwise fun a b => a.start ≤ b.start := by
  rw [List.pairwise_flatMap]
  constructor
  · exact fun block member => sorted_blockDecorations (code block member)
  · refine apart.imp_of_mem ?_
    intro block next member member' apart a first b second
    have left := within_of_mem_blockDecorations (code block member) first
    have right := within_of_mem_blockDecorations (code next member') second
    exact Nat.le_trans (Nat.le_of_lt left.2.1)
      (Nat.le_trans left.2.2 (Nat.le_trans apart right.1))

theorem blockDecorations_rebase (code : block.2.isCodeBlock = true) (target : Nat) :
    blockDecorations c config (target, block.2) =
      (blockDecorations c config block).map (Decoration.rebase block.1 target) := by
  obtain ⟨shown, text, spans, size, tile, decorations⟩ := blockDecorations_eq (c := c) code
  rw [decorations target, decorations block.1, List.map_cons, List.map_map]
  congr 1
  · simp [Decoration.rebase]
  · refine List.map_congr_left fun s _ => ?_
    simp [Decoration.rebase, Span.decoration, Nat.add_assoc]

theorem remap_blockDecorations (code : block.2.isCodeBlock = true) {m : Mapping}
    {target size : Nat} (carries : Carries m.place block.1 block.2.size target)
    (fits : target + block.2.size ≤ size) {d : Decoration}
    (member : d ∈ blockDecorations c config block) :
    d.remap m size = .ok (some (d.rebase block.1 target)) := by
  obtain ⟨shown, text, spans, length, tile, decorations⟩ := blockDecorations_eq (c := c) code
  rw [decorations block.1] at member
  rcases List.mem_cons.mp member with rfl | span
  · have inside : ¬size < target := by omega
    have inside' : ¬size < target + block.2.size := by omega
    have long : ¬target + block.2.size ≤ target := by omega
    simp [Decoration.remap, Decoration.start, Decoration.stop, carries.first, carries.last,
      Decoration.checked, inside, inside', long, Decoration.rebase, bind, Except.bind, pure,
      Except.pure]
  · obtain ⟨s, within, rfl⟩ := List.mem_map.mp span
    have bounds := tile.bounds.2 s within
    have first := carries.inner (1 + s.start) .after (by omega) (by omega)
    have last := carries.inner (1 + s.stop) .before (by omega) (by omega)
    rw [← Nat.add_assoc] at first last
    have inside : ¬size < target + (1 + s.start) := by omega
    have inside' : ¬size < target + (1 + s.stop) := by omega
    have long : ¬target + (1 + s.stop) ≤ target + (1 + s.start) := by omega
    have start : block.1 + 1 + s.start - block.1 = 1 + s.start := by omega
    have stop : block.1 + 1 + s.stop - block.1 = 1 + s.stop := by omega
    simp only [Decoration.remap, Span.decoration, Decoration.start, Decoration.stop, first, last,
      Decoration.checked, inside, inside', long, if_false, Decoration.rebase, start, stop, bind,
      Except.bind, pure, Except.pure]

end Block

namespace Document

variable (d : Document) (c : Cache) (config : Config)

private theorem sorted_decorationsIn :
    (d.decorationsIn c config).Pairwise fun a b => a.start ≤ b.start := by
  rw [decorationsIn_eq_flatMap]
  exact sorted_flatMap_blockDecorations (fun _ member => (mem_codeBlocks_iff.mp member).1)
    d.codeBlocks_apart

theorem within_of_mem_decorationsIn {a : Decoration} (member : a ∈ d.decorationsIn c config) :
    a.Within 0 d.size := by
  rw [decorationsIn_eq_flatMap] at member
  obtain ⟨block, found, own⟩ := List.mem_flatMap.mp member
  have within := within_of_mem_blockDecorations (mem_codeBlocks_iff.mp found).1 own
  exact ⟨Nat.zero_le _, within.2.1, Nat.le_trans within.2.2 (stop_le_size found)⟩

theorem decorate_eq : d.decorate c config = ⟨d.version, d.decorationsIn c config⟩ := by
  have sorted : (d.decorationsIn c config).Pairwise fun a b =>
      (decide (a.start ≤ b.start)) = true :=
    (d.sorted_decorationsIn c config).imp fun le => decide_eq_true le
  simp only [decorate, DecorationSet.ofList, List.mergeSort_of_pairwise sorted]

theorem decorate_congr {c c' : Cache} (same : c.loaded = c'.loaded) (d : Document)
    (config : Config) : d.decorate c config = d.decorate c' config := by
  have grammars : c.grammarFor = c'.grammarFor := by
    funext config language
    simp only [Cache.grammarFor, Cache.grammarNamed?, Cache.grammar?, Cache.get?, same]
  have themes : c.themeFor = c'.themeFor := by
    funext config theme
    have lookup : c.theme? = c'.theme? := by
      funext id
      simp only [Cache.theme?, Cache.get?, same]
    simp only [Cache.themeFor, lookup, Cache.identifiers, same]
  simp only [decorate, decorationsIn, grammars, themes]

end Document

/-- If every code block is carried as a whole, and the images stay apart and in the new document,
the decorations carried through the mapping are those of the code blocks in their new places. -/
theorem remap_decorate_moved {before after : Document} {m : Mapping} (move : Nat → Nat)
    (c : Cache) (config : Config)
    (apart : before.codeBlocks.Pairwise fun a b => move a.1 + a.2.size ≤ move b.1)
    (fits : ∀ block ∈ before.codeBlocks, move block.1 + block.2.size ≤ after.size)
    (carries : ∀ block ∈ before.codeBlocks, Carries m.place block.1 block.2.size (move block.1)) :
    (before.decorate c config).remap m after =
      .ok ⟨after.version, (before.codeBlocks.map fun block => (move block.1, block.2)).flatMap
        (blockDecorations c config)⟩ := by
  have carried : ∀ l : List (Nat × Node), l ⊆ before.codeBlocks →
      (l.flatMap (blockDecorations c config)).mapM (·.remap m after.size) =
        .ok ((l.map fun block => (move block.1, block.2)).flatMap
          (blockDecorations c config) |>.map some) := by
    intro l
    induction l with
    | nil => exact fun _ => rfl
    | cons block rest ih =>
      intro included
      have member := included List.mem_cons_self
      have code := (Document.mem_codeBlocks_iff.mp member).1
      have each : ∀ d ∈ blockDecorations c config block,
          d.remap m after.size = .ok (some (d.rebase block.1 (move block.1))) :=
        fun _ inside =>
          remap_blockDecorations code (carries block member) (fits block member) inside
      have own := mapM_eq_ok each
      have later := ih fun b inside => included (List.mem_cons_of_mem _ inside)
      rw [List.flatMap_cons, List.mapM_append, own, later, List.map_cons, List.flatMap_cons,
        blockDecorations_rebase code (move block.1), List.map_append, List.map_map]
      rfl
  have sorted : ((before.codeBlocks.map fun block => (move block.1, block.2)).flatMap
      (blockDecorations c config)).Pairwise fun a b => (decide (a.start ≤ b.start)) = true := by
    refine (sorted_flatMap_blockDecorations (fun image member => ?_)
      (List.pairwise_map.mpr apart)).imp fun le => decide_eq_true le
    obtain ⟨block, found, rfl⟩ := List.mem_map.mp member
    exact (Document.mem_codeBlocks_iff.mp found).1
  have all := carried before.codeBlocks (List.Subset.refl _)
  rw [Document.decorate_eq, DecorationSet.remap]
  simp only [Document.decorationsIn_eq_flatMap, all]
  simp only [bind, Except.bind, pure, Except.pure, List.filterMap_map, Function.comp_def, id,
    List.filterMap_some, DecorationSet.ofList, List.mergeSort_of_pairwise sorted]

/-- If every code block is carried as a whole, and these are the code blocks of the new document,
then the decorations carried through the mapping are those computed anew. -/
theorem remap_decorate {before after : Document} {m : Mapping} (move : Nat → Nat)
    (c : Cache) (config : Config)
    (blocks : after.codeBlocks = before.codeBlocks.map fun block => (move block.1, block.2))
    (carries : ∀ block ∈ before.codeBlocks, Carries m.place block.1 block.2.size (move block.1)) :
    (before.decorate c config).remap m after = .ok (after.decorate c config) := by
  have apart := after.codeBlocks_apart
  rw [blocks, List.pairwise_map] at apart
  have fits : ∀ block ∈ before.codeBlocks, move block.1 + block.2.size ≤ after.size := by
    intro block member
    have found : (move block.1, block.2) ∈ after.codeBlocks := by
      rw [blocks]
      exact List.mem_map_of_mem member
    exact Document.stop_le_size found
  rw [remap_decorate_moved move c config apart fits carries, ← blocks,
    ← Document.decorationsIn_eq_flatMap, Document.decorate_eq]

end CodeTint
