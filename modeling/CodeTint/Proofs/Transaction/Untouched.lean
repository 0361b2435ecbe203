import CodeTint.Proofs.Decoration.Coverage
import CodeTint.Proofs.Transaction.Changed

/-!
What an edit does to the code blocks that it does not touch: nothing but to move them. Main
statement: each of them has an image in the new document, with its text, its attributes and, once
computed anew, its decorations, all where the mapping carries them; and the images are in the order
of the code blocks, whatever else is inserted, deleted or changed.
-/

set_option autoImplicit false
set_option relaxedAutoImplicit false

namespace CodeTint

/-- The decorations of a set that lie in a run of positions. -/
def DecorationSet.between (s : DecorationSet) (start stop : Nat) : List Decoration :=
  s.decorations.filter fun d => start ≤ d.start && d.stop ≤ stop

private theorem Document.between_decorate {d : Document} {r : CodeRegion} (member : r ∈ d.regions)
    (c : Cache) (config : Config) :
    (d.decorate c config).between r.start r.stop = r.decorationsIn c config := by
  rw [decorate_eq, DecorationSet.between, d.filter_decorationsIn c config member]
  · refine List.filter_eq_self.mpr fun a own => ?_
    obtain ⟨first, -, last⟩ := within_of_mem_region c config member own
    rw [Bool.and_eq_true, decide_eq_true_eq, decide_eq_true_eq]
    exact ⟨first, last⟩
  · intro s other apart a own
    obtain ⟨first, long, last⟩ := within_of_mem_region c config other own
    rw [← Bool.not_eq_true, Bool.and_eq_true, decide_eq_true_eq, decide_eq_true_eq]
    omega

private theorem Decoration.shown_rebase (old new : Nat) (a : Decoration) :
    (a.rebase old new).shown = a.shown ∧ (a.rebase old new).span? = a.span? := by
  cases a with
  | inline start stop shown span => exact ⟨rfl, rfl⟩
  | node start stop shown => exact ⟨rfl, rfl⟩

private theorem exists_forall₂ {α β : Type} {R : α → β → Prop} {l : List α} {l' : List β}
    (each : ∀ a ∈ l, ∃ b ∈ l', R a b) : ∃ partners, partners ⊆ l' ∧ List.Forall₂ R l partners := by
  induction l with
  | nil => exact ⟨[], List.nil_subset _, .nil⟩
  | cons a rest ih =>
    obtain ⟨b, member, related⟩ := each a List.mem_cons_self
    obtain ⟨partners, included, later⟩ := ih fun a' later => each a' (List.mem_cons_of_mem _ later)
    exact ⟨b :: partners, List.cons_subset.mpr ⟨member, included⟩, .cons related later⟩

namespace Transaction

theorem touches_iff_meets {index : Nat} {block : Nat × Node} {r : Range} :
    (CodeRegion.ofBlock index block).touches r.start r.stop = true ↔ r.Meets block := by
  have positive := block.2.size_pos
  rw [CodeRegion.touches, Bool.and_eq_true, decide_eq_true_eq, decide_eq_true_eq]
  simp only [CodeRegion.contentStart, CodeRegion.contentStop, CodeRegion.ofBlock, Range.Meets]
  omega

/-- The code blocks of the first document whose text no changed range touches. -/
def untouched (t : Transaction) : List CodeRegion :=
  t.before.regions.filter fun r =>
    !t.changedRanges.any fun range => r.touches range.start range.stop

/-- A decoration carried through a transaction, with its look. -/
structure Carried (t : Transaction) (a image : Decoration) : Prop where
  remap : a.remap t.mapping t.after.size = .ok (some image)
  shown : image.shown = a.shown
  span : image.span? = a.span?

/-- A transaction does nothing to a code block but to move it. -/
structure Moves (t : Transaction) (r image : CodeRegion) : Prop where
  text : image.text = r.text
  language : image.language = r.language
  theme : image.theme = r.theme
  start : image.start = t.mapping.map r.start .after
  stop : image.stop = t.mapping.map r.stop .before
  decorations : ∀ c config, List.Forall₂ t.Carried
    ((t.before.decorate c config).between r.start r.stop)
    ((t.after.decorate c config).between image.start image.stop)

variable {b : TransactionBuilder}

private theorem survives_of_mem_untouched (made : b.Made)
    (quiet : ∀ s ∈ b.steps, s.isAttrWrite = false)
    {r : CodeRegion} (member : r ∈ b.build.untouched) : ∃ index block target,
      block ∈ b.before.codeBlocks ∧ r = .ofBlock index block ∧ b.Survives block target := by
  obtain ⟨found, clear⟩ := List.mem_filter.mp member
  obtain ⟨index, block, place, rfl⟩ := Document.mem_regions_iff.mp found
  have own : block ∈ b.before.codeBlocks := List.mem_of_getElem? place
  rw [Bool.not_eq_true', List.any_eq_false] at clear
  obtain ⟨target, survives⟩ := made.survives quiet own fun range changed meets =>
    clear range (List.mem_append_left _ changed) (touches_iff_meets.mpr meets)
  exact ⟨index, block, target, own, rfl, survives⟩

private theorem moves_of_survives {index : Nat} {block : Nat × Node} {target : Nat}
    (found : CodeRegion.ofBlock index block ∈ b.before.regions)
    (survives : b.Survives block target) :
    ∃ image ∈ b.current.regions, b.build.Moves (.ofBlock index block) image := by
  obtain ⟨code, -⟩ := Document.mem_codeBlocks_iff.mp survives.member
  obtain ⟨place, inside, same⟩ := List.getElem_of_mem survives.member
  have there : CodeRegion.ofBlock place (target, block.2) ∈ b.current.regions :=
    Document.mem_regions_iff.mpr ⟨place, _, List.getElem?_eq_some_iff.mpr ⟨inside, same⟩, rfl⟩
  have first : b.mapping.map block.1 .after = target :=
    congrArg Placement.pos survives.carries.first
  have last : b.mapping.map (block.1 + block.2.size) .before = target + block.2.size :=
    congrArg Placement.pos survives.carries.last
  refine ⟨_, there, rfl, rfl, rfl, first.symm, last.symm, fun c config => ?_⟩
  have fits := Document.stop_le_size survives.member
  have old : (b.build.before.decorate c config).between _ _ = blockDecorations c config block :=
    Document.between_decorate found c config
  have new : (b.build.after.decorate c config).between _ _ =
      blockDecorations c config (target, block.2) := Document.between_decorate there c config
  rw [old, new, blockDecorations_rebase code target, List.forall₂_map_right_iff, List.forall₂_same]
  intro a own
  obtain ⟨shown, span⟩ := a.shown_rebase block.1 target
  exact ⟨remap_blockDecorations code survives.carries fits own, shown, span⟩

/-- The code blocks that no changed range touches are all still there, each as it was and where the
mapping carries it, and in their order. -/
theorem untouched_moves (made : b.Made) (quiet : ∀ s ∈ b.steps, s.isAttrWrite = false) :
    ∃ images, images.Sublist b.build.after.regions ∧
      List.Forall₂ b.build.Moves b.build.untouched images := by
  have each : ∀ r ∈ b.build.untouched, ∃ image ∈ b.current.regions, b.build.Moves r image := by
    intro r member
    obtain ⟨index, block, target, -, rfl, survives⟩ := survives_of_mem_untouched made quiet member
    exact moves_of_survives (List.mem_filter.mp member).1 survives
  obtain ⟨images, included, moves⟩ := exists_forall₂ each
  refine ⟨images, ?_, moves⟩
  have starts : images.map CodeRegion.start =
      b.build.untouched.map fun r => b.mapping.map r.start .after := by
    rw [← List.forall₂_eq_eq_eq, List.forall₂_map_left_iff, List.forall₂_map_right_iff]
    exact moves.flip.imp fun image r moved => moved.start
  have ordered : images.Pairwise fun r s => r.start < s.start := by
    rw [← List.pairwise_map (R := (· < ·)), starts, List.pairwise_map]
    have apart : b.build.untouched.Pairwise fun r s => r.stop ≤ s.start :=
      b.before.regions_apart.filter _
    refine apart.imp_of_mem fun member member' behind => ?_
    obtain ⟨_, block, target, -, rfl, survives⟩ := survives_of_mem_untouched made quiet member
    obtain ⟨_, next, target', -, rfl, survives'⟩ := survives_of_mem_untouched made quiet member'
    exact Mapping.map_lt_of_carries made.bounded survives.carries survives'.carries
      block.2.size_pos behind
  have places : b.current.regions.Pairwise fun r s => r.start < s.start := by
    refine b.current.regions_apart.imp_of_mem fun member _ behind => ?_
    have size := Document.stop_of_mem_regions member
    omega
  exact sublist_of_ordered CodeRegion.start ordered places included

/-- The text of a code block is changed, another code block is inserted behind it, and a paragraph
is deleted. A nested code block and the last one are not touched by any of this. -/
theorem untouched_moves_nested : ∃ b : TransactionBuilder, b.Made ∧
    b.before.content = [.codeBlock { language := some "json" } "1", .blockquote [.codeBlock {} "b"],
      .paragraph "c", .codeBlock { theme := some "midnight" } "d"] ∧
    b.current.content = [.codeBlock { language := some "json" } "23", .codeBlock {} "n",
      .blockquote [.codeBlock {} "b"], .codeBlock { theme := some "midnight" } "d"] ∧
    b.build.untouched.map (fun r => (r.start, r.stop, r.text)) = [(4, 7, "b"), (11, 14, "d")] ∧
    (∀ s ∈ b.steps, s.isAttrWrite = false) ∧
    ∃ images, images.Sublist b.build.after.regions ∧
      List.Forall₂ b.build.Moves b.build.untouched images := by
  let start : TransactionBuilder :=
    .start ⟨[.codeBlock { language := some "json" } "1", .blockquote [.codeBlock {} "b"],
      .paragraph "c", .codeBlock { theme := some "midnight" } "d"], 1⟩ (.cursor 0)
  let changed : TransactionBuilder :=
    { start with
      current := ⟨[.codeBlock { language := some "json" } "23", .blockquote [.codeBlock {} "b"],
        .paragraph "c", .codeBlock { theme := some "midnight" } "d"], 2⟩
      steps := [.replace 1 2 "23"]
      mapping := ⟨[.single 1 1 2]⟩ }
  let longer : TransactionBuilder :=
    { changed with
      current := ⟨[.codeBlock { language := some "json" } "23", .codeBlock {} "n",
        .blockquote [.codeBlock {} "b"], .paragraph "c",
        .codeBlock { theme := some "midnight" } "d"], 3⟩
      steps := changed.steps ++ [.insertNode 4 (.codeBlock {} "n")]
      mapping := changed.mapping.push (.single 4 0 3) }
  let shorter : TransactionBuilder :=
    { longer with
      current := ⟨[.codeBlock { language := some "json" } "23", .codeBlock {} "n",
        .blockquote [.codeBlock {} "b"], .codeBlock { theme := some "midnight" } "d"], 4⟩
      steps := longer.steps ++ [.deleteNode 12]
      mapping := longer.mapping.push (.single 12 3 0) }
  have made : shorter.Made := by
    have begun : start.Made := .start (by decide +kernel) _
    have taken₁ : start.step 2 (.replace 1 2 "23") = .ok changed := rfl
    have taken₂ : changed.step 3 (.insertNode 4 (.codeBlock {} "n")) = .ok longer := rfl
    have taken₃ : longer.step 4 (.deleteNode 12) = .ok shorter := rfl
    have made₁ := begun.step taken₁ (by decide +kernel)
    have made₂ := made₁.step taken₂ (by decide +kernel)
    exact made₂.step taken₃ (by decide +kernel)
  have quiet : ∀ s ∈ shorter.steps, s.isAttrWrite = false := by
    simp [shorter, longer, changed, Step.isAttrWrite]
  exact ⟨shorter, made, rfl, rfl, by decide +kernel, quiet, untouched_moves made quiet⟩

end Transaction

end CodeTint
