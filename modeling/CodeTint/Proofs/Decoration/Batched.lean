import CodeTint.Proofs.Decoration.Remapped
import CodeTint.Proofs.Position.Carry

/-!
Edits that reach a set of decorations in one batch or in two. A chain of maps remembers that it took
away an end of a node decoration, and a set that was carried does not. Main statement: in two
batches the same decorations are left at the same places, and besides them those node decorations
of which either batch took one end only.
-/

set_option autoImplicit false
set_option relaxedAutoImplicit false

namespace CodeTint

namespace Decoration

variable {m₁ m₂ : Mapping}

def outlivesInTurn (m₁ m₂ : Mapping) (d : Decoration) : Bool :=
  d.outlives m₁ && (d.image m₁).outlives m₂

/-- A decoration of a node of which one mapping takes away one end, and the next one the other. -/
def torn (m₁ m₂ : Mapping) (d : Decoration) : Bool :=
  !d.isInline &&
    ((m₁.place d.start .after).deleted &&
        (m₂.place (m₁.map d.stop .before) .before).deleted ||
      (m₁.place d.stop .before).deleted &&
        (m₂.place (m₁.map d.start .after) .after).deleted)

private theorem image_append (m₁ m₂ : Mapping) (d : Decoration) :
    d.image (m₁ ++ m₂) = (d.image m₁).image m₂ := by
  cases d <;> simp [image, Mapping.map, Mapping.place_append]

private theorem outlives_append (ordered : ∀ step ∈ m₂.maps, step.Ordered)
    (uncut : ∀ step ∈ m₂.maps, step.Uncut) (d : Decoration) :
    d.outlives (m₁ ++ m₂) = (d.outlivesInTurn m₁ m₂ && !d.torn m₁ m₂) := by
  have image := d.isImage_image m₁
  have first : (m₁ ++ m₂).map d.start .after = m₂.map (m₁.map d.start .after) .after := by
    rw [Mapping.map, Mapping.place_append]
  have last : (m₁ ++ m₂).map d.stop .before = m₂.map (m₁.map d.stop .before) .before := by
    rw [Mapping.map, Mapping.place_append]
  simp only [outlivesInTurn, torn, outlives, first, last, image.start, image.stop, image.kind,
    Mapping.place_append]
  by_cases apart : m₂.map (m₁.map d.start .after) .after < m₂.map (m₁.map d.stop .before) .before
  · have between : m₁.map d.start .after < m₁.map d.stop .before := by
      refine Nat.not_le.mp fun met => Nat.not_le.mpr apart ?_
      exact m₂.map_le_map_of_uncut ordered uncut met fun _ => rfl
    have gone : ∀ start start' stop stop' : Bool,
        (!((start || start') && (stop || stop'))) =
          (!(start && stop) && !(start' && stop') && !(start && stop' || stop && start')) := by
      decide
    simp only [apart, between, decide_true, Bool.true_and]
    cases d.isInline with
    | true => rfl
    | false => exact gone _ _ _ _
  · simp [apart]

end Decoration

namespace DecorationSet

open Decoration

variable {version : Nat} {l : List Decoration} {m m₁ m₂ : Mapping} {d₁ d₂ target : Document}
  {s carried first twice once : DecorationSet}

private theorem decorations_of_remap (ordered : ∀ step ∈ m.maps, step.Ordered)
    (uncut : ∀ step ∈ m.maps, step.Uncut)
    (sorted : s.decorations.Pairwise fun a b => a.start ≤ b.start)
    (done : s.remap m target = .ok carried) :
    carried.decorations = (s.decorations.filter (·.outlives m)).map (·.image m) := by
  obtain ⟨-, rfl⟩ := remap_eq_ok_iff.mp done
  exact decorations_ofList_image target.version ordered uncut sorted

/-- The decorations of a set of which two mappings, one after the other, leave something. -/
def leftInTurn (s : DecorationSet) (m₁ m₂ : Mapping) : List Decoration :=
  s.decorations.filter (·.outlivesInTurn m₁ m₂)

private theorem decorations_of_remap_remap (ordered₁ : ∀ step ∈ m₁.maps, step.Ordered)
    (uncut₁ : ∀ step ∈ m₁.maps, step.Uncut) (ordered₂ : ∀ step ∈ m₂.maps, step.Ordered)
    (uncut₂ : ∀ step ∈ m₂.maps, step.Uncut)
    (sorted : s.decorations.Pairwise fun a b => a.start ≤ b.start)
    (one : s.remap m₁ d₁ = .ok first) (two : first.remap m₂ d₂ = .ok twice) :
    twice.decorations = (s.leftInTurn m₁ m₂).map (·.image (m₁ ++ m₂)) := by
  rw [decorations_of_remap ordered₂ uncut₂ (validFor_of_remap one).sorted two,
    decorations_of_remap ordered₁ uncut₁ sorted one, List.filter_map, List.map_map,
    List.filter_filter, leftInTurn]
  simp only [Function.comp_def, image_append, outlivesInTurn, Bool.and_comm]

private theorem filter_outlives_append (ordered : ∀ step ∈ m₂.maps, step.Ordered)
    (uncut : ∀ step ∈ m₂.maps, step.Uncut) : s.decorations.filter (·.outlives (m₁ ++ m₂)) =
      (s.leftInTurn m₁ m₂).filter (!·.torn m₁ m₂) := by
  rw [leftInTurn, List.filter_filter]
  refine List.filter_congr fun d _ => ?_
  rw [outlives_append ordered uncut, Bool.and_comm]

private theorem filter_isInline_torn (l : List Decoration) :
    (l.filter (!·.torn m₁ m₂)).filter (·.isInline) = l.filter (·.isInline) := by
  rw [List.filter_filter]
  refine List.filter_congr fun d _ => ?_
  cases run : d.isInline <;> simp [torn, run]

/-- A set that is carried in one batch or in two, through maps that keep the order of positions. The
same decorations are left at the same places, except that one batch drops those decorations of nodes
of which the two batches took away an end each. So styled runs are always the same. -/
theorem remap_batched (ordered : ∀ step ∈ (m₁ ++ m₂).maps, step.Ordered)
    (uncut : ∀ step ∈ (m₁ ++ m₂).maps, step.Uncut)
    (one : (ofList version l).remap m₁ d₁ = .ok first) (two : first.remap m₂ d₂ = .ok twice)
    (whole : (ofList version l).remap (m₁ ++ m₂) d₂ = .ok once) :
    twice.decorations = ((ofList version l).leftInTurn m₁ m₂).map (·.image (m₁ ++ m₂)) ∧
      once.decorations = (((ofList version l).leftInTurn m₁ m₂).filter (!·.torn m₁ m₂)).map
        (·.image (m₁ ++ m₂)) ∧
      once.inlines = twice.inlines ∧
      (once.same twice = true ↔
        ∀ d ∈ (ofList version l).leftInTurn m₁ m₂, d.torn m₁ m₂ = false) := by
  have sorted := sorted_ofList version l
  obtain ⟨ordered₁, ordered₂⟩ := List.forall_mem_append.mp ordered
  obtain ⟨uncut₁, uncut₂⟩ := List.forall_mem_append.mp uncut
  have inTwo := decorations_of_remap_remap ordered₁ uncut₁ ordered₂ uncut₂ sorted one two
  have inOne := decorations_of_remap ordered uncut sorted whole
  rw [filter_outlives_append ordered₂ uncut₂] at inOne
  refine ⟨inTwo, inOne, ?_, ?_⟩
  · rw [inlines, inlines, inOne, inTwo, filter_isInline_map_image, filter_isInline_map_image,
      filter_isInline_torn]
  · rw [same, decide_eq_true_eq, inOne, inTwo]
    constructor
    · -- Images of different decorations may be equal, but not those of fewer and of more.
      intro equal
      have lengths := congrArg List.length equal
      rw [List.length_map, List.length_map] at lengths
      simpa using List.length_filter_eq_length_iff.mp lengths
    · intro whole
      rw [List.filter_eq_self.mpr fun d member => by simp [whole d member]]

/-! Two deletions that take away one end each of a node, and between them a piece of another one. -/

namespace Halves

def shown : List Decoration := [.node 5 15 {}, .inline 6 14 {} {}, .node 16 20 {}]

def opening : Mapping := ⟨[.single 3 5 0]⟩

def closing : Mapping := ⟨[.single 8 4 0]⟩

def between : Document := ⟨[.paragraph "0123456789abcd"], 2⟩

def paragraph : Document := ⟨[.paragraph "0123456789"], 3⟩

def shownBetween : List Decoration := [.node 3 10 {}, .inline 3 9 {} {}, .node 11 15 {}]

def shownInTwo : List Decoration := [.node 3 8 {}, .inline 3 8 {} {}, .node 8 11 {}]

def shownInOne : List Decoration := [.inline 3 8 {} {}, .node 8 11 {}]

private theorem remap_opening : (ofList 1 shown).remap opening between = .ok ⟨2, shownBetween⟩ := by
  rw [ofList_of_sorted 1 (by decide)]
  exact remap_of_sorted (by decide +kernel) (by decide +kernel) (by decide)

private theorem remap_closing : remap ⟨2, shownBetween⟩ closing paragraph = .ok ⟨3, shownInTwo⟩ :=
  remap_of_sorted (by decide +kernel) (by decide +kernel) (by decide)

private theorem remap_both :
    (ofList 1 shown).remap (opening ++ closing) paragraph = .ok ⟨3, shownInOne⟩ := by
  rw [ofList_of_sorted 1 (by decide)]
  exact remap_of_sorted (by decide +kernel) (by decide +kernel) (by decide)

private theorem ordered_both : ∀ step ∈ (opening ++ closing).maps, step.Ordered := by decide +kernel

private theorem uncut_both : ∀ step ∈ (opening ++ closing).maps, step.Uncut := by decide +kernel

theorem remap_batched_halves :
    (∀ step ∈ (opening ++ closing).maps, step.Ordered) ∧
      (∀ step ∈ (opening ++ closing).maps, step.Uncut) ∧
      (ofList 1 shown).remap opening between = .ok ⟨2, shownBetween⟩ ∧
      remap ⟨2, shownBetween⟩ closing paragraph = .ok ⟨3, shownInTwo⟩ ∧
      (ofList 1 shown).remap (opening ++ closing) paragraph = .ok ⟨3, shownInOne⟩ ∧
    shownInTwo = ((ofList 1 shown).leftInTurn opening closing).map
        (·.image (opening ++ closing)) ∧
      shownInOne = (((ofList 1 shown).leftInTurn opening closing).filter
        (!·.torn opening closing)).map (·.image (opening ++ closing)) ∧
      inlines ⟨3, shownInOne⟩ = inlines ⟨3, shownInTwo⟩ ∧
      ∃ d ∈ (ofList 1 shown).leftInTurn opening closing, d.torn opening closing = true := by
  obtain ⟨inTwo, inOne, runs, whole⟩ :=
    remap_batched ordered_both uncut_both remap_opening remap_closing remap_both
  have differ : ¬same ⟨3, shownInOne⟩ ⟨3, shownInTwo⟩ = true := by decide
  refine ⟨ordered_both, uncut_both, remap_opening, remap_closing, remap_both, inTwo, inOne, runs,
    ?_⟩
  simpa using mt whole.mpr differ

/-- Two batches may leave more than one. -/
theorem not_same_batched : ¬∀ (version : Nat) (l : List Decoration) (m₁ m₂ : Mapping)
    (d₁ d₂ : Document) (first twice once : DecorationSet),
    (∀ step ∈ (m₁ ++ m₂).maps, step.Ordered) → (∀ step ∈ (m₁ ++ m₂).maps, step.Uncut) →
      (ofList version l).remap m₁ d₁ = .ok first → first.remap m₂ d₂ = .ok twice →
      (ofList version l).remap (m₁ ++ m₂) d₂ = .ok once → once.same twice = true := by
  intro always
  have same := always 1 shown opening closing between paragraph _ _ _ ordered_both uncut_both
    remap_opening remap_closing remap_both
  exact absurd same (by decide)

end Halves

end DecorationSet

end CodeTint
