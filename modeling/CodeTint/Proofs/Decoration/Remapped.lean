import CodeTint.Proofs.Decoration.Valid
import CodeTint.Proofs.Position.Uncut

/-!
What a mapping makes of a set of decorations. It is refused just if an end of some decoration goes
to a position that the new document does not have; else the decorations that are left follow each
other as before. Main statement: if the ranges of the mapping lie from left to right and are counted
in full, the sorting at the end moves none of them, and styled runs that did not overlap do not
overlap afterwards.
-/

set_option autoImplicit false
set_option relaxedAutoImplicit false

namespace CodeTint

namespace Decoration

/-- A decoration with its ends where a mapping puts them; what is inserted at an end stays
outside. -/
def image (m : Mapping) : Decoration → Decoration
  | inline start stop shown span => inline (m.map start .after) (m.map stop .before) shown span
  | node start stop shown => node (m.map start .after) (m.map stop .before) shown

/-- Something of a decoration is left: its ends are still apart, and unless it is a styled run, one
of them was not inside of what is gone. -/
def outlives (m : Mapping) (d : Decoration) : Bool :=
  m.map d.start .after < m.map d.stop .before &&
    (d.isInline || !((m.place d.start .after).deleted && (m.place d.stop .before).deleted))

def Lands (m : Mapping) (size : Nat) (d : Decoration) : Prop :=
  m.map d.start .after ≤ size ∧ m.map d.stop .before ≤ size

instance (m : Mapping) (size : Nat) (d : Decoration) : Decidable (d.Lands m size) :=
  inferInstanceAs (Decidable (_ ∧ _))

/-- Two decorations have no position in common. -/
def Apart (a b : Decoration) : Prop := a.stop ≤ b.start ∨ b.stop ≤ a.start

instance (a b : Decoration) : Decidable (a.Apart b) := inferInstanceAs (Decidable (_ ∨ _))

/-- A decoration is another one with its ends where a mapping puts them, and nothing else
changed. -/
structure IsImage (m : Mapping) (d result : Decoration) : Prop where
  start : result.start = m.map d.start .after
  stop : result.stop = m.map d.stop .before
  kind : result.isInline = d.isInline
  shown : result.shown = d.shown
  span : result.span? = d.span?

variable {m : Mapping} {size : Nat} {d : Decoration}

theorem isImage_image (m : Mapping) (d : Decoration) : IsImage m d (d.image m) := by
  cases d with
  | inline start stop shown span => exact ⟨rfl, rfl, rfl, rfl, rfl⟩
  | node start stop shown => exact ⟨rfl, rfl, rfl, rfl, rfl⟩

private theorem outlives_iff : d.outlives m = true ↔ m.map d.start .after < m.map d.stop .before ∧
    (d.isInline = true ∨
      ((m.place d.start .after).deleted && (m.place d.stop .before).deleted) = false) := by
  simp only [outlives, Bool.and_eq_true, decide_eq_true_eq, Bool.or_eq_true, Bool.not_eq_true']

theorem remap_of_lands (lands : d.Lands m size) :
    d.remap m size = .ok (if d.outlives m then some (d.image m) else none) := by
  have first : ¬size < (m.place d.start .after).pos := Nat.not_lt.mpr lands.1
  have last : ¬size < (m.place d.stop .before).pos := Nat.not_lt.mpr lands.2
  simp only [remap, checked, if_neg first, if_neg last]
  show Except.ok _ = _
  congr 1
  cases d with
  | inline start stop shown span =>
    by_cases collapsed : m.map stop .before ≤ m.map start .after
    · rw [if_neg fun left => Nat.not_lt.mpr collapsed (outlives_iff.mp left).1]
      exact if_pos collapsed
    · rw [if_pos (outlives_iff.mpr ⟨Nat.not_le.mp collapsed, .inl rfl⟩)]
      exact if_neg collapsed
  | node start stop shown =>
    cases gone : (m.place start .after).deleted && (m.place stop .before).deleted with
    | true =>
      rw [if_neg fun left => ?_]
      · exact if_pos ((Bool.or_eq_true _ _).mpr (.inl gone))
      · rcases (outlives_iff.mp left).2 with run | kept
        · cases run
        · exact Bool.noConfusion (gone.symm.trans kept)
    | false =>
      by_cases collapsed : m.map stop .before ≤ m.map start .after
      · rw [if_neg fun left => Nat.not_lt.mpr collapsed (outlives_iff.mp left).1]
        exact if_pos ((Bool.or_eq_true _ _).mpr (.inr (decide_eq_true collapsed)))
      · rw [if_pos (outlives_iff.mpr ⟨Nat.not_le.mp collapsed, .inr gone⟩)]
        refine if_neg fun dropped => ?_
        rcases (Bool.or_eq_true _ _).mp dropped with inside | met
        · exact Bool.noConfusion (gone.symm.trans inside)
        · exact collapsed (of_decide_eq_true met)

theorem remap_of_not_lands (beyond : ¬d.Lands m size) :
    ∃ pos, d.remap m size = .error ⟨pos, size⟩ ∧ size < pos := by
  by_cases first : size < m.map d.start .after
  · refine ⟨m.map d.start .after, ?_, first⟩
    simp only [remap, checked, Mapping.map] at first ⊢
    rw [if_pos first]
    rfl
  · have last : size < m.map d.stop .before := by
      rw [Lands] at beyond
      omega
    refine ⟨m.map d.stop .before, ?_, last⟩
    simp only [remap, checked, Mapping.map] at first last ⊢
    rw [if_neg first, if_pos last]
    rfl

private theorem isImage_of_remap {result : Decoration} (h : d.remap m size = .ok (some result)) :
    IsImage m d result := by
  by_cases lands : d.Lands m size
  · rw [remap_of_lands lands] at h
    split at h
    · cases h
      exact isImage_image m d
    · cases h
  · obtain ⟨pos, refused, -⟩ := remap_of_not_lands lands
    rw [refused] at h
    cases h

private theorem outside_of_remap_insertion {p n : Nat} {result : Decoration}
    (h : d.remap ⟨[.single p 0 n]⟩ size = .ok (some result)) (touches : d.start = p ∨ d.stop = p)
    {i : Nat} (first : p ≤ i) (last : i < p + n) : ¬(result.start ≤ i ∧ i < result.stop) := by
  have image := isImage_of_remap h
  have bound : result.stop ≤ Position.limit := by
    rw [image.stop]
    exact PositionMap.placeFrom_le_limit 0 d.stop .before (PositionMap.single p 0 n).splices
  rintro ⟨begins, ends⟩
  have inside : p ≤ Position.limit := by omega
  obtain ⟨before, after⟩ := PositionMap.map_insertion inside (show 0 < n by omega)
  rcases touches with rfl | rfl
  · have start : result.start = Position.add d.start n := image.start.trans after
    rw [Position.add] at start
    omega
  · have last : result.stop = d.stop := image.stop.trans before
    omega

end Decoration

namespace DecorationSet

/-- No styled run of a set is empty, and no two of them overlap. -/
structure Spaced (s : DecorationSet) : Prop where
  nonempty : ∀ d ∈ s.inlines, d.start < d.stop
  apart : s.inlines.Pairwise Decoration.Apart

variable {s carried : DecorationSet} {m : Mapping} {target : Document}

theorem remap_of_lands (lands : ∀ d ∈ s.decorations, d.Lands m target.size) :
    s.remap m target =
      .ok (ofList target.version ((s.decorations.filter (·.outlives m)).map (·.image m))) := by
  have each := mapM_eq_ok fun d member => Decoration.remap_of_lands (lands d member)
  have left : (s.decorations.map fun d => if d.outlives m then some (d.image m) else none).filterMap
      id = (s.decorations.filter (·.outlives m)).map (·.image m) := by
    rw [List.filterMap_map, ← List.filterMap_eq_map, List.filterMap_filter]
    rfl
  rw [remap, each]
  exact congrArg (fun l => Except.ok (ofList target.version l)) left

theorem remap_of_not_lands {d : Decoration} (member : d ∈ s.decorations)
    (beyond : ¬d.Lands m target.size) :
    ∃ pos, s.remap m target = .error ⟨pos, target.size⟩ ∧ target.size < pos := by
  have each : ∀ l : List Decoration, d ∈ l →
      ∃ pos, l.mapM (·.remap m target.size) = .error ⟨pos, target.size⟩ ∧ target.size < pos := by
    intro l among
    induction l with
    | nil => exact absurd among List.not_mem_nil
    | cons a rest ih =>
      rw [List.mapM_cons]
      by_cases lands : a.Lands m target.size
      · have later : d ∈ rest := by
          rcases List.mem_cons.mp among with rfl | later
          · exact absurd lands beyond
          · exact later
        obtain ⟨pos, refused, further⟩ := ih later
        rw [Decoration.remap_of_lands lands, refused]
        exact ⟨pos, rfl, further⟩
      · obtain ⟨pos, refused, further⟩ := Decoration.remap_of_not_lands lands
        rw [refused]
        exact ⟨pos, rfl, further⟩
  obtain ⟨pos, refused, further⟩ := each s.decorations member
  rw [remap, refused]
  exact ⟨pos, rfl, further⟩

theorem remap_eq_ok_iff : s.remap m target = .ok carried ↔
    (∀ d ∈ s.decorations, d.Lands m target.size) ∧
      carried = ofList target.version ((s.decorations.filter (·.outlives m)).map (·.image m)) := by
  constructor
  · intro done
    have lands : ∀ d ∈ s.decorations, d.Lands m target.size := by
      intro d member
      refine Decidable.byContradiction fun beyond => ?_
      obtain ⟨pos, refused, -⟩ := remap_of_not_lands member beyond
      rw [refused] at done
      cases done
    refine ⟨lands, ?_⟩
    have carries := remap_of_lands lands
    rw [carries] at done
    exact (Except.ok.inj done).symm
  · rintro ⟨lands, rfl⟩
    exact remap_of_lands lands

theorem remap_of_sorted {result : List Decoration}
    (lands : ∀ d ∈ s.decorations, d.Lands m target.size)
    (images : (s.decorations.filter (·.outlives m)).map (·.image m) = result)
    (sorted : result.Pairwise fun a b => a.start ≤ b.start) :
    s.remap m target = .ok ⟨target.version, result⟩ := by
  rw [remap_of_lands lands, images, ofList_of_sorted _ sorted]

theorem filter_isInline_map_image (l : List Decoration) (m : Mapping) :
    (l.map (·.image m)).filter (·.isInline) = (l.filter (·.isInline)).map (·.image m) := by
  have kinds : ∀ d : Decoration, (d.image m).isInline = d.isInline := fun d =>
    (d.isImage_image m).kind
  rw [List.filter_map]
  simp only [Function.comp_def, kinds]

section Order

variable (version : Nat) {l : List Decoration} (ordered : ∀ step ∈ m.maps, step.Ordered)
  (uncut : ∀ step ∈ m.maps, step.Uncut)
include ordered uncut

theorem decorations_ofList_image (sorted : l.Pairwise fun a b => a.start ≤ b.start) :
    (ofList version ((l.filter (·.outlives m)).map (·.image m))).decorations =
      (l.filter (·.outlives m)).map (·.image m) := by
  rw [ofList_of_sorted]
  refine List.pairwise_map.mpr ((sorted.filter _).imp ?_)
  intro a b le
  rw [(a.isImage_image m).start, (b.isImage_image m).start]
  exact m.map_le_map_of_uncut ordered uncut le id

/-- Of runs that do not overlap the one that begins first ends first, so that their images do not
overlap either. -/
theorem Spaced.image {s : DecorationSet} (spaced : s.Spaced)
    (sorted : s.decorations.Pairwise fun a b => a.start ≤ b.start) :
    Spaced ⟨version, (s.decorations.filter (·.outlives m)).map (·.image m)⟩ := by
  have inlines : inlines ⟨version, (s.decorations.filter (·.outlives m)).map (·.image m)⟩ =
      (s.inlines.filter (·.outlives m)).map (·.image m) := by
    rw [DecorationSet.inlines, DecorationSet.inlines, filter_isInline_map_image,
      List.filter_filter, List.filter_filter]
    simp only [Bool.and_comm]
  constructor
  · rw [inlines]
    intro d member
    obtain ⟨a, among, rfl⟩ := List.mem_map.mp member
    have image := a.isImage_image m
    rw [image.start, image.stop]
    exact (Decoration.outlives_iff.mp (List.mem_filter.mp among).2).1
  · rw [inlines]
    refine List.pairwise_map.mpr (List.Pairwise.filter _ ?_)
    refine (spaced.apart.and (sorted.filter _)).imp_of_mem ?_
    rintro a b - member ⟨apart, le⟩
    have long := spaced.nonempty b member
    have before : a.stop ≤ b.start := by
      rcases apart with before | after
      · exact before
      · omega
    left
    rw [(a.isImage_image m).stop, (b.isImage_image m).start]
    exact m.map_le_map_of_uncut ordered uncut before fun _ => rfl

end Order

/-- A set whose styled runs are not empty and do not overlap, carried through maps that keep the
order of positions: the decorations that are left have the order that they had, are changed in
nothing but their ends, and their styled runs are again of this kind. What is inserted at an end of
a decoration is never shown by it. -/
theorem remap_in_order {version : Nat} {l : List Decoration} {m : Mapping} {target : Document}
    {carried : DecorationSet} (spaced : (ofList version l).Spaced)
    (ordered : ∀ step ∈ m.maps, step.Ordered) (uncut : ∀ step ∈ m.maps, step.Uncut)
    (done : (ofList version l).remap m target = .ok carried) :
    List.Forall₂ (Decoration.IsImage m) ((ofList version l).decorations.filter (·.outlives m))
        carried.decorations ∧
      carried.Spaced ∧
      ∀ p n size d result, Decoration.remap ⟨[.single p 0 n]⟩ size d = .ok (some result) →
        d.start = p ∨ d.stop = p → ∀ i, p ≤ i → i < p + n →
          ¬(result.start ≤ i ∧ i < result.stop) := by
  have sorted := sorted_ofList version l
  obtain ⟨-, rfl⟩ := remap_eq_ok_iff.mp done
  have order := decorations_ofList_image target.version ordered uncut sorted
  have apart := spaced.image target.version ordered uncut sorted
  rw [← order] at apart
  refine ⟨?_, apart, fun p n size d result shown touches i => d.outside_of_remap_insertion shown
    touches⟩
  rw [order, List.forall₂_map_right_iff, List.forall₂_same]
  exact fun d _ => d.isImage_image m

/-! Three runs that touch, of which a deletion takes the middle one and something of its neighbours;
then there are an insertion and a replacement where the two that are left meet. -/

namespace Neighbours

def runs : List Decoration :=
  [.node 2 10 {}, .inline 3 5 {} {}, .inline 5 7 {} {}, .inline 7 9 {} {}]

def edit : Mapping := ⟨[.single 4 3 0, ⟨[⟨3, 0, 2⟩, ⟨4, 1, 2⟩]⟩]⟩

def paragraph : Document := ⟨[.paragraph "0123456789"], 2⟩

def runsLeft : List Decoration := [.node 2 10 {}, .inline 5 6 {} {}, .inline 6 9 {} {}]

private theorem decorations_runs : (ofList 1 runs).decorations = runs := by
  rw [ofList_of_sorted 1 (by decide)]

private theorem spaced_runs : (ofList 1 runs).Spaced where
  nonempty := by
    rw [inlines, decorations_runs]
    decide
  apart := by
    rw [inlines, decorations_runs]
    decide

private theorem remap_runs : (ofList 1 runs).remap edit paragraph = .ok ⟨2, runsLeft⟩ := by
  rw [ofList_of_sorted 1 (by decide)]
  exact remap_of_sorted (by decide +kernel) (by decide +kernel) (by decide)

theorem remap_in_order_neighbours :
    (ofList 1 runs).Spaced ∧ (∀ step ∈ edit.maps, step.Ordered) ∧
      (∀ step ∈ edit.maps, step.Uncut) ∧
      (ofList 1 runs).remap edit paragraph = .ok ⟨2, runsLeft⟩ ∧
    List.Forall₂ (Decoration.IsImage edit) ((ofList 1 runs).decorations.filter (·.outlives edit))
        runsLeft ∧
      Spaced ⟨2, runsLeft⟩ ∧
      ∀ i, 5 ≤ i → i < 8 → ¬(3 ≤ i ∧ i < 5) := by
  have ordered : ∀ step ∈ edit.maps, step.Ordered := by decide +kernel
  have uncut : ∀ step ∈ edit.maps, step.Uncut := by decide +kernel
  obtain ⟨images, apart, outside⟩ := remap_in_order spaced_runs ordered uncut remap_runs
  have kept : Decoration.remap ⟨[.single 5 0 3]⟩ 12 (.inline 3 5 {} {}) =
      .ok (some (.inline 3 5 {} {})) := rfl
  exact ⟨spaced_runs, ordered, uncut, remap_runs, images, apart,
    outside 5 3 12 (.inline 3 5 {} {}) (.inline 3 5 {} {}) kept (.inr rfl)⟩

end Neighbours

end DecorationSet

end CodeTint
