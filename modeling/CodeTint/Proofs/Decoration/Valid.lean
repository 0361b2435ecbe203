import CodeTint.Proofs.Decoration.Computed

/-!
Decoration sets that can be shown with a document: sorted, and with no decoration that is empty or
reaches beyond the end. Main statements: the computed set is of this kind, and so is whatever a
mapping leads to, however the mapping was put together.
-/

set_option autoImplicit false
set_option relaxedAutoImplicit false

namespace CodeTint

structure DecorationSet.ValidFor (s : DecorationSet) (d : Document) : Prop where
  version : s.version = d.version
  sorted : s.decorations.Pairwise fun a b => a.start ≤ b.start
  within : ∀ a ∈ s.decorations, a.start < a.stop ∧ a.stop ≤ d.size

namespace Decoration

private theorem checked_eq_ok {size pos result : Nat} (h : checked size pos = .ok result) :
    result = pos ∧ pos ≤ size := by
  simp only [checked] at h
  split at h
  · simp at h
  · rename_i inside
    cases h
    exact ⟨rfl, Nat.not_lt.mp inside⟩

private theorem within_of_remap {m : Mapping} {size : Nat} {d carried : Decoration}
    (h : d.remap m size = .ok (some carried)) :
    carried.start < carried.stop ∧ carried.stop ≤ size := by
  simp only [remap] at h
  obtain ⟨start, first, h⟩ := bind_eq_ok_iff.mp h
  obtain ⟨stop, last, h⟩ := bind_eq_ok_iff.mp h
  obtain ⟨rfl, -⟩ := checked_eq_ok first
  obtain ⟨rfl, inside⟩ := checked_eq_ok last
  cases d with
  | inline _ _ shown span =>
    simp only [pure, Except.pure, Except.ok.injEq] at h
    split at h
    · simp at h
    · rename_i long
      cases h
      exact ⟨Nat.not_le.mp long, inside⟩
  | node _ _ shown =>
    simp only [pure, Except.pure, Except.ok.injEq] at h
    split at h
    · simp at h
    · rename_i kept
      cases h
      simp only [Bool.or_eq_true, decide_eq_true_eq, not_or] at kept
      exact ⟨Nat.not_le.mp kept.2, inside⟩

end Decoration

namespace DecorationSet

theorem sorted_ofList (version : Nat) (l : List Decoration) :
    (ofList version l).decorations.Pairwise fun a b => a.start ≤ b.start := by
  have sorted : (l.mergeSort fun a b => a.start ≤ b.start).Pairwise
      fun a b => (decide (a.start ≤ b.start)) = true :=
    List.pairwise_mergeSort (fun a b c => by simpa using Nat.le_trans)
      (fun a b => by simpa using Nat.le_total _ _) l
  exact sorted.imp fun le => of_decide_eq_true le

theorem ofList_of_sorted (version : Nat) {l : List Decoration}
    (sorted : l.Pairwise fun a b => a.start ≤ b.start) : ofList version l = ⟨version, l⟩ :=
  congrArg (mk version) (List.mergeSort_of_pairwise (sorted.imp fun le => decide_eq_true le))

private theorem validFor_ofList {d : Document} {l : List Decoration}
    (within : ∀ a ∈ l, a.start < a.stop ∧ a.stop ≤ d.size) : (ofList d.version l).ValidFor d where
  version := rfl
  sorted := sorted_ofList _ l
  within a member := within a (List.mem_mergeSort.mp member)

theorem validFor_of_remap {s carried : DecorationSet} {m : Mapping} {target : Document}
    (h : s.remap m target = .ok carried) : carried.ValidFor target := by
  simp only [remap] at h
  obtain ⟨kept, each, h⟩ := bind_eq_ok_iff.mp h
  cases h
  refine validFor_ofList fun a member => ?_
  obtain ⟨found, inside, rfl⟩ := List.mem_filterMap.mp member
  obtain ⟨_, _, result⟩ := exists_of_mem_mapM each _ inside
  exact Decoration.within_of_remap result

end DecorationSet

theorem Document.validFor_decorate (d : Document) (c : Cache) (config : Config) :
    (d.decorate c config).ValidFor d :=
  DecorationSet.validFor_ofList fun _ member => (d.within_of_mem_decorationsIn c config member).2

end CodeTint
