import CodeTint.Document.Reader
import CodeTint.Proofs.Attempt
import CodeTint.Proofs.Json.Accepted

/-!
How much fuel it takes to read a node from a value. Main statement: a value that is read as a node
with some fuel is read as the same node with any fuel that its size allows.
-/

set_option autoImplicit false
set_option relaxedAutoImplicit false

namespace CodeTint

open Json (Value ReadError)

namespace Json.Value

private theorem size_pos (v : Value) : 0 < v.size := by
  cases v <;> simp [size]

theorem size_le_sizes {v : Value} {vs : List Value} (inside : v ∈ vs) : v.size ≤ sizes vs := by
  induction vs with
  | nil => cases inside
  | cons w vs ih =>
    rw [sizes]
    rcases List.mem_cons.mp inside with rfl | inside
    · exact Nat.le_add_right _ _
    · have later := ih inside
      omega

theorem size_le_memberSizes {m : String × Value} {ms : List (String × Value)} (inside : m ∈ ms) :
    m.2.size ≤ memberSizes ms := by
  induction ms with
  | nil => cases inside
  | cons w ms ih =>
    rw [memberSizes]
    rcases List.mem_cons.mp inside with rfl | inside
    · exact Nat.le_add_right _ _
    · have later := ih inside
      omega

theorem memberSizes_filter_le (p : String × Value → Bool) (ms : List (String × Value)) :
    memberSizes (ms.filter p) ≤ memberSizes ms := by
  induction ms with
  | nil => exact Nat.le_refl _
  | cons m ms ih =>
    rw [List.filter_cons, memberSizes]
    split
    · rw [memberSizes]
      omega
    · omega

end Json.Value

namespace Node

section Fields

variable {σ : Type} {known : List String} {put put' : σ → String → Value → Except ReadError σ}
  {start s : σ}

private theorem fieldsOf_of_imp {members : List (String × Value)}
    (same : ∀ m ∈ members, ∀ s t, put s m.1 m.2 = .ok t → put' s m.1 m.2 = .ok t)
    (own : fieldsOf known put start members = .ok s) :
    fieldsOf known put' start members = .ok s := by
  unfold fieldsOf at own ⊢
  dsimp only at own ⊢
  rw [bind_eq_ok_iff] at own ⊢
  obtain ⟨last, run, own⟩ := own
  refine ⟨last, foldlM_eq_ok_of_imp ?_ run, own⟩
  intro m inside acc next step
  split at step
  · next isKnown =>
    rw [if_pos isKnown]
    split at step
    · cases step
    · next once =>
      rw [if_neg once]
      rw [bind_eq_ok_iff] at step ⊢
      obtain ⟨t, done, step⟩ := step
      exact ⟨t, same m inside _ t done, step⟩
  · next unknown =>
    rw [if_neg unknown]
    exact step

private theorem elementsOf_of_imp {items : List Value}
    (same : ∀ v ∈ items, ∀ name s t, put s name v = .ok t → put' s name v = .ok t)
    (own : elementsOf known put start items = .ok s) :
    elementsOf known put' start items = .ok s := by
  unfold elementsOf at own ⊢
  rw [bind_eq_ok_iff] at own ⊢
  obtain ⟨last, run, own⟩ := own
  refine ⟨last, foldlM_eq_ok_of_imp ?_ run, own⟩
  rintro ⟨name, v⟩ inside s t step
  exact same v (List.of_mem_zip inside).2 name s t step

end Fields

private theorem splitKind_ok {kindOf : Value → Except ReadError NodeKind}
    {members : List (String × Value)}
    {kind : NodeKind} {others : List (String × Value)}
    (own : splitKind kindOf members = .ok (kind, others)) :
    others = members.filter fun m => m.1 != "type" := by
  unfold splitKind at own
  dsimp only at own
  rw [bind_eq_ok_iff] at own
  obtain ⟨found, -, own⟩ := own
  cases found with
  | none => cases own
  | some k =>
    cases own
    rfl

-- From a value to the values in it fuel is spent for the node, its members, the field, the list
-- and the place in the list, so that four for each value are enough.
mutual

theorem ofMembers_enough {fuel m : Nat} {kind : NodeKind} {members : List (String × Value)}
    {n : Node} (own : ofMembers fuel kind members = .ok n)
    (enough : 4 * Value.memberSizes members + 1 ≤ m) : ofMembers m kind members = .ok n := by
  cases fuel with
  | zero => rw [ofMembers] at own; cases own
  | succ fuel =>
    obtain ⟨m, rfl⟩ : ∃ k, m = k + 1 := ⟨m - 1, by omega⟩
    rw [ofMembers, bind_eq_ok_iff] at own ⊢
    obtain ⟨fields, run, own⟩ := own
    refine ⟨fields, fieldsOf_of_imp ?_ run, own⟩
    intro member inside f g put
    have small := Value.size_le_memberSizes inside
    exact putField_enough put (by omega)

theorem ofElements_enough {fuel m : Nat} {kind : NodeKind} {items : List Value} {n : Node}
    (own : ofElements fuel kind items = .ok n) (enough : 4 * Value.sizes items + 1 ≤ m) :
    ofElements m kind items = .ok n := by
  cases fuel with
  | zero => rw [ofElements] at own; cases own
  | succ fuel =>
    obtain ⟨m, rfl⟩ : ∃ k, m = k + 1 := ⟨m - 1, by omega⟩
    rw [ofElements, bind_eq_ok_iff] at own ⊢
    obtain ⟨fields, run, own⟩ := own
    refine ⟨fields, elementsOf_of_imp ?_ run, own⟩
    intro v inside name f g put
    have small := Value.size_le_sizes inside
    exact putField_enough put (by omega)

private theorem putField_enough {fuel m : Nat} {f g : Fields} {name : String} {v : Value}
    (own : putField fuel f name v = .ok g) (enough : 4 * v.size ≤ m) :
    putField m f name v = .ok g := by
  have some := v.size_pos
  cases fuel with
  | zero => rw [putField] at own; cases own
  | succ fuel =>
    obtain ⟨m, rfl⟩ : ∃ k, m = k + 1 := ⟨m - 1, by omega⟩
    unfold putField at own
    split at own
    · exact own
    · exact own
    · exact own
    · next text level attrs =>
      cases v with
      | array items =>
        rw [Value.size] at enough
        dsimp only at own
        rw [bind_eq_ok_iff] at own
        obtain ⟨content, values, own⟩ := own
        unfold putField
        split
        · exact absurd rfl text
        · exact absurd rfl level
        · exact absurd rfl attrs
        · dsimp only
          rw [ofValues_enough values (by omega)]
          exact own
      | _ => cases own

private theorem ofValue_enough {fuel m : Nat} {v : Value} {n : Node} (own : ofValue fuel v = .ok n)
    (enough : 4 * v.size ≤ m + 1) : ofValue m v = .ok n := by
  have some := v.size_pos
  cases fuel with
  | zero => rw [ofValue] at own; cases own
  | succ fuel =>
    obtain ⟨m, rfl⟩ : ∃ k, m = k + 1 := ⟨m - 1, by omega⟩
    unfold ofValue at own ⊢
    cases v with
    | object members =>
      rw [Value.size] at enough
      dsimp only at own ⊢
      rw [bind_eq_ok_iff] at own ⊢
      obtain ⟨⟨kind, others⟩, split, own⟩ := own
      have fewer : Value.memberSizes others ≤ Value.memberSizes members := by
        rw [splitKind_ok split]
        exact Value.memberSizes_filter_le _ _
      refine ⟨(kind, others), split, ofMembers_enough own ?_⟩
      dsimp only
      omega
    | array items =>
      cases items with
      | nil => cases own
      | cons k items =>
        rw [Value.size, Value.sizes] at enough
        dsimp only at own ⊢
        rw [bind_eq_ok_iff] at own ⊢
        obtain ⟨kind, named, own⟩ := own
        have first := k.size_pos
        exact ⟨kind, named, ofElements_enough own (by omega)⟩
    | _ => exact own

private theorem ofValues_enough {fuel m : Nat} {vs : List Value} {ns : List Node}
    (own : ofValues fuel vs = .ok ns) (enough : 4 * Value.sizes vs ≤ m) :
    ofValues m vs = .ok ns := by
  cases vs with
  | nil =>
    rw [ofValues] at own ⊢
    exact own
  | cons v vs =>
    have some := v.size_pos
    rw [Value.sizes] at enough
    cases fuel with
    | zero => rw [ofValues] at own; cases own
    | succ fuel =>
      obtain ⟨m, rfl⟩ : ∃ k, m = k + 1 := ⟨m - 1, by omega⟩
      rw [ofValues] at own ⊢
      simp only [bind_eq_ok_iff] at own ⊢
      obtain ⟨n, first, ns', later, own⟩ := own
      exact ⟨n, ofValue_enough first (by omega), ns', ofValues_enough later (by omega), own⟩

end

end Node

end CodeTint
