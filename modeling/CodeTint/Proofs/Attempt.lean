import Mathlib.Data.List.Forall2

/-!
Attempts that may fail: what it takes for one to succeed that is made of others.
-/

set_option autoImplicit false
set_option relaxedAutoImplicit false

namespace CodeTint

theorem map_eq_ok_iff {ε α β : Type} {x : Except ε α} {f : α → β} {b : β} :
    x.map f = .ok b ↔ ∃ a, x = .ok a ∧ f a = b := by
  cases x <;> simp [Except.map]

theorem mapError_eq_ok_iff {ε δ α : Type} {x : Except ε α} {f : ε → δ} {a : α} :
    x.mapError f = .ok a ↔ x = .ok a := by
  cases x <;> simp [Except.mapError]

theorem bind_eq_ok_iff {ε α β : Type} {x : Except ε α} {f : α → Except ε β} {b : β} :
    x >>= f = .ok b ↔ ∃ a, x = .ok a ∧ f a = .ok b := by
  cases x <;> simp [bind, Except.bind]

theorem ok_bind {ε α β : Type} (a : α) (f : α → Except ε β) : Except.ok a >>= f = f a := rfl

theorem ite_bind_eq {ε α β : Type} {A B C : Prop} [Decidable A] [Decidable B] [Decidable C]
    {a : α} {b : β} {e : ε} {f : α → Except ε β} (both : C ↔ A ∧ B)
    (later : f a = if B then .ok b else .error e) :
    (if A then .ok a else .error e) >>= f = if C then .ok b else .error e := by
  by_cases first : A
  · rw [if_pos first, ok_bind, later]
    exact if_congr (by simp [both, first]) rfl rfl
  · rw [if_neg first, if_neg fun all => first (both.mp all).1]
    rfl

theorem option_mapM_eq_ok_iff {ε α β : Type} {f : α → Except ε β} {o : Option α}
    {result : Option β} : o.mapM f = .ok result ↔ Option.Rel (fun a b => f a = .ok b) o result := by
  cases o with
  | none => cases result <;> simp [pure, Except.pure]
  | some a =>
    rw [Option.mapM_some]
    cases own : f a <;> cases result <;> simp_all [Functor.map, Except.map]

theorem mapM_eq_ok_iff {ε α β : Type} {f : α → Except ε β} {l : List α} {results : List β} :
    l.mapM f = .ok results ↔ List.Forall₂ (fun a b => f a = .ok b) l results := by
  induction l generalizing results with
  | nil => simp [pure, Except.pure, eq_comm]
  | cons a rest ih =>
    rw [List.mapM_cons, bind_eq_ok_iff]
    simp only [bind_eq_ok_iff, ih, List.forall₂_cons_left_iff]
    constructor
    · rintro ⟨first, own, others, later, ⟨⟩⟩
      exact ⟨first, others, own, later, rfl⟩
    · rintro ⟨first, others, own, later, rfl⟩
      exact ⟨first, own, others, later, rfl⟩

theorem mapM_eq_ok {ε α β : Type} {f : α → Except ε β} {g : α → β} {l : List α}
    (h : ∀ a ∈ l, f a = .ok (g a)) : l.mapM f = .ok (l.map g) := by
  rw [mapM_eq_ok_iff, List.forall₂_map_right_iff, List.forall₂_same]
  exact h

/-- A run over a list that succeeds with one attempt for each step does so with another that gives
the same wherever the first one gives something. -/
theorem foldlM_eq_ok_of_imp {ε σ α : Type} {f g : σ → α → Except ε σ} {l : List α} {s t : σ}
    (same : ∀ a ∈ l, ∀ s t, f s a = .ok t → g s a = .ok t) (own : l.foldlM f s = .ok t) :
    l.foldlM g s = .ok t := by
  induction l generalizing s with
  | nil => exact own
  | cons a rest ih =>
    rw [List.foldlM_cons, bind_eq_ok_iff] at own ⊢
    obtain ⟨s', first, later⟩ := own
    refine ⟨s', same a List.mem_cons_self s s' first, ih ?_ later⟩
    intro b inside
    exact same b (List.mem_cons_of_mem a inside)

theorem exists_of_mem_mapM {ε α β : Type} {f : α → Except ε β} {l : List α} {results : List β}
    (h : l.mapM f = .ok results) : ∀ b ∈ results, ∃ a ∈ l, f a = .ok b := by
  have related := mapM_eq_ok_iff.mp h
  clear h
  induction related with
  | nil => simp
  | @cons a first rest others own _ ih =>
    intro b member
    rcases List.mem_cons.mp member with rfl | member
    · exact ⟨a, List.mem_cons_self, own⟩
    · obtain ⟨a', member', result⟩ := ih b member
      exact ⟨a', List.mem_cons_of_mem _ member', result⟩

end CodeTint
