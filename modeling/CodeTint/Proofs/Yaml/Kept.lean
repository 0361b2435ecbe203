import CodeTint.Proofs.Attempt
import CodeTint.Yaml.Scanner
import Mathlib.Tactic.SplitIfs

/-!
What the scanner never takes back. Main statement: tokens stay where they are once no key can be put
in before the end of them.
-/

set_option autoImplicit false
set_option relaxedAutoImplicit false

namespace CodeTint.Yaml.Scanner

def Ensures {α : Type} (P : α → Prop) (x : Except Error α) : Prop := ∀ a, x = .ok a → P a

namespace Ensures

variable {α β : Type} {P : α → Prop} {Q : β → Prop} {x : Except Error α}

private theorem ok {a : α} (h : P a) : Ensures P (.ok a) := by
  rintro _ ⟨⟩
  exact h

private theorem pure {a : α} (h : P a) : Ensures P (Pure.pure a) := Ensures.ok h

private theorem error (e : Error) : Ensures P (.error e) := by
  rintro _ ⟨⟩

private theorem throw (e : Error) : Ensures P (MonadExcept.throw e) := Ensures.error e

private theorem bind {f : α → Except Error β} (first : Ensures P x)
    (then_ : ∀ a, P a → Ensures Q (f a)) : Ensures Q (x >>= f) := by
  intro b h
  obtain ⟨a, own, later⟩ := bind_eq_ok_iff.mp h
  exact then_ a (first a own) b later

private theorem step {f : α → Except Error β} (then_ : ∀ a, Ensures Q (f a)) :
    Ensures Q (x >>= f) :=
  bind (P := fun _ => True) (fun _ _ => trivial) fun a _ => then_ a

private theorem ite {c : Prop} [Decidable c] {x y : Except Error α} (yes : Ensures P x)
    (no : Ensures P y) : Ensures P (if c then x else y) := by
  split
  · exact yes
  · exact no

end Ensures

/-- The tokens begin with these, and no key can be put in before the end of them. -/
structure Keeps (front : List Token) (s : Scanner) : Prop where
  tokens : front <+: s.tokens.toList
  keys : ∀ k ∈ s.keys, k.possible = true → front.length ≤ k.token

variable {front : List Token} {s : Scanner}

private theorem Keeps.of_eq (h : Keeps front s) {t : Scanner} (tokens : t.tokens = s.tokens)
    (keys : t.keys = s.keys) : Keeps front t :=
  ⟨tokens ▸ h.tokens, keys ▸ h.keys⟩

private theorem Keeps.push (h : Keeps front s) (t : Token) : Keeps front (s.push t) where
  tokens := by
    rw [Scanner.push, Array.toList_push]
    exact h.tokens.trans (List.prefix_append _ _)
  keys := h.keys

private theorem Keeps.insertToken (h : Keeps front s) {n : Nat} (later : front.length ≤ n)
    (t : Token) : Keeps front (s.insertToken n t) where
  tokens := by
    have before : front <+: s.tokens.toList.take n := by
      rw [List.prefix_take_iff]
      exact ⟨h.tokens, later⟩
    simpa [Scanner.insertToken] using before.trans (List.prefix_append _ _)
  keys := h.keys

private theorem Keeps.closeBlocks (h : Keeps front s) (column : Int) :
    Keeps front (s.closeBlocks column) := by
  unfold Scanner.closeBlocks
  split
  · exact ⟨by simpa using h.tokens.trans (List.prefix_append _ _), h.keys⟩
  · exact h

private theorem Keeps.openBlock (h : Keeps front s) (column : Nat) (place : Option Nat)
    (later : ∀ n ∈ place, front.length ≤ n) (t : Token) :
    Keeps front (s.openBlock column place t) := by
  unfold Scanner.openBlock
  split
  · have opened : Keeps front { s with indents := s.indent :: s.indents, indent := column } :=
      ⟨h.tokens, h.keys⟩
    cases place with
    | none => exact opened.push t
    | some n => exact opened.insertToken (later n rfl) t
  · exact h

private theorem keeps_dropKey (h : Keeps front s) : Ensures (Keeps front) s.dropKey := by
  unfold dropKey
  split
  · next k rest keys =>
    split
    · exact .error _
    · refine .ok ⟨h.tokens, ?_⟩
      intro k' member possible
      rcases List.mem_cons.mp member with rfl | member
      · cases possible
      · exact h.keys k' (by simp [keys, member]) possible
  · exact .ok h

private theorem keeps_saveKey (h : Keeps front s) : Ensures (Keeps front) s.saveKey := by
  unfold saveKey
  refine .ite ?_ (.ok h)
  refine (keeps_dropKey h).bind fun s' kept => .pure ⟨kept.tokens, ?_⟩
  intro k member possible
  rcases List.mem_cons.mp member with rfl | member
  · exact h.tokens.length_le
  · exact kept.keys k (List.mem_of_mem_drop member) possible

private theorem keeps_expireKeys (h : Keeps front s) : Ensures (Keeps front) s.expireKeys := by
  unfold expireKeys
  refine Ensures.bind (P := fun keys => ∀ k ∈ keys, k.possible = true → front.length ≤ k.token)
    ?_ fun keys kept => .pure ⟨h.tokens, kept⟩
  intro keys given k member possible
  obtain ⟨old, inside, own⟩ := exists_of_mem_mapM given k member
  split at own
  · split at own
    · cases own
    · cases own
      cases possible
  · cases own
    exact h.keys k inside possible

private theorem skipBlank_tokens (fuel : Nat) (s : Scanner) :
    (skipBlank fuel s).tokens = s.tokens ∧ (skipBlank fuel s).keys = s.keys := by
  induction fuel generalizing s with
  | zero => exact ⟨rfl, rfl⟩
  | succ fuel ih =>
    simp only [skipBlank]
    split_ifs
    all_goals first | exact ih _ | exact ⟨rfl, rfl⟩

private theorem Keeps.skipBlank (h : Keeps front s) (fuel : Nat) :
    Keeps front (skipBlank fuel s) := by
  obtain ⟨tokens, keys⟩ := skipBlank_tokens fuel s
  exact ⟨tokens ▸ h.tokens, keys ▸ h.keys⟩

/-! One lemma for each kind of token: what it reads does not matter, only that tokens are added at
the end. -/

private theorem keeps_fetchDirective (h : Keeps front s) :
    Ensures (Keeps front) s.fetchDirective := by
  unfold fetchDirective
  refine (keeps_dropKey (h.closeBlocks _)).bind fun s' kept => ?_
  dsimp only
  refine .ite (.throw _) ?_
  split
  · refine .step fun _ => .ite (.throw _) (.step fun _ => .step fun _ => .pure (.push ?_ _))
    exact kept.of_eq rfl rfl
  · refine .step fun _ => .ite (.throw _) (.step fun _ => .ite (.throw _) ?_)
    refine .step fun _ => .pure (.push ?_ _)
    exact kept.of_eq rfl rfl
  · exact .throw _

private theorem keeps_fetchName (h : Keeps front s) (make : String → Token) :
    Ensures (Keeps front) (s.fetchName make) := by
  unfold fetchName
  refine (keeps_saveKey h).bind fun s' kept => ?_
  dsimp only
  refine .ite (.throw _) (.pure (.push ?_ _))
  exact kept.of_eq rfl rfl

private theorem keeps_fetchBlockScalar (h : Keeps front s) (isLiteral : Bool) :
    Ensures (Keeps front) (s.fetchBlockScalar isLiteral) := by
  unfold fetchBlockScalar
  refine (keeps_dropKey h).bind fun s' kept => .step fun _ => .step fun _ => ?_
  refine .step fun _ => .step fun _ => .pure (.push ?_ _)
  exact kept.of_eq rfl rfl

private theorem keeps_fetchQuoted (h : Keeps front s) (single : Bool) :
    Ensures (Keeps front) (s.fetchQuoted single) := by
  unfold fetchQuoted
  refine (keeps_saveKey h).bind fun s' kept => .step fun _ => .pure (.push ?_ _)
  exact kept.of_eq rfl rfl

private theorem keeps_fetchPlain (h : Keeps front s) : Ensures (Keeps front) s.fetchPlain := by
  unfold fetchPlain
  refine (keeps_saveKey h).bind fun s' kept => .step fun _ => .pure (.push ?_ _)
  exact kept.of_eq rfl rfl

private theorem keeps_fetchEnd (h : Keeps front s) : Ensures (Keeps front) s.fetchEnd := by
  unfold fetchEnd
  refine (keeps_dropKey (h.closeBlocks _)).bind fun s' kept => .pure (.push ?_ _)
  exact kept.of_eq rfl rfl

private theorem keeps_fetchMarker (h : Keeps front s) (t : Token) :
    Ensures (Keeps front) (s.fetchMarker t) := by
  unfold fetchMarker
  refine (keeps_dropKey (h.closeBlocks _)).bind fun s' kept => .pure (.push ?_ _)
  exact kept.of_eq rfl rfl

private theorem keeps_fetchOpen (h : Keeps front s) (t : Token) :
    Ensures (Keeps front) (s.fetchOpen t) := by
  unfold fetchOpen
  refine (keeps_saveKey h).bind fun s' kept => .pure (.push ?_ _)
  refine ⟨kept.tokens, ?_⟩
  rintro k (_ | ⟨_, member⟩) possible
  · cases possible
  · exact kept.keys k member possible

private theorem keeps_fetchClose (h : Keeps front s) (t : Token) :
    Ensures (Keeps front) (s.fetchClose t) := by
  unfold fetchClose
  refine (keeps_dropKey h).bind fun s' kept => .pure (.push ?_ _)
  refine ⟨kept.tokens, ?_⟩
  intro k member
  dsimp only at member
  split at member
  · exact kept.keys k member
  · exact kept.keys k (List.mem_of_mem_drop member)

private theorem keeps_fetchComma (h : Keeps front s) : Ensures (Keeps front) s.fetchComma := by
  unfold fetchComma
  refine (keeps_dropKey h).bind fun s' kept => .pure (.push ?_ _)
  exact kept.of_eq rfl rfl

private theorem keeps_fetchDash (h : Keeps front s) : Ensures (Keeps front) s.fetchDash := by
  unfold fetchDash
  have opened := h.openBlock s.cursor.mark.column none (by simp) .blockSequenceStart
  refine .ite (.throw _) ((keeps_dropKey opened).bind fun s' kept => .pure (.push ?_ _))
  exact kept.of_eq rfl rfl

private theorem keeps_fetchKey (h : Keeps front s) : Ensures (Keeps front) s.fetchKey := by
  unfold fetchKey
  have opened := h.openBlock s.cursor.mark.column none (by simp) .blockMappingStart
  refine .ite (.throw _) ((keeps_dropKey opened).bind fun s' kept => .pure (.push ?_ _))
  exact kept.of_eq rfl rfl

private theorem keeps_fetchTag (h : Keeps front s) : Ensures (Keeps front) s.fetchTag := by
  unfold fetchTag
  refine (keeps_saveKey h).bind fun s' kept => ?_
  have finish (c : Cursor) (t : Token) :
      Keeps front ({ s' with cursor := c, keyAllowed := false }.push t) := by
    apply Keeps.push
    exact kept.of_eq rfl rfl
  dsimp only
  split
  · refine .step fun _ => .ite (.throw _) (.ite (.ok (finish _ _)) (.error _))
  · refine .step fun _ => .ite ?_ ?_
    · refine .step fun _ => .ite (.throw _) (.ite (.ok (finish _ _)) (.error _))
    · refine .step fun _ => .ite ?_ ?_
      all_goals exact .ite (.ok (finish _ _)) (.error _)

private theorem keeps_fetchValue (h : Keeps front s) : Ensures (Keeps front) s.fetchValue := by
  have unkeyed : Ensures (Keeps front) (do
      if s.flow == 0 && !s.keyAllowed then throw Error.key
      let s := s.openBlock s.cursor.mark.column none .blockMappingStart
      return { s with cursor := s.cursor.skip, keyAllowed := s.flow == 0 }.push .value) := by
    refine .ite (.throw _) (.pure (.push ?_ _))
    exact (h.openBlock s.cursor.mark.column none (by simp) .blockMappingStart).of_eq
      rfl rfl
  cases keys : s.keys with
  | nil =>
    simp only [fetchValue, keys]
    exact unkeyed
  | cons k rest =>
    simp only [fetchValue, keys]
    by_cases possible : k.possible = true
    · rw [if_pos possible]
      -- the key is put in where its scalar stands, which is behind the tokens so far
      have later := h.keys k (by simp [keys]) possible
      have opened := (h.insertToken later .key).openBlock k.mark.column (some k.token)
        (by simpa using later) .blockMappingStart
      refine .pure (.push ?_ _)
      refine ⟨opened.tokens, ?_⟩
      rintro k' (_ | ⟨_, member⟩) possible'
      · cases possible'
      · exact h.keys k' (keys ▸ List.mem_cons_of_mem _ member) possible'
    · rw [if_neg possible]
      exact unkeyed

private theorem keeps_fetch (h : Keeps front s) : Ensures (Keeps front) s.fetch := by
  unfold fetch
  refine (keeps_expireKeys (h.skipBlank _)).bind fun s' kept => ?_
  have h := kept.closeBlocks s'.cursor.mark.column
  dsimp only
  split
  · exact keeps_fetchEnd h
  refine .ite (keeps_fetchDirective h) ?_
  refine .ite (keeps_fetchMarker h _) (.ite (keeps_fetchMarker h _) ?_)
  refine .ite (keeps_fetchOpen h _) (.ite (keeps_fetchOpen h _) ?_)
  refine .ite (keeps_fetchClose h _) (.ite (keeps_fetchClose h _) (.ite (keeps_fetchComma h) ?_))
  refine .ite (keeps_fetchDash h) (.ite (keeps_fetchKey h) (.ite (keeps_fetchValue h) ?_))
  refine .ite (keeps_fetchName h _) (.ite (keeps_fetchName h _) (.ite (keeps_fetchTag h) ?_))
  refine .ite (keeps_fetchBlockScalar h _) (.ite (keeps_fetchBlockScalar h _) ?_)
  refine .ite (keeps_fetchQuoted h _) (.ite (keeps_fetchQuoted h _) ?_)
  exact .ite (keeps_fetchPlain h) (.throw _)

theorem keeps_run (h : Keeps front s) (fuel : Nat) : Ensures (Keeps front) (run fuel s) := by
  induction fuel generalizing s with
  | zero => exact .ok h
  | succ fuel ih =>
    rw [run]
    exact .ite (.ok h) ((keeps_fetch h).bind fun _ kept => ih kept)

end CodeTint.Yaml.Scanner
