import CodeTint.Proofs.Document.Region
import CodeTint.Proofs.Position.Retrace
import CodeTint.Proofs.Transaction.Step
import Mathlib.Data.List.Sort
import Mathlib.Tactic.ByContra

/-!
Transactions that a builder makes, and what they do to code blocks. Main statement: a code block
that no changed range touches is still there, with all that it holds, where the mapping carries it;
and if there are as many code blocks after as before, these are all of them.
-/

set_option autoImplicit false
set_option relaxedAutoImplicit false

namespace CodeTint

/-- A document whose positions the counting with 64 bits holds, as every document in the memory of
a machine does. -/
def Document.Fits (d : Document) : Prop := d.size ≤ Position.shiftLimit

instance (d : Document) : Decidable d.Fits := inferInstanceAs (Decidable (_ ≤ _))

/-- The builders that calls lead to, whatever the calls and their order. -/
inductive TransactionBuilder.Made : TransactionBuilder → Prop
  | start {d : Document} (fits : d.Fits) (selection : Selection) : Made (.start d selection)
  | step {b next : TransactionBuilder} {clock : Nat} {s : Step} (made : Made b)
      (taken : b.step clock s = .ok next) (fits : next.current.Fits) : Made next
  | select {b : TransactionBuilder} (made : Made b) (selection : Selection) :
      Made (b.select selection)
  | force {b : TransactionBuilder} (made : Made b) : Made b.force

/-- The builders that calls other than `force` lead to, if every step is one that `grants` allows of
the document that it is given. -/
inductive TransactionBuilder.Unforced (grants : Document → Step → Prop) : TransactionBuilder → Prop
  | start {d : Document} (fits : d.Fits) (selection : Selection) :
      Unforced grants (.start d selection)
  | step {b next : TransactionBuilder} {clock : Nat} {s : Step} (unforced : Unforced grants b)
      (granted : grants b.current s) (taken : b.step clock s = .ok next)
      (fits : next.current.Fits) : Unforced grants next
  | select {b : TransactionBuilder} (unforced : Unforced grants b) (selection : Selection) :
      Unforced grants (b.select selection)

theorem TransactionBuilder.Unforced.made {grants : Document → Step → Prop} {b : TransactionBuilder}
    (unforced : b.Unforced grants) : b.Made := by
  induction unforced with
  | start fits selection => exact .start fits selection
  | step _ _ taken fits ih => exact ih.step taken fits
  | select _ selection ih => exact ih.select selection

theorem TransactionBuilder.Unforced.forall_steps {grants : Document → Step → Prop}
    {b : TransactionBuilder} (unforced : b.Unforced grants) {p : Step → Prop}
    (each : ∀ d s, grants d s → p s) : ∀ s ∈ b.steps, p s := by
  induction unforced with
  | start _ _ => exact fun s member => absurd member List.not_mem_nil
  | step _ granted taken _ ih =>
    obtain ⟨content, map, -, rfl⟩ := step_eq_ok_iff.mp taken
    intro s member
    rcases List.mem_append.mp member with earlier | own
    · exact ih s earlier
    · rw [List.mem_singleton.mp own]
      exact each _ _ granted
  | select _ _ ih => exact ih

theorem TransactionBuilder.Unforced.forced_eq {grants : Document → Step → Prop}
    {b : TransactionBuilder} (unforced : b.Unforced grants) :
    b.forced = b.steps.any (·.isAttrWrite) := by
  induction unforced with
  | start _ _ => rfl
  | step _ _ taken _ ih =>
    obtain ⟨content, map, -, rfl⟩ := step_eq_ok_iff.mp taken
    simp [ih]
  | select _ _ ih => exact ih

/-- A transaction that a builder made, or a change of the selection alone. -/
inductive Transaction.Built : Transaction → Prop
  | build {b : TransactionBuilder} (made : b.Made) : Built b.build
  | select (d : Document) (old new : Selection) : Built (.select d old new)
  | force {t : Transaction} (built : Built t) : Built t.force

def Range.Meets (r : Range) (block : Nat × Node) : Prop :=
  r.start < block.1 + block.2.size ∧ block.1 < r.stop

theorem sublist_of_ordered {α : Type} (place : α → Nat) {l l' : List α}
    (ordered : l.Pairwise fun a b => place a < place b)
    (ordered' : l'.Pairwise fun a b => place a < place b) (included : l ⊆ l') : l.Sublist l' := by
  have distinct : l.Nodup :=
    ordered.imp fun lt same => absurd lt (by rw [same]; exact Nat.lt_irrefl _)
  have antisymm : Std.Antisymm fun a b => place a < place b :=
    ⟨fun a b lt gt => absurd gt (Nat.lt_asymm lt)⟩
  exact List.sublist_of_subperm_of_pairwise (List.subperm_of_subset distinct included) ordered
    ordered'

private theorem Step.Rewrites.spliced {old new : List Token} {map : PositionMap} {s : Step}
    (h : s.Rewrites old new map) (quiet : s.isAttrWrite = false) :
    ∃ start gone put, Spliced start gone put old new ∧
      map = .single start gone.length put.length := by
  cases s with
  | replace start stop text =>
    obtain ⟨ordered, rfl, gone, length, spliced⟩ := h
    refine ⟨start, _, _, spliced, ?_⟩
    rw [List.length_map, List.length_map, length, String.length_toList]
  | insertNode pos node =>
    obtain ⟨rfl, spliced⟩ := h
    exact ⟨pos, _, _, spliced, by rw [List.length_nil, Node.length_tokens]⟩
  | deleteNode pos =>
    obtain ⟨gone, rfl, spliced⟩ := h
    exact ⟨pos, _, _, spliced, by rw [List.length_nil, Node.length_tokens]⟩
  | setAttr pos attr value => simp [isAttrWrite] at quiet

/-- What a step does to the tokens as `f` shows them, if `f` shows no attribute that it writes. A
step that does nothing to them is as good as one at the very beginning. -/
theorem Step.Rewrites.spliced_map {old new : List Token} {map : PositionMap} {s : Step}
    (h : s.Rewrites old new map) {f : Token → Token}
    (blind : s.isAttrWrite = true →
      ∀ a b, f (.opening (.codeBlock a)) = f (.opening (.codeBlock b))) :
    ∃ start gone put, Spliced start gone put (old.map f) (new.map f) ∧
      map = .single start gone.length put.length ∧
      (map.splices = [⟨start, gone.length, put.length⟩] ∨ start + gone.length = 0) := by
  by_cases still : old.map f = new.map f ∧ map = .identity
  · obtain ⟨same, rfl⟩ := still
    rw [same]
    exact ⟨0, [], [], .nothing _, rfl, .inr rfl⟩
  · cases write : s.isAttrWrite with
    | true =>
      cases s with
      | setAttr pos attr value =>
        obtain ⟨rfl, attrs, left, right, -, rfl, rfl⟩ := h
        exact absurd ⟨by simp [blind write attrs (attrs.set attr value)], rfl⟩ still
      | _ => simp [isAttrWrite] at write
    | false =>
      obtain ⟨start, gone, put, spliced, rfl⟩ := h.spliced write
      refine ⟨start, gone.map f, put.map f, spliced.map f, by simp, .inl ?_⟩
      rw [PositionMap.single, if_neg, List.length_map, List.length_map]
      intro nothing
      obtain ⟨rfl, rfl⟩ : gone = [] ∧ put = [] :=
        ⟨List.length_eq_zero_iff.mp nothing.1, List.length_eq_zero_iff.mp nothing.2⟩
      obtain ⟨left, right, -, rfl, rfl⟩ := spliced
      exact still ⟨rfl, rfl⟩

namespace TransactionBuilder

/-- A run of tokens of the first document, as `f` shows them, where a chain of steps has carried
it. -/
structure Keeps (b : TransactionBuilder) (f : Token → Token) (start : Nat) (part : List Token)
    (target : Nat) : Prop where
  stands : Stands target part (b.current.tokens.map f)
  traces : b.mapping.Traces start part.length target

/-- A code block of the first document, where a chain of steps has carried it. -/
structure Survives (b : TransactionBuilder) (block : Nat × Node) (target : Nat) : Prop where
  member : (target, block.2) ∈ b.current.codeBlocks
  carries : Carries b.mapping.place block.1 block.2.size target
  back : ∀ i side, 0 < i → i < block.2.size →
    Mapping.carryBack b.mapping.maps (target + i) side = block.1 + i

namespace Made

variable {b : TransactionBuilder}

theorem fits (made : b.Made) : b.current.Fits := by
  induction made with
  | start fits _ => exact fits
  | step _ _ fits _ => exact fits
  | select _ _ ih => exact ih
  | force _ ih => exact ih

theorem before_fits (made : b.Made) : b.before.Fits := by
  induction made with
  | start fits _ => exact fits
  | step _ taken _ ih => exact before_of_step taken ▸ ih
  | select _ _ ih => exact ih
  | force _ ih => exact ih

theorem range_fits {b next : TransactionBuilder} {f : Token → Token} {start : Nat}
    {gone put : List Token}
    (spliced : Spliced start gone put (b.current.tokens.map f) (next.current.tokens.map f))
    (before : b.current.Fits) (after : next.current.Fits) :
    start + gone.length ≤ b.current.size ∧
      next.current.size = b.current.size - gone.length + put.length ∧
      start + gone.length ≤ Position.shiftLimit ∧ start + put.length ≤ Position.shiftLimit := by
  have old := spliced.stop_le
  obtain ⟨left, right, rfl, one, two⟩ := spliced
  have lengths := congrArg List.length one
  have lengths' := congrArg List.length two
  simp only [List.length_append, List.length_map, Document.length_tokens] at old lengths lengths'
  have bound : b.current.size ≤ Position.shiftLimit := before
  have bound' : next.current.size ≤ Position.shiftLimit := after
  omega

theorem map_fits {b next : TransactionBuilder} {clock : Nat} {s : Step}
    (taken : b.step clock s = .ok next) (before : b.current.Fits) (after : next.current.Fits) :
    ∃ start oldSize newSize, next.mapping = b.mapping.push (.single start oldSize newSize) ∧
      start + oldSize ≤ b.current.size ∧
      next.current.size = b.current.size - oldSize + newSize ∧
      start + oldSize ≤ Position.shiftLimit ∧ start + newSize ≤ Position.shiftLimit := by
  obtain ⟨content, map, applied, rfl⟩ := step_eq_ok_iff.mp taken
  -- attributes do not count for positions, so a view without any will do
  obtain ⟨start, gone, put, spliced, rfl, -⟩ :=
    (Step.rewrites_of_apply applied).spliced_map (f := fun _ => .rule) fun _ _ _ => rfl
  exact ⟨start, _, _, rfl, range_fits spliced before after⟩

theorem bounded (made : b.Made) : ∀ m ∈ b.mapping.maps, m.Bounded := by
  induction made with
  | start _ _ => simp [TransactionBuilder.start]
  | select _ _ ih => exact ih
  | force _ ih => exact ih
  | step made taken fits ih =>
    obtain ⟨start, oldSize, newSize, mapping, -, -, old, new⟩ := map_fits taken made.fits fits
    intro m member
    simp only [mapping, Mapping.push, List.mem_append, List.mem_singleton] at member
    rcases member with earlier | rfl
    · exact ih m earlier
    · exact ⟨start, _, _, rfl, old, new⟩

theorem length_maps (made : b.Made) : b.mapping.maps.length = b.steps.length := by
  induction made with
  | start _ _ => rfl
  | select _ _ ih => exact ih
  | force _ ih => exact ih
  | step _ taken _ ih =>
    obtain ⟨content, map, applied, rfl⟩ := step_eq_ok_iff.mp taken
    simp [Mapping.push, ih]

theorem forced_of_attrWrite (made : b.Made) {s : Step} (member : s ∈ b.steps)
    (write : s.isAttrWrite = true) : b.forced = true := by
  induction made with
  | start _ _ => simp [TransactionBuilder.start] at member
  | select _ _ ih => exact ih member
  | force _ _ => rfl
  | step _ taken _ ih =>
    obtain ⟨content, map, applied, rfl⟩ := step_eq_ok_iff.mp taken
    simp only [List.mem_append, List.mem_singleton] at member
    rcases member with earlier | rfl
    · simp [ih earlier]
    · simp [write]

end Made

section Survival

variable {b : TransactionBuilder} {f : Token → Token} {start middle : Nat} {part : List Token}

section Splice

variable {next : TransactionBuilder} (keeps : b.Keeps f start part middle) (made : b.Made)
  (fits : next.current.Fits) (nonempty : 0 < part.length) {at_ : Nat} {gone put : List Token}
  (spliced : Spliced at_ gone put (b.current.tokens.map f) (next.current.tokens.map f))
  (mapping : next.mapping = b.mapping.push (.single at_ gone.length put.length))
include keeps made fits nonempty spliced mapping

theorem Keeps.splice_before (before : middle + part.length ≤ at_) :
    next.Keeps f start part middle := by
  obtain ⟨-, -, old, new⟩ := Made.range_fits spliced made.fits fits
  refine ⟨spliced.stands_before keeps.stands before, ?_⟩
  rw [mapping]
  exact keeps.traces.push_before old new before nonempty

theorem Keeps.splice_behind (behind : at_ + gone.length ≤ middle) :
    next.Keeps f start part (middle - gone.length + put.length) := by
  obtain ⟨inside, length, old, new⟩ := Made.range_fits spliced made.fits fits
  have bound := keeps.stands.stop_le
  rw [List.length_map, Document.length_tokens] at bound
  have held : b.current.size ≤ Position.shiftLimit := made.fits
  have held' : next.current.size ≤ Position.shiftLimit := fits
  refine ⟨spliced.stands_after keeps.stands behind, ?_⟩
  rw [mapping]
  exact keeps.traces.push_behind old new behind nonempty (by omega) (by omega)

theorem Keeps.splice (apart : at_ + gone.length ≤ middle ∨ middle + part.length ≤ at_) :
    ∃ target, next.Keeps f start part target := by
  rcases apart with behind | before
  · exact ⟨_, keeps.splice_behind made fits nonempty spliced mapping behind⟩
  · exact ⟨_, keeps.splice_before made fits nonempty spliced mapping before⟩

end Splice

theorem Made.keeps (made : b.Made)
    (blind : ∀ s ∈ b.steps, s.isAttrWrite = true →
      ∀ a a', f (.opening (.codeBlock a)) = f (.opening (.codeBlock a')))
    (nonempty : 0 < part.length) (stands : Stands start part (b.before.tokens.map f))
    (clear : ∀ r ∈ b.mapping.ranges, ¬r.Cuts start part.length) :
    ∃ target, b.Keeps f start part target := by
  induction made with
  | start _ _ => exact ⟨start, stands, Mapping.traces_nil _ _⟩
  | select _ _ ih =>
    obtain ⟨target, keeps⟩ := ih blind stands clear
    exact ⟨target, keeps.stands, keeps.traces⟩
  | force _ ih =>
    obtain ⟨target, keeps⟩ := ih blind stands clear
    exact ⟨target, keeps.stands, keeps.traces⟩
  | @step b next clock s made taken fits ih =>
    obtain ⟨content, map, applied, rfl⟩ := step_eq_ok_iff.mp taken
    simp only [Mapping.ranges_push] at clear
    obtain ⟨middle, keeps⟩ := ih (fun s member => blind s (List.mem_append_left _ member)) stands
      (fun r member => clear r (List.mem_append_left _ member))
    obtain ⟨at_, gone, put, spliced, rfl, range⟩ := (Step.rewrites_of_apply applied).spliced_map
      (blind s (List.mem_append_right _ List.mem_cons_self))
    refine keeps.splice made fits nonempty spliced rfl ?_
    rcases range with range | range
    · obtain ⟨-, -, old, -⟩ := range_fits spliced made.fits fits
      have own := clear (Mapping.rangeBefore b.mapping.maps ⟨at_, gone.length, put.length⟩)
        (List.mem_append_right _ (by simp [range]))
      rw [keeps.traces.cuts_iff made.bounded nonempty old] at own
      dsimp only at own
      omega
    · omega

theorem Made.survives {block : Nat × Node} (made : b.Made)
    (quiet : ∀ s ∈ b.steps, s.isAttrWrite = false) (member : block ∈ b.before.codeBlocks)
    (clear : ∀ r ∈ b.mapping.ranges, ¬r.Meets block) : ∃ target, b.Survives block target := by
  obtain ⟨code, stands⟩ := Document.mem_codeBlocks_iff.mp member
  have size := Node.length_tokens block.2
  have nonempty : 0 < block.2.tokens.length := by
    rw [size]
    exact block.2.size_pos
  obtain ⟨target, stands', traces⟩ := made.keeps (f := id)
    (fun s member write => Bool.noConfusion (write.symm.trans (quiet s member))) nonempty
    (by rwa [List.map_id]) (by rwa [size])
  rw [List.map_id] at stands'
  rw [size] at traces
  exact ⟨target, Document.mem_codeBlocks_iff.mpr ⟨code, stands'⟩, traces.there,
    fun i side above below => congrArg Placement.pos (traces.back.inner i side above below)⟩

end Survival

namespace Made

variable {b : TransactionBuilder}

theorem regionCount_eq (made : b.Made) (flat : ∀ s ∈ b.steps, s.isStructural = false) :
    b.current.regionCount = b.before.regionCount := by
  simp only [Document.regionCount_eq_countP]
  induction made with
  | start _ _ => rfl
  | select _ _ ih => exact ih flat
  | force _ ih => exact ih flat
  | @step b next clock s made taken fits ih =>
    obtain ⟨content, map, applied, rfl⟩ := step_eq_ok_iff.mp taken
    have earlier := ih fun s member => flat s (List.mem_append_left _ member)
    have own := flat s (List.mem_append_right _ List.mem_cons_self)
    rw [← earlier]
    show (Node.tokensAll content).countP _ = _
    have rewrites := Step.rewrites_of_apply applied
    cases s with
    | replace start stop text =>
      obtain ⟨-, -, gone, -, left, right, -, one, two⟩ := rewrites
      simp only [one, two, List.countP_append, countP_opensCode_chars]
    | setAttr pos attr value =>
      obtain ⟨-, attrs, left, right, -, one, two⟩ := rewrites
      simp only [one, two, List.countP_append, List.countP_singleton, Token.opensCode]
    | insertNode pos node => simp [Step.isStructural] at own
    | deleteNode pos => simp [Step.isStructural] at own

/-- If every code block of the first document is found where the mapping carries it, as `g` shows
it, and there are no more of them, then these are all. -/
theorem codeBlocks_map_eq (made : b.Made) {α : Type} (g : Node → α)
    (carried : ∀ block ∈ b.before.codeBlocks, ∃ target node, (target, node) ∈ b.current.codeBlocks ∧
      g node = g block.2 ∧ Carries b.mapping.place block.1 block.2.size target)
    (count : b.current.regionCount = b.before.regionCount) :
    b.current.codeBlocks.map (fun block => (block.1, g block.2)) =
      b.before.codeBlocks.map fun block => (b.mapping.map block.1 .after, g block.2) := by
  have included : b.before.codeBlocks.map (fun block => (b.mapping.map block.1 .after, g block.2)) ⊆
      b.current.codeBlocks.map fun block => (block.1, g block.2) := by
    intro image member
    obtain ⟨block, found, rfl⟩ := List.mem_map.mp member
    obtain ⟨target, node, found', same, carries⟩ := carried block found
    have place : b.mapping.map block.1 .after = target := congrArg Placement.pos carries.first
    exact List.mem_map.mpr ⟨(target, node), found', by rw [place, same]⟩
  have ordered : b.before.codeBlocks.Pairwise fun a c =>
      b.mapping.map a.1 .after < b.mapping.map c.1 .after := by
    refine b.before.codeBlocks_apart.imp_of_mem ?_
    intro block next member member' apart
    obtain ⟨target, node, -, -, carries⟩ := carried block member
    obtain ⟨target', node', -, -, carries'⟩ := carried next member'
    exact Mapping.map_lt_of_carries made.bounded carries carries' block.2.size_pos apart
  refine ((sublist_of_ordered Prod.fst ?_ ?_ included).eq_of_length_le ?_).symm
  · exact List.pairwise_map.mpr ordered
  · exact List.pairwise_map.mpr b.current.codeBlocks_ordered
  · rw [List.length_map, List.length_map]
    exact Nat.le_of_eq count

/-- If no code block is touched and there are as many as before, all are where the mapping carries
those of the first document. -/
theorem codeBlocks_eq_map (made : b.Made) (quiet : ∀ s ∈ b.steps, s.isAttrWrite = false)
    (clear : ∀ block ∈ b.before.codeBlocks, ∀ r ∈ b.mapping.ranges, ¬r.Meets block)
    (count : b.current.regionCount = b.before.regionCount) :
    b.current.codeBlocks =
      b.before.codeBlocks.map fun block => (b.mapping.map block.1 .after, block.2) := by
  have same := made.codeBlocks_map_eq (g := id) (fun block member => by
    obtain ⟨target, survives⟩ := made.survives quiet member (clear block member)
    exact ⟨target, block.2, survives.member, rfl, survives.carries⟩) count
  simpa using same

end Made

end TransactionBuilder

end CodeTint
