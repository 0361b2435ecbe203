import CodeTint.Proofs.Engine.Validity
import CodeTint.Proofs.Transaction.Untouched
import Mathlib

/-!
Carrying decorations along agrees with computing them anew. A transaction that is not told to
recompute leaves every code block as it was, up to a shift, and adds none. Main statement: however
transactions follow one another, after each of them an engine has the decorations that are computed
for the document that it led to.
-/

set_option autoImplicit false
set_option relaxedAutoImplicit false

namespace CodeTint

/-- A snapshot of which an archive has the content under its version. Snapshots in one archive that
have the same version have the same content. -/
def Document.In (archive : Nat → List Node) (d : Document) : Prop :=
  d.content = archive d.version

theorem Document.In.eq {archive : Nat → List Node} {a b : Document} (ha : a.In archive)
    (hb : b.In archive) (version : a.version = b.version) : a = b := by
  obtain ⟨content, v⟩ := a
  obtain ⟨content', v'⟩ := b
  obtain rfl : v = v' := version
  obtain rfl : content = archive v := ha
  obtain rfl : content' = archive v := hb
  rfl

namespace Transaction

theorem classify_eq_remap_iff {t : Transaction} : t.classify = .remap ↔
    t.forced = false ∧
    (t.changesStructure = true → t.before.regionCount = t.after.regionCount) ∧
    t.before.regionAt t.selectionBefore.head = t.after.regionAt t.selectionAfter.head ∧
    (t.changesDocument = true → t.touchesRegion = false) := by
  simp only [classify]
  grind

theorem touchesRegion_eq_false_iff {t : Transaction} : t.touchesRegion = false ↔
    ∀ block ∈ t.before.codeBlocks, ∀ r ∈ t.changedRanges, ¬r.Meets block := by
  simp only [touchesRegion, List.any_eq_false, Bool.not_eq_true]
  constructor
  · intro clear block member r changed meets
    obtain ⟨index, inside, rfl⟩ := List.getElem_of_mem member
    have found : CodeRegion.ofBlock index t.before.codeBlocks[index] ∈ t.before.regions :=
      Document.mem_regions_iff.mpr ⟨index, _, List.getElem?_eq_getElem inside, rfl⟩
    exact Bool.noConfusion ((touches_iff_meets.mpr meets).symm.trans (clear r changed _ found))
  · intro clear r changed region found
    obtain ⟨index, block, place, rfl⟩ := Document.mem_regions_iff.mp found
    rw [← Bool.not_eq_true, touches_iff_meets]
    exact clear block (List.mem_of_getElem? place) r changed

/-- If a builder's transaction calls for nothing to be computed, whether forced or not, then no code
block is met by a range that its maps replace, and there are as many as before. -/
theorem clear_of_classify {b : TransactionBuilder} (made : b.Made) {forced : Bool}
    (decision : ({ b.build with forced } : Transaction).classify = .remap) :
    (∀ block ∈ b.before.codeBlocks, ∀ r ∈ b.mapping.ranges, ¬r.Meets block) ∧
      b.current.regionCount = b.before.regionCount := by
  obtain ⟨-, structure_, -, document⟩ := classify_eq_remap_iff.mp decision
  constructor
  · cases steps : b.steps with
    | nil =>
      have none : b.mapping.maps = [] := by
        rw [← List.length_eq_zero_iff, made.length_maps, steps, List.length_nil]
      intro block _ r member
      simp [Mapping.ranges, none, Mapping.rangesAfter] at member
    | cons s rest =>
      have untouched := document (by simp [changesDocument, TransactionBuilder.build, steps])
      intro block member r range
      exact touchesRegion_eq_false_iff.mp untouched block member r (List.mem_append_left _ range)
  · cases structural : b.build.changesStructure with
    | true => exact (structure_ structural).symm
    | false => exact made.regionCount_eq (by
        simpa [changesStructure, TransactionBuilder.build] using structural)

private theorem remap_decorate_of_made {b : TransactionBuilder} (made : b.Made) (c : Cache)
    (config : Config) (decision : b.build.classify = .remap) :
    (b.before.decorate c config).remap b.mapping b.current =
      .ok (b.current.decorate c config) := by
  obtain ⟨clear, count⟩ := clear_of_classify made decision
  have quiet : ∀ s ∈ b.steps, s.isAttrWrite = false := by
    intro s member
    by_contra write
    have forced := made.forced_of_attrWrite member (by simpa using write)
    exact Bool.noConfusion ((classify_eq_remap_iff.mp decision).1.symm.trans forced)
  refine CodeTint.remap_decorate (fun pos => b.mapping.map pos .after) c config
    (made.codeBlocks_eq_map quiet clear count) ?_
  intro block member
  obtain ⟨target, survives⟩ := made.survives quiet member (clear block member)
  have place : b.mapping.map block.1 .after = target :=
    congrArg Placement.pos survives.carries.first
  rw [place]
  exact survives.carries

/-- Decorations carried through a transaction that calls for nothing to be computed are those
computed for the document that it leads to. -/
theorem Built.remap_decorate {t : Transaction} (built : t.Built) (c : Cache) (config : Config)
    (decision : t.classify = .remap) :
    (t.before.decorate c config).remap t.mapping t.after = .ok (t.after.decorate c config) := by
  cases built with
  | build made => exact remap_decorate_of_made made c config decision
  | select d old new =>
    refine CodeTint.remap_decorate id c config ?_ fun block _ => Mapping.carries_nil _ _
    exact (List.map_id _).symm
  | force built => simp [classify, Transaction.force] at decision

end Transaction

namespace Engine

/-- The decorations are those computed with what a cache holds, and nothing is pending. -/
structure Fresh (c : Cache) (e : Engine) : Prop where
  decorations : e.decorations = e.document.decorate c e.config
  idle : e.detector = .idle

theorem Fresh.recompute (e : Engine) (s : Surroundings) : (e.recompute s).Fresh s.cache :=
  ⟨rfl, rfl⟩

/-- A transaction calls for the decorations to be carried along, and not computed anew. -/
def carries (e : Engine) (t : Transaction) : Bool :=
  t.before.version = e.document.version && (e.detector.observe t).1 = .remap

theorem fresh_follow {e : Engine} {t : Transaction} (anew : e.carries t = false)
    (s : Surroundings) : (e.follow s t).Fresh s.cache := by
  simp only [Engine.follow]
  split
  · exact Fresh.recompute _ s
  · rename_i version
    split
    · exact Fresh.recompute _ s
    · rename_i detector observed
      simp only [Engine.carry]
      split
      · rename_i carried remapped
        have along : e.carries t = true := by
          simp only [Engine.carries, observed, Decidable.not_not.mp version]
          rfl
        rw [anew] at along
        cases along
      · exact Fresh.recompute _ s

/-- Where they are carried along, they are as if computed anew with what was loaded when they were
computed last. -/
theorem Fresh.follow {c : Cache} {e : Engine} (fresh : e.Fresh c) (s : Surroundings)
    {t : Transaction} (built : t.Built)
    (known : t.before.version = e.document.version → t.before = e.document)
    (along : e.carries t = true) : (e.follow s t).Fresh c := by
  simp only [Engine.carries, Bool.and_eq_true, decide_eq_true_eq] at along
  obtain ⟨version, observed⟩ := along
  have decision : t.classify = .remap := by
    simp only [DetectorState.observe, fresh.idle] at observed
    split at observed
    · simp at observed
    · simp at observed
    · assumption
  have carried := built.remap_decorate c e.config decision
  rw [known version, ← fresh.decorations] at carried
  simp only [Engine.follow, version, ne_eq, not_true_eq_false, if_false, DetectorState.observe,
    decision, fresh.idle, Engine.carry, carried]
  exact ⟨rfl, rfl⟩

theorem Fresh.conclude {c : Cache} {e : Engine} (fresh : e.Fresh c) (s : Surroundings) :
    (e.conclude s).engine.Fresh c := ⟨fresh.decorations, fresh.idle⟩

/-- A completion leaves the document. The decorations are computed anew, which is told, or stay;
they stay only if the completion does not count or has loaded nothing. -/
theorem complete_cases (e : Engine) (s : Surroundings) (token : Nat) (report : LoadReport) :
    (e.complete s token report).engine.document = e.document ∧
      ((e.complete s token report).changed = true ∧
          (e.complete s token report).engine.Fresh s.cache ∨
        (e.complete s token report).changed = false ∧
          ((e.batches.complete token).2 = .stale ∨ report.loaded = []) ∧
          ∀ {c : Cache}, e.Fresh c → (e.complete s token report).engine.Fresh c) := by
  cases completed : e.batches.complete token with
  | mk batches completion =>
    cases completion with
    | stale =>
      simp only [complete, completed]
      exact ⟨trivial, .inr ⟨trivial, .inl trivial, id⟩⟩
    | current =>
      cases loaded : report.loaded.isEmpty with
      | true =>
        simp only [complete, completed, loaded]
        exact ⟨rfl, .inr ⟨rfl, .inr (List.isEmpty_iff.mp loaded),
          fun fresh => ⟨fresh.decorations, fresh.idle⟩⟩⟩
      | false =>
        simp only [complete, completed, loaded]
        exact ⟨rfl, .inl ⟨rfl, rfl, rfl⟩⟩

/-- The engines after each of some transactions that are applied one after another, each with what
the engine works with at that time. -/
def applyEach (e : Engine) : List (Surroundings × Transaction) → List Engine
  | [] => []
  | (s, t) :: rest => (e.apply s t).engine :: (e.apply s t).engine.applyEach rest

private theorem applyEach_decorations {archive : Nat → List Node} {c : Cache}
    {run : List (Surroundings × Transaction)} (fixed : ∀ p ∈ run, p.1.cache = c)
    (built : ∀ p ∈ run, p.2.Built)
    (known : ∀ p ∈ run, p.2.before.In archive ∧ p.2.after.In archive)
    {e : Engine} (fresh : e.Fresh c) (current : e.document.In archive) :
    List.Forall₂ (fun p after => after.document = p.2.after ∧
      after.decorations = p.2.after.decorate c e.config) run (e.applyEach run) := by
  induction run generalizing e with
  | nil => exact .nil
  | cons p rest ih =>
    obtain ⟨s, t⟩ := p
    have cache : s.cache = c := fixed _ List.mem_cons_self
    obtain ⟨before, after⟩ := known _ List.mem_cons_self
    obtain ⟨document, config, -, -⟩ := e.document_follow s t
    have next : (e.apply s t).engine.Fresh c := by
      cases along : e.carries t with
      | true =>
        exact (fresh.follow s (built _ List.mem_cons_self) (before.eq current) along).conclude s
      | false => exact (cache ▸ fresh_follow along s).conclude s
    have document' : (e.apply s t).engine.document = t.after := document
    have config' : (e.apply s t).engine.config = e.config := config
    refine .cons ⟨document', ?_⟩ ?_
    · rw [next.decorations, document', config']
    · rw [← config']
      exact ih (fun q member => fixed q (List.mem_cons_of_mem _ member))
        (fun q member => built q (List.mem_cons_of_mem _ member))
        (fun q member => known q (List.mem_cons_of_mem _ member)) next (document' ▸ after)

/-- After each transaction of a run, an engine has just the decorations, with their version, that
are computed for the document which the transaction led to. -/
theorem applyEach_eq_decorate (archive : Nat → List Node) {c : Cache} {begin : Surroundings}
    {d : Document} {run : List (Surroundings × Transaction)} (fixed : begin.cache = c)
    (fixed' : ∀ p ∈ run, p.1.cache = c) (built : ∀ p ∈ run, p.2.Built) (first : d.In archive)
    (known : ∀ p ∈ run, p.2.before.In archive ∧ p.2.after.In archive) (e : Engine) :
    (e.init begin d).engine.decorations = d.decorate c e.config ∧
      List.Forall₂ (fun p after => after.document = p.2.after ∧
        after.decorations = p.2.after.decorate c e.config) run
        ((e.init begin d).engine.applyEach run) := by
  subst fixed
  have fresh : (e.init begin d).engine.Fresh begin.cache :=
    (Fresh.recompute { e with document := d, selection := {} } begin).conclude begin
  exact ⟨fresh.decorations, applyEach_decorations fixed' built known fresh first⟩

/-- A code block is inserted and deleted again before a paragraph is changed, all of which is
carried along; then the text of the other code block is changed. -/
theorem applyEach_eq_decorate_mixed : ∃ (archive : Nat → List Node) (begin : Surroundings)
    (d : Document) (run : List (Surroundings × Transaction)) (e : Engine),
    run.map (·.2.classify) = [.remap, .recompute .inRegionEdit] ∧
    (∀ p ∈ run, p.1.cache = begin.cache) ∧ (∀ p ∈ run, p.2.Built) ∧ d.In archive ∧
    (∀ p ∈ run, p.2.before.In archive ∧ p.2.after.In archive) ∧
    (e.init begin d).engine.decorations = d.decorate begin.cache e.config ∧
      List.Forall₂ (fun p after => after.document = p.2.after ∧
        after.decorations = p.2.after.decorate begin.cache e.config) run
        ((e.init begin d).engine.applyEach run) := by
  let s : Surroundings := ⟨{}, ⟨fun _ => false, fun _ => .error .crashed⟩, 0⟩
  let first : Document := ⟨[.paragraph "a", .codeBlock {} "x"], 1⟩
  let second : Document := ⟨[.paragraph "ba", .codeBlock {} "x"], 4⟩
  let third : Document := ⟨[.paragraph "ba", .codeBlock {} "xy"], 5⟩
  let archive : Nat → List Node
    | 1 => first.content
    | 4 => second.content
    | _ => third.content
  let start : TransactionBuilder := .start first (.cursor 1)
  let inserted : TransactionBuilder :=
    { start with
      current := ⟨[.codeBlock {} "new", .paragraph "a", .codeBlock {} "x"], 2⟩
      steps := [.insertNode 0 (.codeBlock {} "new")]
      mapping := ⟨[.single 0 0 5]⟩
      selection := .cursor 6 }
  let deleted : TransactionBuilder :=
    { inserted with
      current := ⟨[.paragraph "a", .codeBlock {} "x"], 3⟩
      steps := [.insertNode 0 (.codeBlock {} "new"), .deleteNode 0]
      mapping := ⟨[.single 0 0 5, .single 0 5 0]⟩
      selection := .cursor 1 }
  let changed : TransactionBuilder :=
    { deleted with
      current := second
      steps := [.insertNode 0 (.codeBlock {} "new"), .deleteNode 0, .replace 1 1 "b"]
      mapping := ⟨[.single 0 0 5, .single 0 5 0, .single 1 0 1]⟩
      selection := .cursor 2 }
  let edited : TransactionBuilder :=
    { before := second
      current := third
      steps := [.replace 6 6 "y"]
      mapping := ⟨[.single 6 0 1]⟩
      selectionBefore := .cursor 6
      selection := .cursor 7 }
  let run : List (Surroundings × Transaction) := [(s, changed.build), (s, edited.build)]
  have fixed : ∀ p ∈ run, p.1.cache = s.cache := by simp [run]
  have made : changed.Made := by
    have made₀ : start.Made := .start (by decide +kernel) _
    have inserting : start.step 2 (.insertNode 0 (.codeBlock {} "new")) = .ok inserted := by cbv
    have deleting : inserted.step 3 (.deleteNode 0) = .ok deleted := rfl
    have changing : deleted.step 4 (.replace 1 1 "b") = .ok changed := rfl
    have made₁ : inserted.Made := made₀.step inserting (by decide +kernel)
    have made₂ : deleted.Made := made₁.step deleting (by decide +kernel)
    exact made₂.step changing (by decide +kernel)
  have made' : edited.Made := by
    have made₀ : (TransactionBuilder.start second (.cursor 6)).Made := .start (by decide +kernel) _
    have taken : (TransactionBuilder.start second (.cursor 6)).step 5 (.replace 6 6 "y") =
        .ok edited := rfl
    exact made₀.step taken (by decide +kernel)
  have built : ∀ p ∈ run, p.2.Built := by
    simp only [run, List.mem_cons, List.not_mem_nil, or_false, forall_eq_or_imp, forall_eq]
    exact ⟨.build made, .build made'⟩
  have known : ∀ p ∈ run, p.2.before.In archive ∧ p.2.after.In archive := by
    simp only [run, List.mem_cons, List.not_mem_nil, or_false, forall_eq_or_imp, forall_eq]
    exact ⟨⟨rfl, rfl⟩, ⟨rfl, rfl⟩⟩
  let e : Engine := .start {} 0
  exact ⟨archive, s, first, run, e, rfl, fixed, built, rfl, known,
    applyEach_eq_decorate archive (d := first) rfl fixed built rfl known e⟩

end Engine

end CodeTint
