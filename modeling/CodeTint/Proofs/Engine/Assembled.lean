import CodeTint.Proofs.Document.Cursor
import CodeTint.Proofs.Engine.Incremental
import CodeTint.Proofs.Transaction.Attributes

/-!
Transactions that a host puts together from the parts of built ones. The parts do not tell that an
attribute write has everything computed anew. Main statement: where such a transaction is carried
along, each code block goes on being shown with the attributes that it had before; and if there are
attribute writes alone, it is carried along whenever the cursor stays in its code block.
-/

set_option autoImplicit false
set_option relaxedAutoImplicit false

namespace CodeTint

namespace Transaction

/-- The transaction that a host puts together from the parts of another one. -/
def reassembled (t : Transaction) : Transaction :=
  .ofParts t.before t.after t.steps t.mapping t.selectionBefore t.selectionAfter

private theorem reassembled_of_not_forced {t : Transaction} (unforced : t.forced = false) :
    t.reassembled = t := by
  obtain ⟨before, after, steps, mapping, selectionBefore, selectionAfter, forced⟩ := t
  obtain rfl : forced = false := unforced
  rfl

variable {b : TransactionBuilder}

/-- An attribute write lies just before the text of its code block, so no range of attribute writes
touches one. -/
theorem touchesRegion_of_attrWrites (made : b.Made)
    (writes : ∀ s ∈ b.steps, s.isAttrWrite = true) : b.build.touchesRegion = false := by
  rw [touchesRegion_eq_false_iff]
  intro block member r changed meets
  have ranges : b.build.changedRanges = attrRanges b.steps := by
    rw [changedRanges, TransactionBuilder.build, (made.still_of_attrWrites writes).1,
      List.nil_append]
  rw [ranges] at changed
  obtain ⟨other, member', rfl⟩ := made.attrRanges_of_attrWrites writes r changed
  obtain ⟨attrs, text, -, -, stands⟩ := Document.textTokens_of_mem_codeBlocks member'
  have apart := Document.apart_of_begins member stands.getElem?_start rfl
  simp only [Range.Meets] at meets
  omega

/-- Attribute writes alone call for something to be computed, once they are put together by a host,
only if the cursor crosses. -/
theorem classify_reassembled_of_attrWrites (made : b.Made)
    (writes : ∀ s ∈ b.steps, s.isAttrWrite = true) : b.build.reassembled.classify = .remap ↔
      b.before.regionAt b.selectionBefore.head = b.before.regionAt b.selection.head := by
  have places := made.places_of_attrWrites writes
  have count : b.before.codeBlocks.length = b.current.codeBlocks.length := by
    simpa using (congrArg List.length places).symm
  have cursors : ∀ cursor, b.current.regionAt cursor = b.before.regionAt cursor := by
    intro cursor
    let inside : Nat × Nat → Bool := fun place => place.1 < cursor && cursor < place.1 + place.2
    have same := congrArg (List.findIdx? inside) places
    rw [List.findIdx?_map, List.findIdx?_map] at same
    rw [Document.regionAt_eq_findIdx?, Document.regionAt_eq_findIdx?]
    exact same
  rw [classify_eq_remap_iff]
  constructor
  · rintro ⟨-, -, cursor, -⟩
    exact cursor.trans (cursors _)
  · intro cursor
    exact ⟨rfl, fun _ => count, cursor.trans (cursors _).symm,
      fun _ => touchesRegion_of_attrWrites made writes⟩

end Transaction

private theorem DetectorState.observe_eq_remap_iff {d : DetectorState} {t : Transaction} :
    (d.observe t).1 = .remap ↔ d = .idle ∧ t.classify = .remap := by
  cases decision : t.classify with
  | recompute reason => simp [observe, decision]
  | remap => cases d <;> simp [observe, decision]

namespace Engine

variable {e : Engine} {t : Transaction}

private theorem carries_iff : e.carries t = true ↔
    t.before.version = e.document.version ∧ e.detector = .idle ∧ t.classify = .remap := by
  rw [carries, Bool.and_eq_true, decide_eq_true_eq, decide_eq_true_eq,
    DetectorState.observe_eq_remap_iff]

private theorem follow_eq_carry (along : e.carries t = true) (s : Surroundings) :
    e.follow s t = e.carry s t := by
  obtain ⟨version, idle, decision⟩ := carries_iff.mp along
  obtain ⟨config, batches, detector, document, selection, decorations, listening⟩ := e
  obtain rfl : detector = .idle := idle
  simp [follow, version, DetectorState.observe, decision]

private theorem decorations_follow (anew : e.carries t = false) (s : Surroundings) :
    (e.follow s t).decorations = t.after.decorate s.cache e.config := by
  obtain ⟨document, config, -, -⟩ := e.document_follow s t
  rw [(fresh_follow anew s).decorations, document, config]

private theorem decorations_carry (s : Surroundings) {carried : DecorationSet}
    (remapped : e.decorations.remap t.mapping t.after = .ok carried) :
    (e.carry s t).decorations = carried := by
  rw [carry, remapped]

private theorem decorations_carry_refused (s : Surroundings) {refused : RemapError}
    (remapped : e.decorations.remap t.mapping t.after = .error refused) :
    (e.carry s t).decorations = t.after.decorate s.cache e.config := by
  rw [carry, remapped]
  rfl

/-- A transaction that a host puts together from the parts of another one leads to the same
decorations, unless only the other one has all computed anew, and this is not the same. -/
theorem decorations_reassembled_iff (s : Surroundings) :
    (e.apply s t.reassembled).engine.decorations = (e.apply s t).engine.decorations ↔
      (t.forced = true → e.carries t.reassembled = true →
        ∀ carried, e.decorations.remap t.mapping t.after = .ok carried →
          carried = t.after.decorate s.cache e.config) := by
  show (e.follow s t.reassembled).decorations = (e.follow s t).decorations ↔ _
  cases forced : t.forced with
  | false => simp [Transaction.reassembled_of_not_forced forced]
  | true =>
    have anew : e.carries t = false := by
      rw [← Bool.not_eq_true, carries_iff]
      rintro ⟨-, -, decision⟩
      exact Bool.noConfusion ((Transaction.classify_eq_remap_iff.mp decision).1.symm.trans forced)
    rw [decorations_follow anew s]
    cases along : e.carries t.reassembled with
    | false =>
      have same := decorations_follow along s
      exact iff_of_true same fun _ wrong => Bool.noConfusion wrong
    | true =>
      rw [follow_eq_carry along s]
      cases remapped : e.decorations.remap t.mapping t.after with
      | ok carried =>
        have kept : (e.carry s t.reassembled).decorations = carried := decorations_carry s remapped
        simp [kept]
      | error refused =>
        have anew' : (e.carry s t.reassembled).decorations = t.after.decorate s.cache e.config :=
          decorations_carry_refused (t := t.reassembled) s remapped
        simp [anew']

/-- Where a transaction that a host puts together from what a builder made is carried along, the
code blocks have moved and their texts are the same, but they go on being shown with the attributes
that they had. -/
theorem Fresh.carry_reassembled {b : TransactionBuilder} (made : b.Made)
    (current : e.document = b.before) {c : Cache} (fresh : e.Fresh c) (s : Surroundings)
    (along : e.carries b.build.reassembled = true) :
    b.current.codeBlocks.map (fun block => (block.1, block.2.text?)) =
        b.before.codeBlocks.map (fun block => (b.mapping.map block.1 .after, block.2.text?)) ∧
      (e.apply s b.build.reassembled).engine.decorations = b.moved c e.config := by
  obtain ⟨-, -, decision⟩ := carries_iff.mp along
  obtain ⟨clear, count⟩ := Transaction.clear_of_classify made decision
  constructor
  · refine made.codeBlocks_map_eq Node.text? (fun block member => ?_) count
    obtain ⟨target, node, member', text, -, carries⟩ :=
      made.exists_moved member (clear block member)
    exact ⟨target, node, member', text, carries⟩
  · have own : e.decorations = b.before.decorate c e.config := by rw [fresh.decorations, current]
    have remapped := made.remap_decorate_eq_moved clear c e.config
    rw [← own] at remapped
    show (e.follow s b.build.reassembled).decorations = _
    rw [follow_eq_carry along s]
    exact decorations_carry s remapped

/-- A host puts a transaction together again from what a builder made without `force`. The
decorations differ only if an attribute is written and they are carried along. Where they are
carried along, all code blocks go on being shown with the attributes that they had. And attribute
writes alone are carried along just if nothing is pending and the cursor stays in its code block, or
in none. -/
theorem apply_reassembled {b : TransactionBuilder} (unforced : b.Unforced fun _ _ => True)
    (current : e.document = b.before) (s : Surroundings) :
    ((e.apply s b.build.reassembled).engine.decorations = (e.apply s b.build).engine.decorations ↔
      (b.steps.any (·.isAttrWrite) = true → e.carries b.build.reassembled = true →
        ∀ carried, e.decorations.remap b.mapping b.current = .ok carried →
          carried = b.current.decorate s.cache e.config)) ∧
    (∀ c, e.Fresh c → e.carries b.build.reassembled = true →
      b.current.codeBlocks.map (fun block => (block.1, block.2.text?)) =
          b.before.codeBlocks.map (fun block => (b.mapping.map block.1 .after, block.2.text?)) ∧
        (e.apply s b.build.reassembled).engine.decorations = b.moved c e.config) ∧
    ((∀ w ∈ b.steps, w.isAttrWrite = true) →
      (e.carries b.build.reassembled = true ↔ e.detector = .idle ∧
        b.before.regionAt b.selectionBefore.head = b.before.regionAt b.selection.head)) := by
  refine ⟨?_, fun c fresh along => fresh.carry_reassembled unforced.made current s along,
    fun writes => ?_⟩
  · rw [decorations_reassembled_iff, ← unforced.forced_eq]
    rfl
  · rw [carries_iff, Transaction.classify_reassembled_of_attrWrites unforced.made writes, current]
    exact and_iff_right rfl

/-! A code block that is named to be JSON goes on being shown as plain text. -/

namespace Relabelled

def document : Document := ⟨[.paragraph "intro", .codeBlock {} "x"], 1⟩

def builder : TransactionBuilder where
  before := document
  current := ⟨[.paragraph "intro", .codeBlock { language := some "json" } "x"], 2⟩
  steps := [.setAttr 7 .language (some "json")]
  mapping := ⟨[.identity]⟩
  selectionBefore := .cursor 0
  selection := .cursor 0
  forced := true

def surroundings : Surroundings := ⟨{}, ⟨fun _ => false, fun _ => .error .crashed⟩, 0⟩

def engine : Engine := ((Engine.start {} 0).init surroundings document).engine

private theorem unforced_builder : builder.Unforced fun _ _ => True := by
  have begun : (TransactionBuilder.start document (.cursor 0)).Unforced fun _ _ => True :=
    .start (by decide +kernel) _
  have taken : (TransactionBuilder.start document (.cursor 0)).step 2
      (.setAttr 7 .language (some "json")) = .ok builder := by cbv
  exact begun.step trivial taken (by decide +kernel)

private theorem fresh_engine : engine.Fresh surroundings.cache := ⟨rfl, rfl⟩

private theorem carries_reassembled :
    engine.carries builder.build.reassembled = true := by decide +kernel

theorem apply_reassembled_relabelled : builder.Unforced (fun _ _ => True) ∧
    engine.document = builder.before ∧ engine.Fresh surroundings.cache ∧
    engine.carries builder.build.reassembled = true ∧
    ((engine.apply surroundings builder.build.reassembled).engine.decorations =
        (engine.apply surroundings builder.build).engine.decorations ↔
      (builder.steps.any (·.isAttrWrite) = true → engine.carries builder.build.reassembled = true →
        ∀ carried, engine.decorations.remap builder.mapping builder.current = .ok carried →
          carried = builder.current.decorate surroundings.cache engine.config)) ∧
    (∀ c, engine.Fresh c → engine.carries builder.build.reassembled = true →
      builder.current.codeBlocks.map (fun block => (block.1, block.2.text?)) =
          builder.before.codeBlocks.map
            (fun block => (builder.mapping.map block.1 .after, block.2.text?)) ∧
        (engine.apply surroundings builder.build.reassembled).engine.decorations =
          builder.moved c engine.config) ∧
    ((∀ w ∈ builder.steps, w.isAttrWrite = true) →
      (engine.carries builder.build.reassembled = true ↔ engine.detector = .idle ∧
        builder.before.regionAt builder.selectionBefore.head =
          builder.before.regionAt builder.selection.head)) :=
  ⟨unforced_builder, rfl, fresh_engine, carries_reassembled,
    apply_reassembled unforced_builder rfl surroundings⟩

/-- The built transaction has the code block shown as JSON. Put together again from its parts it is
carried along, and the code block is shown as plain text still. -/
theorem reassembled_ne_built : builder.Unforced (fun _ _ => True) ∧
    engine.document = builder.build.before ∧
    builder.build.classify = .recompute .forced ∧ builder.build.reassembled.classify = .remap ∧
    (engine.apply surroundings builder.build.reassembled).engine.decorations ≠
      (engine.apply surroundings builder.build).engine.decorations := by
  have stale : (engine.apply surroundings builder.build.reassembled).engine.decorations =
      builder.moved {} engine.config :=
    (fresh_engine.carry_reassembled unforced_builder.made rfl surroundings carries_reassembled).2
  have anew : engine.carries builder.build = false := by decide +kernel
  have right : (engine.apply surroundings builder.build).engine.decorations =
      builder.current.decorate {} engine.config := decorations_follow anew surroundings
  have plain : builder.moved {} engine.config =
      ⟨2, [.node 7 10 { className := some "code-block plain", dataLanguage := some "text" },
        .inline 8 9 {} {}]⟩ := by cbv
  have named : builder.current.decorate {} engine.config =
      ⟨2, [.node 7 10 { className := some "code-block plain", dataLanguage := some "json" },
        .inline 8 9 {} {}]⟩ := by cbv
  refine ⟨unforced_builder, rfl, by decide +kernel, by decide +kernel, ?_⟩
  rw [stale, right, plain, named]
  decide

end Relabelled

end Engine

end CodeTint
