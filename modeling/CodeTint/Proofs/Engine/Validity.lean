import CodeTint.Engine.Basic
import CodeTint.Proofs.Decoration.Valid

/-!
What holds of an engine whatever it is given: transactions that no builder made, mappings with any
sizes, completions of any batch. Main statement: after any operations its decorations can be shown
with its document and nothing is pending, and the host that listens is told of each new set once.
-/

set_option autoImplicit false
set_option relaxedAutoImplicit false

namespace CodeTint

/-- What a host can ask of an engine, and the completions that come in between. -/
inductive EngineOperation where
  | init (d : Document)
  | apply (t : Transaction)
  | setAttr (clock pos : Nat) (attr : CodeAttr) (value : Option String)
  | complete (token : Nat) (report : LoadReport)
  | listen (on : Bool)
  | shutdown

namespace Engine

/-- What an operation leads to. One that fails leaves the engine as it was. -/
def perform (e : Engine) (s : Surroundings) : EngineOperation → EngineStep
  | .init d => e.init s d
  | .apply t => e.apply s t
  | .setAttr clock pos attr value =>
    match e.setAttr s clock pos attr value with
    | .ok step => step
    | .error _ => { engine := e }
  | .complete token report => e.complete s token report
  | .listen on => { engine := { e with listening := on } }
  | .shutdown => { engine := e.shutdown }

/-- The engine after operations, each with what it works with at that time. -/
def performAll (e : Engine) (run : List (Surroundings × EngineOperation)) : Engine :=
  run.foldl (fun e p => (e.perform p.1 p.2).engine) e

/-- An operation brings a new decoration set: a document, a transaction, an attribute that can be
written, or a completion that counts and has loaded something. -/
def renews (e : Engine) : EngineOperation → Bool
  | .init _ => true
  | .apply _ => true
  | .setAttr clock pos attr value =>
    (Transaction.setAttr e.document e.selection clock pos attr value).isOk
  | .complete token report =>
    (e.batches.complete token).2 = .current && !report.loaded.isEmpty
  | .listen _ => false
  | .shutdown => false

/-- The document that an operation leads to. -/
def documentAfter (e : Engine) : EngineOperation → Document
  | .init d => d
  | .apply t => t.after
  | .setAttr clock pos attr value =>
    match Transaction.setAttr e.document e.selection clock pos attr value with
    | .ok t => t.after
    | .error _ => e.document
  | _ => e.document

/-- The decorations can be shown with the document, and nothing is pending. -/
structure Valid (e : Engine) : Prop where
  decorations : e.decorations.ValidFor e.document
  idle : e.detector = .idle

private theorem valid_start (config : Config) (version : Nat) : (start config version).Valid where
  decorations := ⟨rfl, .nil, fun _ member => absurd member List.not_mem_nil⟩
  idle := rfl

private theorem valid_recompute (e : Engine) (s : Surroundings) : (e.recompute s).Valid where
  decorations := e.document.validFor_decorate s.cache e.config
  idle := rfl

private theorem Valid.of_eq {e next : Engine} (valid : e.Valid)
    (document : next.document = e.document)
    (decorations : next.decorations = e.decorations) (detector : next.detector = e.detector) :
    next.Valid where
  decorations := by
    rw [document, decorations]
    exact valid.decorations
  idle := detector.trans valid.idle

private theorem valid_carry {e : Engine} (s : Surroundings) (t : Transaction)
    (idle : e.detector = .idle) : (e.carry s t).Valid := by
  simp only [carry]
  split
  · rename_i carried remapped
    exact ⟨DecorationSet.validFor_of_remap remapped, idle⟩
  · exact valid_recompute _ s

private theorem valid_follow (e : Engine) (s : Surroundings) (t : Transaction)
    (idle : e.detector = .idle) : (e.follow s t).Valid := by
  simp only [follow]
  split
  · exact valid_recompute _ s
  · split
    · exact valid_recompute _ s
    · rename_i detector observed
      simp only [DetectorState.observe, idle] at observed
      split at observed
      · simp at observed
      · simp at observed
      · obtain ⟨-, rfl⟩ := Prod.mk.inj observed
        exact valid_carry s t rfl

theorem document_follow (e : Engine) (s : Surroundings) (t : Transaction) :
    (e.follow s t).document = t.after ∧ (e.follow s t).config = e.config ∧
      (e.follow s t).batches = e.batches ∧ (e.follow s t).listening = e.listening := by
  simp only [follow, carry]
  split
  · exact ⟨rfl, rfl, rfl, rfl⟩
  · split
    · exact ⟨rfl, rfl, rfl, rfl⟩
    · split <;> exact ⟨rfl, rfl, rfl, rfl⟩

/-- What an operation has to bring about: a valid engine with the right document, and the host told
of each new set. -/
structure Performed (e : Engine) (op : EngineOperation) (step : EngineStep) : Prop where
  valid : step.engine.Valid
  document : step.engine.document = e.documentAfter op
  told : step.told = if e.listening && e.renews op then [step.engine.decorations] else []

private theorem performed_init (e : Engine) (s : Surroundings) (d : Document) :
    e.Performed (.init d) (e.init s d) where
  valid := (valid_recompute { e with document := d, selection := {} } s).of_eq rfl rfl rfl
  document := rfl
  told := by
    rw [renews, Bool.and_true]
    rfl

private theorem performed_apply {e : Engine} (valid : e.Valid) (s : Surroundings)
    (t : Transaction) : e.Performed (.apply t) (e.apply s t) where
  valid := (valid_follow e s t valid.idle).of_eq rfl rfl rfl
  document := (document_follow e s t).1
  told := by
    rw [renews, Bool.and_true, ← (document_follow e s t).2.2.2]
    rfl

private theorem performed_setAttr {e : Engine} (valid : e.Valid) (s : Surroundings)
    (clock pos : Nat)
    (attr : CodeAttr) (value : Option String) :
    e.Performed (.setAttr clock pos attr value) (e.perform s (.setAttr clock pos attr value)) := by
  cases written : Transaction.setAttr e.document e.selection clock pos attr value with
  | ok t =>
    obtain ⟨after, document, told⟩ := performed_apply valid s t
    have step : e.perform s (.setAttr clock pos attr value) = e.apply s t := by
      simp only [perform, setAttr, written, Except.map]
    rw [step]
    refine ⟨after, ?_, ?_⟩
    · rw [document]
      simp only [documentAfter, written]
    · have renewed : e.renews (.setAttr clock pos attr value) = true := by
        simp only [renews, written, Except.isOk, Except.toBool]
      rw [told, renewed, renews]
  | error failure =>
    have step : e.perform s (.setAttr clock pos attr value) = { engine := e } := by
      simp only [perform, setAttr, written, Except.map]
    rw [step]
    refine ⟨valid, ?_, ?_⟩
    · simp only [documentAfter, written]
    · simp [renews, written, Except.isOk, Except.toBool]

private theorem performed_complete {e : Engine} (valid : e.Valid) (s : Surroundings) (token : Nat)
    (report : LoadReport) : e.Performed (.complete token report) (e.complete s token report) := by
  cases completed : e.batches.complete token with
  | mk batches completion =>
    cases completion with
    | stale =>
      have step : e.complete s token report = { engine := e } := by
        simp only [complete, completed]
      rw [step]
      exact ⟨valid, rfl, by simp [renews, completed]⟩
    | current =>
      by_cases loaded : report.loaded.isEmpty
      · refine ⟨valid.of_eq ?_ ?_ ?_, ?_, ?_⟩
        all_goals simp [complete, completed, loaded, requestMissing, documentAfter, renews]
      · refine ⟨(valid_recompute e s).of_eq ?_ ?_ ?_, ?_, ?_⟩
        all_goals simp [complete, completed, loaded, requestMissing, documentAfter, renews,
          recompute, news]

private theorem performed_perform {e : Engine} (valid : e.Valid) (s : Surroundings)
    (op : EngineOperation) : e.Performed op (e.perform s op) := by
  cases op with
  | init d => exact performed_init e s d
  | apply t => exact performed_apply valid s t
  | setAttr clock pos attr value => exact performed_setAttr valid s clock pos attr value
  | complete token report => exact performed_complete valid s token report
  | listen on => exact ⟨valid.of_eq rfl rfl rfl, rfl, by simp [perform, renews]⟩
  | shutdown => exact ⟨valid.of_eq rfl rfl rfl, rfl, by simp [perform, renews]⟩

private theorem Valid.performAll {e : Engine} (valid : e.Valid)
    (run : List (Surroundings × EngineOperation)) : (e.performAll run).Valid := by
  induction run generalizing e with
  | nil => exact valid
  | cons p rest ih => exact ih (performed_perform valid p.1 p.2).valid

/-- After any operations on a new engine, whatever transactions and completions they are given, the
decorations can be shown with the document and nothing is pending; and the next operation, if it
brings a new set, tells the host that listens of just that set, once. -/
theorem performAll_valid (config : Config) (version : Nat)
    (run : List (Surroundings × EngineOperation)) (s : Surroundings) (op : EngineOperation) :
    ((start config version).performAll run).Valid ∧
      ((start config version).performAll run).Performed op
        (((start config version).performAll run).perform s op) := by
  have valid := (valid_start config version).performAll run
  exact ⟨valid, performed_perform valid s op⟩

end Engine

end CodeTint
