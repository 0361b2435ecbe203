import CodeTint.Engine.Batches
import CodeTint.Engine.Detector

/-!
The engine that keeps the decorations of a document up to date. A transaction either carries them
along or has them computed anew; what is not loaded yet is asked for in batches, and a completion
that loaded something has all computed anew. The cache and the time are given to each operation.
-/

set_option autoImplicit false
set_option relaxedAutoImplicit false

namespace CodeTint

/-- The state of an engine. -/
structure Engine where
  config : Config
  batches : Batches
  detector : DetectorState := .idle
  document : Document
  selection : Selection := {}
  decorations : DecorationSet
  listening : Bool := false

/-- What an operation of an engine leads to. -/
structure EngineStep where
  engine : Engine
  batch : Option Batch := none
  told : List DecorationSet := []
  changed : Bool := false

/-- What an engine works with: the cache, the loader and the time. -/
structure Surroundings where
  cache : Cache
  loader : Loader
  now : Nat

namespace Engine

def start (config : Config) (version : Nat) : Engine :=
  { config, batches := .start config.retryAfter, document := ⟨[], version⟩,
    decorations := ⟨version, []⟩ }

def recompute (e : Engine) (s : Surroundings) : Engine :=
  { e with decorations := e.document.decorate s.cache e.config, detector := .idle }

def requestMissing (e : Engine) (s : Surroundings) (skip : List ResourceKey) :
    Engine × Option Batch :=
  let (batches, batch) := e.batches.sync e.document s.cache s.loader e.config s.now skip
  ({ e with batches }, batch)

def news (e : Engine) : List DecorationSet := if e.listening then [e.decorations] else []

def conclude (e : Engine) (s : Surroundings) : EngineStep :=
  let (e, batch) := e.requestMissing s []
  { engine := e, batch, told := e.news }

def init (e : Engine) (s : Surroundings) (d : Document) : EngineStep :=
  (({ e with document := d, selection := {} } : Engine).recompute s).conclude s

def adopt (e : Engine) (t : Transaction) : Engine :=
  { e with document := t.after, selection := t.selectionAfter }

/-- The decorations carried through a transaction, or computed anew where that fails. -/
def carry (e : Engine) (s : Surroundings) (t : Transaction) : Engine :=
  match e.decorations.remap t.mapping t.after with
  | .ok decorations => { e.adopt t with decorations }
  | .error _ => (e.adopt t).recompute s

/-- Follow a transaction. One that does not begin at the engine's document has all computed
anew. -/
def follow (e : Engine) (s : Surroundings) (t : Transaction) : Engine :=
  if t.before.version ≠ e.document.version then (e.adopt t).recompute s
  else match e.detector.observe t with
    | (.recompute _, _) => (e.adopt t).recompute s
    | (.remap, detector) => ({ e with detector } : Engine).carry s t

def apply (e : Engine) (s : Surroundings) (t : Transaction) : EngineStep :=
  (e.follow s t).conclude s

def setAttr (e : Engine) (s : Surroundings) (clock pos : Nat) (attr : CodeAttr)
    (value : Option String) : Except TransformError EngineStep :=
  (Transaction.setAttr e.document e.selection clock pos attr value).map (e.apply s)

/-- Take the completion of a batch. Keys that it could not load are not asked for again by it. -/
def complete (e : Engine) (s : Surroundings) (token : Nat) (report : LoadReport) : EngineStep :=
  match e.batches.complete token with
  | (_, .stale) => { engine := e }
  | (batches, .current) =>
    let changed := !report.loaded.isEmpty
    let e : Engine := { e with batches }
    let e := if changed then e.recompute s else e
    let told := if changed then e.news else []
    let (e, batch) := e.requestMissing s (report.failed.map (·.1))
    { engine := e, batch, told, changed }

def shutdown (e : Engine) : Engine :=
  { e with batches := e.batches.teardown, listening := false }

def codeClasses (e : Engine) : List String :=
  e.document.regions.map fun r => Language.className e.config.classPrefix r.language

end Engine

end CodeTint
