import CodeTint.Resource.Loader

/-!
The cache of loaded resources. Requests start the loads that they need, at most one for each key at
a time, and wait for those that run already. Loads end in any order, each with a result; a reset
forgets all resources, and what was started before it is not kept when it ends.
-/

set_option autoImplicit false
set_option relaxedAutoImplicit false

namespace CodeTint

/-- A load that was started. Numbers tell loads apart. -/
structure Load where
  number : Nat
  key : ResourceKey
  generation : Nat
  deriving DecidableEq, Repr

structure Loaded where
  resource : Resource
  loadedAt : Nat

structure LoadFailure where
  failedAt : Nat
  error : LoadError
  deriving DecidableEq, Repr

abbrev Outcome := Except LoadError Unit

/-- The cache with the loads that run, and the outcomes of those that ended. -/
structure Cache where
  loaded : List (ResourceKey × Loaded) := []
  /-- The keys that are being loaded, each with the number of its load. -/
  inFlight : List (ResourceKey × Nat) := []
  /-- The last failure of each key that has not been loaded since. -/
  failures : List (ResourceKey × LoadFailure) := []
  generation : Nat := 0
  loadCount : Nat := 0
  /-- The loads that have not ended, in the order of their start. -/
  running : List Load := []
  outcomes : List (Nat × Outcome) := []

inductive LoadStatus where
  | unloaded | loading | loaded
  deriving DecidableEq, Repr

def LoadStatus.word : LoadStatus → String
  | .unloaded => "Unloaded"
  | .loading => "Loading"
  | .loaded => "Loaded"

/-- A request for resources: what was loaded when it began, and the loads that it waits for. -/
structure LoadRequest where
  ready : List ResourceKey := []
  waits : List (ResourceKey × Nat) := []
  deriving DecidableEq, Repr, Inhabited

structure LoadReport where
  loaded : List ResourceKey := []
  failed : List (ResourceKey × LoadError) := []
  deriving DecidableEq, Repr, Inhabited

namespace LoadReport

def isComplete (r : LoadReport) : Bool := r.failed.isEmpty

def add (r : LoadReport) (key : ResourceKey) : Outcome → LoadReport
  | .ok _ => { r with loaded := r.loaded ++ [key] }
  | .error e => { r with failed := r.failed ++ [(key, e)] }

end LoadReport

namespace Cache

def get? (c : Cache) (key : ResourceKey) : Option Loaded := c.loaded.lookup key

def contains (c : Cache) (key : ResourceKey) : Bool := (c.get? key).isSome

def grammar? (c : Cache) (id : String) : Option Grammar :=
  (c.get? ⟨.grammar, id⟩).bind (·.resource.grammar?)

def theme? (c : Cache) (id : String) : Option Theme :=
  (c.get? ⟨.theme, id⟩).bind (·.resource.theme?)

def identifiers (c : Cache) (kind : ResourceKind) : List String :=
  ((c.loaded.filter (·.1.kind = kind)).map (·.1.id)).mergeSort fun a b => a ≤ b

def flight? (c : Cache) (key : ResourceKey) : Option Nat := c.inFlight.lookup key

def status (c : Cache) (key : ResourceKey) : LoadStatus :=
  if c.contains key then .loaded
  else if (c.flight? key).isSome then .loading
  else .unloaded

def failure? (c : Cache) (key : ResourceKey) : Option LoadFailure := c.failures.lookup key

def start (c : Cache) (key : ResourceKey) : Cache :=
  { c with
    inFlight := (key, c.loadCount) :: c.inFlight
    running := c.running ++ [⟨c.loadCount, key, c.generation⟩]
    loadCount := c.loadCount + 1 }

/-- One key of a request: it is loaded, or its load is waited for and started if need be. -/
def requestKey (c : Cache) (r : LoadRequest) (key : ResourceKey) : Cache × LoadRequest :=
  if c.contains key then (c, { r with ready := r.ready ++ [key] })
  else match c.flight? key with
    | some number => (c, { r with waits := r.waits ++ [(key, number)] })
    | none => (c.start key, { r with waits := r.waits ++ [(key, c.loadCount)] })

def requestKeys (c : Cache) (r : LoadRequest) : List ResourceKey → Cache × LoadRequest
  | [] => (c, r)
  | key :: rest =>
    let (c, r) := c.requestKey r key
    c.requestKeys r rest

def request (c : Cache) (keys : List ResourceKey) : Cache × LoadRequest :=
  c.requestKeys {} keys.eraseDups

def without {α : Type} (key : ResourceKey) (table : List (ResourceKey × α)) :
    List (ResourceKey × α) :=
  table.filter (·.1 ≠ key)

def keep (c : Cache) (now : Nat) (key : ResourceKey) (resource : Resource) : Cache :=
  { c with
    loaded := (key, ⟨resource, now⟩) :: without key c.loaded
    inFlight := without key c.inFlight
    failures := without key c.failures }

def fail (c : Cache) (now : Nat) (key : ResourceKey) (error : LoadError) : Cache :=
  { c with
    inFlight := without key c.inFlight
    failures := (key, ⟨now, error⟩) :: without key c.failures }

/-- What a load with a result leads to: the cache after it, and its outcome. -/
def settle (c : Cache) (now : Nat) (load : Load) (result : Except LoadError Resource) :
    Cache × Outcome :=
  let current := c.generation = load.generation
  let failed (e : LoadError) : Cache × Outcome :=
    (if current then c.fail now load.key e else c, .error e)
  match result with
  | .error e => failed e
  | .ok resource =>
    if resource.kind ≠ load.key.kind then failed (.wrongKind resource.kind load.key)
    else if current then (c.keep now load.key resource, .ok ())
    else (c, .error .discarded)

def finish (c : Cache) (now : Nat) (load : Load) (result : Except LoadError Resource) : Cache :=
  let (next, outcome) := c.settle now load result
  { next with
    running := c.running.filter (·.number ≠ load.number)
    outcomes := (load.number, outcome) :: c.outcomes }

def reset (c : Cache) : Cache :=
  { c with loaded := [], inFlight := [], failures := [], generation := c.generation + 1 }

def outcome? (c : Cache) (number : Nat) : Option Outcome := c.outcomes.lookup number

def report? (c : Cache) (r : LoadRequest) : Option LoadReport :=
  r.waits.foldlM (fun report (key, number) => (c.outcome? number).map (report.add key))
    { loaded := r.ready }

end Cache

end CodeTint
