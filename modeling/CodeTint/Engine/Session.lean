import CodeTint.Engine.Basic

/-!
An engine with its cache and the loads in the background. Batches that the engine issues become
tasks; a task begins by requesting its keys from the cache, loads end one by one, and a task whose
loads have all ended posts its completion, which the engine reads when it gets to it. Each of these
is a step of its own, and time passes in steps of their own.
-/

set_option autoImplicit false
set_option relaxedAutoImplicit false

namespace CodeTint

structure BatchTask where
  batch : Batch
  request : Option LoadRequest := none
  deriving DecidableEq, Repr

structure CompletionMessage where
  token : Nat
  report : LoadReport
  deriving DecidableEq, Repr

/-- An engine and what goes on in its background. -/
structure Session where
  engine : Engine
  cache : Cache := {}
  now : Nat := 0
  /-- The batches that are being loaded, in the order of their issue. -/
  tasks : List BatchTask := []
  mailbox : List CompletionMessage := []
  told : List DecorationSet := []

namespace Session

def surroundings (s : Session) (l : Loader) : Surroundings := ⟨s.cache, l, s.now⟩

def after (s : Session) (step : EngineStep) : Session :=
  { s with
    engine := step.engine
    tasks := s.tasks ++ (step.batch.map fun batch => ({ batch } : BatchTask)).toList
    told := s.told ++ step.told }

def init (s : Session) (l : Loader) (d : Document) : Session :=
  s.after (s.engine.init (s.surroundings l) d)

def apply (s : Session) (l : Loader) (t : Transaction) : Session :=
  s.after (s.engine.apply (s.surroundings l) t)

def setAttr (s : Session) (l : Loader) (clock pos : Nat) (attr : CodeAttr)
    (value : Option String) : Except TransformError Session :=
  (s.engine.setAttr (s.surroundings l) clock pos attr value).map s.after

def begin (s : Session) (token : Nat) : Session :=
  match s.tasks.find? fun t => t.batch.token = token && t.request.isNone with
  | none => s
  | some task =>
    let (cache, request) := s.cache.request task.batch.keys
    { s with
      cache
      tasks := s.tasks.map fun t =>
        if t.batch.token = token then { t with request := some request } else t }

def finish (s : Session) (load : Load) (result : Except LoadError Resource) : Session :=
  { s with cache := s.cache.finish s.now load result }

def completion? (s : Session) (t : BatchTask) : Option CompletionMessage :=
  (t.request.bind s.cache.report?).map fun report => ⟨t.batch.token, report⟩

def post (s : Session) : Session :=
  { s with
    tasks := s.tasks.filter fun t => (s.completion? t).isNone
    mailbox := s.mailbox ++ s.tasks.filterMap s.completion? }

def read (s : Session) (l : Loader) (m : CompletionMessage) : Session × Bool :=
  let step := s.engine.complete (s.surroundings l) m.token m.report
  (s.after step, step.changed)

def readAll (l : Loader) (s : Session) : List CompletionMessage → Session × Bool
  | [] => (s, false)
  | m :: rest =>
    let (s, changed) := s.read l m
    let (s, more) := readAll l s rest
    (s, changed || more)

def drain (s : Session) (l : Loader) : Session × Bool :=
  readAll l { s with mailbox := [] } s.mailbox

def beginAll (s : Session) : Session :=
  (s.tasks.filter (·.request.isNone)).foldl (fun s t => s.begin t.batch.token) s

def finishAll (s : Session) (l : Loader) : Session :=
  s.cache.running.foldl (fun s load => (s.finish load (l.load load.key)).post) s.post

def loadAll (s : Session) (l : Loader) : Session := s.beginAll.finishAll l

/-- Let loads run and read their completions until no batch is outstanding, for a number of rounds
at most. -/
def await (l : Loader) : Nat → Session → Session
  | 0, s => s
  | rounds + 1, s =>
    let (s, _) := s.drain l
    if s.engine.batches.outstanding.isNone then s else await l rounds (s.loadAll l)

def sleep (s : Session) (milliseconds : Nat) : Session := { s with now := s.now + milliseconds }

def reset (s : Session) : Session := { s with cache := s.cache.reset }

def shutdown (s : Session) : Session := { s with engine := s.engine.shutdown }

end Session

end CodeTint
