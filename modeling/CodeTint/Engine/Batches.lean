import CodeTint.Decoration.Compute

/-!
Which resources are asked for, and when. What a document needs and does not have is asked for in
batches, each under a token of its own. At most one batch is outstanding: a new one is issued only
for something that the outstanding one does not ask for, and takes its place, so that the completion
of the older one no longer counts.
-/

set_option autoImplicit false
set_option relaxedAutoImplicit false

namespace CodeTint

def leastRetryAfter : Nat := 100

/-- Resources that are asked for together, for one snapshot. -/
structure Batch where
  token : Nat
  keys : List ResourceKey
  version : Nat
  deriving DecidableEq, Repr

inductive Completion where
  | current | stale
  deriving DecidableEq, Repr

def Completion.word : Completion → String
  | .current => "Current"
  | .stale => "Stale"

/-- The batches issued so far: the next token, the outstanding batch, and whether it is all over. -/
structure Batches where
  nextToken : Nat := 1
  outstanding : Option Batch := none
  tornDown : Bool := false
  retryAfter : Nat := leastRetryAfter
  deriving DecidableEq, Repr, Inhabited

def grammarKey? (name : String) : Option ResourceKey :=
  ((Language.resolve name).filter (·.hasHighlighting)).map ResourceKey.ofLanguage

def Document.wanted (d : Document) (config : Config) : List ResourceKey :=
  let regions := d.regions
  let grammars := (grammarKey? config.defaultLanguage).toList ++
    regions.filterMap fun r => r.language.bind grammarKey?
  let themes := ⟨.theme, config.defaultTheme⟩ ::
    regions.filterMap fun r => (Text.nonBlank r.theme).map (⟨.theme, ·⟩)
  ((grammars ++ themes).mergeSort ResourceKey.le).eraseDups

namespace Batches

def start (retryAfter : Nat) : Batches := { retryAfter := max retryAfter leastRetryAfter }

def backsOff (b : Batches) (c : Cache) (now : Nat) (key : ResourceKey) : Bool :=
  (c.failure? key).any fun f => now - f.failedAt < b.retryAfter

def missing (b : Batches) (d : Document) (c : Cache) (l : Loader) (config : Config) (now : Nat) :
    List ResourceKey :=
  (d.wanted config).filter fun key => !c.contains key && l.knows key && !b.backsOff c now key

def covers (b : Batches) (keys : List ResourceKey) : Bool :=
  b.outstanding.any fun batch => keys.all (batch.keys.contains ·)

/-- Issue a batch for what is missing and not skipped, if that is anything new. -/
def sync (b : Batches) (d : Document) (c : Cache) (l : Loader) (config : Config) (now : Nat)
    (skip : List ResourceKey) : Batches × Option Batch :=
  if b.tornDown then (b, none)
  else
    let keys := (b.missing d c l config now).filter (!skip.contains ·)
    if keys.isEmpty || b.covers keys then (b, none)
    else
      let batch : Batch := ⟨b.nextToken, keys, d.version⟩
      ({ b with nextToken := b.nextToken + 1, outstanding := some batch }, some batch)

/-- Take the completion of a batch; only that of the outstanding one counts, and it retires it. -/
def complete (b : Batches) (token : Nat) : Batches × Completion :=
  if !b.tornDown && b.outstanding.any (·.token = token) then
    ({ b with outstanding := none }, .current)
  else (b, .stale)

def teardown (b : Batches) : Batches := { b with tornDown := true, outstanding := none }

end Batches

end CodeTint
