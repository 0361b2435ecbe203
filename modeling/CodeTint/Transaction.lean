import CodeTint.Document.Edit
import CodeTint.Position.Mapping
import CodeTint.Text.Blank

/-!
Transactions: steps that lead from one document snapshot to another, with what they do to positions
and to the selection. A builder takes steps one by one; every step that succeeds makes a snapshot
with the next version of a clock, and one that fails leaves the clock alone.
-/

set_option autoImplicit false
set_option relaxedAutoImplicit false

namespace CodeTint

/-- An elementary change, in positions of the document that it applies to. -/
inductive Step where
  | replace (start stop : Nat) (text : String)
  | insertNode (pos : Nat) (node : Node)
  | deleteNode (pos : Nat)
  | setAttr (pos : Nat) (attr : CodeAttr) (value : Option String)
  deriving Repr

namespace Step

def isStructural : Step → Bool
  | insertNode _ _ => true
  | deleteNode _ => true
  | _ => false

def isAttrWrite : Step → Bool
  | setAttr _ _ _ => true
  | _ => false

def sets (attr : CodeAttr) : Step → Bool
  | setAttr _ a _ => a = attr
  | _ => false

/-- The content that a step makes of a document, and what it does to positions. -/
def apply (d : Document) : Step → Except TransformError (List Node × PositionMap)
  | replace start stop text =>
    (d.replaceText start stop text).map fun content =>
      (content, .single start (stop - start) text.length)
  | insertNode pos node =>
    (d.insertNode pos node).map fun content => (content, .single pos 0 node.size)
  | deleteNode pos =>
    (d.deleteNode pos).map fun (content, gone) => (content, .single pos gone.size 0)
  | setAttr pos attr value =>
    (d.setAttr pos attr value).map fun content => (content, .identity)

end Step

def Selection.through (s : Selection) (m : PositionMap) : Selection :=
  ⟨m.map s.anchor .after, m.map s.head .after⟩

/-- A change from one snapshot to another. -/
structure Transaction where
  before : Document
  after : Document
  steps : List Step
  mapping : Mapping
  selectionBefore : Selection
  selectionAfter : Selection
  /-- Whatever is derived from the document has to be computed anew. -/
  forced : Bool := false
  deriving Repr

namespace Transaction

def select (d : Document) (old new : Selection) : Transaction :=
  { before := d, after := d, steps := [], mapping := {}, selectionBefore := old,
    selectionAfter := new }

/-- A transaction that a host puts together. Nothing in it is checked, and nothing is forced. -/
def ofParts (before after : Document) (steps : List Step) (mapping : Mapping)
    (selectionBefore selectionAfter : Selection) : Transaction :=
  { before, after, steps, mapping, selectionBefore, selectionAfter }

def changesDocument (t : Transaction) : Bool := !t.steps.isEmpty

def changesStructure (t : Transaction) : Bool := t.steps.any (·.isStructural)

def sets (t : Transaction) (attr : CodeAttr) : Bool := t.steps.any (·.sets attr)

def force (t : Transaction) : Transaction := { t with forced := true }

/-- The place of each attribute write among the steps, in the positions that the step was given. -/
def attrRanges (steps : List Step) : List Range :=
  steps.filterMap fun
    | .setAttr pos _ _ => some ⟨pos, pos⟩
    | _ => none

def changedRanges (t : Transaction) : List Range := t.mapping.ranges ++ attrRanges t.steps

end Transaction

/-- A transaction that is being built. -/
structure TransactionBuilder where
  before : Document
  current : Document
  steps : List Step := []
  mapping : Mapping := {}
  selectionBefore : Selection
  selection : Selection
  forced : Bool := false
  deriving Repr

namespace TransactionBuilder

def start (d : Document) (selection : Selection) : TransactionBuilder :=
  { before := d, current := d, selectionBefore := selection, selection }

/-- Take a step; the new snapshot gets the version `clock`. An attribute write forces that all be
computed anew. -/
def step (b : TransactionBuilder) (clock : Nat) (s : Step) :
    Except TransformError TransactionBuilder :=
  (s.apply b.current).map fun (content, map) =>
    { b with
      current := ⟨content, clock⟩
      steps := b.steps ++ [s]
      mapping := b.mapping.push map
      selection := b.selection.through map
      forced := b.forced || s.isAttrWrite }

/-- Take steps in order up to the first that fails; the clock after them is given too. -/
def run (b : TransactionBuilder) (clock : Nat) :
    List Step → Except TransformError TransactionBuilder × Nat
  | [] => (.ok b, clock)
  | s :: rest =>
    match b.step clock s with
    | .ok next => next.run (clock + 1) rest
    | .error e => (.error e, clock)

def select (b : TransactionBuilder) (s : Selection) : TransactionBuilder :=
  { b with selection := s }

def force (b : TransactionBuilder) : TransactionBuilder := { b with forced := true }

def build (b : TransactionBuilder) : Transaction :=
  { before := b.before, after := b.current, steps := b.steps, mapping := b.mapping,
    selectionBefore := b.selectionBefore, selectionAfter := b.selection, forced := b.forced }

end TransactionBuilder

namespace Transaction

def attrValue (value : Option String) : Option String := Text.nonBlank value

def setAttr (d : Document) (selection : Selection) (clock pos : Nat) (attr : CodeAttr)
    (value : Option String) : Except TransformError Transaction :=
  ((TransactionBuilder.start d selection).step clock (.setAttr pos attr (attrValue value))).map
    (·.build)

def insertCodeBlock (d : Document) (selection : Selection) (clock pos : Nat)
    (language : Option String) (text : String) : Except TransformError Transaction :=
  let node := Node.codeBlock { language := attrValue language } text
  ((TransactionBuilder.start d selection).step clock (.insertNode pos node)).map fun b =>
    (b.select (.cursor (pos + 1))).build

end Transaction

end CodeTint
