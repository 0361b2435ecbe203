import CodeTint.Document.Node

/-!
Documents, and the walks over them that find nodes by position. Positions lie between the pieces of
a document: the first node starts at 0, the content of a block quote one after its start.
-/

set_option autoImplicit false
set_option relaxedAutoImplicit false

namespace CodeTint

/-- A document snapshot. Its version tells it from every other snapshot. -/
structure Document where
  content : List Node
  version : Nat
  deriving Repr, Inhabited

/-- A cursor or a range of text that is selected, as positions in one snapshot. -/
structure Selection where
  anchor : Nat := 0
  head : Nat := 0
  deriving DecidableEq, Repr, Inhabited

namespace Selection

def cursor (pos : Nat) : Selection := ⟨pos, pos⟩

def isEmpty (s : Selection) : Bool := s.anchor == s.head

end Selection

namespace Node

mutual

/-- A node that starts at a position, and what is inside it if `into` says so, in document
order. -/
def visit (into : Node → Nat → Bool) (n : Node) (pos : Nat) : List (Nat × Node) :=
  (pos, n) :: match n with
    | blockquote content => if into n pos then visitAll into content (pos + 1) else []
    | _ => []

def visitAll (into : Node → Nat → Bool) : List Node → Nat → List (Nat × Node)
  | [], _ => []
  | n :: rest, pos => visit into n pos ++ visitAll into rest (pos + n.size)

end

mutual

def search (p : Node → Bool) (n : Node) (pos : Nat) : List (Nat × Node) :=
  (if p n then [(pos, n)] else []) ++ match n with
    | blockquote content => searchAll p content (pos + 1)
    | _ => []

def searchAll (p : Node → Bool) : List Node → Nat → List (Nat × Node)
  | [], _ => []
  | n :: rest, pos => search p n pos ++ searchAll p rest (pos + n.size)

end

mutual

/-- The node that starts exactly at `target`, at or below a node. -/
def startingAt (target : Nat) (n : Node) (pos : Nat) : Option Node :=
  if pos = target then some n
  else match n with
    | blockquote content =>
      if pos < target && target < pos + n.size then startingAtAll target content (pos + 1)
      else none
    | _ => none

def startingAtAll (target : Nat) : List Node → Nat → Option Node
  | [], _ => none
  | n :: rest, pos =>
    (startingAt target n pos).or (startingAtAll target rest (pos + n.size))

end

mutual

def codeBlocks : Node → Nat
  | codeBlock _ _ => 1
  | blockquote content => codeBlocksAll content
  | _ => 0

def codeBlocksAll : List Node → Nat
  | [] => 0
  | n :: rest => codeBlocks n + codeBlocksAll rest

end

mutual

/-- The index of the code block whose text holds the cursor, at or below a node before which
there are `index` code blocks. Nodes that start beyond the cursor are not looked into. -/
def regionAround (cursor : Nat) (n : Node) (pos index : Nat) : Option Nat :=
  if cursor < pos then none
  else match n with
    | codeBlock _ _ => if pos < cursor && cursor < pos + n.size then some index else none
    | blockquote content => regionAroundAll cursor content (pos + 1) index
    | _ => none

/-- The index of the code block whose text holds the cursor, in a sequence. -/
def regionAroundAll (cursor : Nat) : List Node → Nat → Nat → Option Nat
  | [], _, _ => none
  | n :: rest, pos, index =>
    (regionAround cursor n pos index).or
      (regionAroundAll cursor rest (pos + n.size) (index + n.codeBlocks))

end

end Node

/-- A code block found in a document: its place, its attributes and its text. -/
structure CodeRegion where
  index : Nat
  start : Nat
  stop : Nat
  language : Option String
  theme : Option String
  text : String
  deriving DecidableEq, Repr

namespace CodeRegion

def contentStart (r : CodeRegion) : Nat := r.start + 1

def contentStop (r : CodeRegion) : Nat := r.stop - 1

def containsCursor (r : CodeRegion) (pos : Nat) : Bool :=
  r.contentStart ≤ pos && pos ≤ r.contentStop

def touches (r : CodeRegion) (start stop : Nat) : Bool :=
  start ≤ r.contentStop && r.contentStart ≤ stop

def chars (r : CodeRegion) : Nat := r.contentStop - r.contentStart

end CodeRegion

namespace Document

def same (a b : Document) : Bool := Node.sameAll a.content b.content

def size (d : Document) : Nat := Node.sizes d.content

def visit (d : Document) (into : Node → Nat → Bool) : List (Nat × Node) :=
  Node.visitAll into d.content 0

def nodes (d : Document) : List (Nat × Node) := d.visit fun _ _ => true

def nodesWhere (d : Document) (p : Node → Bool) : List (Nat × Node) :=
  Node.searchAll p d.content 0

def regions (d : Document) : List CodeRegion :=
  ((d.nodesWhere Node.isCodeBlock).mapIdx fun index (start, n) =>
    { index, start, stop := start + n.size,
      language := n.codeAttrs?.bind (·.language), theme := n.codeAttrs?.bind (·.theme),
      text := n.text?.getD "" })

def regionCount (d : Document) : Nat := (d.nodesWhere Node.isCodeBlock).length

def regionAt (d : Document) (pos : Nat) : Option Nat := Node.regionAroundAll pos d.content 0 0

def nodeAt (d : Document) (pos : Nat) : Option Node := Node.startingAtAll pos d.content 0

end Document

end CodeTint
