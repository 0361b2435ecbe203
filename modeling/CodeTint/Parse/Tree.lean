import CodeTint.Parse.Grammar

/-!
Trees of parsed text. A piece of text that fits nowhere is part of the tree too, at a cost: of all
trees of a text the cheapest counts.
-/

set_option autoImplicit false
set_option relaxedAutoImplicit false

namespace CodeTint.Parse

structure Extent where
  bytes : Nat := 0
  chars : Nat := 0
  breaks : Nat := 0
  deriving DecidableEq, Repr, Inhabited

namespace Extent

def add (a b : Extent) : Extent :=
  ⟨a.bytes + b.bytes, a.chars + b.chars, a.breaks + b.breaks⟩

def drop (a b : Extent) : Extent :=
  ⟨a.bytes - b.bytes, a.chars - b.chars, a.breaks - b.breaks⟩

def ofChar (c : Char) : Extent := ⟨c.utf8Size, 1, if c == '\n' then 1 else 0⟩

def length (e : Extent) : Measure → Nat
  | .bytes => e.bytes
  | .characters => e.chars

end Extent

/-- What a tree is a piece of. -/
inductive Label (T N : Type) where
  | token (t : T)
  | stop
  | rule (n : N)
  | fault
  | faultPart
  deriving DecidableEq, Repr

/-- What it costs that a part of the text is passed over, or that something is missing. -/
structure Costs where
  recovery : Nat := 500
  missing : Nat := 110
  skippedTree : Nat := 100
  skippedLength : Nat := 1
  skippedBreak : Nat := 30

def costs : Costs := {}

/-- A piece of text. -/
structure Tree (T N : Type) where
  label : Label T N
  padding : Extent := {}
  size : Extent := {}
  extra : Bool := false
  missing : Bool := false
  cost : Nat := 0
  shownChildren : Nat := 0
  shownBelow : Nat := 0
  children : List (Tree T N) := []

namespace Tree

variable {T N : Type} [BEq T] [BEq N]

instance : Inhabited (Tree T N) := ⟨{ label := .stop }⟩

def total (t : Tree T N) : Extent := t.padding.add t.size

def isFault (t : Tree T N) : Bool := t.label matches .fault

def shows (g : Grammar T N) : Label T N → Bool
  | .token t => g.isVisible t
  | .stop => false
  | .rule n => g.visibility n == .shown
  | .fault => true
  | .faultPart => false

def leaf (label : Label T N) (padding size : Extent) : Tree T N :=
  { label, padding, size, extra := label matches .stop }

def absent (t : T) : Tree T N :=
  { label := .token t, missing := true, cost := costs.missing + costs.recovery }

def skipCost (g : Grammar T N) (t : Tree T N) : Nat :=
  if t.extra || (t.isFault && t.children.isEmpty) then 0
  else if shows g t.label then costs.skippedTree
  else if t.children.isEmpty then 0
  else costs.skippedTree * t.shownChildren

/-- A tree of some pieces in order. -/
def node (g : Grammar T N) (label : Label T N) (children : List (Tree T N))
    (extra : Bool := false) : Tree T N :=
  let padding := (children.head?.map (·.padding)).getD {}
  let size := match children with
    | [] => {}
    | c :: rest => rest.foldl (fun e t => e.add t.total) c.size
  let inner := children.foldl (fun n t => n + if t.label matches .faultPart then 0 else t.cost) 0
  let faulty := match label with
    | .fault | .faultPart => true
    | _ => false
  let own := if faulty then
      costs.recovery + costs.skippedLength * size.length g.measure +
        costs.skippedBreak * size.breaks +
        children.foldl (fun n t => n + t.skipCost g) 0
    else 0
  { label, padding, size, extra, children
    cost := inner + own
    shownChildren := children.foldl (fun n t =>
      n + if shows g t.label then 1 else t.shownChildren) 0
    shownBelow := children.foldl (fun n t =>
      n + t.shownBelow + if shows g t.label then 1 else 0) 0 }

def count (g : Grammar T N) (t : Tree T N) : Nat :=
  t.shownBelow + (if shows g t.label then 1 else 0) +
    (if t.label matches .faultPart then 1 else 0)

def splitExtras (ts : List (Tree T N)) : List (Tree T N) × List (Tree T N) :=
  let extras := (ts.reverse.takeWhile (·.extra)).reverse
  (ts.take (ts.length - extras.length), extras)

/-- Of two trees for one text the second is better: it costs less, or as much where neither is
without cost. -/
def prefersSecond (a b : Tree T N) : Bool := b.cost < a.cost || (a.cost == b.cost && 0 < a.cost)

def sameLabel : Label T N → Label T N → Bool
  | .token s, .token t => s == t
  | .stop, .stop => true
  | .rule m, .rule n => m == n
  | .fault, .fault => true
  | .faultPart, .faultPart => true
  | _, _ => false

def alike (a b : Tree T N) : Bool :=
  sameLabel a.label b.label &&
    ((0 < a.cost && 0 < b.cost) ||
      (a.padding.bytes == b.padding.bytes && a.size.bytes == b.size.bytes &&
        a.children.length == b.children.length && a.extra == b.extra))

/-! ### The pieces of a tree -/

/-- A piece of text in its place. -/
structure Piece (T N : Type) where
  label : Label T N
  start : Nat
  stop : Nat
  above : Option (Label T N)
  /-- Of what is directly below that node and may not stand anywhere, it is the first. -/
  first : Bool

mutual

def pieces (g : Grammar T N) (above : Option (Label T N)) (first : Bool) (pos : Nat) :
    Tree T N → List (Piece T N)
  | ⟨label, padding, size, _, _, _, _, _, children⟩ =>
    let start := pos + padding.chars
    let here : Piece T N := ⟨label, start, start + size.chars, above, first⟩
    let shown := shows g label
    here :: piecesOf g (if shown then some label else above) (shown || first) pos children

def piecesOf (g : Grammar T N) (above : Option (Label T N)) (first : Bool) (pos : Nat) :
    List (Tree T N) → List (Piece T N)
  | [] => []
  | t :: rest =>
    pieces g above (first && !t.extra) pos t ++
      piecesOf g above (first && t.extra) (pos + t.total.chars) rest

end

end Tree

end CodeTint.Parse
