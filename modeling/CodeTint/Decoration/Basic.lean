import CodeTint.Document.Basic
import CodeTint.Position.Mapping
import CodeTint.Style.Span

/-!
Decorations: what a renderer shows over a document, in positions of one snapshot. A set of them is
sorted by where they start; it can be carried through an edit, which drops what the edit collapsed
and refuses positions that the new document does not have.
-/

set_option autoImplicit false
set_option relaxedAutoImplicit false

namespace CodeTint

structure Presentation where
  className : Option String := none
  style : Option String := none
  dataLanguage : Option String := none
  deriving DecidableEq, Repr, Inhabited

inductive Decoration where
  | inline (start stop : Nat) (shown : Presentation) (span : SpanStyle)
  | node (start stop : Nat) (shown : Presentation)
  deriving DecidableEq, Repr

/-- Why decorations cannot be carried into a document: a position lies beyond it. -/
structure RemapError where
  pos : Nat
  size : Nat
  deriving DecidableEq, Repr

/-- The wording of a remap error. The limit of positions stands for one that fell below zero. -/
def RemapError.message (e : RemapError) : String :=
  if e.pos = Position.limit then
    "mapped position underflowed (document size " ++ toString e.size ++ ")"
  else
    "mapped position " ++ toString e.pos ++ " outside document of size " ++ toString e.size

namespace Decoration

def start : Decoration → Nat
  | inline start _ _ _ => start
  | node start _ _ => start

def stop : Decoration → Nat
  | inline _ stop _ _ => stop
  | node _ stop _ => stop

def shown : Decoration → Presentation
  | inline _ _ shown _ => shown
  | node _ _ shown => shown

def span? : Decoration → Option SpanStyle
  | inline _ _ _ span => some span
  | node _ _ _ => none

def isInline (d : Decoration) : Bool := d.span?.isSome

def overlaps (d : Decoration) (start stop : Nat) : Bool := d.start < stop && start < d.stop

def checked (size pos : Nat) : Except RemapError Nat :=
  if size < pos then .error ⟨pos, size⟩ else .ok pos

/-- A decoration carried through an edit into a document of a size, or nothing if the edit
collapsed it. Text inserted at either end stays outside. -/
def remap (m : Mapping) (size : Nat) (d : Decoration) : Except RemapError (Option Decoration) := do
  let first := m.place d.start .after
  let last := m.place d.stop .before
  let start ← checked size first.pos
  let stop ← checked size last.pos
  return match d with
  | inline _ _ shown span => if stop ≤ start then none else some (inline start stop shown span)
  | node _ _ shown =>
    if (first.deleted && last.deleted) || stop ≤ start then none
    else some (node start stop shown)

end Decoration

structure DecorationSet where
  version : Nat := 0
  decorations : List Decoration := []
  deriving DecidableEq, Repr, Inhabited

namespace DecorationSet

def ofList (version : Nat) (decorations : List Decoration) : DecorationSet :=
  ⟨version, decorations.mergeSort fun a b => a.start ≤ b.start⟩

def inlines (s : DecorationSet) : List Decoration := s.decorations.filter (·.isInline)

def nodes (s : DecorationSet) : List Decoration := s.decorations.filter (!·.isInline)

def overlapping (s : DecorationSet) (start stop : Nat) : List Decoration :=
  s.decorations.filter (·.overlaps start stop)

def same (a b : DecorationSet) : Bool := a.decorations = b.decorations

def remap (s : DecorationSet) (m : Mapping) (target : Document) :
    Except RemapError DecorationSet := do
  let carried ← s.decorations.mapM (·.remap m target.size)
  return ofList target.version (carried.filterMap id)

end DecorationSet

end CodeTint
