import CodeTint.Document.Basic

/-!
The four changes of a document: text replaced inside one text block, a node inserted or deleted at
a block boundary, and an attribute of a code block written. Each is refused where it makes no
sense, with the cause.
-/

set_option autoImplicit false
set_option relaxedAutoImplicit false

namespace CodeTint

/-- Why a change is refused. -/
inductive TransformError where
  | outOfRange (pos size : Nat)
  | notInTextblock (start stop : Nat)
  /-- A node cannot be inserted where no two blocks meet. -/
  | notABlockBoundary (pos : Nat)
  | noNodeAt (pos : Nat)
  | notACodeBlock (pos : Nat)
  deriving DecidableEq, Repr

def TransformError.message : TransformError → String
  | .outOfRange pos size =>
    "position " ++ toString pos ++ " outside document of size " ++ toString size
  | .notInTextblock start stop =>
    "range " ++ toString start ++ ".." ++ toString stop ++
      " does not lie inside a single textblock"
  | .notABlockBoundary pos => "position " ++ toString pos ++ " is not a block boundary"
  | .noNodeAt pos => "no node starts at position " ++ toString pos
  | .notACodeBlock pos => "node at " ++ toString pos ++ " is not a code block"

def spliceText (s : String) (start stop : Nat) (new : String) : String :=
  String.ofList (s.toList.take start ++ new.toList ++ s.toList.drop stop)

namespace Node

mutual

/-- Replace text inside a node that starts at `pos`; nothing if the range is in no text block
there. -/
def replaceText? (start stop : Nat) (new : String) (n : Node) (pos : Nat) : Option Node :=
  if pos < start && stop < pos + n.size then
    match n with
    | paragraph t => some (paragraph (spliceText t (start - pos - 1) (stop - pos - 1) new))
    | heading l t => some (heading l (spliceText t (start - pos - 1) (stop - pos - 1) new))
    | codeBlock a t => some (codeBlock a (spliceText t (start - pos - 1) (stop - pos - 1) new))
    | blockquote c => (replaceTextAll? start stop new c (pos + 1)).map blockquote
    | horizontalRule => none
  else none

def replaceTextAll? (start stop : Nat) (new : String) : List Node → Nat → Option (List Node)
  | [], _ => none
  | n :: rest, pos =>
    match replaceText? start stop new n pos with
    | some m => some (m :: rest)
    | none => (replaceTextAll? start stop new rest (pos + n.size)).map (n :: ·)

end

mutual

/-- Insert a node strictly inside a node that starts at `pos`. -/
def insertInside? (at_ : Nat) (new : Node) (n : Node) (pos : Nat) : Option Node :=
  match n with
  | blockquote c =>
    if pos < at_ && at_ < pos + n.size then
      (insertAll? at_ new c (pos + 1)).map blockquote
    else none
  | _ => none

/-- Insert a node into a sequence that starts at `pos`, at one of its boundaries or deeper. -/
def insertAll? (at_ : Nat) (new : Node) : List Node → Nat → Option (List Node)
  | [], pos => if pos = at_ then some [new] else none
  | n :: rest, pos =>
    if pos = at_ then some (new :: n :: rest)
    else match insertInside? at_ new n pos with
      | some m => some (m :: rest)
      | none => (insertAll? at_ new rest (pos + n.size)).map (n :: ·)

end

mutual

/-- Delete a node strictly inside a node that starts at `pos`; the deleted node is given too. -/
def deleteInside? (at_ : Nat) (n : Node) (pos : Nat) : Option (Node × Node) :=
  match n with
  | blockquote c =>
    if pos < at_ && at_ < pos + n.size then
      (deleteAll? at_ c (pos + 1)).map fun (c, gone) => (blockquote c, gone)
    else none
  | _ => none

/-- Delete the node that starts at a position from a sequence; the deleted node is given too. -/
def deleteAll? (at_ : Nat) : List Node → Nat → Option (List Node × Node)
  | [], _ => none
  | n :: rest, pos =>
    if pos = at_ then some (rest, n)
    else match deleteInside? at_ n pos with
      | some (m, gone) => some (m :: rest, gone)
      | none => (deleteAll? at_ rest (pos + n.size)).map fun (rest, gone) => (n :: rest, gone)

end

mutual

/-- Change the node that starts at a position, at or below a node that starts at `pos`. -/
def updateAt? (f : Node → Option Node) (at_ : Nat) (n : Node) (pos : Nat) : Option Node :=
  if pos = at_ then f n
  else match n with
    | blockquote c =>
      if pos < at_ && at_ < pos + n.size then
        (updateAtAll? f at_ c (pos + 1)).map blockquote
      else none
    | _ => none

/-- Change the node that starts at a position in a sequence that starts at `pos`. -/
def updateAtAll? (f : Node → Option Node) (at_ : Nat) : List Node → Nat → Option (List Node)
  | [], _ => none
  | n :: rest, pos =>
    match updateAt? f at_ n pos with
    | some m => some (m :: rest)
    | none => (updateAtAll? f at_ rest (pos + n.size)).map (n :: ·)

end

def setAttr? (attr : CodeAttr) (value : Option String) : Node → Option Node
  | codeBlock attrs text => some (codeBlock (attrs.set attr value) text)
  | _ => none

end Node

namespace Document

/-- Replace the text from `start` up to `stop`, which has to be inside one text block. -/
def replaceText (d : Document) (start stop : Nat) (new : String) :
    Except TransformError (List Node) :=
  if start > stop || stop > d.size then .error (.outOfRange stop d.size)
  else match Node.replaceTextAll? start stop new d.content 0 with
    | some content => .ok content
    | none => .error (.notInTextblock start stop)

def insertNode (d : Document) (pos : Nat) (n : Node) : Except TransformError (List Node) :=
  match Node.insertAll? pos n d.content 0 with
  | some content => .ok content
  | none => .error (.notABlockBoundary pos)

def deleteNode (d : Document) (pos : Nat) : Except TransformError (List Node × Node) :=
  match Node.deleteAll? pos d.content 0 with
  | some result => .ok result
  | none => .error (.noNodeAt pos)

/-- Write an attribute of the code block that starts at a position. -/
def setAttr (d : Document) (pos : Nat) (attr : CodeAttr) (value : Option String) :
    Except TransformError (List Node) :=
  match d.nodeAt pos with
  | none => .error (.noNodeAt pos)
  | some _ =>
    match Node.updateAtAll? (Node.setAttr? attr value) pos d.content 0 with
    | some content => .ok content
    | none => .error (.notACodeBlock pos)

end Document

end CodeTint
