/-!
Tags: what a document says that a value of it is. A tag is a run of bytes, since percent escapes may
give any; only one that is text names a choice.
-/

set_option autoImplicit false
set_option relaxedAutoImplicit false

namespace CodeTint.Yaml

structure Tag where
  bytes : List UInt8
  deriving DecidableEq, Repr, Inhabited

namespace Tag

def ofString (s : String) : Tag := ⟨s.toUTF8.toList⟩

def append (a b : Tag) : Tag := ⟨a.bytes ++ b.bytes⟩

def isEmpty (t : Tag) : Bool := t.bytes.isEmpty

def mark : UInt8 := 0x21

def plain : Tag := ⟨[mark]⟩

def isLocal (t : Tag) : Bool := t.bytes.head? == some mark

/-- The choice that it names: what follows the mark of a tag of the document's own, or that mark
alone. -/
def name? (t : Tag) : Option String :=
  if t.isLocal then
    String.fromUTF8? ⟨(if t.bytes.tail.isEmpty then t.bytes else t.bytes.tail).toArray⟩
  else none

def isStandard (t : Tag) (name : String) : Bool := t == ofString ("tag:yaml.org,2002:" ++ name)

/-- How many bytes a character has that begins with a byte; none begins with the others. -/
def width? (lead : UInt8) : Option Nat :=
  if lead &&& 0x80 == 0 then some 1
  else if lead &&& 0xE0 == 0xC0 then some 2
  else if lead &&& 0xF0 == 0xE0 then some 3
  else if lead &&& 0xF8 == 0xF0 then some 4
  else none

/-- Bytes that are no more than leading bytes, each with as many others as it asks for. -/
def isRun : Nat → List UInt8 → Bool
  | 0, [] => true
  | _ + 1, [] => false
  | 0, b :: rest => match width? b with
    | some n => isRun (n - 1) rest
    | none => false
  | n + 1, b :: rest => b &&& 0xC0 == 0x80 && isRun n rest

end Tag

end CodeTint.Yaml
