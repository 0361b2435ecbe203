import CodeTint.Document.Basic
import CodeTint.Json.Value

/-!
Documents written as JSON with an indentation of two spaces. The fields of a node follow its kind in
a fixed order; of the attributes of a code block those that are set are written.
-/

set_option autoImplicit false
set_option relaxedAutoImplicit false

namespace CodeTint.Json

/-- A character inside the quotes of a string. -/
def escapeChar (c : Char) : List Char :=
  match c with
  | '"' => ['\\', '"']
  | '\\' => ['\\', '\\']
  | '\x08' => ['\\', 'b']
  | '\t' => ['\\', 't']
  | '\n' => ['\\', 'n']
  | '\x0c' => ['\\', 'f']
  | '\r' => ['\\', 'r']
  | _ => if c.toNat < 0x20 then '\\' :: 'u' :: Text.lowerHex 4 c.toNat else [c]

def writeString (s : String) : List Char :=
  '"' :: s.toList.flatMap escapeChar ++ ['"']

def newline (depth : Nat) : List Char := '\n' :: List.replicate (2 * depth) ' '

/-- Written pieces, separated by commas and each on its own line, between two brackets. -/
def writeBlock (opening closing : Char) (depth : Nat) (pieces : List (List Char)) : List Char :=
  match pieces with
  | [] => [opening, closing]
  | first :: rest =>
    opening :: newline (depth + 1) ++ first ++
      rest.flatMap (fun p => ',' :: newline (depth + 1) ++ p) ++ newline depth ++ [closing]

def writeMember (key : String) (value : List Char) : List Char :=
  writeString key ++ ':' :: ' ' :: value

def writeObject (depth : Nat) (members : List (List Char)) : List Char :=
  writeBlock '\x7b' '\x7d' depth members

def writeArray (depth : Nat) (items : List (List Char)) : List Char :=
  writeBlock '[' ']' depth items

def writeNat (n : Nat) : List Char := (toString n).toList

end CodeTint.Json

namespace CodeTint

namespace Node

def writeAttrs (depth : Nat) (a : CodeAttrs) : List Char :=
  Json.writeObject depth
    ((a.language.map fun s => Json.writeMember "language" (Json.writeString s)).toList ++
      (a.theme.map fun s => Json.writeMember "theme" (Json.writeString s)).toList)

def writeKind (k : NodeKind) : List Char := Json.writeMember "type" (Json.writeString k.word)

def writeText (s : String) : List Char := Json.writeMember "text" (Json.writeString s)

mutual

/-- A written node, its object at a depth. -/
def write (depth : Nat) : Node → List Char
  | paragraph text => Json.writeObject depth [writeKind .paragraph, writeText text]
  | heading level text =>
    Json.writeObject depth
      [writeKind .heading, Json.writeMember "level" (Json.writeNat level.toNat), writeText text]
  | codeBlock attrs text =>
    Json.writeObject depth
      [writeKind .codeBlock, Json.writeMember "attrs" (writeAttrs (depth + 1) attrs),
        writeText text]
  | blockquote content =>
    Json.writeObject depth
      [writeKind .blockquote,
        Json.writeMember "content" (Json.writeArray (depth + 1) (writeAll (depth + 2) content))]
  | horizontalRule => Json.writeObject depth [writeKind .horizontalRule]

def writeAll (depth : Nat) : List Node → List (List Char)
  | [] => []
  | n :: rest => write depth n :: writeAll depth rest

end

end Node

namespace Document

def toJson (d : Document) : String :=
  String.ofList <| Json.writeObject 0
    [Json.writeMember "content" (Json.writeArray 1 (Node.writeAll 2 d.content))]

end Document

end CodeTint
