import CodeTint.Decoration.Basic
import CodeTint.Document.Writer

/-!
A set of decorations as JSON: what a renderer receives, with the keys of every object in
alphabetical order.
-/

set_option autoImplicit false
set_option relaxedAutoImplicit false

namespace CodeTint

def Json.writeOptional (key : String) (value : Option String) : List (List Char) :=
  (value.map fun s => Json.writeMember key (Json.writeString s)).toList

def Presentation.write (depth : Nat) (p : Presentation) : List Char :=
  Json.writeObject depth
    (Json.writeOptional "class" p.className ++
      Json.writeOptional "data-language" p.dataLanguage ++
      Json.writeOptional "style" p.style)

def Decoration.write (depth : Nat) (d : Decoration) : List Char :=
  Json.writeObject depth
    [Json.writeMember "attrs" (d.shown.write (depth + 1)),
      Json.writeMember "from" (Json.writeNat d.start),
      Json.writeMember "to" (Json.writeNat d.stop),
      Json.writeMember "type" (Json.writeString (if d.isInline then "inline" else "node"))]

def DecorationSet.toJson (s : DecorationSet) : String :=
  String.ofList <| Json.writeObject 0
    [Json.writeMember "decorations"
        (Json.writeArray 1 (s.decorations.map (·.write 2))),
      Json.writeMember "version" (Json.writeNat s.version)]

end CodeTint
