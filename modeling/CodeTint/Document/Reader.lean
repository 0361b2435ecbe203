import CodeTint.Document.Basic
import CodeTint.Json.Reader

/-!
Documents read from JSON. A document is an object with the field `content`; a node is an object
whose field `type` names its kind. A record may also be written as an array of its fields in order,
and a node as an array of its kind and its fields. The nodes of the outermost list are checked one
by one while the text is read, so an ill-typed node is reported before a flaw that comes after it.
-/

set_option autoImplicit false
set_option relaxedAutoImplicit false

namespace CodeTint

open Json (Value ReadError Flaw)

namespace Node

def kindWords : List String :=
  ["paragraph", "heading", "code_block", "blockquote", "horizontal_rule"]

def kinds : List NodeKind := [.paragraph, .heading, .codeBlock, .blockquote, .horizontalRule]

def kindOfWord (word : String) : Except ReadError NodeKind :=
  match (kindWords.zip kinds).lookup word with
  | some k => .ok k
  | none => .error (.unknownVariant word kindWords)

/-- The kind that a value inside a block quote names; there a number counts as well. -/
def kindOfValue : Value → Except ReadError NodeKind
  | .text s => kindOfWord s
  | .natural n =>
    match kinds[n]? with
    | some k => .ok k
    | none => .error (.invalidValue (.natural n) "variant index 0 <= i < 5")
  | v => .error (.invalidType v "variant identifier")

def textOf : Value → Except ReadError String
  | .text s => .ok s
  | v => .error (.invalidType v "a string")

def optionalTextOf : Value → Except ReadError (Option String)
  | .null => .ok none
  | v => (textOf v).map some

def levelOf : Value → Except ReadError UInt8
  | .natural n =>
    if n < 256 then .ok (UInt8.ofNat n) else .error (.invalidValue (.natural n) "u8")
  | .negative n => .error (.invalidValue (.negative n) "u8")
  | v => .error (.invalidType v "u8")

def elementCount (n : Nat) : String :=
  if n == 1 then "1 element in sequence" else toString n ++ " elements in sequence"

/-- The value of a field among the members of an object; a field must not recur. Members are
checked in order by `check`, and unknown ones are passed over. -/
def fieldsOf {σ : Type} (known : List String) (put : σ → String → Value → Except ReadError σ)
    (start : σ) (members : List (String × Value)) : Except ReadError σ := do
  let step (acc : σ × List String) (m : String × Value) : Except ReadError (σ × List String) :=
    if known.contains m.1 then
      if acc.2.contains m.1 then .error (.duplicateField m.1)
      else do return (← put acc.1 m.1 m.2, m.1 :: acc.2)
    else .ok acc
  return (← members.foldlM step (start, [])).1

/-- The elements of an array taken as the known fields in order; none may be left over. -/
def elementsOf {σ : Type} (known : List String) (put : σ → String → Value → Except ReadError σ)
    (start : σ) (items : List Value) : Except ReadError σ := do
  let result ← (known.zip items).foldlM (fun acc (name, v) => put acc name v) start
  if items.length > known.length then
    throw (.invalidLength items.length (elementCount known.length))
  return result

def attrsOf (v : Value) : Except ReadError CodeAttrs :=
  let put (a : CodeAttrs) (name : String) (v : Value) : Except ReadError CodeAttrs :=
    if name == "language" then do return { a with language := ← optionalTextOf v }
    else do return { a with theme := ← optionalTextOf v }
  let known := ["language", "theme"]
  match v with
  | .object members => fieldsOf known put {} members
  | .array items => elementsOf known put {} items
  | v => .error (.invalidType v "struct CodeBlockAttrs")

def fieldNames : NodeKind → List String
  | .paragraph => ["text"]
  | .heading => ["level", "text"]
  | .codeBlock => ["attrs", "text"]
  | .blockquote => ["content"]
  | .horizontalRule => []

structure Fields where
  text : String := ""
  level : UInt8 := 1
  attrs : CodeAttrs := {}
  content : List Node := []

def ofFields (kind : NodeKind) (f : Fields) : Node :=
  match kind with
  | .paragraph => .paragraph f.text
  | .heading => .heading f.level f.text
  | .codeBlock => .codeBlock f.attrs f.text
  | .blockquote => .blockquote f.content
  | .horizontalRule => .horizontalRule

/-- The kind and the remaining members of an object. -/
def splitKind (kindOf : Value → Except ReadError NodeKind) (members : List (String × Value)) :
    Except ReadError (NodeKind × List (String × Value)) := do
  let step (acc : Option NodeKind) (m : String × Value) : Except ReadError (Option NodeKind) :=
    if m.1 == "type" then
      if acc.isSome then .error (.duplicateField "type") else do return some (← kindOf m.2)
    else .ok acc
  match ← members.foldlM step none with
  | some k => return (k, members.filter fun m => m.1 != "type")
  | none => throw (.missingField "type")

mutual

def ofMembers (fuel : Nat) (kind : NodeKind) (members : List (String × Value)) :
    Except ReadError Node :=
  match fuel with
  | 0 => .error (.flaw .depth)
  | fuel + 1 => do
    return ofFields kind (← fieldsOf (fieldNames kind) (putField fuel) {} members)

def ofElements (fuel : Nat) (kind : NodeKind) (items : List Value) : Except ReadError Node :=
  match fuel with
  | 0 => .error (.flaw .depth)
  | fuel + 1 => do
    return ofFields kind (← elementsOf (fieldNames kind) (putField fuel) {} items)

def putField (fuel : Nat) (f : Fields) (name : String) (v : Value) : Except ReadError Fields :=
  match fuel with
  | 0 => .error (.flaw .depth)
  | fuel + 1 =>
    match name with
    | "text" => do return { f with text := ← textOf v }
    | "level" => do return { f with level := ← levelOf v }
    | "attrs" => do return { f with attrs := ← attrsOf v }
    | _ =>
      match v with
      | .array items => do return { f with content := ← ofValues fuel items }
      | v => .error (.invalidType v "a sequence")

def ofValue (fuel : Nat) (v : Value) : Except ReadError Node :=
  match fuel with
  | 0 => .error (.flaw .depth)
  | fuel + 1 =>
    match v with
    | .object members => do
      let (kind, members) ← splitKind kindOfValue members
      ofMembers fuel kind members
    | .array [] => .error (.missingField "type")
    | .array (k :: items) => do ofElements fuel (← kindOfValue k) items
    | v => .error (.invalidType v "internally tagged enum Node")

def ofValues (fuel : Nat) (vs : List Value) : Except ReadError (List Node) :=
  match fuel, vs with
  | _, [] => .ok []
  | 0, _ :: _ => .error (.flaw .depth)
  | fuel + 1, v :: vs => do return (← ofValue fuel v) :: (← ofValues fuel vs)

end

end Node

namespace Document.Reader

abbrev Front (α : Type) := α × List Char

def flawed {α : Type} (r : Except Flaw α) : Except ReadError α := r.mapError .flaw

/-- The error for a value that is not of the wanted shape. An array or object is not read. -/
def wrongType {α : Type} (fuel : Nat) (wanted : String) (cs : List Char) :
    Except ReadError (Front α) :=
  match Json.skipGap cs with
  | [] => .error (.flaw .endInValue)
  | '[' :: _ => .error (.invalidType (.array []) wanted)
  | '\x7b' :: _ => .error (.invalidType (.object []) wanted)
  | cs => do
    let (v, _) ← flawed (Json.take fuel Json.maxDepth cs)
    throw (.invalidType v wanted)

def takeKind (fuel : Nat) (cs : List Char) : Except ReadError (Front NodeKind) :=
  match Json.skipGap cs with
  | '"' :: rest => do
    let (s, rest) ← flawed (Json.takeText rest)
    return (← Node.kindOfWord s, rest)
  | cs => wrongType fuel "variant identifier" cs

/-- The members of a node's object: its kind is checked where it stands. -/
def takeNodeMembers (depth : Nat) : Nat → Bool → Option NodeKind → List Char →
    Except ReadError (Front (NodeKind × List (String × Value)))
  | 0, _, _, _ => .error (.flaw .endInObject)
  | fuel + 1, first, kind, cs => do
    match ← flawed (Json.nextKey first cs) with
    | (none, cs) =>
      match kind with
      | some k => return ((k, []), cs)
      | none => throw (.missingField "type")
    | (some cs, _) =>
      let (key, cs) ← flawed (Json.takeText cs)
      if key == "type" then
        if kind.isSome then throw (.duplicateField "type")
        let (k, cs) ← takeKind fuel (← flawed (Json.takeColon cs))
        takeNodeMembers depth fuel false (some k) cs
      else
        let (v, cs) ← flawed (do Json.take fuel depth (← Json.takeColon cs))
        let ((k, members), cs) ← takeNodeMembers depth fuel false kind cs
        return ((k, (key, v) :: members), cs)

def takeNode (fuel depth : Nat) (cs : List Char) : Except ReadError (Front Node) :=
  match Json.skipGap cs with
  | '\x7b' :: rest =>
    if depth ≤ 1 then .error (.flaw .depth)
    else do
      let ((kind, members), rest) ← takeNodeMembers (depth - 1) fuel true none rest
      let rest ← flawed (Json.takeBrace rest)
      return (← Node.ofMembers fuel kind members, rest)
  | '[' :: rest =>
    if depth ≤ 1 then .error (.flaw .depth)
    else do
      let (more, rest) ← flawed (Json.nextItem true rest)
      if !more then throw (.missingField "type")
      let (kind, rest) ← takeKind fuel rest
      let (items, rest) ← flawed (Json.takeItems fuel (depth - 1) false rest)
      let rest ← flawed (Json.takeBracket rest)
      return (← Node.ofElements fuel kind items, rest)
  | '"' :: _ | '-' :: _ | 'n' :: _ | 't' :: _ | 'f' :: _ =>
    wrongType fuel "internally tagged enum Node" cs
  | c :: _ =>
    if c.isDigit then wrongType fuel "internally tagged enum Node" cs else .error (.flaw .value)
  | [] => .error (.flaw .endInValue)

/-- The nodes of the outermost list up to its bracket. -/
def takeNodes (depth : Nat) : Nat → Bool → List Char →
    Except ReadError (Front (List Node))
  | 0, _, _ => .error (.flaw .endInList)
  | fuel + 1, first, cs => do
    let (more, cs) ← flawed (Json.nextItem first cs)
    if more then
      let (n, cs) ← takeNode fuel depth cs
      let (ns, cs) ← takeNodes depth fuel false cs
      return (n :: ns, cs)
    else return ([], cs)

def takeContent (fuel depth : Nat) (cs : List Char) : Except ReadError (Front (List Node)) :=
  match Json.skipGap cs with
  | '[' :: rest =>
    if depth ≤ 1 then .error (.flaw .depth)
    else do
      let (nodes, rest) ← takeNodes (depth - 1) fuel true rest
      return (nodes, ← flawed (Json.takeBracket rest))
  | cs => wrongType fuel "a sequence" cs

/-- The members of a document's object: its content is checked where it stands. -/
def takeMembers (depth : Nat) : Nat → Bool → Option (List Node) → List Char →
    Except ReadError (Front (List Node))
  | 0, _, _, _ => .error (.flaw .endInObject)
  | fuel + 1, first, content, cs => do
    match ← flawed (Json.nextKey first cs) with
    | (none, cs) =>
      match content with
      | some nodes => return (nodes, cs)
      | none => throw (.missingField "content")
    | (some cs, _) =>
      let (key, cs) ← flawed (Json.takeText cs)
      if key == "content" then
        if content.isSome then throw (.duplicateField "content")
        let (nodes, cs) ← takeContent fuel depth (← flawed (Json.takeColon cs))
        takeMembers depth fuel false (some nodes) cs
      else
        let cs ← flawed (do Json.skipValue (← Json.takeColon cs))
        takeMembers depth fuel false content cs

/-- A document and what follows it. -/
def takeDocument (fuel : Nat) (cs : List Char) : Except ReadError (Front (List Node)) :=
  let depth := Json.maxDepth
  match Json.skipGap cs with
  | '\x7b' :: rest => do
    let (nodes, rest) ← takeMembers (depth - 1) fuel true none rest
    return (nodes, ← flawed (Json.takeBrace rest))
  | '[' :: rest => do
    let (more, rest) ← flawed (Json.nextItem true rest)
    if !more then throw (.invalidLength 0 "struct Document with 1 element")
    let (nodes, rest) ← takeContent fuel (depth - 1) rest
    return (nodes, ← flawed (Json.takeBracket rest))
  | cs => wrongType fuel "struct Document" cs

end Document.Reader

namespace Document

def parse (json : String) : Except ReadError (List Node) := do
  let cs := json.toList
  let (nodes, rest) ← Reader.takeDocument (4 * cs.length + 8) cs
  if (Json.skipGap rest).isEmpty then return nodes else throw (.flaw .trailing)

/-- The snapshot that a JSON text describes, and the clock after it. Its version is what the clock
shows. -/
def ofJson (clock : Nat) (json : String) : Except ReadError (Document × Nat) := do
  return (⟨← parse json, clock⟩, clock + 1)

end Document

end CodeTint
