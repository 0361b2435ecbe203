import CodeTint.Yaml.Scanner

/-!
From tokens to the tree of a document: scalars, sequences, mappings, each with its tag if it has
one, and aliases, which stand for a value of the tree that may hold the alias itself.

An anchor is numbered by how many different names were given before. A name that is given again
therefore takes the number that the next new name takes too, and of the values with one number the
aliases mean the last.
-/

set_option autoImplicit false
set_option relaxedAutoImplicit false

namespace CodeTint.Yaml

inductive Node where
  | scalar (tag : Option Tag) (text : String) (style : ScalarStyle)
  | sequence (tag : Option Tag) (items : List Node)
  | mapping (tag : Option Tag) (entries : List (Node × Node))
  | alias (number : Nat)
  deriving Repr, Inhabited

/-- A document: its value and those that its aliases stand for. -/
structure Tree where
  root : Node
  places : List (Nat × Nat) := []
  values : List (Nat × Node) := []
  deriving Repr, Inhabited

namespace Tree

def target? (t : Tree) (number : Nat) : Option Node :=
  (t.places.lookup number).bind fun place => t.values.lookup place

end Tree

namespace Node

mutual

/-- How many scalars, aliases and ends of collections a value consists of. -/
def weight : Node → Nat
  | .scalar .. => 1
  | .alias _ => 1
  | .sequence _ items => weightOfItems items + 2
  | .mapping _ entries => weightOfEntries entries + 2

def weightOfItems : List Node → Nat
  | [] => 0
  | n :: rest => weight n + weightOfItems rest

def weightOfEntries : List (Node × Node) → Nat
  | [] => 0
  | (k, v) :: rest => weight k + weight v + weightOfEntries rest

end

def empty (tag : Option Tag := none) : Node := .scalar tag "" .plain

/-- The names that earlier parts of a document gave to values and to tag handles. -/
structure Scope where
  anchors : List (String × Nat) := []
  /-- The place of the last value with a number, the latest first. -/
  places : List (Nat × Nat) := []
  values : List (Nat × Node) := []
  handles : List (String × Tag) :=
    [("!", .plain), ("!!", .ofString "tag:yaml.org,2002:")]

structure Properties where
  anchor : Option String := none
  tag : Option Tag := none

abbrev Taken (α : Type) := α × Scope × List Token

def fullTag (scope : Scope) (handle : String) (suffix : Tag) : Except Error Tag :=
  if handle = "" then .ok suffix
  else match scope.handles.lookup handle with
    | some start => .ok (start.append suffix)
    | none => .error .property

def takeProperties (scope : Scope) : List Token → Except Error (Properties × List Token)
  | .anchor a :: .tag h s :: rest => do return (⟨some a, ← fullTag scope h s⟩, rest)
  | .tag h s :: .anchor a :: rest => do return (⟨some a, ← fullTag scope h s⟩, rest)
  | .anchor a :: rest => .ok (⟨some a, none⟩, rest)
  | .tag h s :: rest => do return (⟨none, ← fullTag scope h s⟩, rest)
  | rest => .ok ({}, rest)

def Scope.name (scope : Scope) (p : Properties) : Scope :=
  match p.anchor with
  | some a =>
    let number := scope.anchors.length
    { scope with
      anchors := (a, number) :: scope.anchors.filter (·.1 != a)
      places := (number, scope.places.length) :: scope.places }
  | none => scope

def Scope.bind (scope : Scope) (p : Properties) (place : Nat) (n : Node) : Scope :=
  match p.anchor with
  | some _ => { scope with values := (place, n) :: scope.values }
  | none => scope

def endsBlockEntry : List Token → Bool
  | .key :: _ | .value :: _ | .blockEnd :: _ => true
  | _ => false

def endsBlockItem : List Token → Bool
  | .blockEntry :: _ | .blockEnd :: _ => true
  | _ => false

def endsBareItem : List Token → Bool
  | .blockEntry :: _ | .key :: _ | .value :: _ | .blockEnd :: _ => true
  | _ => false

mutual

/-- A value. `block` allows block collections, `bare` a sequence that is not indented. -/
def take (block bare : Bool) : Nat → Scope → List Token → Except Error (Taken Node)
  | 0, _, _ => .error .arrangement
  | fuel + 1, scope, ts =>
    match ts with
    | .alias a :: rest =>
      match scope.anchors.lookup a with
      | some number => .ok (.alias number, scope, rest)
      | none => .error .property
    | _ => do
      let (p, ts) ← takeProperties scope ts
      let place := scope.places.length
      let (n, scope, ts) ← takeContent block bare p fuel (scope.name p) ts
      return (n, scope.bind p place n, ts)

def takeContent (block bare : Bool) (p : Properties) :
    Nat → Scope → List Token → Except Error (Taken Node)
  | 0, _, _ => .error .arrangement
  | fuel + 1, scope, ts =>
    match ts with
    | .blockEntry :: _ =>
      if bare then do
        let (items, scope, ts) ← takeBareItems fuel scope ts
        return (.sequence p.tag items, scope, ts)
      else if p.anchor.isSome || p.tag.isSome then .ok (empty p.tag, scope, ts)
      else .error .arrangement
    | .scalar text style :: rest =>
      .ok (.scalar (p.tag.filter (· != .plain)) text style, scope, rest)
    | .flowSequenceStart :: rest => do
      let (items, scope, ts) ← takeFlowItems true fuel scope rest
      return (.sequence p.tag items, scope, ts)
    | .flowMappingStart :: rest => do
      let (entries, scope, ts) ← takeFlowEntries true fuel scope rest
      return (.mapping p.tag entries, scope, ts)
    | .blockSequenceStart :: rest =>
      if block then do
        let (items, scope, ts) ← takeBlockItems fuel scope rest
        return (.sequence p.tag items, scope, ts)
      else if p.anchor.isSome || p.tag.isSome then .ok (empty p.tag, scope, ts)
      else .error .arrangement
    | .blockMappingStart :: rest =>
      if block then do
        let (entries, scope, ts) ← takeBlockEntries fuel scope rest
        return (.mapping p.tag entries, scope, ts)
      else if p.anchor.isSome || p.tag.isSome then .ok (empty p.tag, scope, ts)
      else .error .arrangement
    | _ =>
      if p.anchor.isSome || p.tag.isSome then .ok (empty p.tag, scope, ts)
      else .error .arrangement

/-- The items of an indented block sequence up to its end. -/
def takeBlockItems : Nat → Scope → List Token → Except Error (Taken (List Node))
  | 0, _, _ => .error .arrangement
  | fuel + 1, scope, ts =>
    match ts with
    | .blockEnd :: rest => .ok ([], scope, rest)
    | .blockEntry :: rest => do
      let (n, scope, ts) ←
        if endsBlockItem rest then .ok (empty, scope, rest) else take true false fuel scope rest
      let (more, scope, ts) ← takeBlockItems fuel scope ts
      return (n :: more, scope, ts)
    | _ => .error .arrangement

/-- The items of a block sequence at the column of its key. -/
def takeBareItems : Nat → Scope → List Token → Except Error (Taken (List Node))
  | 0, _, _ => .error .arrangement
  | fuel + 1, scope, ts =>
    match ts with
    | .blockEntry :: rest => do
      let (n, scope, ts) ←
        if endsBareItem rest then .ok (empty, scope, rest) else take true false fuel scope rest
      let (more, scope, ts) ← takeBareItems fuel scope ts
      return (n :: more, scope, ts)
    | _ => .ok ([], scope, ts)

/-- The entries of a block mapping up to its end. -/
def takeBlockEntries : Nat → Scope → List Token → Except Error (Taken (List (Node × Node)))
  | 0, _, _ => .error .arrangement
  | fuel + 1, scope, ts =>
    match ts with
    | .blockEnd :: rest => .ok ([], scope, rest)
    | .key :: rest => do
      let (k, scope, ts) ←
        if endsBlockEntry rest then .ok (empty, scope, rest) else take true true fuel scope rest
      let (v, scope, ts) ←
        match ts with
        | .value :: rest =>
          if endsBlockEntry rest then .ok (empty, scope, rest) else take true true fuel scope rest
        | _ => .ok (empty, scope, ts)
      let (more, scope, ts) ← takeBlockEntries fuel scope ts
      return ((k, v) :: more, scope, ts)
    | _ => .error .arrangement

/-- The items of a flow sequence up to its bracket; a pair is a mapping of one entry. -/
def takeFlowItems (first : Bool) : Nat → Scope → List Token → Except Error (Taken (List Node))
  | 0, _, _ => .error .arrangement
  | fuel + 1, scope, ts =>
    match ts with
    | .flowSequenceEnd :: rest => .ok ([], scope, rest)
    | _ => do
      let ts ← match first, ts with
        | true, ts => pure ts
        | false, .flowEntry :: rest => pure rest
        | false, _ => throw Error.arrangement
      match ts with
      | .flowSequenceEnd :: rest => return ([], scope, rest)
      | .key :: rest =>
        let (k, scope, ts) ←
          match rest with
          | .value :: _ | .flowEntry :: _ | .flowSequenceEnd :: _ => .ok (empty, scope, rest)
          | _ => take false false fuel scope rest
        let (v, scope, ts) ←
          match ts with
          | .value :: rest =>
            match rest with
            | .flowEntry :: _ | .flowSequenceEnd :: _ => .ok (empty, scope, rest)
            | _ => take false false fuel scope rest
          | _ => .ok (empty, scope, ts)
        let (more, scope, ts) ← takeFlowItems false fuel scope ts
        return (.mapping none [(k, v)] :: more, scope, ts)
      | _ =>
        let (n, scope, ts) ← take false false fuel scope ts
        let (more, scope, ts) ← takeFlowItems false fuel scope ts
        return (n :: more, scope, ts)

/-- The entries of a flow mapping up to its brace. -/
def takeFlowEntries (first : Bool) :
    Nat → Scope → List Token → Except Error (Taken (List (Node × Node)))
  | 0, _, _ => .error .arrangement
  | fuel + 1, scope, ts =>
    match ts with
    | .flowMappingEnd :: rest => .ok ([], scope, rest)
    | _ => do
      let ts ← match first, ts with
        | true, ts => pure ts
        | false, .flowEntry :: rest => pure rest
        | false, _ => throw Error.arrangement
      match ts with
      | .flowMappingEnd :: rest => return ([], scope, rest)
      | .key :: rest =>
        let (k, scope, ts) ←
          match rest with
          | .value :: _ | .flowEntry :: _ | .flowMappingEnd :: _ => .ok (empty, scope, rest)
          | _ => take false false fuel scope rest
        let (v, scope, ts) ←
          match ts with
          | .value :: rest =>
            match rest with
            | .flowEntry :: _ | .flowMappingEnd :: _ => .ok (empty, scope, rest)
            | _ => take false false fuel scope rest
          | _ => .ok (empty, scope, ts)
        let (more, scope, ts) ← takeFlowEntries false fuel scope ts
        return ((k, v) :: more, scope, ts)
      | _ =>
        let (k, scope, ts) ← take false false fuel scope ts
        let (more, scope, ts) ← takeFlowEntries false fuel scope ts
        return ((k, empty) :: more, scope, ts)

end

/-- The directives in front of a document. -/
def takeDirectives : Bool → Scope → List Token → Except Error (Scope × List Token)
  | versioned, scope, .versionDirective major minor :: rest =>
    if versioned || major != 1 || (minor != 1 && minor != 2) then .error .property
    else takeDirectives true scope rest
  | versioned, scope, .tagDirective handle start :: rest =>
    let own := scope.handles.dropLast.dropLast
    if (own.lookup handle).isSome then .error .property
    else takeDirectives versioned { scope with handles := (handle, start) :: scope.handles } rest
  | _, scope, ts => .ok (scope, ts)

def endsStream : List Token → Bool
  | .documentEnd :: rest => endsStream rest
  | [.streamEnd] => true
  | _ => false

end Node

namespace Tree

/-- The one document of a token list; a list without one is a document without a value. -/
def ofTokens (ts : List Token) : Except Error Tree :=
  let finish (result : Node.Taken Node) : Except Error Tree :=
    let (root, scope, rest) := result
    if Node.endsStream rest then .ok { root, places := scope.places, values := scope.values }
    else .error .documents
  match ts with
  | [.streamEnd] => .ok ⟨.empty, [], []⟩
  | .versionDirective _ _ :: _ | .tagDirective _ _ :: _ | .documentStart :: _ => do
    let (scope, ts) ← Node.takeDirectives false {} ts
    match ts with
    | .documentStart :: rest =>
      match rest with
      | .versionDirective _ _ :: _ | .tagDirective _ _ :: _ | .documentStart :: _
      | .documentEnd :: _ | .streamEnd :: _ => finish (.empty, scope, rest)
      | _ => finish (← Node.take true false (4 * ts.length + 4) scope rest)
    | _ => .error .arrangement
  | _ => do finish (← Node.take true false (4 * ts.length + 4) {} ts)

def parse (text : String) : Except Error Tree := do
  ofTokens (← Token.scan text)

end Tree

end CodeTint.Yaml
