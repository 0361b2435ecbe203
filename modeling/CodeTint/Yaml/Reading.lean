import CodeTint.Yaml.Node
import CodeTint.Yaml.Scalar

/-!
Reading values of known shapes from the tree of a document. An alias is read as what it stands for,
and how often aliases may be followed is limited, so that a short document cannot stand for a huge
one. Where no shape is known, `content` reads a value for what it is.
-/

set_option autoImplicit false
set_option relaxedAutoImplicit false

namespace CodeTint.Yaml

abbrev Reading := ReaderT Tree (StateT Nat Option)

namespace Reading

def maxRepetition : Nat := 100

def maxDepth : Nat := 128

def run {α : Type} (read : Node → Reading α) (t : Tree) : Option α :=
  ((read t.root) t (maxRepetition * t.root.weight)).map (·.1)

/-- What a value is, or stands for if it is an alias. -/
def resolve : Node → Reading Node
  | .alias number => do
    match ← get with
    | 0 => failure
    | left + 1 =>
      set left
      match (← read).target? number with
      | some n => return n
      | none => failure
  | n => return n

def ofOption {α : Type} : Option α → Reading α
  | some a => return a
  | none => failure

def text (n : Node) : Reading String := do
  match ← resolve n with
  | .scalar _ text _ => return text
  | _ => failure

def optional {α : Type} (read : Node → Reading α) (n : Node) : Reading (Option α) := do
  let n ← resolve n
  match n with
  | .scalar (some tag) text .plain =>
    if tag.isStandard "null" then
      if Scalar.isNullWord text then return none else failure
    else some <$> read n
  | .scalar none text .plain =>
    if text = "" || Scalar.isNullWord text then return none else some <$> read n
  | _ => some <$> read n

def natural (bound : Nat) (n : Node) : Reading Nat := do
  match ← resolve n with
  | .scalar _ text .plain => ofOption (Scalar.natural? bound text)
  | .scalar (some tag) text .literal =>
    if tag.isStandard "int" then ofOption (Scalar.natural? bound text) else failure
  | _ => failure

/-- The fields of a record: keys as texts, in order. A value left out counts as a record without
fields. -/
def fields (n : Node) : Reading (List (String × Node)) := do
  match ← resolve n with
  | .mapping _ entries => entries.mapM fun (k, v) => do return (← text k, v)
  | .scalar _ "" .plain => return []
  | _ => failure

/-- The value of a field that may occur once: nothing when it is absent, failure when it recurs. -/
def field {α : Type} (name : String) (read : Node → Reading α) (fields : List (String × Node)) :
    Reading (Option α) :=
  match fields.filter (fun f => f.1 == name) with
  | [] => return none
  | [f] => some <$> read f.2
  | _ => failure

/-- The word of a choice: a scalar, or else the tag of a value that is left out. -/
def choice (n : Node) : Reading String := do
  match ← resolve n with
  | .scalar none text _ => return text
  | .scalar (some tag) text style =>
    match tag.name? with
    | none => return text
    | some name =>
      if style == .plain && (text = "" || Scalar.isNullWord text) then return name else failure
  | _ => failure

end Reading

/-- A value of no known shape. What is in a sequence, and what a number is other than an unsigned
one, is not kept. -/
inductive Content where
  | nothing
  | boolean
  | natural (n : Nat)
  | number
  | text (s : String)
  | sequence
  | mapping (entries : List (Content × Content))
  deriving Repr, Inhabited

namespace Content

def ofInteger? (s : String) : Option Content :=
  match Scalar.natural? (Nat.pow 2 64) s with
  | some n => some (.natural n)
  | none => if Scalar.isNegative (Nat.pow 2 63) s then some .number else none

def ofPlain? (s : String) : Option Content :=
  match Scalar.kind s with
  | .null => some .nothing
  | .boolean => some .boolean
  | .integer => ofInteger? s
  | .floating => some .number
  | .text => some (.text s)

/-- What a scalar is read as. The standard tags demand their kind of scalar, in any style; a tag
that names a choice fits nothing. -/
def ofScalar? (tag : Option Tag) (s : String) (style : ScalarStyle) : Option Content :=
  match tag with
  | none => if style == .plain then ofPlain? s else some (.text s)
  | some t =>
    if t.name?.isSome then none
    else if t.isStandard "bool" then
      if Scalar.isBooleanWord s then some .boolean else none
    else if t.isStandard "int" then ofInteger? s
    else if t.isStandard "float" then
      if Scalar.isFloating s then some .number else none
    else if t.isStandard "null" then
      if Scalar.isNullWord s then some .nothing else none
    else if t.isLocal && style == .plain then ofPlain? s
    else some (.text s)

def isUnnamed (tag : Option Tag) : Bool := (tag.bind Tag.name?).isNone

end Content

namespace Reading

/-- A value for what it is; collections in it may be nested up to a depth. -/
def content : Nat → Node → Reading Content
  | depth, n => do
    match ← resolve n with
    | .scalar tag s style => ofOption (Content.ofScalar? tag s style)
    | .sequence tag items =>
      match depth with
      | 0 => failure
      | depth + 1 =>
        if Content.isUnnamed tag then
          items.forM fun n => do let _ ← content depth n
          return .sequence
        else failure
    | .mapping tag entries =>
      match depth with
      | 0 => failure
      | depth + 1 =>
        if Content.isUnnamed tag then
          return .mapping (← entries.mapM fun (k, v) => do
            return (← content depth k, ← content depth v))
        else failure
    | .alias _ => failure

end Reading

end CodeTint.Yaml
