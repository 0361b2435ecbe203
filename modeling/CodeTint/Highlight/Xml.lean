import CodeTint.Highlight.Lexeme

/-!
What is found in the text of an XML document. The text between tags is passed over but for its
references.
-/

set_option autoImplicit false
set_option relaxedAutoImplicit false

namespace CodeTint.Highlight.Xml

/-- What the text goes on with. A broken place is one where no tag, instruction or reference could
begin, and a glued one is where an attribute touches the one before. -/
inductive Place where
  | content | tag | declaration | stylesheet | instruction | doctype | subset | broken | glued
  deriving DecidableEq, Repr

/-- Where in a document the text goes on. -/
structure State where
  place : Place := .content
  inSubset : Bool := false
  before : String := ""
  declared : String := ""
  /-- The names of the elements that are open, the innermost first. -/
  openNames : List String := []
  depth : Nat := 0
  ofNotations : Bool := false
  /-- The value of an attribute comes behind something that does not belong there. -/
  pending : Bool := false

abbrev Step := List Mark × Nat × State

def isNameChar (c : Char) : Bool :=
  c.isAlphanum || c == '_' || c == ':' || c == '-' || c == '.' || c.toNat ≥ 0x80

def isNameStart (c : Char) : Bool := isNameChar c && !c.isDigit && c != '-' && c != '.'

def nameLength (cs : List Char) : Nat := (cs.takeWhile isNameChar).length

def tagNameLength (cs : List Char) : Nat :=
  (cs.takeWhile fun c => isNameChar c && c.toNat < 0x80).length

/-- The length of a reference to an entity, to a character or to a parameter, or 0. -/
def reference (parameters : Bool) : List Char → Nat
  | c :: rest =>
    if c == '&' || (parameters && c == '%') then
      let inside := rest.takeWhile fun c => isNameChar c || c == '#'
      if isReferred inside && (rest.drop inside.length).head? == some ';' then inside.length + 2
      else 0
    else 0
  | [] => 0
where
  /-- A name, or the number of a character, can be referred to. -/
  isReferred : List Char → Bool
    | '#' :: 'x' :: digits => digits.length != 0 && hexRun digits.length digits = digits.length
    | '#' :: digits => digits.length != 0 && digits.all Char.isDigit
    | name => name.head?.any isNameStart && !name.contains '#'

def references (parameters : Bool) (pos : Nat) : List Char → List Mark
  | [] => []
  | c :: rest =>
    let n := reference parameters (c :: rest)
    (if n = 0 then [] else [⟨pos, pos + n, 0, "constant"⟩]) ++
      references parameters (pos + 1) rest

/-- The length of the text between quotes, if a quote closes it. -/
def valueLength? (cs : List Char) : Option Nat :=
  match cs with
  | quote :: rest =>
    if quote == '"' || quote == '\x27' then
      let n := (rest.takeWhile (· != quote)).length
      if (rest.drop n).isEmpty then none else some n
    else none
  | [] => none

def attributeLength? (cs : List Char) : Option Nat :=
  (valueLength? cs).filter fun n => !(cs.take (n + 1)).contains '<'

def isQuote (c : Char) : Bool := c == '"' || c == '\x27'

/-- A value of a tag that goes on here is not closed before the next tag. -/
def lacksQuote : Nat → List Char → Bool
  | 0, _ => false
  | _, [] => false
  | fuel + 1, c :: rest =>
    if c == '>' || c == '<' then false
    else if isQuote c then match attributeLength? (c :: rest) with
      | some n => lacksQuote fuel (rest.drop (n + 1))
      | none => true
    else lacksQuote fuel rest

/-- The name of what stands between quotes. -/
def valueName (s : State) (value : String) : Option String :=
  match s.place with
  | .tag | .stylesheet => some "string"
  | .declaration =>
    if isOneOf ["yes", "no"] value then some "boolean"
    else if value.toList.head?.any Char.isDigit then some "number"
    else some "string.special"
  | .subset | .doctype =>
    if s.before == "PUBLIC" then some "string.special"
    else if isOneOf ["SYSTEM", "\""] s.before then
      if s.declared == "NOTATION" then some "string.special" else none
    else if s.place = .subset then some "string"
    else none
  | _ => none

/-- An attribute's name is followed by its value in quotes, maybe behind something else. -/
def isValued (behind : List Char) : Bool :=
  match behind.dropWhile Char.isWhitespace with
  | '=' :: rest => (attributeLength? (rest.dropWhile fun c => !isQuote c && c != '>')).isSome
  | _ => false

def isInterrupted (behind : List Char) : Bool :=
  !(((behind.dropWhile Char.isWhitespace).drop 1).dropWhile Char.isWhitespace).head?.any isQuote

def angles (pos : Nat) : List Char → List Mark
  | [] => []
  | c :: rest =>
    (if c == '<' || c == '>' then [⟨pos, pos + 1, 0, "punctuation.delimiter"⟩] else []) ++
      angles (pos + 1) rest

/-- The marks of a value with quotes around `n` characters. -/
def valueMarks (s : State) (pos n : Nat) (cs : List Char) : List Mark :=
  let text := (cs.drop 1).take n
  let whole : List Mark := match valueName s (String.ofList text) with
    | some "string" => ⟨pos, pos + n + 2, 0, "string"⟩ ::
        references (s.declared == "ENTITY") (pos + 1) text
    | some name => [⟨pos + 1, pos + 1 + n, 0, name⟩]
    | none => []
  let plain := (text.takeWhile (· != '<')).length
  whole ++ (if s.declared == "ENTITY" then angles (pos + 1 + plain) (text.drop plain) else []) ++
    [⟨pos, pos + 1, 0, "punctuation.delimiter"⟩,
      ⟨pos + n + 1, pos + n + 2, 0, "punctuation.delimiter"⟩]

/-- The length of a comment, or 0. Two hyphens stand in it at its ends only. -/
def commentLength (cs : List Char) : Nat :=
  if Lexis.begins "<!--" cs then
    match Lexis.untilClosed? ['-', '-'] (cs.drop 4) with
    | some n => if (cs.drop (4 + n)).head? == some '>' then n + 5 else 0
    | none => 0
  else 0

/-- An instruction behind its target is well formed: what it says ends on its line, and nothing
but blanks follows it there. -/
def isInstruction (cs : List Char) : Bool :=
  if Lexis.begins "?>" cs then true
  else
    let rest := cs.dropWhile fun c => c != '\n' && c != '?'
    Lexis.begins "?>" rest && ((rest.drop 2).dropWhile (· == ' ')).head? == some '\n'

/-- What opens and closes tags and declarations, with the place behind it. -/
def delimiters (s : State) : List (String × Place) :=
  let outer := if s.inSubset then Place.doctype else .content
  match s.place with
  | .content => if s.openNames.isEmpty then
      [("</", .tag), ("<?", .instruction), ("<!", .doctype), ("<", .tag)]
    else [("</", .tag), ("<?", .instruction), ("<", .tag)]
  | .tag | .glued => [("/>", .content), (">", .content)]
  | .declaration | .stylesheet | .instruction => [("?>", outer)]
  | .doctype => [("<!", .subset), ("<?", .instruction), (">", .content)]
  | .subset => [(">", .doctype)]
  | .broken => [("]]>", .broken), ("/>", .broken), (">", .broken)]

def placeBehind (text : String) (next : Place) (rest : List Char) : Place :=
  let n := nameLength rest
  let target := String.ofList (rest.take n)
  if text == "<?" then
    if target == "xml" then .declaration
    else if isOneOf ["xml-stylesheet", "xml-model"] target then .stylesheet
    else if isInstruction (rest.drop n) then .instruction
    else .broken
  else if text == "<" && tagNameLength rest = 0 then .broken
  else if text == "<!" && rest.head? == some '-' then .broken
  else next

def delimiter? (s : State) (pos : Nat) (cs : List Char) : Option Step :=
  ((delimiters s).find? fun (text, _) => Lexis.begins text cs).map fun (text, next) =>
    let rest := cs.drop text.length
    let next := placeBehind text next rest
    ([⟨pos, pos + text.length, 0, "punctuation.delimiter"⟩], text.length,
      { s with
        place := next
        inSubset := s.inSubset && next != .content
        before := text
        declared := ""
        depth := 0
        pending := false
        openNames := if text == "/>" then s.openNames.drop 1 else s.openNames })

def elementWord (s : State) (name : String) : String :=
  if s.before == "ELEMENT" then "tag"
  else if name == "#PCDATA" then "type.builtin"
  else if isOneOf ["EMPTY", "ANY"] name then "string.special"
  else "property"

/-- The name of what a name in the declaration of attributes is. -/
def attributeWord (s : State) (name : String) : Option String :=
  if s.before == "ATTLIST" then some "tag"
  else if s.depth > 0 then if s.ofNotations then none else some "string"
  else if isOneOf ["CDATA", "ID", "IDREF", "IDREFS", "ENTITY", "ENTITIES", "NMTOKEN", "NMTOKENS",
    "NOTATION"] name then some "type.builtin"
  else if isOneOf ["#REQUIRED", "#IMPLIED", "#FIXED"] name then some "attribute"
  else some "property"

/-- The name of what a name before some text is. -/
def word (s : State) (name : String) (behind : List Char) : Option String :=
  match s.place with
  | .tag =>
    if s.before == "</" then if s.openNames.head? == some name then some "tag" else none
    else if s.before == "<" then if lacksQuote behind.length behind then none else some "tag"
    else if isValued behind && !s.pending then some "property"
    else none
  | .declaration | .stylesheet => some (if s.before == "<?" then "keyword" else "property")
  | .instruction => if s.before == "<?" then some "keyword" else none
  | .doctype =>
    if isOneOf ["DOCTYPE", "PUBLIC", "SYSTEM"] name then some "keyword"
    else if s.before == "DOCTYPE" then some "type" else none
  | .subset =>
    if s.before == "<!" then some "keyword"
    else match s.declared with
    | "ELEMENT" => some (elementWord s name)
    | "ATTLIST" => attributeWord s name
    | _ =>
      if isOneOf ["PUBLIC", "SYSTEM", "NDATA"] name then some "keyword"
      else if s.before == "NDATA" then some "label"
      else some "constant"
  | .content | .broken | .glued => none

def wordStep (s : State) (pos : Nat) (name : String) (behind : List Char) : Step :=
  (((word s name behind).map fun w => (⟨pos, pos + name.length, 0, w⟩ : Mark)).toList, name.length,
    { s with
      before := name
      pending := s.pending || (s.place == .tag && s.before != "<" && s.before != "</" &&
        isValued behind && isInterrupted behind)
      declared := if s.before == "<!" then name else s.declared
      ofNotations := if s.depth = 0 then s.declared == "ATTLIST" && name == "NOTATION"
        else s.ofNotations
      openNames := if s.place = .tag && s.before == "<" then name :: s.openNames
        else if s.place = .tag && s.before == "</" && s.openNames.head? == some name then
          s.openNames.drop 1
        else s.openNames })

/-- A sign, or a character that is passed over. -/
def signStep (s : State) (pos : Nat) (c : Char) : Step :=
  let name := if "()[]".toList.contains c then some "punctuation.bracket"
    else if "=,|*?+%".toList.contains c then some "operator"
    else if (s.place = .broken || s.place = .glued) && isQuote c then some "punctuation.delimiter"
    else none
  ((name.map fun w => (⟨pos, pos + 1, 0, w⟩ : Mark)).toList, 1,
    { s with
      inSubset := s.inSubset || (s.place == .doctype && c == '[')
      before := if c == '%' then s.before else String.singleton c
      depth := if c == '(' then s.depth + 1 else if c == ')' then s.depth - 1 else s.depth })

def valueHere? (s : State) (cs : List Char) : Option Nat :=
  match s.place with
  | .instruction | .broken | .glued => none
  | .tag => attributeLength? cs
  | _ => valueLength? cs

def behindValue (s : State) (behind : List Char) : State :=
  let isGlued := s.place == .tag &&
    behind.head?.any fun c => !c.isWhitespace && c != '>' && c != '/'
  { s with before := "\"", pending := false, place := if isGlued then .glued else s.place }

def openValue (s : State) (pos : Nat) (rest : List Char) : Step :=
  ([⟨pos, pos + 1, 0, "punctuation.delimiter"⟩], (rest.takeWhile (· != '<')).length + 1,
    { s with place := .content, before := "\"" })

/-- What a tag, a declaration or an instruction holds. -/
def inside (s : State) (pos : Nat) (c : Char) (rest : List Char) : Step :=
  let cs := c :: rest
  let n := if s.place = .tag && s.before == "<" then tagNameLength cs
    else if c == '#' then nameLength rest + 1 else nameLength cs
  let refers := if s.place = .doctype || s.place = .subset then reference true cs
    else if s.place = .broken then reference false cs
    else 0
  match valueHere? s cs with
  | some n => (valueMarks s pos n cs, n + 2, behindValue s (rest.drop (n + 1)))
  | none =>
    if s.place = .tag && isQuote c then openValue s pos rest
    else if s.place = .glued && c.isWhitespace then ([], 1, { s with place := .tag })
    else if refers != 0 then
      ([⟨pos, pos + refers, 0, "constant"⟩], refers,
        if s.place = .broken && !s.openNames.isEmpty then { s with place := .content } else s)
    else if n != 0 then wordStep s pos (String.ofList (cs.take n)) (cs.drop n)
    else if s.place = .broken && c == '<' then ([], 0, { s with place := .content })
    else if s.place = .instruction || c.isWhitespace then ([], 1, s)
    else signStep s pos c

/-- The length of a section of characters up to the signs that close it, if they come behind at
least one character. What follows two square brackets is not looked at a second time. -/
def sectionLength? : Nat → Bool → List Char → Option Nat
  | 0, _, _ => none
  | fuel + 1, begun, cs =>
    if begun && Lexis.begins "]]>" cs then some 0
    else
      let passed := if Lexis.begins "]]" cs then 3 else if cs.head? == some ']' then 2 else 1
      if cs.length < passed then none
      else (sectionLength? fuel true (cs.drop passed)).map (passed + ·)

/-- A comment or a section of characters as they are. -/
def verbatim? (s : State) (pos : Nat) (cs : List Char) : Option Step :=
  let n := commentLength cs
  if (s.place == .content || s.place == .doctype) && n != 0 then
    some ([⟨pos, pos + n, 0, "comment"⟩], n, s)
  else if s.place == .content && Lexis.begins "<![CDATA[" cs then
    let opening : Mark := ⟨pos + 8, pos + 9, 0, "punctuation.bracket"⟩
    match sectionLength? (cs.length + 1) false (cs.drop 9) with
    | some n =>
      some ([opening, ⟨pos + 9 + n, pos + 12 + n, 0, "punctuation.delimiter"⟩], n + 12, s)
    | none => some ([opening], 9, { s with place := .broken })
  else none

/-- The length of a reference between tags that is not well formed but ends somewhere before the
next tag, or 0. -/
def brokenReference (cs : List Char) : Nat :=
  let inside := cs.takeWhile (· != ';')
  let last := (inside.reverse.takeWhile (· != '&')).length + 1
  let isOther := last < inside.length && reference false (cs.drop (inside.length - last)) != 0
  let isBare := cs[1]?.any fun c => c == '#' || c == ';'
  let rec hasTag : List Char → Bool
    | '<' :: c :: rest => isNameStart c || "/!?".toList.contains c || hasTag (c :: rest)
    | _ :: rest => hasTag rest
    | [] => false
  if cs.head? == some '&' && inside.length < cs.length && !hasTag inside && !isOther && !isBare then
    inside.length + 1
  else 0

/-- What the text between tags begins with: a reference, the end of a section that was not begun, or
a character. -/
def contentStep (s : State) (pos : Nat) (c : Char) (rest : List Char) : Step :=
  let cs := c :: rest
  let n := reference false cs
  let broken := if s.openNames.isEmpty then 0 else brokenReference cs
  let behind := { s with before := String.singleton c }
  if n != 0 then ([⟨pos, pos + n, 0, "constant"⟩], n, behind)
  else if broken != 0 then
    (⟨pos, pos + broken, 0, "constant"⟩ :: angles pos (cs.take broken), broken, behind)
  else if Lexis.begins "]]>" cs && s.before != ">" && !s.openNames.isEmpty then
    ([⟨pos, pos + 3, 0, "punctuation.delimiter"⟩], 3, { behind with place := .broken })
  else if c == '&' && !s.openNames.isEmpty then ([], 1, { behind with place := .broken })
  else ([], 1, behind)

def step (s : State) (pos : Nat) (c : Char) (rest : List Char) : Step :=
  let cs := c :: rest
  match verbatim? s pos cs, delimiter? s pos cs with
  | some found, _ => found
  | none, some found => found
  | none, none =>
    if s.place == .content then contentStep s pos c rest
    else inside s pos c rest

def scan : Nat → State → Nat → List Char → List Mark
  | 0, _, _, _ => []
  | _, _, _, [] => []
  | fuel + 1, s, pos, c :: rest =>
    let (marks, length, s) := step s pos c rest
    marks ++ scan fuel s (pos + length) ((c :: rest).drop length)

def marks (text : String) : List Mark :=
  let cs := text.toList
  scan (2 * cs.length + 1) {} 0 cs

end CodeTint.Highlight.Xml
