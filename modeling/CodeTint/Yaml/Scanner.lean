import CodeTint.Yaml.Token
import CodeTint.Text.Digits

/-!
From characters to tokens. The scanner keeps the column of every open block collection and the
places where a key may have begun without a question mark: when the colon comes, the token of the
key is put in at the remembered place. Each call of `Scanner.fetch` takes at least one character
or ends the stream, so the number of characters bounds the number of calls.
-/

set_option autoImplicit false
set_option relaxedAutoImplicit false

namespace CodeTint.Yaml

def isBreak (c : Char) : Bool :=
  c == '\n' || c == '\r' || c.toNat == 0x85 || c.toNat == 0x2028 || c.toNat == 0x2029

def isSpace (c : Char) : Bool := c == ' ' || c == '\t'

def isPrintable (c : Char) : Bool :=
  let n := c.toNat
  n == 9 || n == 10 || n == 13 || (0x20 ≤ n && n ≤ 0x7E) || n == 0x85 ||
    (0xA0 ≤ n && n ≤ 0xD7FF) || (0xE000 ≤ n && n ≤ 0xFFFD) || 0x10000 ≤ n

def isNameChar (c : Char) : Bool := c.isAlphanum || c == '_' || c == '-'

def atSpaceOrEnd : List Char → Bool
  | [] => true
  | c :: _ => isSpace c || isBreak c

def atBreakOrEnd : List Char → Bool
  | [] => true
  | c :: _ => isBreak c

def atMarker (c : Char) : List Char → Bool
  | a :: b :: d :: rest => a == c && b == c && d == c && atSpaceOrEnd rest
  | _ => false

/-- A position in the text. The index counts bytes, the column characters. -/
structure Mark where
  index : Nat := 0
  line : Nat := 0
  column : Nat := 0
  deriving DecidableEq, Repr, Inhabited

structure KeyPlace where
  possible : Bool := false
  required : Bool := false
  token : Nat := 0
  mark : Mark := {}
  deriving DecidableEq, Repr, Inhabited

structure Cursor where
  rest : List Char
  mark : Mark := {}
  deriving Repr, Inhabited

namespace Cursor

def skip (c : Cursor) : Cursor :=
  match c.rest with
  | [] => c
  | a :: rest =>
    ⟨rest, { c.mark with index := c.mark.index + a.utf8Size, column := c.mark.column + 1 }⟩

def skipMany (n : Nat) (c : Cursor) : Cursor :=
  n.repeat skip c

def skipWhile (p : Char → Bool) (c : Cursor) : Cursor :=
  c.skipMany (c.rest.takeWhile p).length

/-- Pass one line break; the break is given as it counts in a scalar. -/
def takeBreak (c : Cursor) : List Char × Cursor :=
  let next (n : Nat) (rest : List Char) : Cursor :=
    ⟨rest, { index := c.mark.index + n, line := c.mark.line + 1, column := 0 }⟩
  match c.rest with
  | '\r' :: '\n' :: rest => (['\n'], next 2 rest)
  | b :: rest =>
    if b.toNat == 0x2028 || b.toNat == 0x2029 then ([b], next b.utf8Size rest)
    else if isBreak b then (['\n'], next b.utf8Size rest)
    else ([], c)
  | [] => ([], c)

def at_ (c : Cursor) (a : Char) : Bool := c.rest.head? == some a

def next (c : Cursor) (p : Char → Bool) : Bool := c.rest.head?.any p

end Cursor

/-- The state of the scanner: unread text, tokens so far, open indentations, open flow collections
and one place of a possible key for each of them and for the block around them. -/
structure Scanner where
  cursor : Cursor
  tokens : Array Token := #[]
  keyAllowed : Bool := true
  indent : Int := -1
  indents : List Int := []
  flow : Nat := 0
  keys : List KeyPlace := [{}]
  finished : Bool := false
  deriving Inhabited

namespace Scanner

def push (s : Scanner) (t : Token) : Scanner := { s with tokens := s.tokens.push t }

def insertToken (s : Scanner) (n : Nat) (t : Token) : Scanner :=
  { s with tokens := s.tokens.extract 0 n ++ #[t] ++ s.tokens.extract n s.tokens.size }

def dropKey (s : Scanner) : Except Error Scanner :=
  match s.keys with
  | k :: rest =>
    if k.possible && k.required then .error .key
    else .ok { s with keys := { k with possible := false } :: rest }
  | [] => .ok s

def saveKey (s : Scanner) : Except Error Scanner :=
  if s.keyAllowed then do
    let required := s.flow == 0 && s.indent == (s.cursor.mark.column : Int)
    let place : KeyPlace := ⟨true, required, s.tokens.size, s.cursor.mark⟩
    let s ← s.dropKey
    return { s with keys := place :: s.keys.drop 1 }
  else .ok s

/-- Forget the possible keys that are on an earlier line or too far back. -/
def expireKeys (s : Scanner) : Except Error Scanner := do
  let now := s.cursor.mark
  let keys ← s.keys.mapM fun k =>
    if k.possible && (k.mark.line < now.line || k.mark.index + 1024 < now.index) then
      if k.required then .error Error.key else .ok { k with possible := false }
    else .ok k
  return { s with keys := keys }

/-- Open a block collection at a column that is deeper than the current one. -/
def openBlock (s : Scanner) (column : Nat) (place : Option Nat) (t : Token) : Scanner :=
  if s.flow == 0 && s.indent < (column : Int) then
    let s := { s with indents := s.indent :: s.indents, indent := column }
    match place with
    | some n => s.insertToken n t
    | none => s.push t
  else s

/-- Close the block collections that are deeper than a column. -/
def closeBlocks (s : Scanner) (column : Int) : Scanner :=
  if s.flow == 0 then
    let levels := s.indent :: s.indents
    let open_ := levels.dropWhile (column < ·)
    let closed := levels.length - open_.length
    { s with
      indent := open_.headD (-1), indents := open_.drop 1,
      tokens := s.tokens ++ Array.replicate closed Token.blockEnd }
  else s

/-- Pass blanks, comments and line breaks up to the next token. A line may begin with a byte order
mark, which takes one column. -/
def skipBlank : Nat → Scanner → Scanner
  | 0, s => s
  | fuel + 1, s =>
    let c := s.cursor
    let c := if c.mark.column == 0 && c.next (·.toNat == 0xFEFF) then c.skip else c
    let c := c.skipWhile fun a => a == ' ' || ((s.flow != 0 || !s.keyAllowed) && a == '\t')
    let c := if c.at_ '#' then c.skipWhile (!isBreak ·) else c
    if c.next isBreak then
      skipBlank fuel
        { s with cursor := c.takeBreak.2, keyAllowed := s.keyAllowed || s.flow == 0 }
    else { s with cursor := c }

def finishLine (c : Cursor) (e : Error) : Except Error Cursor :=
  let c := c.skipWhile isSpace
  let c := if c.at_ '#' then c.skipWhile (!isBreak ·) else c
  if atBreakOrEnd c.rest then .ok c.takeBreak.2 else .error e

/-! ### Properties and directives -/

/-- The handle of a tag: one exclamation mark, or a name between two. -/
def takeHandle (directive : Bool) (c : Cursor) : Except Error (String × Cursor) :=
  if c.at_ '!' then
    let c := c.skip
    let name := c.rest.takeWhile isNameChar
    let c := c.skipMany name.length
    if c.at_ '!' then .ok (String.ofList ('!' :: name ++ ['!']), c.skip)
    else if directive && !name.isEmpty then .error .property
    else .ok (String.ofList ('!' :: name), c)
  else .error .property

def isTagChar (verbatim : Bool) (c : Char) : Bool :=
  isNameChar c || ";/?:@&=+$.!~*'()".toList.contains c || (verbatim && ",[]".toList.contains c)

def takeEscapes : List Char → Option (List UInt8 × List Char)
  | '%' :: a :: b :: rest => do
    let n ← Text.numeral? 16 [a, b]
    let (more, rest) ← takeEscapes rest
    return (UInt8.ofNat n :: more, rest)
  | '%' :: _ => none
  | rest => some ([], rest)

/-- A part of a tag, with its percent escapes undone. -/
def takeTag (verbatim : Bool) : Nat → List UInt8 → Cursor → Except Error (Tag × Cursor)
  | 0, _, _ => .error .property
  | fuel + 1, acc, c =>
    match c.rest with
    | '%' :: _ =>
      match takeEscapes c.rest with
      | some (bytes, rest) =>
        if Tag.isRun 0 bytes then
          takeTag verbatim fuel (acc ++ bytes) (c.skipMany (c.rest.length - rest.length))
        else .error .property
      | none => .error .property
    | a :: _ =>
      if isTagChar verbatim a then takeTag verbatim fuel (acc ++ [a.toNat.toUInt8]) c.skip
      else .ok (⟨acc⟩, c)
    | [] => .ok (⟨acc⟩, c)

def takeVersionNumber (c : Cursor) : Except Error (Nat × Cursor) :=
  let ds := c.rest.takeWhile Char.isDigit
  match Text.numeral? 10 ds with
  | some n => if ds.length ≤ 9 then .ok (n, c.skipMany ds.length) else .error .property
  | none => .error .property

def fetchDirective (s : Scanner) : Except Error Scanner := do
  let s ← (s.closeBlocks (-1)).dropKey
  let c := s.cursor.skip
  let name := c.rest.takeWhile isNameChar
  let c := c.skipMany name.length
  if !atSpaceOrEnd c.rest then throw .property
  let c := c.skipWhile isSpace
  match String.ofList name with
  | "YAML" =>
    let (major, c) ← takeVersionNumber c
    if !c.at_ '.' then throw .property
    let (minor, c) ← takeVersionNumber c.skip
    let c ← finishLine c .property
    return { s with cursor := c, keyAllowed := false }.push (.versionDirective major minor)
  | "TAG" =>
    let (handle, c) ← takeHandle true c
    if !c.next isSpace then throw .property
    let c := c.skipWhile isSpace
    let (start, c) ← takeTag true (c.rest.length + 1) [] c
    if start.isEmpty || !atSpaceOrEnd c.rest then throw .property
    let c ← finishLine c .property
    return { s with cursor := c, keyAllowed := false }.push (.tagDirective handle start)
  | _ => throw .property

def fetchName (s : Scanner) (make : String → Token) : Except Error Scanner := do
  let s ← s.saveKey
  let c := s.cursor.skip
  let name := c.rest.takeWhile isNameChar
  let c := c.skipMany name.length
  if name.isEmpty || !(atSpaceOrEnd c.rest || c.next ("?:,]\x7d%@\x60".toList.contains ·)) then
    throw .property
  return { s with cursor := c, keyAllowed := false }.push (make (String.ofList name))

/-- A tag: verbatim, with a handle, or local. -/
def fetchTag (s : Scanner) : Except Error Scanner := do
  let s ← s.saveKey
  let c := s.cursor
  let finish (handle : String) (suffix : Tag) (c : Cursor) : Except Error Scanner :=
    if atSpaceOrEnd c.rest || (s.flow != 0 && c.at_ ',') then
      .ok ({ s with cursor := c, keyAllowed := false }.push (.tag handle suffix))
    else .error .property
  match c.rest with
  | '!' :: '<' :: _ =>
    let c := c.skipMany 2
    let (suffix, c) ← takeTag true (c.rest.length + 1) [] c
    if suffix.isEmpty || !c.at_ '>' then throw .property
    finish "" suffix c.skip
  | _ =>
    let (handle, c) ← takeHandle false c
    if handle.length > 1 && handle.endsWith "!" then
      let (suffix, c) ← takeTag false (c.rest.length + 1) [] c
      if suffix.isEmpty then throw .property
      finish handle suffix c
    else
      let own := (Tag.ofString handle).bytes.tail
      let (suffix, c) ← takeTag false (c.rest.length + 1) own c
      if suffix.isEmpty then finish "" .plain c else finish "!" suffix c

/-! ### Scalars -/

/-- Line breaks and indentation before a line of a block scalar, whose depth is found here if it
is not known yet. -/
def takeIndentedBreaks (floor : Nat) :
    Nat → Nat → Nat → List Char → Cursor → Except Error (List Char × Nat × Cursor)
  | 0, _, _, _, _ => .error .indentation
  | fuel + 1, depth, deepest, acc, c =>
    let width := (c.rest.takeWhile (· == ' ')).length
    let c := c.skipMany (if depth == 0 then width else min width (depth - c.mark.column))
    let deepest := max deepest c.mark.column
    if (depth == 0 || c.mark.column < depth) && c.at_ '\t' then .error .indentation
    else if c.next isBreak then
      let (b, c) := c.takeBreak
      takeIndentedBreaks floor fuel depth deepest (acc ++ b) c
    else
      .ok (acc, if depth == 0 then max (max deepest floor) 1 else depth, c)

/-- The lines of a block scalar. `text` is what is complete, `lead` the break after it. -/
def takeBlockLines (isLiteral : Bool) (depth : Nat) :
    Nat → List Char → List Char → List Char → Bool → Cursor →
      Except Error (List Char × List Char × List Char × Cursor)
  | 0, text, lead, breaks, _, c => .ok (text, lead, breaks, c)
  | fuel + 1, text, lead, breaks, leadBlank, c =>
    if c.mark.column == depth && !c.rest.isEmpty then do
      let blank := c.next isSpace
      let text :=
        if !isLiteral && lead.head? == some '\n' && !leadBlank && !blank then
          if breaks.isEmpty then text ++ [' '] else text ++ breaks
        else text ++ lead ++ breaks
      let line := c.rest.takeWhile (!isBreak ·)
      let (lead, c) := (c.skipMany line.length).takeBreak
      let (breaks, _, c) ← takeIndentedBreaks 0 (c.rest.length + 1) depth 0 [] c
      takeBlockLines isLiteral depth fuel (text ++ line) lead breaks blank c
    else .ok (text, lead, breaks, c)

/-- What happens to the line breaks at the end of a block scalar. -/
inductive Chomping where
  | strip | clip | keep
  deriving DecidableEq, Repr

/-- The header of a block scalar: chomping and depth, in either order. -/
def takeBlockHeader (c : Cursor) : Except Error (Chomping × Nat × Cursor) :=
  let chomping? (a : Char) : Option Chomping :=
    if a == '+' then some .keep else if a == '-' then some .strip else none
  let depth? (a : Char) : Option Nat := if a.isDigit then Text.digitValue? a else none
  match c.rest with
  | a :: rest =>
    match chomping? a, depth? a with
    | some ch, _ =>
      match rest.head?.bind depth? with
      | some 0 => .error .blockHeader
      | some d => .ok (ch, d, c.skipMany 2)
      | none => .ok (ch, 0, c.skip)
    | none, some 0 => .error .blockHeader
    | none, some d =>
      match rest.head?.bind chomping? with
      | some ch => .ok (ch, d, c.skipMany 2)
      | none => .ok (.clip, d, c.skip)
    | none, none => .ok (.clip, 0, c)
  | [] => .ok (.clip, 0, c)

def fetchBlockScalar (s : Scanner) (isLiteral : Bool) : Except Error Scanner := do
  let s ← s.dropKey
  let (chomping, given, c) ← takeBlockHeader s.cursor.skip
  let c ← finishLine c .blockHeader
  let base := s.indent.toNat
  let depth := if given == 0 then 0 else if s.indent ≥ 0 then base + given else given
  let floor := (s.indent + 1).toNat
  let (breaks, depth, c) ← takeIndentedBreaks floor (c.rest.length + 1) depth 0 [] c
  let (text, lead, breaks, c) ←
    takeBlockLines isLiteral depth (c.rest.length + 1) [] [] breaks false c
  let text := match chomping with
    | .strip => text
    | .clip => text ++ lead
    | .keep => text ++ lead ++ breaks
  return { s with cursor := c, keyAllowed := true }.push
    (.scalar (String.ofList text) (if isLiteral then .literal else .folded))

/-- Blanks and line breaks inside a flow scalar, as they count in it: blanks of one line stay,
a single break becomes a space, further breaks stay. `broken` tells that a break was passed. -/
def takeFold (c : Cursor) : List Char × Bool × Cursor :=
  let rec go : Nat → List Char → List Char → List Char → Bool → Cursor →
      List Char × Bool × Cursor
    | 0, _, _, _, broken, c => ([], broken, c)
    | fuel + 1, blanks, lead, breaks, broken, c =>
      match c.rest with
      | a :: _ =>
        if isSpace a then
          go fuel (if broken then blanks else blanks ++ [a]) lead breaks broken c.skip
        else if isBreak a then
          let (b, c) := c.takeBreak
          if broken then go fuel [] lead (breaks ++ b) true c
          else go fuel [] b breaks true c
        else (joined blanks lead breaks broken, broken, c)
      | [] => (joined blanks lead breaks broken, broken, c)
  go (c.rest.length + 1) [] [] [] false c
where
  joined (blanks lead breaks : List Char) (broken : Bool) : List Char :=
    if broken then
      if lead.head? == some '\n' then (if breaks.isEmpty then [' '] else breaks)
      else lead ++ breaks
    else blanks

def shortEscape? : Char → Option Char
  | '0' => some '\x00' | 'a' => some '\x07' | 'b' => some '\x08' | 't' => some '\t'
  | '\t' => some '\t' | 'n' => some '\n' | 'v' => some '\x0b' | 'f' => some '\x0c'
  | 'r' => some '\r' | 'e' => some '\x1b' | ' ' => some ' ' | '"' => some '"'
  | '/' => some '/' | '\\' => some '\\' | 'N' => some '\u0085' | '_' => some '\u00a0'
  | 'L' => some '\u2028' | 'P' => some '\u2029'
  | _ => none

def escapeWidth? : Char → Option Nat
  | 'x' => some 2 | 'u' => some 4 | 'U' => some 8
  | _ => none

def charOf? (n : Nat) : Option Char :=
  if h : n.isValidChar then some (Char.ofNatAux n h) else none

/-- An escape of a double quoted scalar, after its backslash. -/
def takeEscape (c : Cursor) : Except Error (Char × Cursor) :=
  match c.rest with
  | a :: rest =>
    match shortEscape? a, escapeWidth? a with
    | some b, _ => .ok (b, c.skip)
    | none, some width =>
      let ds := rest.take width
      if ds.length == width then
        match (Text.numeral? 16 ds).bind charOf? with
        | some b => .ok (b, c.skipMany (width + 1))
        | none => .error .quoted
      else .error .quoted
    | none, none => .error .quoted
  | [] => .error .quoted

/-- The text of a quoted scalar up to its closing quote. -/
def takeQuoted (single : Bool) : Nat → List Char → Cursor → Except Error (List Char × Cursor)
  | 0, _, _ => .error .quoted
  | fuel + 1, acc, c =>
    if c.mark.column == 0 && (atMarker '-' c.rest || atMarker '.' c.rest) then .error .quoted
    else
      match c.rest with
      | [] => .error .quoted
      | '\'' :: rest =>
        if single then
          if rest.head? == some '\'' then takeQuoted single fuel (acc ++ ['\'']) (c.skipMany 2)
          else .ok (acc, c.skip)
        else takeQuoted single fuel (acc ++ ['\'']) c.skip
      | '"' :: _ =>
        if single then takeQuoted single fuel (acc ++ ['"']) c.skip else .ok (acc, c.skip)
      | '\\' :: rest =>
        if single then takeQuoted single fuel (acc ++ ['\\']) c.skip
        else if rest.head?.any isBreak then
          let (breaks, _, c) := takeAfterEscapedBreak c.skip.takeBreak.2
          takeQuoted single fuel (acc ++ breaks) c
        else do
          let (a, c) ← takeEscape c.skip
          takeQuoted single fuel (acc ++ [a]) c
      | a :: _ =>
        if isSpace a || isBreak a then
          let (folded, _, c) := takeFold c
          takeQuoted single fuel (acc ++ folded) c
        else takeQuoted single fuel (acc ++ [a]) c.skip
where
  /-- Blanks after an escaped line break vanish; further breaks stay. -/
  takeAfterEscapedBreak (c : Cursor) : List Char × Bool × Cursor :=
    let rec go : Nat → List Char → Cursor → List Char × Bool × Cursor
      | 0, breaks, c => (breaks, true, c)
      | fuel + 1, breaks, c =>
        match c.rest with
        | a :: _ =>
          if isSpace a then go fuel breaks c.skip
          else if isBreak a then
            let (b, c) := c.takeBreak
            go fuel (breaks ++ b) c
          else (breaks, true, c)
        | [] => (breaks, true, c)
    go (c.rest.length + 1) [] c

def fetchQuoted (s : Scanner) (single : Bool) : Except Error Scanner := do
  let s ← s.saveKey
  let (text, c) ← takeQuoted single (s.cursor.rest.length + 1) [] s.cursor.skip
  return { s with cursor := c, keyAllowed := false }.push
    (.scalar (String.ofList text) (if single then .singleQuoted else .doubleQuoted))

def isFlowIndicator (c : Char) : Bool := ",[]\x7b\x7d".toList.contains c

/-- One word of a plain scalar: characters up to a blank or an indicator that ends it. -/
def takePlainWord (inFlow : Bool) : List Char → Except Error (List Char)
  | [] => .ok []
  | a :: rest =>
    if isSpace a || isBreak a then .ok []
    else if inFlow && a == ':' && rest.head?.any (fun b => b == '?' || isFlowIndicator b) then
      .error .arrangement
    else if a == ':' && atSpaceOrEnd rest then .ok []
    else if inFlow && isFlowIndicator a then .ok []
    else do return a :: (← takePlainWord inFlow rest)

/-- The words of a plain scalar, and whether it ended after a line break. -/
def takePlain (inFlow : Bool) (depth : Int) :
    Nat → List Char → List Char → Bool → Cursor → Except Error (List Char × Bool × Cursor)
  | 0, acc, _, broken, c => .ok (acc, broken, c)
  | fuel + 1, acc, folded, broken, c =>
    if (c.mark.column == 0 && (atMarker '-' c.rest || atMarker '.' c.rest)) || c.at_ '#' then
      .ok (acc, broken, c)
    else do
      let word ← takePlainWord inFlow c.rest
      let (acc, broken) := if word.isEmpty then (acc, broken) else (acc ++ folded ++ word, false)
      let c := c.skipMany word.length
      if !c.next (fun a => isSpace a || isBreak a) then return (acc, broken, c)
      if tabViolates c then throw .indentation
      let (folded, broken, c) := takeFold c
      if !inFlow && (c.mark.column : Int) < depth then return (acc, broken, c)
      takePlain inFlow depth fuel acc folded broken c
where
  /-- After a line break, a tab stands before the column where the scalar has to go on. -/
  tabViolates (c : Cursor) : Bool :=
    let rec go : Nat → Bool → Cursor → Bool
      | 0, _, _ => false
      | fuel + 1, broken, c =>
        match c.rest with
        | a :: _ =>
          if isSpace a then
            (broken && a == '\t' && (c.mark.column : Int) < depth) || go fuel broken c.skip
          else if isBreak a then go fuel true c.takeBreak.2
          else false
        | [] => false
    go (c.rest.length + 1) false c

def fetchPlain (s : Scanner) : Except Error Scanner := do
  let s ← s.saveKey
  let (text, broken, c) ←
    takePlain (s.flow != 0) (s.indent + 1) (s.cursor.rest.length + 1) [] [] false s.cursor
  return { s with cursor := c, keyAllowed := broken }.push (.scalar (String.ofList text) .plain)

/-! ### Indicators -/

def fetchEnd (s : Scanner) : Except Error Scanner := do
  let s ← (s.closeBlocks (-1)).dropKey
  return { s with keyAllowed := false, finished := true }.push .streamEnd

def fetchMarker (s : Scanner) (t : Token) : Except Error Scanner := do
  let s ← (s.closeBlocks (-1)).dropKey
  return { s with cursor := s.cursor.skipMany 3, keyAllowed := false }.push t

def fetchOpen (s : Scanner) (t : Token) : Except Error Scanner := do
  let s ← s.saveKey
  return { s with cursor := s.cursor.skip, keyAllowed := true, flow := s.flow + 1,
                  keys := {} :: s.keys }.push t

def fetchClose (s : Scanner) (t : Token) : Except Error Scanner := do
  let s ← s.dropKey
  let keys := if s.flow == 0 then s.keys else s.keys.drop 1
  return { s with cursor := s.cursor.skip, keyAllowed := false, flow := s.flow - 1,
                  keys := keys }.push t

def fetchComma (s : Scanner) : Except Error Scanner := do
  let s ← s.dropKey
  return { s with cursor := s.cursor.skip, keyAllowed := true }.push .flowEntry

def fetchDash (s : Scanner) : Except Error Scanner := do
  if s.flow == 0 && !s.keyAllowed then throw .arrangement
  let s ← (s.openBlock s.cursor.mark.column none .blockSequenceStart).dropKey
  return { s with cursor := s.cursor.skip, keyAllowed := true }.push .blockEntry

def fetchKey (s : Scanner) : Except Error Scanner := do
  if s.flow == 0 && !s.keyAllowed then throw .arrangement
  let s ← (s.openBlock s.cursor.mark.column none .blockMappingStart).dropKey
  return { s with cursor := s.cursor.skip, keyAllowed := s.flow == 0 }.push .key

/-- The colon of a value; it makes a key of what was remembered as possible one. -/
def fetchValue (s : Scanner) : Except Error Scanner := do
  match s.keys with
  | k :: rest =>
    if k.possible then
      let s := s.insertToken k.token .key
      let s := s.openBlock k.mark.column (some k.token) .blockMappingStart
      return { s with cursor := s.cursor.skip, keyAllowed := false,
                      keys := { k with possible := false } :: rest }.push .value
  | [] => pure ()
  if s.flow == 0 && !s.keyAllowed then throw .key
  let s := s.openBlock s.cursor.mark.column none .blockMappingStart
  return { s with cursor := s.cursor.skip, keyAllowed := s.flow == 0 }.push .value

def isIndicator (c : Char) : Bool :=
  "-?:,[]\x7b\x7d#&*!|>'\"%@\x60".toList.contains c

def startsPlain (inFlow : Bool) : List Char → Bool
  | [] => false
  | a :: rest =>
    (!isSpace a && !isBreak a && !isIndicator a) ||
      (a == '-' && !rest.head?.any isSpace) ||
      (!inFlow && (a == '?' || a == ':') && !atSpaceOrEnd rest)

/-- Read the next token and those that its place implies. -/
def fetch (s : Scanner) : Except Error Scanner := do
  let s := skipBlank (s.cursor.rest.length + 1) s
  let s ← s.expireKeys
  let s := s.closeBlocks s.cursor.mark.column
  let first := s.cursor.mark.column == 0
  let inFlow := s.flow != 0
  match s.cursor.rest with
  | [] => s.fetchEnd
  | a :: rest =>
    if first && a == '%' then s.fetchDirective
    else if first && atMarker '-' (a :: rest) then s.fetchMarker .documentStart
    else if first && atMarker '.' (a :: rest) then s.fetchMarker .documentEnd
    else if a == '[' then s.fetchOpen .flowSequenceStart
    else if a == '\x7b' then s.fetchOpen .flowMappingStart
    else if a == ']' then s.fetchClose .flowSequenceEnd
    else if a == '\x7d' then s.fetchClose .flowMappingEnd
    else if a == ',' then s.fetchComma
    else if a == '-' && atSpaceOrEnd rest then s.fetchDash
    else if a == '?' && (inFlow || atSpaceOrEnd rest) then s.fetchKey
    else if a == ':' && (inFlow || atSpaceOrEnd rest) then s.fetchValue
    else if a == '*' then s.fetchName .alias
    else if a == '&' then s.fetchName .anchor
    else if a == '!' then s.fetchTag
    else if a == '|' && !inFlow then s.fetchBlockScalar true
    else if a == '>' && !inFlow then s.fetchBlockScalar false
    else if a == '\'' then s.fetchQuoted true
    else if a == '"' then s.fetchQuoted false
    else if startsPlain inFlow (a :: rest) then s.fetchPlain
    else throw .character

def run : Nat → Scanner → Except Error Scanner
  | 0, s => .ok s
  | fuel + 1, s => if s.finished then .ok s else do run fuel (← s.fetch)

end Scanner

def Token.scan (text : String) : Except Error (List Token) :=
  let cs := text.toList
  if cs.all isPrintable then do
    let s ← Scanner.run (cs.length + 2) { cursor := { rest := cs } }
    return s.tokens.toList
  else .error .character

end CodeTint.Yaml
