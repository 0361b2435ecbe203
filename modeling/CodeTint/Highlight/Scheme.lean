import CodeTint.Highlight.Lexeme

/-!
What is found in the text of a Scheme program: its atoms and brackets, and each quoted datum as a
whole.
-/

set_option autoImplicit false
set_option relaxedAutoImplicit false

namespace CodeTint.Highlight.Scheme

def isAtomChar (c : Char) : Bool :=
  !c.isWhitespace && !"()[]\x7b\x7d\",\x60;\x0b\x0c".toList.contains c && c != '\x27' &&
    !separators.contains c

/-- The length of a symbol. Bars keep all that they hold, and a backslash keeps one character. -/
def symbolLength : Nat → List Char → Nat
  | 0, _ => 0
  | _, [] => 0
  | fuel + 1, '\\' :: cs => match cs with
    | [] => 0
    | _ :: rest => symbolLength fuel rest + 2
  | fuel + 1, '|' :: rest => match Lexis.untilClosed? ['|'] rest with
    | some held => symbolLength fuel (rest.drop held) + held + 1
    | none => 0
  | fuel + 1, c :: rest => if isAtomChar c then symbolLength fuel rest + 1 else 0

def symbol (cs : List Char) : Nat := symbolLength cs.length cs

def isDigitOf (radix : Nat) (c : Char) : Bool :=
  match "0123456789abcdef".toList.findIdx? (· == c.toLower) with
  | some value => value < radix
  | none => false

def dropDigits? (radix : Nat) (cs : List Char) : Option (List Char) :=
  if cs.head?.any (isDigitOf radix) then
    some ((cs.dropWhile (isDigitOf radix)).dropWhile (· == '#'))
  else none

/-- What follows a mark of an exponent with the exponent, or all of the text. -/
def dropExponent (radix : Nat) (cs : List Char) : List Char :=
  match cs with
  | mark :: sign :: rest =>
    let body := if sign == '+' || sign == '-' then rest else sign :: rest
    if (if radix = 16 then "sSlLtT" else "sSlLdDeEfFtT").toList.contains mark &&
      body.head?.any (isDigitOf radix) then body.dropWhile (isDigitOf radix)
    else cs
  | _ => cs

/-- What follows a real number without a sign: an integer, a fraction or a decimal. -/
def dropUnsigned? (radix : Nat) (cs : List Char) : Option (List Char) :=
  match dropDigits? radix cs, cs with
  | some ('/' :: rest), _ => some (match dropDigits? radix rest with
    | some behind => dropExponent radix behind
    | none => '/' :: rest)
  | some ('.' :: rest), _ =>
    some (dropExponent radix ((rest.dropWhile (isDigitOf radix)).dropWhile (· == '#')))
  | some rest, _ => some (dropExponent radix rest)
  | none, '.' :: rest => (dropDigits? radix rest).map (dropExponent radix)
  | none, _ => none

def dropSpecial? (cs : List Char) : Option (List Char) :=
  if ["inf.0", "nan.0", "inf.f", "nan.f", "inf.t", "nan.t"].contains
    (String.ofList (cs.take 5)).toLower then some (cs.drop 5) else none

def dropSigned? (radix : Nat) (cs : List Char) : Option (List Char) :=
  (dropSpecial? cs).or (dropUnsigned? radix cs)

def dropReal? (radix : Nat) (cs : List Char) : Option (List Char) :=
  match cs with
  | '+' :: rest | '-' :: rest => dropSigned? radix rest
  | _ => dropUnsigned? radix cs

def isImaginary (radix : Nat) (cs : List Char) : Bool :=
  match cs with
  | '+' :: rest | '-' :: rest =>
    let behind := (dropSigned? radix rest).getD rest
    behind == ['i'] || behind == ['I']
  | _ => false

/-- A text is a number in a radix: a real one, a sum with an imaginary part, or a magnitude with
an angle. -/
def isNumberOf (radix : Nat) (cs : List Char) : Bool :=
  isImaginary radix cs || match dropReal? radix cs with
  | some [] => true
  | some ('@' :: rest) => dropReal? radix rest == some []
  | some rest => isImaginary radix rest
  | none => false

/-- A text is a number. The radix and whether it is exact may be given before it. -/
def isNumber (cs : List Char) : Bool :=
  match cs with
  | '#' :: a :: '#' :: b :: rest =>
    if "eEiI".toList.contains a then isNumberOf (radixOf b) rest
    else "eEiI".toList.contains b && isNumberOf (radixOf a) rest
  | '#' :: a :: rest =>
    isNumberOf (if "eEiI".toList.contains a then 10 else radixOf a) rest
  | _ => isNumberOf 10 cs
where
  radixOf (c : Char) : Nat :=
    if c == 'x' || c == 'X' then 16 else if c == 'o' || c == 'O' then 8
    else if c == 'b' || c == 'B' then 2 else if c == 'd' || c == 'D' then 10 else 0

def longestNumber (cs : List Char) : Nat → Nat
  | 0 => 0
  | length + 1 => if isNumber (cs.take (length + 1)) then length + 1 else longestNumber cs length

def characterNames : List String :=
  ["backspace", "linefeed", "newline", "rubout", "delete", "return", "space", "null", "page",
    "vtab", "nul", "tab"]

/-- The length of a character literal behind its first two characters: a name, a code point, or
the character itself. -/
def characterLength (cs : List Char) : Nat :=
  match characterNames.find? (Lexis.begins · cs), cs with
  | some name, _ => name.length
  | none, 'u' :: rest => hexRun 4 rest + 1
  | none, 'U' :: rest => hexRun 8 rest + 1
  | none, _ =>
    if ((cs.take 3).takeWhile fun c => '0' ≤ c && c ≤ '7').length = 3 then 3 else min 1 cs.length

/-- The length of a text of lines behind its opening `#<<` and the word that closes it, up to the
line that holds only that word. -/
def hereLength (cs : List Char) : Nat :=
  let closing := '\n' :: (cs.drop 3).takeWhile (· != '\n')
  let opening := Lexis.lineLength cs
  let rec lines : List Char → Nat
    | [] => 0
    | c :: rest =>
      if closing.isPrefixOf (c :: rest) && ((c :: rest).drop closing.length).head?.all (· == '\n')
      then closing.length
      else lines rest + 1
  opening + lines (cs.drop opening)

/-- A bracket is open behind some lexemes, the nearest first, if `depth` more are closed, or one was
closed that none opened. -/
def isUneven : Nat → List Lexeme → Bool
  | depth, [] => depth != 0
  | depth, l :: before =>
    if l.kind != .sign then isUneven depth before
    else if isOneOf [")", "]", "\x7d"] l.text then isUneven (depth + 1) before
    else if isOneOf ["(", "[", "\x7b"] l.text then depth = 0 || isUneven (depth - 1) before
    else isUneven depth before

/-- A bracket is open behind some lexemes, the nearest first, if `depth` more are closed. -/
def inBrackets : Nat → List Lexeme → Bool
  | _, [] => false
  | depth, l :: before =>
    if l.kind != .sign then inBrackets depth before
    else if isOneOf [")", "]", "\x7d"] l.text then inBrackets (depth + 1) before
    else if isOneOf ["(", "[", "\x7b"] l.text then depth = 0 || inBrackets (depth - 1) before
    else inBrackets depth before

/-- A quoted text behind a start. One that is not closed goes to the end, and is a text only if the
brackets before it are even. -/
def quotedBehind (before : List Lexeme) (start : Nat) (cs : List Char) : LexemeKind × Nat :=
  let length := Lexis.quotedBy '"' false (cs.drop start)
  if length != 0 then (.text, start + length)
  else (if isUneven 0 before then .broken else .text, cs.length)

def openers : List String :=
  ["#hasheqv", "#hashalw", "#hasheq", "#hash", "#fl", "#fx", "#,@", "#'", "#\x60", "#,", "#&",
    "#;", "#!", "#s", "#"]

/-- The length of a hash sign with the digits behind it: the size of a vector, or the label of a
datum with the sign that gives it or refers to it. -/
def labelLength (cs : List Char) : Nat :=
  let digits := ((cs.drop 1).takeWhile Char.isDigit).length
  if digits != 0 && cs[digits + 1]?.any (fun c => c == '=' || c == '#') then digits + 2
  else digits + 1

def hashed (before : List Lexeme) (cs : List Char) : LexemeKind × Nat :=
  let starts := fun words : List String => words.find? (Lexis.begins · cs)
  let number := longestNumber cs ((cs.takeWhile isAtomChar).length)
  if Lexis.begins "#\\" cs then (.text, characterLength (cs.drop 2) + 2)
  else if (starts ["#! ", "#!/"]).isSome then (.comment, Lexis.lineLength cs)
  else if Lexis.begins "#<<" cs then (.text, hereLength cs)
  else match starts ["#rx#\"", "#px#\"", "#rx\"", "#px\"", "#\""] with
  | some start => quotedBehind before (start.length - 1) cs
  | none =>
    if (starts ["#:", "#%"]).isSome then (.word, symbol (cs.drop 2) + 2)
    else if number != 0 then (.number, number)
    else match starts ["#lang", "#reader", "#true", "#false", "#cs", "#ci"],
        starts openers, starts ["#t", "#f", "#T", "#F"] with
      | some word, _, _ => (.word, word.length)
      | none, some sign, some boolean =>
        if sign.length > 2 then
          (.sign, sign.length + ((cs.drop sign.length).takeWhile Char.isDigit).length)
        else (.word, boolean.length)
      | none, none, some boolean => (.word, boolean.length)
      | none, some sign, none =>
        if sign == "#" then (.sign, labelLength cs)
        else (.sign, sign.length)
      | none, none, none => (.sign, 1)

/-- What comes before words and signs: all that is not a bracket. -/
def special (before : List Lexeme) (cs : List Char) : LexemeKind × Nat :=
  match cs with
  | '#' :: '|' :: _ => (.comment, cs.length)
  | '#' :: _ => hashed before cs
  | ',' :: '@' :: _ => (.sign, 2)
  | '"' :: _ => quotedBehind before 0 cs
  | _ => (.word, symbol cs)

def lexis : Lexis where
  lineComments := [";"]
  blockComment := some ("#|", "|#")
  nested := true
  blanks := separators
  isWordStart := fun _ => false
  special := special
  number := fun _ => 0

/-- The escapes of a text: up to three octal digits, two digits of a byte, four or eight of a code
point, or one character. -/
def escape : EscapeRule
  | 'x' :: rest => numbered (hexRun 2 rest)
  | 'u' :: rest => numbered (hexRun 4 rest)
  | 'U' :: rest => numbered (hexRun 8 rest)
  | '\r' :: '\n' :: _ => 2
  | c :: rest =>
    if "abtnvfre\"\x27\\\r\n".toList.contains c then 1
    else (((c :: rest).take 3).takeWhile fun c => '0' ≤ c && c ≤ '7').length
  | [] => 0
where
  /-- The length with the letter before the digits, if there are some. -/
  numbered (digits : Nat) : Nat := if digits = 0 then 0 else digits + 1

/-- The lexemes behind the bracket that closes, if `depth` brackets are open, with its end. -/
def closing? : Nat → List Lexeme → Option (Nat × List Lexeme)
  | _, [] => none
  | depth, l :: rest =>
    if isOneOf ["(", "[", "\x7b"] l.text then closing? (depth + 1) rest
    else if isOneOf [")", "]", "\x7d"] l.text then
      if depth ≤ 1 then some (l.stop, rest) else closing? (depth - 1) rest
    else closing? depth rest

/-- Where the datum that some lexemes begin with starts and ends, and the lexemes behind it. A datum
that is left out may stand before it. -/
def datum? : Nat → List Lexeme → Option (Nat × Nat × List Lexeme)
  | 0, _ => none
  | _, [] => none
  | fuel + 1, l :: rest =>
    if l.text == "#;" then (datum? fuel rest).bind fun (_, _, behind) => datum? fuel behind
    else if isOneOf ["(", "[", "\x7b"] l.text then
      (closing? 1 rest).map fun (stop, behind) => (l.start, stop, behind)
    else if isOneOf [")", "]", "\x7d"] l.text then none
    else if l.kind = .sign then
      (datum? fuel rest).map fun (_, stop, behind) => (l.start, stop, behind)
    else some (l.start, l.stop, rest)

def datumMarks (n : Near) (name : String) : List Mark :=
  match datum? (n.after.length + 1) n.after with
  | some (start, stop, _) => [n.here.mark name, ⟨start, stop, 0, name⟩]
  | none => []

def wholeMarks (n : Near) (name : String) : List Mark :=
  match datum? (n.after.length + 1) n.after with
  | some (_, stop, _) => [⟨n.here.start, stop, 0, name⟩]
  | none => []

def atom (text : String) : String :=
  if isOneOf ["#t", "#f", "#true", "#false", "#T", "#F"] text then "constant.builtin"
  else if text.startsWith "#:" then "constant"
  else if isNumber text.toList then "number"
  else "variable"

/-- The marks of a text: a character, a pattern, or a string. -/
def textMarks (n : Near) : List Mark :=
  if n.text.startsWith "#\\" then [n.here.mark "constant.builtin"]
  else if n.text.startsWith "#<<" then [n.here.mark "string"]
  else
    let isPattern := n.text.startsWith "#r" || n.text.startsWith "#p"
    let length := n.text.length
    let whole := if n.prev == "'" then n.here.markAt 1 (length - 2) "string"
      else n.here.mark (if isPattern then "string.special" else "string")
    whole :: n.here.escapes escape

def lexemeMarks (n : Near) : List Mark :=
  match n.here.kind with
  | .word =>
    if n.text == "#lang" then namedMarks
    else if n.text == "#reader" then wholeMarks n "keyword"
    else if isOneOf ["#lang", "#!"] n.prev then [n.here.mark "variable.builtin"]
    else if n.text == "." && inBrackets 0 n.before then []
    else [n.here.mark (atom n.text)]
  | .number => [n.here.mark "number"]
  | .text => textMarks n
  | .comment | .broken => []
  | .sign => match n.text with
    | "'" => datumMarks n "constant"
    | "#;" => datumMarks n "comment"
    | "#!" => namedMarks
    | "(" | ")" | "[" | "]" | "\x7b" | "\x7d" => [n.here.mark "punctuation.bracket"]
    | _ => []
where
  namedMarks : List Mark :=
    (n.after.head?.map (fun l => ⟨n.here.start, l.stop, 0, "keyword"⟩)).toList

def marks (text : String) : List Mark :=
  walk () (fun _ n => ((), lexemeMarks n)) (lexis.lexemes text)

end CodeTint.Highlight.Scheme
