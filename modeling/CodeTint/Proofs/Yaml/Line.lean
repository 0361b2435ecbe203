import CodeTint.Proofs.Yaml.Scalar

/-!
What the scanner makes of lines that hold a key and a value. Main statement: whatever follows such
lines, their tokens are the first tokens of the text.
-/

set_option autoImplicit false
set_option relaxedAutoImplicit false

namespace CodeTint.Yaml

/-- A line of a key and a value. -/
structure Line where
  key : List Char
  style : ScalarStyle
  text : List Char

namespace Line

def quote (l : Line) : List Char :=
  match l.style with
  | .singleQuoted => ['\'']
  | .doubleQuoted => ['"']
  | _ => []

def chars (l : Line) : List Char := l.key ++ ':' :: ' ' :: (l.quote ++ l.text ++ l.quote)

/-- The tokens of a line. -/
def tokens (l : Line) : List Token :=
  [.key, .scalar (String.ofList l.key) .plain, .value, .scalar (String.ofList l.text) l.style]

/-- A line whose key is a word of letters and digits, and whose value is either in quotes or a row
of words. -/
structure Simple (l : Line) : Prop where
  named : l.key ≠ []
  letters : ∀ c ∈ l.key, Scanner.isKeyChar c = true
  short : l.key.length ≤ 1024
  value : match l.style with
    | .plain => Scanner.Words l.text ∧ ∀ a ∈ l.text.head?, Scanner.isIndicator a = false
    | .singleQuoted | .doubleQuoted => ∀ c ∈ l.text, Scanner.isOrdinary c = true
    | _ => False

end Line

namespace Scanner

/-- These are the tokens so far, and there is no key to be put in. -/
structure Settled (front : List Token) (s : Scanner) : Prop where
  tokens : s.tokens.toList = front
  flow : s.flow = 0
  finished : s.finished = false
  keys : ∃ k, s.keys = [k] ∧ k.possible = false

private theorem Settled.impossible {front : List Token} {s : Scanner} (settled : Settled front s) :
    ∀ k ∈ s.keys, k.possible = true → False := by
  obtain ⟨k, keys, impossible⟩ := settled.keys
  intro k' member possible
  rw [keys, List.mem_singleton] at member
  rw [member, impossible] at possible
  cases possible

structure LineStart (front : List Token) (s : Scanner) : Prop extends Settled front s where
  column : s.cursor.mark.column = 0
  keyAllowed : s.keyAllowed = true
  indent : s.indent = if front.isEmpty then -1 else 0

variable {front : List Token} {s t : Scanner} {l : Line} {more : List Char}

private theorem saveKey_settled {k : KeyPlace} (keyAllowed : t.keyAllowed = true)
    (keys : t.keys = [k])
    (impossible : k.possible = false) :
    ∃ required, t.saveKey =
      .ok { t with keys := [⟨true, required, t.tokens.size, t.cursor.mark⟩] } := by
  refine ⟨t.flow == 0 && t.indent == (t.cursor.mark.column : Int), ?_⟩
  simp [saveKey, keyAllowed, dropKey, keys, impossible, bind, Except.bind, pure, Except.pure]

private theorem saveKey_of_not_allowed (keyAllowed : t.keyAllowed = false) : t.saveKey = .ok t := by
  simp [saveKey, keyAllowed]

private theorem bytes_key (simple : l.Simple) : Cursor.bytes l.key = l.key.length :=
  Cursor.bytes_eq_length fun c member => (isKeyChar_facts (simple.letters c member)).2.2.2.1

private theorem atSpaceOrEnd_space (cs : List Char) : atSpaceOrEnd (' ' :: cs) = true := rfl

/-- The state after the key of a line: a scalar more, whose place is remembered. -/
def afterKey (t : Scanner) (l : Line) (required : Bool) (more : List Char) : Scanner :=
  { t with
    cursor := ⟨':' :: ' ' :: more, t.cursor.mark.index + l.key.length, t.cursor.mark.line,
      l.key.length⟩
    keyAllowed := false
    keys := [⟨true, required, t.tokens.size, t.cursor.mark⟩] }.push
      (.scalar (String.ofList l.key) .plain)

private theorem fetch_key (start : LineStart front t) (simple : l.Simple)
    (blank : skipBlank (s.cursor.rest.length + 1) s = t)
    (rest : t.cursor.rest = l.key ++ ':' :: ' ' :: more) :
    ∃ required, s.fetch = .ok (afterKey t l required more) := by
  obtain ⟨k, keys, impossible⟩ := start.keys
  obtain ⟨a, key, named⟩ := List.exists_cons_of_ne_nil simple.named
  have facts := isKeyChar_facts (simple.letters a (by simp [named]))
  have front : t.cursor.rest = a :: (key ++ ':' :: ' ' :: more) := by
    rw [rest, named]
    rfl
  have meets : Meets s t a (key ++ ':' :: ' ' :: more) := by
    refine ⟨blank, fun k member possible => (start.impossible k member possible).elim, ?_, front⟩
    rw [start.indent, start.column]
    split <;> decide
  obtain ⟨required, saved⟩ := saveKey_settled start.keyAllowed keys impossible
  have stop : takePlainWord false (':' :: ' ' :: more) = .ok [] := by
    rw [takePlainWord]
    simp [atSpaceOrEnd_space]
  have letters : ∀ c ∈ l.key, isWordChar c = true :=
    fun c member => (isKeyChar_facts (simple.letters c member)).1
  have inside : atMarker '-' t.cursor.rest = false ∧ atMarker '.' t.cursor.rest = false := by
    rw [front]
    refine ⟨atMarker_of_ne ?_, atMarker_of_ne facts.2.2.2.2⟩
    rintro rfl
    exact absurd facts.2.1 (by decide)
  have word := takePlain_word (t.indent + 1) t.cursor.rest.length [] [] false simple.named letters
    stop rest fun _ => inside
  have passed := t.cursor.skipMany_append rest
  rw [bytes_key simple, start.column, Nat.zero_add] at passed
  rw [passed] at word
  refine ⟨required, ?_⟩
  rw [meets.fetch_plain (fun _ => facts.2.2.2.2) facts.2.1 facts.2.2.1, fetchPlain, saved]
  have block : (t.flow != 0) = false := by simp [start.flow]
  simp only [bind, Except.bind, block, word]
  simp [Cursor.next, isBreak, isSpace, afterKey, pure, Except.pure]

/-- The value of a line is next, and there is no other token of the line to come. -/
structure ValueNext (front : List Token) (s : Scanner) : Prop extends Settled front s where
  column : 0 < s.cursor.mark.column
  keyAllowed : s.keyAllowed = false
  indent : s.indent = 0

private theorem insertToken_last (s : Scanner) (n : Nat) (a b : Token) (size : n = s.tokens.size) :
    ((s.push a).insertToken n b).tokens.toList = s.tokens.toList ++ [b, a] := by
  subst size
  simp [insertToken, push]

private theorem insertToken_zero (s : Scanner) (b : Token) :
    (s.insertToken 0 b).tokens.toList = b :: s.tokens.toList := by
  simp [insertToken]

private theorem fetchValue_keyed {k : KeyPlace} {rest : List KeyPlace} (keys : s.keys = k :: rest)
    (possible : k.possible = true) : s.fetchValue = .ok
      (let u := (s.insertToken k.token .key).openBlock k.mark.column (some k.token)
        .blockMappingStart
      { u with
        cursor := u.cursor.skip, keyAllowed := false
        keys := { k with possible := false } :: rest }.push .value) := by
  simp only [fetchValue, keys, possible]
  rfl

private theorem fetch_colon (start : LineStart front t) (simple : l.Simple) (required : Bool) :
    ∃ s, (afterKey t l required more).fetch = .ok s ∧ s.cursor.rest = ' ' :: more ∧
      ValueNext ((if front.isEmpty then [.blockMappingStart] else front) ++
        [.key, .scalar (String.ofList l.key) .plain, .value]) s := by
  have solid : Solid ':' := ⟨rfl, rfl, by decide⟩
  have short := simple.short
  have meets :
      Meets (afterKey t l required more) (afterKey t l required more) ':' (' ' :: more) := by
    refine ⟨skipBlank_solid solid (by decide) rfl _, ?_, ?_, rfl⟩
    · intro k member _
      rw [List.mem_singleton.mp member]
      exact ⟨Nat.le_refl _, Nat.add_le_add_left short _⟩
    · show t.indent ≤ (l.key.length : Int)
      rw [start.indent]
      split <;> omega
  rw [meets.fetch_value (atSpaceOrEnd_space more), fetchValue_keyed rfl rfl]
  -- the key goes in front of its scalar, and in front of the first key the mapping begins
  have keyed : ((afterKey t l required more).insertToken t.tokens.size .key).tokens.toList =
      front ++ [.key, .scalar (String.ofList l.key) .plain] := by
    rw [← start.tokens]
    exact insertToken_last _ t.tokens.size _ _ rfl
  obtain ⟨u, opened⟩ : ∃ u, u =
      ((afterKey t l required more).insertToken t.tokens.size .key).openBlock
        t.cursor.mark.column (some t.tokens.size) .blockMappingStart := ⟨_, rfl⟩
  have facts : u.tokens.toList = (if front.isEmpty then [.blockMappingStart] else front) ++
      [.key, .scalar (String.ofList l.key) .plain] ∧ u.indent = 0 ∧ u.flow = 0 ∧
      u.finished = false ∧ u.cursor = (afterKey t l required more).cursor := by
    rw [opened, openBlock]
    have flow : ((afterKey t l required more).insertToken t.tokens.size .key).flow = 0 := start.flow
    have indent : ((afterKey t l required more).insertToken t.tokens.size .key).indent =
      if front.isEmpty then -1 else 0 := start.indent
    rw [flow, indent, start.column]
    cases none : front.isEmpty with
    | true =>
      have size : t.tokens.size = 0 := by
        rw [← Array.length_toList, start.tokens, List.isEmpty_iff.mp none]
        rfl
      rw [List.isEmpty_iff.mp none] at keyed
      rw [if_pos (by decide)]
      refine ⟨?_, rfl, rfl, start.finished, rfl⟩
      rw [size] at keyed ⊢
      exact (insertToken_zero _ _).trans (congrArg (Token.blockMappingStart :: ·) keyed)
    | false =>
      rw [if_neg (by decide)]
      exact ⟨keyed, by rw [indent, none]; rfl, flow, start.finished, rfl⟩
  obtain ⟨tokens, indent, flow, finished, cursor⟩ := facts
  refine ⟨{ u with
    cursor := u.cursor.skip, keyAllowed := false
    keys := [⟨false, required, t.tokens.size, t.cursor.mark⟩] }.push .value, ?_, ?_, ?_⟩
  · rw [opened]
  · show u.cursor.skip.rest = _
    rw [cursor]
    rfl
  · refine ⟨⟨?_, flow, finished, _, rfl, rfl⟩, ?_, rfl, indent⟩
    · simp [push, tokens]
    · show 0 < u.cursor.skip.mark.column
      rw [cursor]
      exact Nat.succ_pos _

/-- After a value the next line is next, behind a line break or not. -/
structure LineEnd (front : List Token) (s : Scanner) (tail : List Char) : Prop
    extends Settled front s where
  indent : s.indent = 0
  next : ∀ more, tail = '\n' :: more → s.cursor.rest = '\n' :: more ∨
    s.cursor.rest = more ∧ s.cursor.mark.column = 0 ∧ s.keyAllowed = true

/-- What may follow the value of a line: nothing, or a new line, which after words is not
indented. -/
def Follows (l : Line) (tail : List Char) : Prop :=
  tail = [] ∨ ∃ more, tail = '\n' :: more ∧
    (l.style = .plain → ∀ a ∈ more.head?, isSpace a = false ∧ isBreak a = false)

private theorem ValueNext.meets (value : ValueNext front s) {a : Char} (solid : Solid a)
    (rest : s.cursor.rest = ' ' :: a :: more) : ∃ t, Meets s t a more ∧ ValueNext front t := by
  refine ⟨_, ⟨skipBlank_space solid rest _, ?_, ?_, rfl⟩, ?_⟩
  · exact fun k member possible => (value.impossible k member possible).elim
  · show s.indent ≤ _
    rw [value.indent]
    omega
  · exact ⟨⟨value.tokens, value.flow, value.finished, value.keys⟩, Nat.succ_pos _,
      value.keyAllowed, value.indent⟩

private theorem Settled.pushed (settled : Settled front s) (c : Cursor) (keyAllowed : Bool)
    (token : Token) :
    Settled (front ++ [token]) ({ s with cursor := c, keyAllowed }.push token) where
  tokens := by simp [push, settled.tokens]
  flow := settled.flow
  finished := settled.finished
  keys := settled.keys

private theorem fetch_words (value : ValueNext front s) {text tail : List Char} (words : Words text)
    (letter : ∀ a ∈ text.head?, isIndicator a = false)
    (ends : tail = [] ∨ ∃ more, tail = '\n' :: more ∧
      ∀ a ∈ more.head?, isSpace a = false ∧ isBreak a = false)
    (rest : s.cursor.rest = ' ' :: (text ++ tail)) :
    ∃ t, s.fetch = .ok t ∧ LineEnd (front ++ [.scalar (String.ofList text) .plain]) t tail := by
  obtain ⟨a, text', rfl, word⟩ := words.head
  obtain ⟨t, meets, value⟩ := value.meets (solid_of_isWordChar word) rest
  have right : 0 < t.cursor.mark.column := value.column
  have start : t.cursor.rest = a :: text' ++ tail := meets.rest
  have enough : (a :: text').length < t.cursor.rest.length + 1 := by
    rw [start, List.length_append]
    omega
  obtain ⟨broken, after, taken, ended, broke⟩ :=
    takePlain_words words ends enough [] [] false start right
  rw [meets.fetch_plain (by omega) (letter a rfl) (solid_of_isWordChar word)]
  refine ⟨{ t with cursor := after, keyAllowed := broken }.push
    (.scalar (String.ofList (a :: text')) .plain), ?_, ?_⟩
  · have block : (t.flow != 0) = false := by simp [value.flow]
    have depth : t.indent + 1 = 1 := by rw [value.indent]; rfl
    simp only [fetchPlain, saveKey_of_not_allowed value.keyAllowed, bind, Except.bind, block, depth,
      taken]
    rfl
  · refine ⟨value.toSettled.pushed _ _ _, value.indent, ?_⟩
    intro more same
    obtain ⟨rest, column, broken⟩ := broke more same
    exact .inr ⟨rest, column, broken⟩

private theorem fetch_quotes (single : Bool) (value : ValueNext front s) {text tail : List Char}
    (ordinary : ∀ c ∈ text, isOrdinary c = true) (ends : tail.head? ≠ some '\'')
    (rest : s.cursor.rest = ' ' :: mark single :: (text ++ mark single :: tail)) :
    ∃ t, s.fetch = .ok t ∧ LineEnd (front ++ [.scalar (String.ofList text)
      (if single then .singleQuoted else .doubleQuoted)]) t tail := by
  have solid : Solid (mark single) :=
    ⟨(mark_solid single).1, (mark_solid single).2, by cases single <;> decide⟩
  obtain ⟨t, meets, value⟩ := value.meets solid rest
  have start : t.cursor.skip.rest = text ++ mark single :: tail := by
    simp [Cursor.skip, meets.rest]
  have enough : text.length < t.cursor.rest.length + 1 := by
    rw [meets.rest, List.length_cons, List.length_append]
    omega
  obtain ⟨after, taken, rest, column⟩ :=
    takeQuoted_ordinary ends ordinary enough [] start (by simp [Cursor.skip, meets.rest])
  have fetched : s.fetch = t.fetchQuoted single := Meets.fetch_quoted meets
  rw [fetched]
  refine ⟨{ t with cursor := after, keyAllowed := false }.push (.scalar (String.ofList text)
    (if single then .singleQuoted else .doubleQuoted)), ?_, ?_⟩
  · simp only [fetchQuoted, saveKey_of_not_allowed value.keyAllowed, bind, Except.bind, taken]
    rfl
  · refine ⟨value.toSettled.pushed _ _ _, value.indent, ?_⟩
    rintro more rfl
    exact .inl rest

private theorem fetch_text (value : ValueNext front s) (simple : l.Simple) {tail : List Char}
    (follows : Follows l tail)
    (rest : s.cursor.rest = ' ' :: (l.quote ++ l.text ++ l.quote ++ tail)) :
    ∃ t, s.fetch = .ok t ∧
      LineEnd (front ++ [.scalar (String.ofList l.text) l.style]) t tail := by
  have apart : tail.head? ≠ some '\'' := by
    rcases follows with rfl | ⟨more, rfl, -⟩ <;> simp
  obtain ⟨key, style, text⟩ := l
  have given := simple.value
  cases style with
  | plain =>
    obtain ⟨words, letter⟩ := given
    refine fetch_words value words letter ?_ (by simpa [Line.quote] using rest)
    rcases follows with rfl | ⟨more, rfl, left⟩
    · exact .inl rfl
    · exact .inr ⟨more, rfl, left rfl⟩
  | singleQuoted =>
    exact fetch_quotes true value given apart (by simpa [Line.quote, mark] using rest)
  | doubleQuoted =>
    exact fetch_quotes false value given apart (by simpa [Line.quote, mark] using rest)
  | literal => exact given.elim
  | folded => exact given.elim

private theorem LineEnd.lineStart (ended : LineEnd front s ('\n' :: more)) (some : front ≠ []) :
    ∃ t fuel, skipBlank (s.cursor.rest.length + 1) s = skipBlank fuel t ∧ more.length < fuel ∧
      LineStart front t ∧ t.cursor.rest = more := by
  have opened : front.isEmpty = false := by simpa using some
  have settled := ended.toSettled
  rcases ended.next more rfl with rest | ⟨rest, column, keyAllowed⟩
  · refine ⟨_, _, skipBlank_break settled.flow rest _, by simp [rest], ?_, rfl⟩
    exact ⟨⟨settled.tokens, settled.flow, settled.finished, settled.keys⟩, rfl, rfl, by
      rw [opened]; exact ended.indent⟩
  · refine ⟨s, _, rfl, by simp [rest], ?_, rest⟩
    exact ⟨settled, column, keyAllowed, by rw [opened]; exact ended.indent⟩

private theorem run_fetch (unfinished : s.finished = false) (fetched : s.fetch = .ok t)
    (fuel : Nat) : run (fuel + 1) s = run fuel t := by
  rw [run, unfinished, if_neg (by decide), fetched]
  rfl

private theorem run_line (start : LineStart front t) (simple : l.Simple) {tail : List Char}
    (follows : Follows l tail) (unfinished : s.finished = false)
    (blank : skipBlank (s.cursor.rest.length + 1) s = t)
    (rest : t.cursor.rest = l.chars ++ tail) (fuel : Nat) :
    ∃ u, run (fuel + 3) s = run fuel u ∧
      LineEnd ((if front.isEmpty then [.blockMappingStart] else front) ++ l.tokens) u tail := by
  have parts : t.cursor.rest = l.key ++ ':' :: ' ' :: (l.quote ++ l.text ++ l.quote ++ tail) := by
    rw [rest, Line.chars]
    simp
  obtain ⟨required, first⟩ := fetch_key start simple blank parts
  obtain ⟨v, second, valueRest, value⟩ := fetch_colon start simple required
  obtain ⟨u, third, ended⟩ := fetch_text value simple follows valueRest
  have unfinished' :
      (afterKey t l required (l.quote ++ l.text ++ l.quote ++ tail)).finished = false :=
    start.finished
  refine ⟨u, ?_, by simpa [Line.tokens] using ended⟩
  rw [run_fetch unfinished first, run_fetch unfinished' second, run_fetch value.finished third]

private theorem Settled.keeps (settled : Settled front s) : Keeps front s where
  tokens := ⟨[], by rw [settled.tokens, List.append_nil]⟩
  keys k member possible := (settled.impossible k member possible).elim

end Scanner

/-- A line without a key: spaces, and there may be a comment. -/
def IsFiller (cs : List Char) : Prop :=
  ∃ spaces comment, cs = spaces ++ comment ∧ (∀ a ∈ spaces, a = ' ') ∧
    (comment = [] ∨ ∃ text, comment = '#' :: text ∧ ∀ a ∈ text, isBreak a = false)

/-- A text that begins with lines, between which there may be others without a key. -/
inductive Opens : List Line → List Char → Prop where
  | last {l : Line} {tail : List Char} (simple : l.Simple) (follows : Scanner.Follows l tail) :
      Opens [l] (l.chars ++ tail)
  | line {l : Line} {lines : List Line} {rest : List Char} (simple : l.Simple)
      (follows : Scanner.Follows l ('\n' :: rest)) (later : Opens lines rest) :
      Opens (l :: lines) (l.chars ++ '\n' :: rest)
  | filler {cs : List Char} {lines : List Line} {rest : List Char} (filler : IsFiller cs)
      (later : Opens lines rest) : Opens lines (cs ++ '\n' :: rest)

namespace Scanner

variable {front : List Token} {s t : Scanner} {l : Line} {more : List Char}

private theorem skipBlank_filler {cs : List Char} (filler : IsFiller cs) (flow : s.flow = 0)
    (keyAllowed : s.keyAllowed = true) (rest : s.cursor.rest = cs ++ '\n' :: more) (fuel : Nat) :
    ∃ c, skipBlank (fuel + 1) s = skipBlank fuel { s with cursor := c } ∧ c.rest = more ∧
      c.mark.column = 0 := by
  obtain ⟨spaces, comment, rfl, spaced, commented⟩ := filler
  rw [List.append_assoc] at rest
  have head : ∀ a ∈ (comment ++ '\n' :: more).head?, a = '#' ∨ a = '\n' := by
    rcases commented with rfl | ⟨text, rfl, -⟩ <;> simp
  have notMark : s.cursor.next (·.toNat == 0xFEFF) = false := by
    rw [Cursor.next, rest]
    cases spaces with
    | nil =>
      rcases commented with rfl | ⟨text, rfl, -⟩ <;> rfl
    | cons a spaces =>
      rw [spaced a List.mem_cons_self]
      rfl
  obtain ⟨c, indented, next⟩ : ∃ c, s.cursor.skipWhile (· == ' ') = c ∧
      c.rest = comment ++ '\n' :: more := by
    refine ⟨_, s.cursor.skipWhile_append rest ?_ ?_, rfl⟩
    · intro a member
      simp [spaced a member]
    · intro a first
      rcases head a first with rfl | rfl <;> rfl
  obtain ⟨e, ended, last⟩ : ∃ e, (if c.at_ '#' then c.skipWhile (!isBreak ·) else c) = e ∧
      e.rest = '\n' :: more := by
    rcases commented with rfl | ⟨text, rfl, all⟩
    · exact ⟨c, if_neg (by simp [Cursor.at_, next]), next⟩
    · have hash : c.at_ '#' = true := by simp [Cursor.at_, next]
      rw [if_pos hash]
      refine ⟨_, c.skipWhile_append next ?_ ?_, rfl⟩
      · rw [List.forall_mem_cons]
        exact ⟨rfl, fun a member => by simp [all a member]⟩
      · rintro _ ⟨⟩
        rfl
  refine ⟨⟨more, e.mark.index + 1, e.mark.line + 1, 0⟩, ?_, rfl, rfl⟩
  have breaks : e.next isBreak = true := by
    rw [Cursor.next, last]
    rfl
  have blank :
      (fun a => a == ' ' || ((s.flow != 0 || !s.keyAllowed) && a == '\t')) = (· == ' ') := by
    simp [flow, keyAllowed]
  rw [skipBlank]
  simp only [notMark, Bool.and_false, Bool.false_eq_true, if_false, blank, indented, ended, breaks,
    if_true, Cursor.takeBreak_newline last]
  rw [keyAllowed, Bool.true_or]

private theorem skipBlank_line (simple : l.Simple) {tail : List Char}
    (rest : t.cursor.rest = l.chars ++ tail) (fuel : Nat) : skipBlank (fuel + 1) t = t := by
  obtain ⟨a, key, named⟩ := List.exists_cons_of_ne_nil simple.named
  have letter := simple.letters a (by simp [named])
  have notMark : a.toNat ≠ 0xFEFF := by
    have := isKeyChar_lt letter
    omega
  have next :
      t.cursor.rest = a :: (key ++ ':' :: ' ' :: (l.quote ++ l.text ++ l.quote) ++ tail) := by
    rw [rest, Line.chars, named]
    simp
  exact skipBlank_solid (isKeyChar_facts letter).2.2.1 notMark next fuel

private theorem run_opens {lines : List Line} {cs : List Char} (opens : Opens lines cs)
    (start : LineStart front t) (rest : t.cursor.rest = cs) (unfinished : s.finished = false)
    {room : Nat} (enough : cs.length < room)
    (blank : skipBlank (s.cursor.rest.length + 1) s = skipBlank room t) (fuel : Nat) :
    ∃ u, run (fuel + 3 * lines.length) s = run fuel u ∧
      Settled ((if front.isEmpty then [.blockMappingStart] else front) ++
        lines.flatMap Line.tokens) u := by
  -- `s` and `t` differ by blanks only, so that lines without a key leave `s` and move `t` on
  induction opens generalizing front s t room with
  | @last l tail simple follows =>
    obtain ⟨room, rfl⟩ := Nat.exists_eq_add_one_of_ne_zero (by omega : room ≠ 0)
    rw [skipBlank_line simple rest] at blank
    obtain ⟨u, ran, ended⟩ := run_line start simple follows unfinished blank rest fuel
    exact ⟨u, ran, by simpa using ended.toSettled⟩
  | @line l lines tail simple follows later ih =>
    obtain ⟨room, rfl⟩ := Nat.exists_eq_add_one_of_ne_zero (by omega : room ≠ 0)
    rw [skipBlank_line simple rest] at blank
    obtain ⟨u, ran, ended⟩ := run_line start simple follows unfinished blank rest
      (fuel + 3 * lines.length)
    obtain ⟨v, room', blank', enough', start', rest'⟩ := ended.lineStart (by simp [Line.tokens])
    obtain ⟨w, ran', settled⟩ := ih start' rest' ended.finished enough' blank'
    refine ⟨w, ?_, ?_⟩
    · rw [List.length_cons, ← ran', ← ran]
      congr 1
    · -- the mapping has begun with this line, if not before
      have some : ((if front.isEmpty then [Token.blockMappingStart] else front) ++
          l.tokens).isEmpty = false := by simp [Line.tokens]
      rw [some] at settled
      simpa using settled
  | @filler cs lines tail filler later ih =>
    obtain ⟨room, rfl⟩ := Nat.exists_eq_add_one_of_ne_zero (by omega : room ≠ 0)
    obtain ⟨c, passed, rest', column⟩ :=
      skipBlank_filler filler start.flow start.keyAllowed rest room
    rw [passed] at blank
    have start' : LineStart front { t with cursor := c } :=
      ⟨⟨start.tokens, start.flow, start.finished, start.keys⟩, column, start.keyAllowed,
        start.indent⟩
    refine ih start' rest' unfinished ?_ blank
    simp only [List.length_append, List.length_cons] at enough
    omega

end Scanner

namespace Opens

variable {lines : List Line}

private theorem length_le {cs : List Char} (opens : Opens lines cs) :
    3 * lines.length ≤ cs.length := by
  have long (l : Line) (simple : l.Simple) : 3 ≤ l.chars.length := by
    have := List.length_pos_of_ne_nil simple.named
    simp only [Line.chars, List.length_append, List.length_cons]
    omega
  induction opens with
  | last simple follows =>
    have := long _ simple
    simp only [List.length_append, List.length_singleton]
    omega
  | line simple follows later ih =>
    have := long _ simple
    simp only [List.length_append, List.length_cons]
    omega
  | filler filler later ih =>
    simp only [List.length_append, List.length_cons]
    omega

theorem prefix_scan {text : String} (opens : Opens lines text.toList) {tokens : List Token}
    (scanned : Token.scan text = .ok tokens) :
    .blockMappingStart :: lines.flatMap Line.tokens <+: tokens := by
  obtain ⟨fuel, size⟩ := Nat.exists_eq_add_of_le'
    (Nat.le_add_right_of_le opens.length_le : _ ≤ text.toList.length + 2)
  have start : Scanner.LineStart [] { cursor := { rest := text.toList } } :=
    ⟨⟨rfl, rfl, rfl, {}, rfl, rfl⟩, rfl, rfl, rfl⟩
  obtain ⟨u, ran, settled⟩ := Scanner.run_opens opens start rfl rfl (Nat.lt_succ_self _) rfl fuel
  simp only [Token.scan] at scanned
  split at scanned
  · obtain ⟨s, run, given⟩ := bind_eq_ok_iff.mp scanned
    cases given
    rw [size, ran] at run
    exact (Scanner.keeps_run settled.keeps fuel s run).tokens
  · cases scanned

end Opens

end CodeTint.Yaml
