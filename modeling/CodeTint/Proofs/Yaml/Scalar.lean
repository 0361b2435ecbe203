import CodeTint.Proofs.Yaml.Kept
import CodeTint.Text.Blank

/-!
What the scanner makes of blanks and of scalars on one line. Main statements: words up to the end of
a line are read as they are, and so are ordinary characters up to a quotation mark.
-/

set_option autoImplicit false
set_option relaxedAutoImplicit false

namespace CodeTint.Yaml

/-! Cursors. -/

namespace Cursor

private theorem skipMany_succ (n : Nat) (c : Cursor) : c.skipMany (n + 1) = c.skip.skipMany n := by
  induction n generalizing c with
  | zero => rfl
  | succ n ih =>
    calc c.skipMany (n + 1 + 1) = (c.skipMany (n + 1)).skip := rfl
      _ = (c.skip.skipMany n).skip := by rw [ih]
      _ = c.skip.skipMany (n + 1) := rfl

def bytes : List Char → Nat
  | [] => 0
  | a :: more => a.utf8Size + bytes more

theorem bytes_eq_length {cs : List Char} (single : ∀ a ∈ cs, a.utf8Size = 1) :
    bytes cs = cs.length := by
  induction cs with
  | nil => rfl
  | cons a more ih =>
    rw [List.forall_mem_cons] at single
    rw [bytes, single.1, ih single.2, List.length_cons, Nat.add_comm]

theorem skipMany_append {c : Cursor} {xs ys : List Char} (rest : c.rest = xs ++ ys) :
    c.skipMany xs.length =
      ⟨ys, c.mark.index + bytes xs, c.mark.line, c.mark.column + xs.length⟩ := by
  induction xs generalizing c with
  | nil =>
    obtain ⟨_, mark⟩ := c
    obtain rfl : _ = ys := rest
    rfl
  | cons x xs ih =>
    obtain ⟨_, mark⟩ := c
    obtain rfl : _ = x :: (xs ++ ys) := rest
    rw [List.length_cons, skipMany_succ, ih rfl]
    simp only [skip, bytes, Cursor.mk.injEq, Mark.mk.injEq, true_and]
    omega

theorem skipWhile_append {c : Cursor} {xs ys : List Char} {p : Char → Bool}
    (rest : c.rest = xs ++ ys) (all : ∀ x ∈ xs, p x = true) (stop : ∀ y ∈ ys.head?, p y = false) :
    c.skipWhile p = ⟨ys, c.mark.index + bytes xs, c.mark.line, c.mark.column + xs.length⟩ := by
  have taken : c.rest.takeWhile p = xs := by
    rw [rest, List.takeWhile_append_of_pos all]
    cases ys with
    | nil => simp
    | cons y ys => rw [List.takeWhile_cons_of_neg (by simp [stop y rfl]), List.append_nil]
  rw [skipWhile, taken]
  exact skipMany_append rest

private theorem skipWhile_of_stop {c : Cursor} {a : Char} {more : List Char} {p : Char → Bool}
    (rest : c.rest = a :: more) (stop : p a = false) : c.skipWhile p = c := by
  have none : c.rest.takeWhile p = [] := by
    rw [rest, List.takeWhile_cons_of_neg (by simp [stop])]
  rw [skipWhile, none]
  rfl

theorem takeBreak_newline {c : Cursor} {more : List Char} (rest : c.rest = '\n' :: more) :
    c.takeBreak = (['\n'], ⟨more, c.mark.index + 1, c.mark.line + 1, 0⟩) := by
  simp [takeBreak, rest, isBreak, Char.utf8Size]

end Cursor

namespace Scanner

structure Solid (a : Char) : Prop where
  notSpace : isSpace a = false
  notBreak : isBreak a = false
  notHash : a ≠ '#'

theorem skipBlank_solid {s : Scanner} {a : Char} {more : List Char} (solid : Solid a)
    (notMark : a.toNat ≠ 0xFEFF) (rest : s.cursor.rest = a :: more) (fuel : Nat) :
    skipBlank (fuel + 1) s = s := by
  have noBlank : ∀ p : Char → Bool, p a = false → s.cursor.skipWhile p = s.cursor :=
    fun _ => Cursor.skipWhile_of_stop rest
  have notSpaces := solid.notSpace
  simp only [isSpace, Bool.or_eq_false_iff] at notSpaces
  simp [skipBlank, Cursor.next, Cursor.at_, rest, notMark, noBlank, solid.notHash, solid.notBreak,
    notSpaces]

theorem skipBlank_break {s : Scanner} {more : List Char} (flow : s.flow = 0)
    (rest : s.cursor.rest = '\n' :: more) (fuel : Nat) : skipBlank (fuel + 1) s = skipBlank fuel
      { s with
        cursor := ⟨more, s.cursor.mark.index + 1, s.cursor.mark.line + 1, 0⟩
        keyAllowed := true } := by
  have noBlank : ∀ p : Char → Bool, p '\n' = false → s.cursor.skipWhile p = s.cursor :=
    fun _ => Cursor.skipWhile_of_stop rest
  simp [skipBlank, Cursor.next, Cursor.at_, rest, noBlank, isBreak, Cursor.takeBreak_newline rest,
    flow]

theorem skipBlank_space {s : Scanner} {a : Char} {more : List Char} (solid : Solid a)
    (rest : s.cursor.rest = ' ' :: a :: more) (fuel : Nat) : skipBlank (fuel + 1) s =
      { s with
        cursor := ⟨a :: more, s.cursor.mark.index + 1, s.cursor.mark.line,
          s.cursor.mark.column + 1⟩ } := by
  have spaces : ∀ p : Char → Bool, p ' ' = true → p a = false → s.cursor.skipWhile p =
      ⟨a :: more, s.cursor.mark.index + 1, s.cursor.mark.line, s.cursor.mark.column + 1⟩ := by
    intro p pass stop
    have rest' : s.cursor.rest = [' '] ++ a :: more := rest
    exact Cursor.skipWhile_append rest' (by simpa using pass) (by simpa using stop)
  have notSpaces := solid.notSpace
  simp only [isSpace, Bool.or_eq_false_iff] at notSpaces
  simp [skipBlank, Cursor.next, Cursor.at_, rest, spaces, solid.notHash, solid.notBreak, notSpaces]

private theorem expireKeys_fresh {s : Scanner}
    (fresh : ∀ k ∈ s.keys, k.possible = true →
      s.cursor.mark.line ≤ k.mark.line ∧ s.cursor.mark.index ≤ k.mark.index + 1024) :
    s.expireKeys = .ok s := by
  unfold expireKeys
  dsimp only
  rw [mapM_eq_ok (g := id) ?_]
  · rw [List.map_id]
    rfl
  · intro k member
    rw [if_neg, id]
    simp only [Bool.and_eq_true, Bool.or_eq_true, decide_eq_true_eq]
    rintro ⟨possible, stale⟩
    have := fresh k member possible
    omega

private theorem closeBlocks_of_le {s : Scanner} {column : Int} (within : s.indent ≤ column) :
    s.closeBlocks column = s := by
  have none : (s.indent :: s.indents).dropWhile (column < ·) = s.indent :: s.indents :=
    List.dropWhile_cons_of_neg (by simpa using within)
  unfold closeBlocks
  split
  · simp [none]
  · rfl

/-- After blanks, a scanner is in a state in which a character is next that is indented deep enough,
and in which no key has expired. -/
structure Meets (s t : Scanner) (a : Char) (more : List Char) : Prop where
  blank : skipBlank (s.cursor.rest.length + 1) s = t
  fresh : ∀ k ∈ t.keys, k.possible = true →
    t.cursor.mark.line ≤ k.mark.line ∧ t.cursor.mark.index ≤ k.mark.index + 1024
  within : t.indent ≤ t.cursor.mark.column
  rest : t.cursor.rest = a :: more

theorem atMarker_of_ne {c a : Char} {more : List Char} (other : a ≠ c) :
    atMarker c (a :: more) = false := by
  unfold atMarker
  split
  · next first _ =>
    simp_all
  · rfl

theorem Meets.fetch_plain {s t : Scanner} {a : Char} {more : List Char} (meets : Meets s t a more)
    (notDot : t.cursor.mark.column = 0 → a ≠ '.') (letter : isIndicator a = false)
    (solid : Solid a) : s.fetch = t.fetchPlain := by
  have other : ∀ c, isIndicator c = true → a ≠ c := by
    rintro c indicator rfl
    rw [letter] at indicator
    cases indicator
  have dots : (t.cursor.mark.column == 0 && atMarker '.' (a :: more)) = false := by
    by_cases first : t.cursor.mark.column = 0
    · rw [atMarker_of_ne (notDot first), Bool.and_false]
    · simp [first]
  have starts : startsPlain (t.flow != 0) (a :: more) = true := by
    simp [startsPlain, solid.notSpace, solid.notBreak, letter]
  unfold fetch
  dsimp only
  rw [meets.blank, expireKeys_fresh meets.fresh]
  simp only [bind, Except.bind, closeBlocks_of_le meets.within, meets.rest, dots,
    atMarker_of_ne (other '-' rfl), starts]
  simp [other '%' rfl, other '[' rfl, other '\x7b' rfl, other ']' rfl, other '\x7d' rfl,
    other ',' rfl, other '-' rfl, other '?' rfl, other ':' rfl, other '*' rfl, other '&' rfl,
    other '!' rfl, other '|' rfl, other '>' rfl, other '\'' rfl, other '"' rfl]

theorem Meets.fetch_value {s t : Scanner} {more : List Char} (meets : Meets s t ':' more)
    (ends : atSpaceOrEnd more = true) : s.fetch = t.fetchValue := by
  unfold fetch
  dsimp only
  rw [meets.blank, expireKeys_fresh meets.fresh]
  simp only [bind, Except.bind, closeBlocks_of_le meets.within, meets.rest, ends,
    atMarker_of_ne (by decide : ':' ≠ '-'), atMarker_of_ne (by decide : ':' ≠ '.')]
  simp

theorem Meets.fetch_quoted {s t : Scanner} {single : Bool} {more : List Char}
    (meets : Meets s t (if single then '\'' else '"') more) : s.fetch = t.fetchQuoted single := by
  unfold fetch
  dsimp only
  rw [meets.blank, expireKeys_fresh meets.fresh]
  cases single
  · simp only [bind, Except.bind, closeBlocks_of_le meets.within, meets.rest]
    simp [atMarker_of_ne (by decide : '"' ≠ '-'), atMarker_of_ne (by decide : '"' ≠ '.')]
  · simp only [bind, Except.bind, closeBlocks_of_le meets.within, meets.rest]
    simp [atMarker_of_ne (by decide : '\'' ≠ '-'), atMarker_of_ne (by decide : '\'' ≠ '.')]

/-! Scalars. -/

/-- A character that stands for itself in a quoted scalar. -/
def isOrdinary (c : Char) : Bool := !isBreak c && c != '"' && c != '\'' && c != '\\'

private theorem takePlainWord_append {word rest : List Char}
    (all : ∀ c ∈ word, isSpace c = false ∧ isBreak c = false ∧ c ≠ ':')
    (stop : takePlainWord false rest = .ok []) :
    takePlainWord false (word ++ rest) = .ok word := by
  induction word with
  | nil => exact stop
  | cons a word ih =>
    rw [List.forall_mem_cons] at all
    obtain ⟨⟨space, lineBreak, colon⟩, all⟩ := all
    rw [List.cons_append, takePlainWord]
    simp [space, lineBreak, colon, ih all, bind, Except.bind, pure, Except.pure]

private theorem takeFold_go_spaces {blanks : List Char} {a : Char} {more : List Char}
    (all : ∀ b ∈ blanks, isSpace b = true) (space : isSpace a = false)
    (lineBreak : isBreak a = false) {fuel : Nat} (enough : blanks.length < fuel)
    (acc : List Char) {c : Cursor} (rest : c.rest = blanks ++ a :: more) :
    takeFold.go fuel acc [] [] false c = (acc ++ blanks, false, c.skipMany blanks.length) := by
  induction blanks generalizing fuel acc c with
  | nil =>
    obtain ⟨fuel, rfl⟩ := Nat.exists_eq_add_one_of_ne_zero (by omega : fuel ≠ 0)
    simp only [List.nil_append] at rest
    simp [takeFold.go, rest, space, lineBreak, takeFold.joined]
    rfl
  | cons b blanks ih =>
    rw [List.forall_mem_cons] at all
    obtain ⟨fuel, rfl⟩ := Nat.exists_eq_add_one_of_ne_zero (by omega : fuel ≠ 0)
    have passed : c.skip.rest = blanks ++ a :: more := by simp [Cursor.skip, rest]
    rw [List.length_cons, Cursor.skipMany_succ, takeFold.go, rest]
    simp only [List.cons_append, all.1, if_true, Bool.false_eq_true, if_false]
    rw [ih all.2 (by simpa using enough) (acc ++ [b]) passed, List.append_assoc,
      List.singleton_append]

private theorem takeFold_spaces {c : Cursor} {blanks : List Char} {a : Char} {more : List Char}
    (rest : c.rest = blanks ++ a :: more) (all : ∀ b ∈ blanks, isSpace b = true)
    (space : isSpace a = false) (lineBreak : isBreak a = false) :
    takeFold c = (blanks, false, c.skipMany blanks.length) := by
  have enough : blanks.length < c.rest.length + 1 := by
    rw [rest, List.length_append]
    omega
  exact takeFold_go_spaces all space lineBreak enough [] rest

private theorem takeFold_break {c : Cursor} {more : List Char} (rest : c.rest = '\n' :: more)
    (left : ∀ a ∈ more.head?, isSpace a = false ∧ isBreak a = false) :
    takeFold c = ([' '], true, ⟨more, c.mark.index + 1, c.mark.line + 1, 0⟩) := by
  have passed := Cursor.takeBreak_newline rest
  have lineBreak : isBreak '\n' = true := rfl
  have space : isSpace '\n' = false := rfl
  rw [takeFold, rest, List.length_cons, takeFold.go, rest]
  simp only [space, lineBreak, passed, Bool.false_eq_true, if_false, if_true]
  cases more with
  | nil => rfl
  | cons a more =>
    obtain ⟨space, lineBreak⟩ := left a rfl
    simp [takeFold.go, space, lineBreak, takeFold.joined]

private theorem tabViolates_go_spaces {depth : Int} {blanks : List Char} {a : Char}
    {more : List Char}
    (all : ∀ b ∈ blanks, isSpace b = true) (space : isSpace a = false)
    (lineBreak : isBreak a = false) (fuel : Nat) {c : Cursor}
    (rest : c.rest = blanks ++ a :: more) :
    takePlain.tabViolates.go depth fuel false c = false := by
  induction fuel generalizing blanks c with
  | zero => rfl
  | succ fuel ih =>
    cases blanks with
    | nil => simp [takePlain.tabViolates.go, rest, space, lineBreak]
    | cons b blanks =>
      rw [List.forall_mem_cons] at all
      have passed : c.skip.rest = blanks ++ a :: more := by simp [Cursor.skip, rest]
      simp [takePlain.tabViolates.go, rest, all.1, ih all.2 passed]

private theorem tabViolates_break {depth : Int} {c : Cursor} {more : List Char}
    (rest : c.rest = '\n' :: more)
    (left : ∀ a ∈ more.head?, isSpace a = false ∧ isBreak a = false) :
    takePlain.tabViolates depth c = false := by
  have passed := Cursor.takeBreak_newline rest
  have lineBreak : isBreak '\n' = true := rfl
  have space : isSpace '\n' = false := rfl
  rw [takePlain.tabViolates, rest, List.length_cons, takePlain.tabViolates.go, rest]
  simp only [space, lineBreak, passed, Bool.false_eq_true, if_false, if_true]
  cases more with
  | nil => rfl
  | cons a more =>
    obtain ⟨space, lineBreak⟩ := left a rfl
    simp [takePlain.tabViolates.go, space, lineBreak]

/-- A character of a word. -/
def isWordChar (c : Char) : Bool :=
  !isBlank c && c != ':' && c != '#' && c != '"' && c != '\'' && c != '\\'

/-- Words with blanks between them. -/
inductive Words : List Char → Prop where
  | one {word : List Char} (some : word ≠ []) (all : ∀ c ∈ word, isWordChar c = true) : Words word
  | more {word blanks others : List Char} (some : word ≠ [])
      (all : ∀ c ∈ word, isWordChar c = true) (spaces : ∀ b ∈ blanks, isSpace b = true)
      (apart : blanks ≠ []) (later : Words others) : Words (word ++ blanks ++ others)

private theorem isBlank_of_isSpace {c : Char} (space : isSpace c = true) : isBlank c = true := by
  simp only [isSpace, Bool.or_eq_true, beq_iff_eq] at space
  rcases space with rfl | rfl <;> rfl

private theorem isBlank_of_isBreak {c : Char} (lineBreak : isBreak c = true) :
    isBlank c = true := by
  simp only [isBreak, Bool.or_eq_true, beq_iff_eq] at lineBreak
  rcases lineBreak with (((rfl | rfl) | code) | code) | code
  · rfl
  · rfl
  all_goals simp [isBlank, code]

theorem isWordChar_iff {c : Char} : isWordChar c = true ↔
    isBlank c = false ∧ c ≠ ':' ∧ c ≠ '#' ∧ c ≠ '"' ∧ c ≠ '\'' ∧ c ≠ '\\' := by
  simp [isWordChar, and_assoc]

private theorem isSpace_of_isWordChar {c : Char} (letter : isWordChar c = true) :
    isSpace c = false := by
  have solid := (isWordChar_iff.mp letter).1
  exact Bool.eq_false_iff.mpr fun space => by simp [isBlank_of_isSpace space] at solid

private theorem isBreak_of_isWordChar {c : Char} (letter : isWordChar c = true) :
    isBreak c = false := by
  have solid := (isWordChar_iff.mp letter).1
  exact Bool.eq_false_iff.mpr fun lineBreak => by simp [isBlank_of_isBreak lineBreak] at solid

theorem Words.head {ts : List Char} (words : Words ts) :
    ∃ a more, ts = a :: more ∧ isWordChar a = true := by
  cases words with
  | one some all =>
    obtain ⟨a, more, rfl⟩ := List.exists_cons_of_ne_nil some
    exact ⟨a, more, rfl, all a List.mem_cons_self⟩
  | more some all =>
    obtain ⟨a, more, rfl⟩ := List.exists_cons_of_ne_nil some
    exact ⟨a, _, rfl, all a List.mem_cons_self⟩

private theorem notMarker {c : Cursor}
    (inside : c.mark.column = 0 → atMarker '-' c.rest = false ∧ atMarker '.' c.rest = false) :
    (c.mark.column == 0 && (atMarker '-' c.rest || atMarker '.' c.rest)) = false := by
  by_cases column : c.mark.column = 0
  · simp [inside column]
  · simp [column]

theorem takePlain_word (depth : Int) {word rest : List Char} {c : Cursor} (fuel : Nat)
    (acc folded : List Char) (broken : Bool) (some : word ≠ [])
    (all : ∀ c ∈ word, isWordChar c = true) (stop : takePlainWord false rest = .ok [])
    (start : c.rest = word ++ rest)
    (inside : c.mark.column = 0 → atMarker '-' c.rest = false ∧ atMarker '.' c.rest = false) :
    takePlain false depth (fuel + 1) acc folded broken c =
      (let c := c.skipMany word.length
      if !c.next (fun a => isSpace a || isBreak a) then .ok (acc ++ folded ++ word, false, c)
      else if takePlain.tabViolates depth c then .error .indentation
      else
        let (gap, broken, after) := takeFold c
        if (after.mark.column : Int) < depth then .ok (acc ++ folded ++ word, broken, after)
        else takePlain false depth fuel (acc ++ folded ++ word) gap broken after) := by
  obtain ⟨a, more, rfl⟩ := List.exists_cons_of_ne_nil some
  have letter := all a List.mem_cons_self
  have notHash : c.at_ '#' = false := by
    simp [Cursor.at_, start, (isWordChar_iff.mp letter).2.2.1]
  have word : takePlainWord false c.rest = .ok (a :: more) := by
    rw [start]
    refine takePlainWord_append (fun c member => ?_) stop
    have letter := all c member
    exact ⟨isSpace_of_isWordChar letter, isBreak_of_isWordChar letter,
      (isWordChar_iff.mp letter).2.1⟩
  rw [takePlain, notMarker inside, notHash]
  simp only [Bool.or_false, Bool.false_eq_true, if_false, word, bind, Except.bind,
    List.isEmpty_cons, pure, Except.pure, Bool.not_false, Bool.true_and, decide_eq_true_eq]
  split <;> [rfl; split] <;> rfl

theorem takePlain_words {ts tail : List Char} (words : Words ts)
    (ends : tail = [] ∨ ∃ more, tail = '\n' :: more ∧
      ∀ a ∈ more.head?, isSpace a = false ∧ isBreak a = false)
    {fuel : Nat} (enough : ts.length < fuel) (acc folded : List Char) (broken : Bool) {c : Cursor}
    (start : c.rest = ts ++ tail) (column : 0 < c.mark.column) :
    ∃ broken' after, takePlain false 1 fuel acc folded broken c =
        .ok (acc ++ folded ++ ts, broken', after) ∧
      (tail = [] → after.rest = []) ∧
      ∀ more, tail = '\n' :: more → after.rest = more ∧ after.mark.column = 0 ∧ broken' = true := by
  have inside (c : Cursor) (column : 0 < c.mark.column) :
      c.mark.column = 0 → atMarker '-' c.rest = false ∧ atMarker '.' c.rest = false := by
    omega
  have stop : takePlainWord false tail = .ok [] := by
    rcases ends with rfl | ⟨more, rfl, -⟩
    · rfl
    · rw [takePlainWord]
      rfl
  induction words generalizing fuel acc folded broken c with
  | @one word some all =>
    obtain ⟨fuel, rfl⟩ := Nat.exists_eq_add_one_of_ne_zero (by omega : fuel ≠ 0)
    rw [takePlain_word 1 fuel acc folded broken some all stop start (inside c column)]
    have passed := c.skipMany_append start
    generalize c.skipMany word.length = after at passed
    have rest : after.rest = tail := by rw [passed]
    rcases ends with rfl | ⟨more, rfl, left⟩
    · have next : (after.next fun a => isSpace a || isBreak a) = false := by
        simp [Cursor.next, rest]
      simp only [next, Bool.not_false, if_true]
      exact ⟨false, after, rfl, fun _ => rest, by simp⟩
    · have next : (after.next fun a => isSpace a || isBreak a) = true := by
        simp [Cursor.next, rest, isBreak]
      simp only [next, Bool.not_true, Bool.false_eq_true, if_false, tabViolates_break rest left,
        takeFold_break rest left]
      rw [if_pos (by decide)]
      exact ⟨true, _, rfl, by simp, by simp⟩
  | @more word blanks others some all spaces apart later ih =>
    obtain ⟨fuel, rfl⟩ := Nat.exists_eq_add_one_of_ne_zero (by omega : fuel ≠ 0)
    rw [List.append_assoc, List.append_assoc] at start
    -- the blanks are followed by a word of the same line, which is deep enough to go on
    obtain ⟨a, others', rfl, letter⟩ := later.head
    have stop' : takePlainWord false (blanks ++ (a :: others' ++ tail)) = .ok [] := by
      obtain ⟨b, blanks, rfl⟩ := List.exists_cons_of_ne_nil apart
      rw [List.cons_append, takePlainWord]
      simp [spaces b List.mem_cons_self]
    rw [takePlain_word 1 fuel acc folded broken some all stop' start (inside c column)]
    have passed := c.skipMany_append start
    generalize c.skipMany word.length = between at passed
    have rest : between.rest = blanks ++ a :: (others' ++ tail) := by rw [passed]; rfl
    have after := between.skipMany_append rest
    have noTab : takePlain.tabViolates 1 between = false :=
      tabViolates_go_spaces spaces (isSpace_of_isWordChar letter) (isBreak_of_isWordChar letter) _
        rest
    have fold := takeFold_spaces rest spaces (isSpace_of_isWordChar letter)
      (isBreak_of_isWordChar letter)
    have next : (between.next fun a => isSpace a || isBreak a) = true := by
      obtain ⟨b, blanks, rfl⟩ := List.exists_cons_of_ne_nil apart
      simp [Cursor.next, rest, spaces b List.mem_cons_self]
    have right : ¬((between.skipMany blanks.length).mark.column : Int) < 1 := by
      rw [after, passed]
      dsimp only
      omega
    simp only [next, Bool.not_true, Bool.false_eq_true, if_false, noTab, fold]
    rw [if_neg right]
    have room : (a :: others').length < fuel := by
      simp only [List.length_append] at enough
      have := List.length_pos_of_ne_nil some
      omega
    have start' : (between.skipMany blanks.length).rest = a :: others' ++ tail := by
      rw [after]
      rfl
    obtain ⟨broken', last, taken, ended, broke⟩ := ih room (acc ++ folded ++ word) blanks false
      start' (by rw [after, passed]; simp; omega)
    refine ⟨broken', last, ?_, ended, broke⟩
    rw [taken]
    simp only [List.append_assoc]

private theorem isOrdinary_iff {c : Char} : isOrdinary c = true ↔
    isBreak c = false ∧ c ≠ '"' ∧ c ≠ '\'' ∧ c ≠ '\\' := by
  simp [isOrdinary, and_assoc]

def mark (single : Bool) : Char := if single then '\'' else '"'

theorem mark_solid (single : Bool) :
    isSpace (mark single) = false ∧ isBreak (mark single) = false := by
  cases single <;> exact ⟨rfl, rfl⟩

private theorem exists_span (p : Char → Bool) (l : List Char) :
    ∃ xs ys, l = xs ++ ys ∧ (∀ x ∈ xs, p x = true) ∧ ∀ y ∈ ys.head?, p y = false := by
  induction l with
  | nil => exact ⟨[], [], rfl, by simp, by simp⟩
  | cons a l ih =>
    cases first : p a with
    | false => exact ⟨[], a :: l, rfl, by simp, by simp [first]⟩
    | true =>
      obtain ⟨xs, ys, rfl, all, stop⟩ := ih
      exact ⟨a :: xs, ys, rfl, by simpa [first] using all, stop⟩

private theorem takeQuoted_cons {single : Bool} (fuel : Nat) (acc : List Char) {c : Cursor}
    {a : Char}
    {more : List Char} (ordinary : isOrdinary a = true) (start : c.rest = a :: more)
    (column : 0 < c.mark.column) :
    takeQuoted single (fuel + 1) acc c =
      if isSpace a then takeQuoted single fuel (acc ++ (takeFold c).1) (takeFold c).2.2
      else takeQuoted single fuel (acc ++ [a]) c.skip := by
  have inner := notMarker fun first : c.mark.column = 0 => absurd first (Nat.ne_of_gt column)
  obtain ⟨lineBreak, double, quote, slash⟩ := isOrdinary_iff.mp ordinary
  rw [takeQuoted, inner, start]
  simp [lineBreak]

theorem takeQuoted_ordinary {single : Bool} {tail : List Char} (ends : tail.head? ≠ some '\'')
    {text : List Char} (all : ∀ a ∈ text, isOrdinary a = true) {fuel : Nat}
    (enough : text.length < fuel) (acc : List Char) {c : Cursor}
    (start : c.rest = text ++ mark single :: tail) (column : 0 < c.mark.column) :
    ∃ after, takeQuoted single fuel acc c = .ok (acc ++ text, after) ∧ after.rest = tail ∧
      0 < after.mark.column := by
  -- by length, because one round takes all the blanks between two words
  induction size : text.length using Nat.strongRecOn generalizing text fuel acc c with
  | _ size ih =>
  obtain ⟨fuel, rfl⟩ := Nat.exists_eq_add_one_of_ne_zero (by omega : fuel ≠ 0)
  cases text with
  | nil =>
    have inner := notMarker fun first : c.mark.column = 0 => absurd first (Nat.ne_of_gt column)
    rw [List.nil_append] at start
    refine ⟨c.skip, ?_, by simp [Cursor.skip, start], by simp [Cursor.skip, start]⟩
    rw [takeQuoted, inner, start]
    cases single
    · simp [mark]
    · simp [mark, ends]
  | cons a more =>
    rw [takeQuoted_cons fuel acc (all a List.mem_cons_self) start column]
    subst size
    by_cases space : isSpace a = true
    · rw [if_pos space]
      obtain ⟨blanks, others, rfl, spaces, stop⟩ := exists_span isSpace more
      have ordinary : ∀ b ∈ others, isOrdinary b = true := fun b member =>
        all b (List.mem_cons_of_mem _ (List.mem_append_right _ member))
      obtain ⟨x, rest, next, solid⟩ : ∃ x rest, others ++ mark single :: tail = x :: rest ∧
          isSpace x = false ∧ isBreak x = false := by
        cases others with
        | nil => exact ⟨_, _, rfl, mark_solid single⟩
        | cons b others =>
          have letter := isOrdinary_iff.mp (ordinary b List.mem_cons_self)
          exact ⟨b, _, rfl, stop b rfl, letter.1⟩
      have start' : c.rest = (a :: blanks) ++ x :: rest := by
        rw [start, ← next]
        simp
      have fold := takeFold_spaces start' (List.forall_mem_cons.mpr ⟨space, spaces⟩) solid.1 solid.2
      have passed := c.skipMany_append start'
      rw [fold]
      dsimp only
      generalize c.skipMany (a :: blanks).length = after at passed
      have shorter : others.length < (a :: (blanks ++ others)).length := by
        rw [List.length_cons, List.length_append]
        omega
      have room : others.length < fuel := by
        simp only [List.length_cons, List.length_append] at enough
        omega
      obtain ⟨last, taken, rest, column⟩ := ih others.length shorter ordinary room
        (acc ++ a :: blanks) (c := after) (by rw [passed, next])
        (by rw [passed]; exact Nat.add_pos_left column _) rfl
      exact ⟨last, by simpa using taken, rest, column⟩
    · rw [if_neg space]
      obtain ⟨after, taken, rest, column⟩ := ih more.length (by simp)
        (fun b member => all b (List.mem_cons_of_mem _ member)) (by simpa using enough) (acc ++ [a])
        (c := c.skip) (by simp [Cursor.skip, start]) (by simp [Cursor.skip, start]) rfl
      exact ⟨after, by simpa using taken, rest, column⟩

def isKeyChar (c : Char) : Bool :=
  let n := c.toNat
  (48 ≤ n && n ≤ 57) || (65 ≤ n && n ≤ 90) || (97 ≤ n && n ≤ 122) || n == 95

theorem isKeyChar_lt {c : Char} (letter : isKeyChar c = true) : c.toNat < 128 := by
  simp only [isKeyChar, Bool.or_eq_true, Bool.and_eq_true, decide_eq_true_eq, beq_iff_eq] at letter
  omega

private theorem isKeyChar_spec : ∀ n < 128, isKeyChar (Char.ofNat n) = true →
    isWordChar (Char.ofNat n) = true ∧ isIndicator (Char.ofNat n) = false ∧
      (Char.ofNat n).utf8Size = 1 ∧ Char.ofNat n ≠ '.' := by
  decide +kernel

theorem solid_of_isWordChar {c : Char} (letter : isWordChar c = true) : Solid c :=
  ⟨isSpace_of_isWordChar letter, isBreak_of_isWordChar letter, (isWordChar_iff.mp letter).2.2.1⟩

theorem isKeyChar_facts {c : Char} (letter : isKeyChar c = true) :
    isWordChar c = true ∧ isIndicator c = false ∧ Solid c ∧ c.utf8Size = 1 ∧ c ≠ '.' := by
  have spec := isKeyChar_spec c.toNat (isKeyChar_lt letter)
  rw [Char.ofNat_toNat] at spec
  obtain ⟨word, indicator, size, dot⟩ := spec letter
  exact ⟨word, indicator, solid_of_isWordChar word, size, dot⟩

end Scanner

end CodeTint.Yaml
