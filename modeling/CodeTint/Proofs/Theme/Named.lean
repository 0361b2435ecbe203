import CodeTint.Proofs.Text.Cut
import CodeTint.Proofs.Theme.Resolution
import CodeTint.Proofs.Yaml.Record
import CodeTint.Theme.Library
import CodeTint.Theme.Reader

/-!
The name of a theme in its file. Main statement: in a file that begins with lines of keys and values
up to the name's, the name that is looked up line by line is the one that the theme is read with, if
what reads the file takes such lines for what they are in YAML.
-/

set_option autoImplicit false
set_option relaxedAutoImplicit false

namespace CodeTint

open Yaml (Line)

/-- A text that begins with lines of keys and values, among which the line `l` is the first for the
name. -/
structure Headed (text : String) (lines : List Line) (l : Line) : Prop where
  opens : Yaml.Opens lines text.toList
  first : lines.find? (fun h => String.ofList h.key == "name") = some l

variable {text : String} {lines : List Line} {l : Line}

private theorem Headed.mem (headed : Headed text lines l) : l ∈ lines :=
  List.mem_of_find?_eq_some headed.first

private theorem Headed.key (headed : Headed text lines l) : String.ofList l.key = "name" := by
  simpa using List.find?_some headed.first

namespace ThemeData

open Yaml.Reading in
private theorem name_ofNode {t : Yaml.Tree} {entries : List (Yaml.Node × Yaml.Node)}
    {data : ThemeData}
    (root : t.root = .mapping none entries) (first : lines.map Line.entry <+: entries)
    (named : l ∈ lines) (key : String.ofList l.key = "name")
    (read : run ofNode t = some data) : data.name = String.ofList l.text := by
  obtain ⟨⟨_, left⟩, given, rfl⟩ := Option.map_eq_some_iff.mp read
  rw [root] at given
  obtain ⟨fs, _, fields, given⟩ := bind_eq_some_iff.mp given
  have member := fields_mapping fields first l named
  rw [key] at member
  obtain ⟨version, _, _, given⟩ := bind_eq_some_iff.mp given
  obtain ⟨name, _, found, given⟩ := bind_eq_some_iff.mp given
  obtain ⟨_, rfl, own⟩ := field_once member found
  obtain ⟨_, _, _, given⟩ := bind_eq_some_iff.mp given
  obtain ⟨_, _, _, given⟩ := bind_eq_some_iff.mp given
  obtain ⟨_, _, _, given⟩ := bind_eq_some_iff.mp given
  obtain ⟨_, _, _, given⟩ := bind_eq_some_iff.mp given
  cases version with
  | none => cases given
  | some version =>
    obtain ⟨_, _, named, given⟩ := bind_eq_some_iff.mp given
    cases named
    cases given
    exact (text_scalar own).1

end ThemeData

/-- Where a text begins with lines of keys and values, a reader of YAML takes the value of the line
for the name as the name. -/
def ThemeReader.KeepsNames (reader : ThemeReader) : Prop :=
  ∀ (text : String) (lines : List Line) (l : Line) (data : ThemeData),
    Headed text lines l → reader.read? text = some data → data.name = String.ofList l.text

theorem ThemeReader.keepsNames_yaml : ThemeReader.yaml.KeepsNames := by
  intro text lines l data headed read
  unfold yaml at read
  dsimp only at read
  split at read
  · next tree parsed =>
    obtain ⟨entries, root, first⟩ := headed.opens.parse parsed
    exact ThemeData.name_ofNode root first headed.mem headed.key read
  · cases read

theorem Theme.ofYaml_eq_ok [reader : ThemeReader] {id : String} {t : Theme}
    (read : Theme.ofYaml id text = .ok t) :
    ∃ data, reader.read? text = some data ∧ t.name = data.name := by
  unfold Theme.ofYaml at read
  split at read
  · next data given =>
    obtain ⟨named, foreground, background, -, -, -, rfl⟩ := Theme.ofData_eq_ok_iff.mp read
    exact ⟨data, given, rfl⟩
  · cases read

/-! Looking the name up line by line. -/

namespace Yaml

open Scanner

namespace Scanner

private theorem Words.forall_mem {ts : List Char} (words : Words ts) :
    ∀ c ∈ ts, isWordChar c = true ∨ isSpace c = true := by
  induction words with
  | one some all => exact fun c member => .inl (all c member)
  | more some all spaces apart later ih =>
    intro c member
    rw [List.mem_append, List.mem_append] at member
    rcases member with (member | member) | member
    · exact .inl (all c member)
    · exact .inr (spaces c member)
    · exact ih c member

private theorem Words.last {ts : List Char} (words : Words ts) :
    ∃ front a, ts = front ++ [a] ∧ isWordChar a = true := by
  induction words with
  | @one word some all =>
    refine ⟨word.dropLast, word.getLast some, (List.dropLast_append_getLast some).symm, ?_⟩
    exact all _ (List.getLast_mem some)
  | @more word blanks others some all spaces apart later ih =>
    obtain ⟨front, a, rfl, letter⟩ := ih
    exact ⟨word ++ blanks ++ front, a, by simp, letter⟩

end Scanner

private theorem IsFiller.newline_not_mem {cs : List Char} (filler : IsFiller cs) :
    ∀ a ∈ cs, (a == '\n') = false := by
  obtain ⟨spaces, comment, rfl, spaced, commented⟩ := filler
  intro a member
  rw [beq_eq_false_iff_ne]
  rintro rfl
  rcases List.mem_append.mp member with member | member
  · exact absurd (spaced _ member) (by decide)
  · rcases commented with rfl | ⟨text, rfl, all⟩
    · cases member
    · rcases List.mem_cons.mp member with hash | member
      · exact absurd hash (by decide)
      · exact absurd (all _ member) (by decide)

namespace Line

/-- The value of a line as it is written. -/
def shown (l : Line) : List Char := l.quote ++ l.text ++ l.quote

/-- A written value begins and ends with characters that are not blank, it is on one line, and
inside its quotes there are none. -/
structure Plain (l : Line) : Prop where
  some : l.shown ≠ []
  first : ∀ a ∈ l.shown.head?, isBlank a = false
  last : ∀ a ∈ l.shown.getLast?, isBlank a = false
  unbroken : '\n' ∉ l.shown
  noDouble : '"' ∉ l.text
  noSingle : '\'' ∉ l.text

private theorem plain_of_words {key text : List Char} (words : Words text) :
    Plain ⟨key, .plain, text⟩ := by
  have value : shown ⟨key, .plain, text⟩ = text := by simp [shown, quote]
  have absent : ∀ a, isWordChar a = false → isSpace a = false → a ∉ text := by
    intro a letter space member
    rcases words.forall_mem a member with own | own
    · rw [letter] at own
      cases own
    · rw [space] at own
      cases own
  constructor
  · rw [value]
    obtain ⟨a, more, rfl, -⟩ := words.head
    exact List.cons_ne_nil _ _
  · rw [value]
    obtain ⟨a, more, rfl, letter⟩ := words.head
    rintro _ ⟨⟩
    exact (isWordChar_iff.mp letter).1
  · rw [value]
    obtain ⟨front, a, rfl, letter⟩ := words.last
    rw [List.getLast?_append_of_ne_nil _ (List.cons_ne_nil _ _)]
    rintro _ ⟨⟩
    exact (isWordChar_iff.mp letter).1
  · rw [value]
    exact absent '\n' rfl rfl
  · exact absent '"' rfl rfl
  · exact absent '\'' rfl rfl

private theorem plain_of_ordinary {key text : List Char} {style : ScalarStyle} {q : Char}
    (ordinary : ∀ c ∈ text, isOrdinary c = true) (quoted : quote ⟨key, style, text⟩ = [q])
    (solid : isBlank q = false) (notBreak : q ≠ '\n') : Plain ⟨key, style, text⟩ := by
  have value : shown ⟨key, style, text⟩ = q :: text ++ [q] := by simp [shown, quoted]
  have absent : ∀ a, isOrdinary a = false → a ∉ text := by
    intro a special member
    rw [ordinary a member] at special
    cases special
  constructor
  · rw [value]
    simp
  · rw [value]
    simpa using solid
  · rw [value, List.getLast?_append_of_ne_nil _ (List.cons_ne_nil _ _)]
    simpa using solid
  · rw [value]
    simp [absent '\n' rfl, Ne.symm notBreak]
  · exact absent '"' rfl
  · exact absent '\'' rfl

private theorem Simple.plain (simple : l.Simple) : l.Plain := by
  obtain ⟨key, style, text⟩ := l
  have given := simple.value
  cases style with
  | plain => exact plain_of_words given.1
  | singleQuoted => exact plain_of_ordinary given rfl (by decide) (by decide)
  | doubleQuoted => exact plain_of_ordinary given rfl (by decide) (by decide)
  | literal => exact given.elim
  | folded => exact given.elim

theorem chars_eq (l : Line) : l.chars = l.key ++ ':' :: ' ' :: l.shown := by
  rw [chars, shown]

private theorem Simple.trim_chars (simple : l.Simple) :
    Text.trim (String.ofList l.chars) = String.ofList l.chars := by
  rw [Text.trim, String.toList_ofList, Text.trimChars_of_ends]
  · obtain ⟨a, key, named⟩ := List.exists_cons_of_ne_nil simple.named
    have letter := (isKeyChar_facts (simple.letters a (by simp [named]))).1
    rw [chars_eq, named]
    rintro _ ⟨⟩
    exact (isWordChar_iff.mp letter).1
  · have plain := simple.plain
    have value : l.chars = (l.key ++ [':', ' ']) ++ l.shown := by simp [chars_eq]
    rw [value, List.getLast?_append_of_ne_nil _ plain.some]
    exact plain.last

private theorem Simple.newline_not_mem (simple : l.Simple) :
    ∀ a ∈ l.chars, (a == '\n') = false := by
  intro a member
  rw [beq_eq_false_iff_ne]
  rintro rfl
  simp only [chars_eq, List.mem_append, List.mem_cons] at member
  rcases member with member | member | member | member
  · exact absurd (simple.letters _ member) (by decide)
  · exact absurd member (by decide)
  · exact absurd member (by decide)
  · exact simple.plain.unbroken member

private theorem Simple.unquoted (simple : l.Simple) :
    Text.trimOf '\'' (Text.trimOf '"' (String.ofList l.shown)) = String.ofList l.text := by
  have plain := simple.plain
  obtain ⟨key, style, text⟩ := l
  have noDouble : '"' ∉ text := plain.noDouble
  have noSingle : '\'' ∉ text := plain.noSingle
  have given := simple.value
  cases style with
  | plain =>
    have value : shown ⟨key, .plain, text⟩ = text := by simp [shown, quote]
    rw [value, Text.trimOf_of_not_mem noDouble, Text.trimOf_of_not_mem noSingle]
  | singleQuoted =>
    have value : shown ⟨key, .singleQuoted, text⟩ = '\'' :: text ++ ['\''] := rfl
    rw [value, Text.trimOf_of_not_mem (by simpa using noDouble), Text.trimOf_around noSingle]
  | doubleQuoted =>
    have value : shown ⟨key, .doubleQuoted, text⟩ = '"' :: text ++ ['"'] := rfl
    rw [value, Text.trimOf_around noDouble, Text.trimOf_of_not_mem noSingle]
  | literal => exact given.elim
  | folded => exact given.elim

private theorem Simple.startsWith_iff (simple : l.Simple) :
    (String.ofList l.chars).startsWith "name:" = true ↔ String.ofList l.key = "name" := by
  rw [String.startsWith_string_iff, String.toList_ofList, String.toList_ofList, chars_eq]
  have noColon : ∀ c ∈ l.key, (c != ':') = true := by
    intro c member
    have letter := (isKeyChar_facts (simple.letters c member)).1
    simpa using (isWordChar_iff.mp letter).2.1
  constructor
  · rintro ⟨rest, same⟩
    have keys := congrArg (List.takeWhile (· != ':')) same
    rw [List.takeWhile_append_of_pos noColon, List.takeWhile_cons_of_neg (by decide),
      List.append_nil] at keys
    rw [← keys]
    rfl
  · intro named
    have key : l.key = ['n', 'a', 'm', 'e'] := by
      rw [← String.toList_ofList (l := l.key), named]
      rfl
    rw [key]
    exact ⟨' ' :: l.shown, rfl⟩

end Line

end Yaml

namespace ThemeLibrary

open Yaml (Line)

private theorem named?_of_key (simple : l.Simple) (key : String.ofList l.key = "name") :
    named? (String.ofList l.chars) = some (String.ofList l.text) := by
  have plain := simple.plain
  have chars : l.chars.drop 5 = ' ' :: l.shown := by
    have key : l.key = ['n', 'a', 'm', 'e'] := by
      rw [← String.toList_ofList (l := l.key), key]
      rfl
    rw [Line.chars_eq, key]
    rfl
  have value : Text.trim (String.ofList (' ' :: l.shown)) = String.ofList l.shown := by
    have trimmed := Text.trimChars_of_ends plain.first plain.last
    have blank : isBlank ' ' = true := rfl
    rw [Text.trimChars] at trimmed
    rw [Text.trim, String.toList_ofList, Text.trimChars, List.dropWhile_cons_of_pos blank, trimmed]
  simp only [named?, simple.trim_chars, simple.startsWith_iff.mpr key, if_true,
    String.toList_ofList, chars, value, simple.unquoted]

private theorem named?_of_other (simple : l.Simple) (key : String.ofList l.key ≠ "name") :
    named? (String.ofList l.chars) = none := by
  simp only [named?, simple.trim_chars, mt simple.startsWith_iff.mp key]
  rfl

private theorem named?_of_filler {cs : List Char} (filler : Yaml.IsFiller cs) :
    named? (String.ofList cs) = none := by
  obtain ⟨spaces, comment, rfl, spaced, commented⟩ := filler
  have blanks : ∀ a ∈ spaces, isBlank a = true := by
    intro a member
    rw [spaced a member]
    rfl
  have notName : ¬(Text.trim (String.ofList (spaces ++ comment))).startsWith "name:" = true := by
    rw [String.startsWith_string_iff, Text.trim, String.toList_ofList, String.toList_ofList]
    intro front
    have front := front.trans (Text.trimChars_prefix _)
    rw [String.toList_ofList, List.dropWhile_append_of_pos blanks] at front
    rcases commented with rfl | ⟨text, rfl, -⟩
    · cases List.prefix_nil.mp front
    · rw [List.dropWhile_cons_of_neg (by decide)] at front
      exact absurd (List.cons_prefix_cons.mp front).1 (by decide)
  simp only [named?, notName]
  rfl

private theorem findSome?_opens {cs : List Char} (opens : Yaml.Opens lines cs)
    (first : lines.find? (fun h => String.ofList h.key == "name") = some l) :
    ((Text.cutAt (· == '\n') cs).map String.ofList).findSome? named? =
      some (String.ofList l.text) := by
  induction opens with
  | @last h tail simple follows =>
    obtain ⟨key, rfl⟩ : String.ofList h.key = "name" ∧ h = l := by simpa [and_comm] using first
    have own := Text.cutAt_of_none simple.newline_not_mem
    have value := named?_of_key simple key
    rcases follows with rfl | ⟨more, rfl, -⟩
    · simp [own, value]
    · rw [Text.cutAt_append (by decide), own]
      simp [value]
  | @line h lines rest simple follows later ih =>
    rw [Text.cutAt_append (by decide), Text.cutAt_of_none simple.newline_not_mem]
    by_cases key : String.ofList h.key = "name"
    · obtain rfl : h = l := by simpa [key] using first
      simp [named?_of_key simple key]
    · rw [List.find?_cons_of_neg (by simpa using key)] at first
      simpa [named?_of_other simple key] using ih first
  | @filler cs lines rest filler later ih =>
    rw [Text.cutAt_append (by decide), Text.cutAt_of_none filler.newline_not_mem]
    simpa [named?_of_filler filler] using ih first

theorem nameLine?_headed (headed : Headed text lines l) :
    nameLine? text = some (String.ofList l.text) :=
  findSome?_opens headed.opens headed.first

end ThemeLibrary

end CodeTint
