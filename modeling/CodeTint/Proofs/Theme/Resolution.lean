import CodeTint.Proofs.Decoration.Restyling
import CodeTint.Proofs.Theme.Ancestry

/-!
What theme data resolve to. Data name styles for some categories, each as a color or as a color and
font words. Main statement: data resolve to a theme exactly if all their colors and font words can
be read; the theme then shows a category as the entry with the longest name among those of the
category and its ancestors says, even where that entry has no color, and in the foreground color if
there is none; and the order of the entries does not count.
-/

set_option autoImplicit false
set_option relaxedAutoImplicit false

namespace CodeTint

open Text (IsAncestor)

namespace TokenStyle

def hex? : TokenStyle → Option String
  | color hex => some hex
  | full hex _ => hex

def words? : TokenStyle → Option String
  | color _ => none
  | full _ font => font

end TokenStyle

/-- A color that is written, or left out, and what it is read as. -/
def ReadColor (hex : Option String) (c : Option Color) : Prop :=
  Option.Rel (fun hex c => Color.ofHex hex = .ok c) hex c

/-- Font words that are written, or left out, and what they are read as. -/
def ReadFont (words : Option String) (font : FontStyle) : Prop :=
  match words with
  | none => font = {}
  | some words => FontStyle.parse words = .ok font

private theorem exists_readColor_iff {hex : Option String} :
    (∃ c, ReadColor hex c) ↔ ∀ h ∈ hex, ∃ c, Color.ofHex h = .ok c := by
  cases hex with
  | none => simpa using ⟨none, .none⟩
  | some h =>
    simp only [Option.mem_some_iff, forall_eq']
    constructor
    · rintro ⟨_, ⟨read⟩⟩
      exact ⟨_, read⟩
    · rintro ⟨c, read⟩
      exact ⟨some c, .some read⟩

private theorem exists_readFont_iff {words : Option String} :
    (∃ font, ReadFont words font) ↔ ∀ w ∈ words, ∃ font, FontStyle.parse w = .ok font := by
  cases words <;> simp [ReadFont]

namespace TokenStyle

private theorem resolve_eq_ok_iff {s : TokenStyle} {style : SpanStyle} :
    s.resolve = .ok style ↔
      style.category = none ∧ ReadColor s.hex? style.color ∧ ReadFont s.words? style.font := by
  cases s with
  | color hex =>
    simp only [resolve, bind_eq_ok_iff, mapError_eq_ok_iff, hex?, words?, ReadFont]
    constructor
    · rintro ⟨c, read, ⟨⟩⟩
      exact ⟨rfl, .some read, rfl⟩
    · obtain ⟨category, c, font⟩ := style
      rintro ⟨rfl, ⟨read⟩, rfl⟩
      exact ⟨_, read, rfl⟩
  | full hex words =>
    simp only [resolve, bind_eq_ok_iff, option_mapM_eq_ok_iff, mapError_eq_ok_iff, hex?, words?]
    constructor
    · rintro ⟨c, read, font, readFont, ⟨⟩⟩
      refine ⟨rfl, read, ?_⟩
      cases readFont with
      | none => rfl
      | some own => exact own
    · obtain ⟨category, c, font⟩ := style
      rintro ⟨rfl, read, readFont⟩
      cases words with
      | none =>
        obtain rfl : font = {} := readFont
        exact ⟨c, read, none, .none, rfl⟩
      | some words => exact ⟨c, read, some font, .some readFont, rfl⟩

private theorem exists_resolve_iff {s : TokenStyle} :
    (∃ style, s.resolve = .ok style) ↔
      (∀ hex ∈ s.hex?, ∃ c, Color.ofHex hex = .ok c) ∧
        ∀ words ∈ s.words?, ∃ font, FontStyle.parse words = .ok font := by
  rw [← exists_readColor_iff, ← exists_readFont_iff]
  simp only [resolve_eq_ok_iff]
  constructor
  · rintro ⟨style, -, read, readFont⟩
    exact ⟨⟨_, read⟩, ⟨_, readFont⟩⟩
  · rintro ⟨⟨c, read⟩, ⟨font, readFont⟩⟩
    exact ⟨⟨none, c, font⟩, rfl, read, readFont⟩

end TokenStyle

namespace ThemeData

/-- Every color and all font words of theme data can be read. -/
structure Readable (data : ThemeData) : Prop where
  foreground : ∀ hex ∈ data.foreground, ∃ c, Color.ofHex hex = .ok c
  background : ∀ hex ∈ data.background, ∃ c, Color.ofHex hex = .ok c
  color : ∀ entry ∈ data.tokens, ∀ hex ∈ entry.2.hex?, ∃ c, Color.ofHex hex = .ok c
  font : ∀ entry ∈ data.tokens, ∀ words ∈ entry.2.words?, ∃ f, FontStyle.parse words = .ok f

/-- The entry for the longest name among those of a category and its ancestors. -/
structure Nearest (data : ThemeData) (name p : String) (s : TokenStyle) : Prop where
  entry : (p, s) ∈ data.tokens
  ancestor : IsAncestor p name
  longest : ∀ other ∈ data.tokens, IsAncestor other.1 name → other.1.length ≤ p.length

/-- Color and font are those of the nearest entry, or the foreground color in a plain font where no
entry is for the category or an ancestor. -/
def Gives (data : ThemeData) (name : String) (style : SpanStyle) : Prop :=
  (∃ p s, data.Nearest name p s ∧ ReadColor s.hex? style.color ∧ ReadFont s.words? style.font) ∨
    (∀ entry ∈ data.tokens, ¬IsAncestor entry.1 name) ∧
      ReadColor data.foreground style.color ∧ style.font = {}

/-- What a theme with an identifier is that was read from data. -/
structure ResolvesTo (data : ThemeData) (id : String) (t : Theme) : Prop where
  id : t.id = id
  name : t.name = data.name
  appearance : t.appearance = data.appearance
  background : ReadColor data.background t.background
  foreground : ReadColor data.foreground t.foreground
  neutral : t.neutralStyle = { color := t.foreground }
  known : ∀ i name, Category.names[i]? = some name →
    (t.styleFor (some i)).category = some i ∧ data.Gives name (t.styleFor (some i))
  other : ∀ category, (∀ i < Category.names.length, category ≠ some i) →
    t.styleFor category = t.neutralStyle

/-! The table of named styles. -/

def Named (data : ThemeData) (named : List (String × SpanStyle)) : Prop :=
  List.Forall₂ (fun entry found => entry.1 = found.1 ∧ entry.2.resolve = .ok found.2)
    data.tokens named

section Named

variable {data : ThemeData} {named : List (String × SpanStyle)}

private theorem exists_named (readable : data.Readable) : ∃ named, data.Named named := by
  obtain ⟨-, -, color, font⟩ := readable
  unfold Named
  generalize data.tokens = tokens at *
  induction tokens with
  | nil => exact ⟨[], .nil⟩
  | cons entry rest ih =>
    rw [List.forall_mem_cons] at color font
    obtain ⟨others, later⟩ := ih color.2 font.2
    obtain ⟨style, own⟩ := TokenStyle.exists_resolve_iff.mpr ⟨color.1, font.1⟩
    exact ⟨(entry.1, style) :: others, .cons ⟨rfl, own⟩ later⟩

private theorem Named.exists_resolve (read : data.Named named) :
    ∀ entry ∈ data.tokens, ∃ style, entry.2.resolve = .ok style := by
  unfold Named at read
  generalize data.tokens = tokens at *
  induction read with
  | nil => simp
  | cons own _ ih => exact List.forall_mem_cons.mpr ⟨⟨_, own.2⟩, ih⟩

private theorem Named.lookup_eq_some_iff (once : (data.tokens.map Prod.fst).Nodup)
    (read : data.Named named) {p : String} {style : SpanStyle} :
    named.lookup p = some style ↔ ∃ s, (p, s) ∈ data.tokens ∧ s.resolve = .ok style := by
  unfold Named at read
  generalize data.tokens = tokens at *
  induction read with
  | nil => simp
  | @cons entry found rest others own _ ih =>
    obtain ⟨q, written⟩ := entry
    obtain ⟨_, shown⟩ := found
    obtain ⟨rfl, resolved⟩ := own
    dsimp only at resolved
    rw [List.map_cons, List.nodup_cons] at once
    rw [List.lookup_cons]
    by_cases same : p = q
    · subst same
      have absent : ∀ s, (p, s) ∉ rest := fun s later =>
        once.1 (List.mem_map.mpr ⟨_, later, rfl⟩)
      simp only [beq_self_eq_true, Option.some.injEq, List.mem_cons, Prod.mk.injEq,
        true_and, absent, or_false, exists_eq_left, resolved, Except.ok.injEq]
    · simp only [beq_eq_false_iff_ne.mpr same, ih once.2,
        List.mem_cons, Prod.mk.injEq, same, false_and, false_or]

private theorem Named.isSome_lookup_iff (once : (data.tokens.map Prod.fst).Nodup)
    (read : data.Named named) {p : String} :
    (named.lookup p).isSome ↔ ∃ s, (p, s) ∈ data.tokens := by
  simp only [Option.isSome_iff_exists, read.lookup_eq_some_iff once]
  constructor
  · rintro ⟨_, s, entry, -⟩
    exact ⟨s, entry⟩
  · rintro ⟨s, entry⟩
    obtain ⟨style, own⟩ := read.exists_resolve _ entry
    exact ⟨style, s, entry, own⟩

private theorem Named.inherited_eq_some_iff (once : (data.tokens.map Prod.fst).Nodup)
    (read : data.Named named) {name : String} {style : SpanStyle} :
    Theme.inherited named name = some style ↔
      ∃ p s, data.Nearest name p s ∧ s.resolve = .ok style := by
  rw [Theme.inherited, Text.findSome?_ancestors_eq_some_iff]
  simp only [read.isSome_lookup_iff once, read.lookup_eq_some_iff once]
  constructor
  · rintro ⟨p, ancestor, ⟨s, entry, own⟩, longest⟩
    exact ⟨p, s, ⟨entry, ancestor, fun other member up => longest _ up ⟨_, member⟩⟩, own⟩
  · rintro ⟨p, s, ⟨entry, ancestor, longest⟩, own⟩
    exact ⟨p, ancestor, ⟨s, entry, own⟩, fun q up has => longest _ has.choose_spec up⟩

private theorem Named.inherited_eq_none_iff (once : (data.tokens.map Prod.fst).Nodup)
    (read : data.Named named) {name : String} :
    Theme.inherited named name = none ↔ ∀ entry ∈ data.tokens, ¬IsAncestor entry.1 name := by
  rw [Theme.inherited, Text.findSome?_ancestors_eq_none_iff]
  simp only [← Option.not_isSome_iff_eq_none, read.isSome_lookup_iff once]
  constructor
  · exact fun nothing entry member up => nothing _ up ⟨_, member⟩
  · rintro nothing q up ⟨s, entry⟩
    exact nothing _ entry up

private theorem Named.inherited_congr {data' : ThemeData} {named' : List (String × SpanStyle)}
    (once : (data.tokens.map Prod.fst).Nodup) (once' : (data'.tokens.map Prod.fst).Nodup)
    (read : data.Named named) (read' : data'.Named named')
    (same : ∀ entry, entry ∈ data.tokens ↔ entry ∈ data'.tokens) :
    Theme.inherited named = Theme.inherited named' := by
  have lookups : ∀ p, named.lookup p = named'.lookup p := by
    intro p
    ext style
    simp only [read.lookup_eq_some_iff once, read'.lookup_eq_some_iff once', same]
  funext name
  simp only [Theme.inherited, lookups]

end Named

end ThemeData

namespace Theme

open ThemeData

/-- The theme of a table of named styles and the container colors. -/
def ofNamed (id : String) (data : ThemeData) (named : List (String × SpanStyle))
    (foreground background : Option Color) : Theme where
  id := id
  name := data.name
  appearance := data.appearance
  background := background
  foreground := foreground
  styles := resolveStyles named foreground

theorem ofData_eq_ok_iff {id : String} {data : ThemeData} {t : Theme} :
    ofData id data = .ok t ↔ ∃ named foreground background, data.Named named ∧
      ReadColor data.foreground foreground ∧ ReadColor data.background background ∧
      t = ofNamed id data named foreground background := by
  have entry : ∀ (x : String × TokenStyle) (found : String × SpanStyle),
      (∃ style, x.2.resolve = .ok style ∧
        (pure (x.1, style) : Except ThemeError (String × SpanStyle)) = .ok found) ↔
        x.1 = found.1 ∧ x.2.resolve = .ok found.2 := by
    intro x found
    constructor
    · rintro ⟨style, own, ⟨⟩⟩
      exact ⟨rfl, own⟩
    · rintro ⟨name, own⟩
      exact ⟨found.2, own, by rw [name]; rfl⟩
  unfold ofData
  simp only [bind_eq_ok_iff, mapM_eq_ok_iff, option_mapM_eq_ok_iff, mapError_eq_ok_iff, entry]
  constructor
  · rintro ⟨named, read, foreground, front, background, back, ⟨⟩⟩
    exact ⟨named, foreground, background, read, front, back, rfl⟩
  · rintro ⟨named, foreground, background, read, front, back, rfl⟩
    exact ⟨named, read, foreground, front, background, back, rfl⟩

private theorem exists_ofData_iff {id : String} {data : ThemeData} :
    (∃ t, ofData id data = .ok t) ↔ data.Readable := by
  simp only [ofData_eq_ok_iff]
  constructor
  · rintro ⟨t, named, foreground, background, read, front, back, -⟩
    have styles := fun entry member =>
      TokenStyle.exists_resolve_iff.mp (read.exists_resolve entry member)
    exact ⟨exists_readColor_iff.mp ⟨_, front⟩, exists_readColor_iff.mp ⟨_, back⟩,
      fun entry member => (styles entry member).1, fun entry member => (styles entry member).2⟩
  · intro readable
    obtain ⟨named, read⟩ := exists_named readable
    obtain ⟨foreground, front⟩ := exists_readColor_iff.mpr readable.foreground
    obtain ⟨background, back⟩ := exists_readColor_iff.mpr readable.background
    exact ⟨_, named, foreground, background, read, front, back, rfl⟩

section Styles

variable {id : String} {data : ThemeData} {named : List (String × SpanStyle)}
  {foreground background : Option Color}

private theorem styleFor_ofNamed {i : CategoryId} {name : String}
    (known : Category.names[i]? = some name) :
    (ofNamed id data named foreground background).styleFor (some i) =
      { (inherited named name).getD { color := foreground } with category := some i } := by
  simp [styleFor, ofNamed, resolveStyles, known]

private theorem styleFor_ofNamed_of_other {category : Option CategoryId}
    (other : ∀ i < Category.names.length, category ≠ some i) :
    (ofNamed id data named foreground background).styleFor category = { color := foreground } := by
  cases category with
  | none => rfl
  | some i =>
    have beyond : Category.names.length ≤ i := Nat.le_of_not_lt fun inside => other i inside rfl
    simp [styleFor, ofNamed, resolveStyles, List.getElem?_eq_none beyond, neutralStyle]

private theorem resolvesTo_ofNamed (once : (data.tokens.map Prod.fst).Nodup)
    (read : data.Named named)
    (front : ReadColor data.foreground foreground) (back : ReadColor data.background background) :
    data.ResolvesTo id (ofNamed id data named foreground background) where
  id := rfl
  name := rfl
  appearance := rfl
  background := back
  foreground := front
  neutral := rfl
  known i name known := by
    rw [styleFor_ofNamed known]
    refine ⟨rfl, ?_⟩
    cases style : inherited named name with
    | none => exact .inr ⟨(read.inherited_eq_none_iff once).mp style, front, rfl⟩
    | some style' =>
      obtain ⟨p, s, nearest, own⟩ := (read.inherited_eq_some_iff once).mp style
      obtain ⟨-, color, font⟩ := TokenStyle.resolve_eq_ok_iff.mp own
      exact .inl ⟨p, s, nearest, color, font⟩
  other category other := styleFor_ofNamed_of_other other

private theorem ofData_of_perm {tokens : List (String × TokenStyle)} {t : Theme}
    (once : (data.tokens.map Prod.fst).Nodup) (perm : tokens.Perm data.tokens)
    (done : ofData id data = .ok t) : ofData id { data with tokens } = .ok t := by
  obtain ⟨named, foreground, background, read, front, back, rfl⟩ := ofData_eq_ok_iff.mp done
  have once' : (tokens.map Prod.fst).Nodup := (perm.map Prod.fst).nodup_iff.mpr once
  have readable := exists_ofData_iff.mp ⟨_, done⟩
  obtain ⟨named', read'⟩ : ∃ named', Named { data with tokens } named' :=
    exists_named ⟨readable.foreground, readable.background,
      fun entry member => readable.color entry (perm.mem_iff.mp member),
      fun entry member => readable.font entry (perm.mem_iff.mp member)⟩
  -- the styles that are read stand in another order, but each name has the same one
  have same := read'.inherited_congr once' once read fun entry => perm.mem_iff
  refine ofData_eq_ok_iff.mpr ⟨named', foreground, background, read', front, back, ?_⟩
  simp only [ofNamed, resolveStyles, same]

end Styles

/-- Data resolve to a theme exactly if all in them can be read, and then to the one that shows each
category as its nearest entry says, in whatever order the entries are. -/
theorem ofData_resolves (id : String) (data : ThemeData)
    (once : (data.tokens.map Prod.fst).Nodup) : ((∃ t, ofData id data = .ok t) ↔ data.Readable) ∧
      (∀ t, ofData id data = .ok t → data.ResolvesTo id t) ∧
      ∀ tokens : List (String × TokenStyle), tokens.Perm data.tokens →
        ∀ t, ofData id { data with tokens } = .ok t ↔ ofData id data = .ok t := by
  refine ⟨exists_ofData_iff, fun t done => ?_, fun tokens perm t => ⟨fun done => ?_, ?_⟩⟩
  · obtain ⟨named, foreground, background, read, front, back, rfl⟩ := ofData_eq_ok_iff.mp done
    exact resolvesTo_ofNamed once read front back
  · have once' : (tokens.map Prod.fst).Nodup := (perm.map Prod.fst).nodup_iff.mpr once
    exact @ofData_of_perm id { data with tokens } data.tokens t once' perm.symm done
  · exact ofData_of_perm once perm

/-! A child that overrides only the font of its parent, and so has no color. -/

namespace Overridden

def entries : List (String × TokenStyle) :=
  [("keyword", .color "#FF0000"), ("keyword.function", .full none (some "italic")),
    ("comment", .full (some "#00FF0080") (some "bold"))]

def data : ThemeData := { name := "Test", foreground := some "#111111", tokens := entries }

theorem ofData_resolves_overridden :
    (data.tokens.map Prod.fst).Nodup ∧ data.Readable ∧
      ∃ t, ofData "test" data = .ok t ∧
        ofData "test" { data with tokens := entries.reverse } = .ok t ∧ data.ResolvesTo "test" t ∧
        t.styleFor (some 12) = { category := some 12, color := some ⟨255, 0, 0, 255⟩ } ∧
        t.styleFor (some 13) = { category := some 13, font := { italic := true } } := by
  have once : (data.tokens.map Prod.fst).Nodup := by decide
  obtain ⟨done, resolved, ordered⟩ := ofData_resolves "test" data once
  have theme : ∃ t, ofData "test" data = .ok t ∧
      t.styleFor (some 12) = { category := some 12, color := some ⟨255, 0, 0, 255⟩ } ∧
      t.styleFor (some 13) = { category := some 13, font := { italic := true } } := by
    refine ⟨_, rfl, ?_, ?_⟩
    · decide +kernel
    · decide +kernel
  obtain ⟨t, found, shown⟩ := theme
  exact ⟨once, done.mp ⟨t, found⟩, t, found, (ordered _ (List.reverse_perm _) t).mpr found,
    resolved t found, shown⟩

end Overridden

end Theme

end CodeTint
