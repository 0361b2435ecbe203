import CodeTint.Proofs.Decoration.Coverage
import CodeTint.Proofs.Highlight.Flattening

/-!
What themes cannot change. Neighbours of one style share a span, so a theme that showed two
categories alike would join spans that another one keeps apart; but every theme that is built gives
each category a style that tells it from the others. Main statement: documents that differ in theme
attributes only, shown with the same grammars, have the same decorations but for class, style sheet,
color and font, whatever the themes are.
-/

set_option autoImplicit false
set_option relaxedAutoImplicit false

namespace CodeTint

/-! Styles of themes. -/

namespace Theme

/-- A theme that was read from its data, or the colorless one. -/
def Built (t : Theme) : Prop := (∃ id data, Theme.ofData id data = .ok t) ∨ t = .plain

/-- A category that themes know. -/
def known (category : Option CategoryId) : Option CategoryId :=
  category.filter (· < Category.names.length)

private theorem known_of_lt {id : CategoryId} (inside : id < Category.names.length) :
    known (some id) = some id := by
  rw [known, Option.filter_some, if_pos (decide_eq_true inside)]

private theorem known_of_le {id : CategoryId} (beyond : Category.names.length ≤ id) :
    known (some id) = none := by
  rw [known, Option.filter_some, if_neg (by simpa using beyond)]

private theorem length_resolveStyles (named : List (String × SpanStyle))
    (foreground : Option Color) : (resolveStyles named foreground).length = Category.names.length :=
  List.length_mapIdx

private theorem category_of_resolveStyles {named : List (String × SpanStyle)}
    {foreground : Option Color}
    {id : CategoryId} {style : SpanStyle}
    (found : (resolveStyles named foreground)[id]? = some style) : style.category = some id := by
  rw [resolveStyles, List.getElem?_mapIdx, Option.map_eq_some_iff] at found
  obtain ⟨name, -, rfl⟩ := found
  rfl

private theorem Built.styles_eq {t : Theme} (built : t.Built) :
    ∃ named foreground, t.styles = resolveStyles named foreground := by
  rcases built with ⟨id, data, read⟩ | rfl
  · obtain ⟨named, -, read⟩ := bind_eq_ok_iff.mp read
    obtain ⟨foreground, -, read⟩ := bind_eq_ok_iff.mp read
    obtain ⟨background, -, read⟩ := bind_eq_ok_iff.mp read
    have same := congrArg Theme.styles (Except.ok.inj read)
    dsimp only at same
    exact ⟨named, foreground, same.symm⟩
  · exact ⟨[], none, by rw [plain]⟩

private theorem Built.styleFor_known {t : Theme} (built : t.Built) (category : Option CategoryId) :
    t.styleFor (known category) = t.styleFor category := by
  obtain ⟨named, foreground, styles⟩ := built.styles_eq
  cases category with
  | none => rfl
  | some id =>
    rcases Nat.lt_or_ge id Category.names.length with inside | beyond
    · rw [known_of_lt inside]
    · have missing : t.styles[id]? = none := by
        rw [styles, List.getElem?_eq_none]
        rwa [length_resolveStyles]
      rw [known_of_le beyond, styleFor, styleFor, Option.bind_some, missing]
      rfl

private theorem Built.category_styleFor {t : Theme} (built : t.Built)
    (category : Option CategoryId) : (t.styleFor category).category = known category := by
  obtain ⟨named, foreground, styles⟩ := built.styles_eq
  cases category with
  | none => rfl
  | some id =>
    rcases Nat.lt_or_ge id Category.names.length with inside | beyond
    · obtain ⟨style, found⟩ : ∃ style, t.styles[id]? = some style := by
        rw [styles]
        exact ⟨_, List.getElem?_eq_getElem (by rwa [length_resolveStyles])⟩
      rw [known_of_lt inside, styleFor, Option.bind_some, found, Option.getD_some]
      exact category_of_resolveStyles (styles ▸ found)
    · rw [← built.styleFor_known, known_of_le beyond]
      rfl

private theorem Built.styleFor_eq_of_category {t : Theme} (built : t.Built)
    {a b : Option CategoryId}
    (same : (t.styleFor a).category = (t.styleFor b).category) : t.styleFor a = t.styleFor b := by
  rw [built.category_styleFor, built.category_styleFor] at same
  rw [← built.styleFor_known a, same, built.styleFor_known]

end Theme

/-! Spans and decorations without their themes. -/

def SpanStyle.unstyled (s : SpanStyle) : SpanStyle := { category := s.category }

private theorem SpanStyle.unstyled_inj {a b : SpanStyle} :
    a.unstyled = b.unstyled ↔ a.category = b.category := by
  simp [unstyled]

namespace Span

def unstyled (s : Span) : Span := { s with style := s.style.unstyled }

private theorem style_mem_of_mem_runs {own : List SpanStyle} {pos : Nat} {s : Span}
    (member : s ∈ runs pos own) : s.style ∈ own := by
  induction own generalizing pos s with
  | nil => exact absurd member List.not_mem_nil
  | cons style rest ih =>
    simp only [runs] at member
    cases spans : runs (pos + 1) rest with
    | nil =>
      rw [spans] at member
      obtain rfl := List.mem_singleton.mp member
      exact List.mem_cons_self
    | cons first more =>
      rw [spans] at member
      have inner : ∀ t ∈ first :: more, t.style ∈ style :: rest := fun t later =>
        List.mem_cons_of_mem style (ih (spans ▸ later))
      dsimp only at member
      split at member
      · rcases List.mem_cons.mp member with rfl | later
        · exact inner first List.mem_cons_self
        · exact inner s (List.mem_cons_of_mem first later)
      · rcases List.mem_cons.mp member with rfl | later
        · exact List.mem_cons_self
        · exact inner s later

private theorem map_unstyled_runs {own : List SpanStyle}
    (faithful : ∀ a ∈ own, ∀ b ∈ own, a.category = b.category → a = b) (pos : Nat) :
    (runs pos own).map unstyled = runs pos (own.map SpanStyle.unstyled) := by
  induction own generalizing pos with
  | nil => rfl
  | cons style rest ih =>
    have later := ih (fun a member b member' => faithful a (List.mem_cons_of_mem style member) b
      (List.mem_cons_of_mem style member')) (pos + 1)
    rw [List.map_cons, runs, runs, ← later]
    cases spans : runs (pos + 1) rest with
    | nil => rfl
    | cons first more =>
      -- The first span behind takes `style` in just if it has that style, in either list.
      have inside : first.style ∈ rest := style_mem_of_mem_runs (spans ▸ List.mem_cons_self)
      have alike : first.style.unstyled = style.unstyled ↔ first.style = style := by
        rw [SpanStyle.unstyled_inj]
        exact ⟨faithful _ (List.mem_cons_of_mem style inside) _ List.mem_cons_self,
          fun h => by rw [h]⟩
      rw [List.map_cons]
      dsimp only [unstyled]
      by_cases same : first.style = style
      · rw [if_pos same, if_pos (alike.mpr same)]
        rfl
      · rw [if_neg same, if_neg fun h => same (alike.mp h)]
        rfl

section Themes

variable {t t' : Theme}

private theorem exists_styleFor_of_mem_charStyles {painted : List (Option CategoryId)}
    {cs : List Char}
    {style : SpanStyle} (member : style ∈ charStyles t painted cs) :
    ∃ category, style = t.styleFor category := by
  induction cs generalizing painted with
  | nil => exact absurd member List.not_mem_nil
  | cons c rest ih =>
    rcases List.mem_cons.mp member with rfl | later
    · exact ⟨painted.head?.join, rfl⟩
    · exact ih later

private theorem map_unstyled_charStyles (built : t.Built) (built' : t'.Built)
    (painted : List (Option CategoryId)) (cs : List Char) :
    (charStyles t painted cs).map SpanStyle.unstyled =
      (charStyles t' painted cs).map SpanStyle.unstyled := by
  induction cs generalizing painted with
  | nil => rfl
  | cons c rest ih =>
    have first : (t.styleFor painted.head?.join).unstyled =
        (t'.styleFor painted.head?.join).unstyled := by
      rw [SpanStyle.unstyled_inj, built.category_styleFor, built'.category_styleFor]
    rw [charStyles, charStyles, List.map_cons, List.map_cons, first, ih]

private theorem map_unstyled_runs_charStyles (built : t.Built) (painted : List (Option CategoryId))
    (cs : List Char) (pos : Nat) : (runs pos (charStyles t painted cs)).map unstyled =
      runs pos ((charStyles t painted cs).map SpanStyle.unstyled) := by
  refine map_unstyled_runs (fun a member b member' same => ?_) pos
  obtain ⟨first, rfl⟩ := exists_styleFor_of_mem_charStyles member
  obtain ⟨second, rfl⟩ := exists_styleFor_of_mem_charStyles member'
  exact built.styleFor_eq_of_category same

end Themes

end Span

private theorem map_unstyled_highlight {t t' : Theme} (built : t.Built) (built' : t'.Built)
    (text : String)
    (grammar : Option Grammar) : (highlight text grammar t).map Span.unstyled =
      (highlight text grammar t').map Span.unstyled := by
  rw [highlight, highlight, Span.map_unstyled_runs_charStyles built,
    Span.map_unstyled_runs_charStyles built', Span.map_unstyled_charStyles built built']

namespace Decoration

def unstyled : Decoration → Decoration
  | inline start stop shown span =>
    inline start stop { dataLanguage := shown.dataLanguage } span.unstyled
  | node start stop shown => node start stop { dataLanguage := shown.dataLanguage }

/-- Two decorations differ in class, style sheet, color and font at most. -/
structure AlikeButStyle (a b : Decoration) : Prop where
  kind : a.isInline = b.isInline
  start : a.start = b.start
  stop : a.stop = b.stop
  language : a.shown.dataLanguage = b.shown.dataLanguage
  category : a.span?.map (·.category) = b.span?.map (·.category)

private theorem alikeButStyle_of_unstyled {a b : Decoration} (same : a.unstyled = b.unstyled) :
    a.AlikeButStyle b := by
  cases a with
  | inline start stop shown span =>
    cases b with
    | inline start' stop' shown' span' =>
      simp only [unstyled, inline.injEq, Presentation.mk.injEq, SpanStyle.unstyled_inj] at same
      obtain ⟨rfl, rfl, ⟨-, -, language⟩, category⟩ := same
      exact ⟨rfl, rfl, rfl, language, congrArg some category⟩
    | node start' stop' shown' => cases same
  | node start stop shown =>
    cases b with
    | inline start' stop' shown' span' => cases same
    | node start' stop' shown' =>
      simp only [unstyled, node.injEq, Presentation.mk.injEq] at same
      obtain ⟨rfl, rfl, -, -, language⟩ := same
      exact ⟨rfl, rfl, rfl, language, rfl⟩

end Decoration

private theorem CodeRegion.map_unstyled_decorations {t t' : Theme} (built : t.Built)
    (built' : t'.Built)
    (r : CodeRegion) (theme : Option String) (grammar : Option Grammar) (config config' : Config) :
    (r.decorations grammar t config).map Decoration.unstyled =
      ({ r with theme := theme }.decorations grammar t' config').map Decoration.unstyled := by
  have spans := map_unstyled_highlight built built' r.text grammar
  have shown (own : List Span) :
      (own.map (Span.decoration r.contentStart)).map Decoration.unstyled =
      (own.map Span.unstyled).map fun s => (s.decoration r.contentStart).unstyled := by
    rw [List.map_map, List.map_map]
    rfl
  rw [decorations, decorations, List.map_cons, List.map_cons, shown, spans, ← shown]
  rfl

/-! Documents without their theme attributes. -/

namespace Node

mutual

def unthemed : Node → Node
  | codeBlock attrs text => codeBlock { attrs with theme := none } text
  | blockquote content => blockquote (unthemedAll content)
  | n => n

def unthemedAll : List Node → List Node
  | [] => []
  | n :: rest => unthemed n :: unthemedAll rest

end

mutual

private theorem size_unthemed : ∀ n : Node, n.unthemed.size = n.size
  | paragraph _ | heading _ _ | codeBlock _ _ | horizontalRule => rfl
  | blockquote content => congrArg (· + 2) (sizes_unthemedAll content)

private theorem sizes_unthemedAll : ∀ ns : List Node, sizes (unthemedAll ns) = sizes ns
  | [] => rfl
  | n :: rest => by rw [unthemedAll, sizes, sizes, size_unthemed n, sizes_unthemedAll rest]

end

mutual

private theorem search_unthemed : ∀ (n : Node) (pos : Nat), search isCodeBlock n.unthemed pos =
    (search isCodeBlock n pos).map fun block => (block.1, block.2.unthemed)
  | paragraph _, pos | heading _ _, pos | codeBlock _ _, pos | horizontalRule, pos => by
      simp [search, isCodeBlock, unthemed]
  | blockquote content, pos => by
      simp [search, isCodeBlock, unthemed, searchAll_unthemedAll content (pos + 1)]

private theorem searchAll_unthemedAll : ∀ (ns : List Node) (pos : Nat),
    searchAll isCodeBlock (unthemedAll ns) pos =
      (searchAll isCodeBlock ns pos).map fun block => (block.1, block.2.unthemed)
  | [], pos => rfl
  | n :: rest, pos => by
      simp only [unthemedAll, searchAll, List.map_append, search_unthemed n pos, size_unthemed n,
        searchAll_unthemedAll rest (pos + n.size)]

end

end Node

private theorem ofBlock_unthemed (index start : Nat) (n : Node) :
    CodeRegion.ofBlock index (start, n.unthemed) =
      { CodeRegion.ofBlock index (start, n) with theme := none } := by
  cases n with
  | codeBlock attrs text => rfl
  | blockquote content =>
    rw [CodeRegion.ofBlock, Node.size_unthemed]
    rfl
  | _ => rfl

/-- The content of a document with no theme attribute in it. -/
def Document.unthemed (d : Document) : List Node := Node.unthemedAll d.content

private theorem Document.map_unthemed_codeBlocks {d d' : Document}
    (same : d.unthemed = d'.unthemed) :
    d.codeBlocks.map (fun block => (block.1, block.2.unthemed)) =
      d'.codeBlocks.map fun block => (block.1, block.2.unthemed) := by
  rw [codeBlocks, nodesWhere, ← Node.searchAll_unthemedAll, codeBlocks, nodesWhere,
    ← Node.searchAll_unthemedAll]
  exact congrArg (Node.searchAll Node.isCodeBlock · 0) same

/-! Both together. -/

namespace Cache

def Themed (c : Cache) : Prop := ∀ id t, c.theme? id = some t → t.Built

private theorem Themed.themeFor {c : Cache} (themed : c.Themed) (config : Config)
    (name : Option String) : (c.themeFor config name).Built := by
  rw [Cache.themeFor]
  cases chosen : ((Text.nonBlank name).bind c.theme?).or ((c.theme? config.defaultTheme).or
      ((c.identifiers .theme).head?.bind c.theme?)) with
  | none => exact .inr rfl
  | some t =>
    rw [Option.or_eq_some_iff, Option.or_eq_some_iff, Option.bind_eq_some_iff,
      Option.bind_eq_some_iff] at chosen
    rcases chosen with ⟨id, -, found⟩ | ⟨-, found | ⟨-, id, -, found⟩⟩
    · exact themed id t found
    · exact themed _ t found
    · exact themed id t found

private theorem themed_of_loaded {c : Cache}
    (built : ∀ entry ∈ c.loaded, ∀ t, entry.2.resource = .theme t → t.Built) : c.Themed := by
  intro id t found
  obtain ⟨loaded, entry, theme⟩ := Option.bind_eq_some_iff.mp found
  obtain ⟨before, after, split, -⟩ := List.lookup_eq_some_iff.mp entry
  refine built (⟨.theme, id⟩, loaded) (by rw [split]; simp) t ?_
  cases own : loaded.resource with
  | grammar g =>
    rw [own] at theme
    cases theme
  | theme own' =>
    rw [own] at theme
    rw [Option.some.inj theme]

private theorem grammarFor_congr {c c' : Cache} {config config' : Config}
    (grammars : ∀ id, c.grammar? id = c'.grammar? id)
    (language : config.defaultLanguage = config'.defaultLanguage) :
    c.grammarFor config = c'.grammarFor config' := by
  funext name
  simp only [grammarFor, grammarNamed?, grammars, language]

end Cache

def bareDecorations (grammars : Option String → Option Grammar) (block : Nat × Node) :
    List Decoration :=
  let r := CodeRegion.ofBlock 0 block
  (r.decorations (grammars r.language) .plain {}).map Decoration.unstyled

private theorem map_unstyled_blockDecorations {c : Cache} (themed : c.Themed) (config : Config)
    (block : Nat × Node) : (blockDecorations c config block).map Decoration.unstyled =
      bareDecorations (c.grammarFor config) (block.1, block.2.unthemed) := by
  rw [bareDecorations, ofBlock_unthemed]
  exact CodeRegion.map_unstyled_decorations (themed.themeFor config _) (.inr rfl) _ none _ config {}

private theorem Document.map_unstyled_decorationsIn {c : Cache} (themed : c.Themed)
    (config : Config)
    (d : Document) : (d.decorationsIn c config).map Decoration.unstyled =
      (d.codeBlocks.map fun block => (block.1, block.2.unthemed)).flatMap
        (bareDecorations (c.grammarFor config)) := by
  rw [decorationsIn_eq_flatMap, List.map_flatMap, List.flatMap_map]
  exact List.flatMap_congr fun block _ => map_unstyled_blockDecorations themed config block

/-- Documents that differ in theme attributes only, shown with the same grammars, in any themes, by
settings with the same default language, have decorations that differ in class, style sheet, color
and font only. -/
theorem Document.alikeButStyle_decorate {d d' : Document} {c c' : Cache} {config config' : Config}
    (documents : d.unthemed = d'.unthemed) (grammars : ∀ id, c.grammar? id = c'.grammar? id)
    (themed : c.Themed) (themed' : c'.Themed)
    (language : config.defaultLanguage = config'.defaultLanguage) :
    List.Forall₂ Decoration.AlikeButStyle (d.decorate c config).decorations
      (d'.decorate c' config').decorations := by
  have same : (d.decorationsIn c config).map Decoration.unstyled =
      (d'.decorationsIn c' config').map Decoration.unstyled := by
    rw [map_unstyled_decorationsIn themed, map_unstyled_decorationsIn themed',
      map_unthemed_codeBlocks documents, Cache.grammarFor_congr grammars language]
  rw [← List.forall₂_eq_eq_eq, List.forall₂_map_left_iff, List.forall₂_map_right_iff] at same
  rw [decorate_eq, decorate_eq]
  exact same.imp fun a b => Decoration.alikeButStyle_of_unstyled

/-! A block of JSON in a quote, in one theme that styles two categories and in another one that
gives all of them one color. -/

namespace Recolored

def spotted : ThemeData where
  name := "Spotted"
  background := some "#ffffff"
  foreground := some "#101010"
  tokens := [("string", .color "#aa0000"), ("punctuation", .full none (some "bold"))]

def flat : ThemeData where
  name := "Flat"
  appearance := .dark
  foreground := some "#eeeeee"

def themeOf (data : ThemeData) : Theme := (Theme.ofData "own" data).toOption.getD .plain

private theorem built_themeOf (data : ThemeData) : (themeOf data).Built := by
  rw [themeOf]
  cases read : Theme.ofData "own" data with
  | error e => exact .inr rfl
  | ok t => exact .inl ⟨"own", data, read⟩

/-- A cache with the grammar of JSON and one theme. -/
def cache (data : ThemeData) : Cache :=
  { loaded := [(⟨.theme, "own"⟩, ⟨.theme (themeOf data), 0⟩),
      (⟨.grammar, "json"⟩, ⟨.grammar ⟨.json, fun text =>
        Mark.captures text (Grammar.marksOf .json text)⟩, 0⟩)] }

private theorem themed_cache (data : ThemeData) : (cache data).Themed := by
  refine Cache.themed_of_loaded fun entry member t own => ?_
  rcases List.mem_cons.mp member with rfl | member
  · obtain rfl := Resource.theme.inj own
    exact built_themeOf data
  · obtain rfl := List.mem_singleton.mp member
    cases own

private theorem grammar?_cache (data data' : ThemeData) (id : String) :
    (cache data).grammar? id = (cache data').grammar? id := by
  have other : ((⟨.grammar, id⟩ : ResourceKey) == ⟨.theme, "own"⟩) = false :=
    beq_false_of_ne (by simp)
  simp only [cache, Cache.grammar?, Cache.get?, List.lookup_cons, other]

def document (theme : Option String) : Document :=
  ⟨[.paragraph "on JSON",
    .blockquote [.codeBlock { language := some "json", theme } "[\"a\", 1]"]], 1⟩

example : (Theme.ofData "own" spotted).toOption.isSome = true := by decide +kernel

theorem alikeButStyle_decorate_recolored :
    (document (some "own")).unthemed = (document none).unthemed ∧
    (∀ id, (cache spotted).grammar? id = (cache flat).grammar? id) ∧ (cache spotted).Themed ∧
    (cache flat).Themed ∧
    List.Forall₂ Decoration.AlikeButStyle
      ((document (some "own")).decorate (cache spotted) {}).decorations
      ((document none).decorate (cache flat) { nodeClass := "snippet" }).decorations :=
  ⟨rfl, grammar?_cache spotted flat, themed_cache spotted, themed_cache flat,
    Document.alikeButStyle_decorate rfl (grammar?_cache spotted flat) (themed_cache spotted)
      (themed_cache flat) rfl⟩

end Recolored

end CodeTint
