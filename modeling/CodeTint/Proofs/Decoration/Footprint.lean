import CodeTint.Engine.Batches
import CodeTint.Proofs.Resource.Cache
import Mathlib.Data.List.DropRight

/-!
What the decorations of a document depend on. Main statement: while the default theme is loaded,
they depend on nothing in the cache but what the document wants; so a resource that could be asked
for and is not among the missing ones would change nothing.
-/

set_option autoImplicit false
set_option relaxedAutoImplicit false

namespace CodeTint

namespace Text

private theorem trimChars_eq_rdropWhile (cs : List Char) :
    trimChars cs = (cs.dropWhile isBlank).rdropWhile isBlank := rfl

private theorem trimChars_trimChars (cs : List Char) : trimChars (trimChars cs) = trimChars cs := by
  rw [trimChars_eq_rdropWhile (trimChars cs)]
  have front : (trimChars cs).dropWhile isBlank = trimChars cs := by
    rw [List.dropWhile_eq_self_iff]
    intro long
    have start : trimChars cs <+: cs.dropWhile isBlank := List.rdropWhile_prefix isBlank _
    have within : 0 < (cs.dropWhile isBlank).length := Nat.lt_of_lt_of_le long start.length_le
    have first : (trimChars cs)[0] = (cs.dropWhile isBlank)[0] := start.getElem long
    have kept := List.dropWhile_eq_self_iff.mp (List.dropWhile_idempotent isBlank cs) within
    rwa [first]
  rw [front, trimChars_eq_rdropWhile, List.rdropWhile_idempotent]

private theorem trim_trim (s : String) : trim (trim s) = trim s := by
  rw [trim, trim, String.toList_ofList, trimChars_trimChars]

private theorem nonBlank_eq_some {value : Option String} {name : String}
    (given : nonBlank value = some name) : ∃ own, value = some own ∧ trim own = name :=
  Option.map_eq_some_iff.mp ((Option.eq_some_of_filter_eq_some given))

end Text

private theorem grammarKey?_trim (name : String) :
    grammarKey? (Text.trim name) = grammarKey? name := by
  have same : Language.resolve (Text.trim name) = Language.resolve name := by
    simp only [Language.resolve, Text.trim_trim]
  rw [grammarKey?, grammarKey?, same]

namespace Document

variable {d : Document} {config : Config} {key : ResourceKey}

private theorem mem_wanted_iff : key ∈ d.wanted config ↔
    (grammarKey? config.defaultLanguage = some key ∨
      ∃ r ∈ d.regions, r.language.bind grammarKey? = some key) ∨
    key = ⟨.theme, config.defaultTheme⟩ ∨
      ∃ r ∈ d.regions, (Text.nonBlank r.theme).map (⟨.theme, ·⟩) = some key := by
  simp only [wanted, List.mem_eraseDups, List.mem_mergeSort, List.mem_append, List.mem_cons,
    List.mem_filterMap, Option.mem_toList]

private theorem mem_wanted_of_language {r : CodeRegion} (member : r ∈ d.regions)
    (named : grammarKey? ((Text.nonBlank r.language).getD config.defaultLanguage) = some key) :
    key ∈ d.wanted config := by
  refine mem_wanted_iff.mpr (.inl ?_)
  cases own : Text.nonBlank r.language with
  | none =>
    rw [own] at named
    exact .inl named
  | some name =>
    obtain ⟨given, language, rfl⟩ := Text.nonBlank_eq_some own
    rw [own, Option.getD_some, grammarKey?_trim] at named
    exact .inr ⟨r, member, by rw [language]; exact named⟩

private theorem mem_wanted_of_theme {r : CodeRegion} (member : r ∈ d.regions) {name : String}
    (named : Text.nonBlank r.theme = some name) : ⟨.theme, name⟩ ∈ d.wanted config := by
  refine mem_wanted_iff.mpr (.inr (.inr ⟨r, member, ?_⟩))
  rw [named, Option.map_some]

end Document

namespace Cache

variable {c c' : Cache} {config : Config}

private theorem grammarNamed?_congr {name : String}
    (same : ∀ key, grammarKey? name = some key → c'.get? key = c.get? key) :
    c'.grammarNamed? name = c.grammarNamed? name := by
  simp only [grammarNamed?]
  cases found : (Language.resolve name).filter (·.hasHighlighting) with
  | none => rfl
  | some l =>
    have own : grammarKey? name = some (.ofLanguage l) := by rw [grammarKey?, found]; rfl
    have loaded := same _ own
    simp only [Option.bind_some, grammar?]
    exact congrArg (Option.bind · _) loaded

private theorem theme?_congr {name : String}
    (same : c'.get? ⟨.theme, name⟩ = c.get? ⟨.theme, name⟩) : c'.theme? name = c.theme? name := by
  rw [theme?, theme?, same]

private theorem themeFor_eq {theme : Theme} (loaded : c.theme? config.defaultTheme = some theme)
    (named : Option String) :
    c.themeFor config named = ((Text.nonBlank named).bind c.theme?).getD theme := by
  rw [themeFor, loaded]
  cases (Text.nonBlank named).bind c.theme? <;> rfl

end Cache

namespace Document

variable {d : Document} {c c' : Cache} {config : Config}

private theorem decorate_congr_wanted (shown : (c.theme? config.defaultTheme).isSome)
    (same : ∀ key ∈ d.wanted config, c'.get? key = c.get? key) :
    d.decorate c' config = d.decorate c config := by
  obtain ⟨theme, loaded⟩ := Option.isSome_iff_exists.mp shown
  have default : ⟨.theme, config.defaultTheme⟩ ∈ d.wanted config :=
    mem_wanted_iff.mpr (.inr (.inl rfl))
  have loaded' : c'.theme? config.defaultTheme = some theme := by
    rw [Cache.theme?_congr (same _ default), loaded]
  have each : d.decorationsIn c' config = d.decorationsIn c config := by
    apply List.flatMap_congr
    intro r member
    have grammar : c'.grammarFor config r.language = c.grammarFor config r.language :=
      Cache.grammarNamed?_congr fun key named => same key (mem_wanted_of_language member named)
    have style : c'.themeFor config r.theme = c.themeFor config r.theme := by
      rw [Cache.themeFor_eq loaded, Cache.themeFor_eq loaded']
      cases named : Text.nonBlank r.theme with
      | none => rfl
      | some name =>
        have wanted : ⟨.theme, name⟩ ∈ d.wanted config := mem_wanted_of_theme member named
        rw [Option.bind_some, Option.bind_some, Cache.theme?_congr (same _ wanted)]
    rw [grammar, style]
  rw [decorate, decorate, each]

end Document

namespace Batches

variable {b : Batches} {d : Document} {c : Cache} {l : Loader} {config : Config} {now : Nat}
  {key : ResourceKey}

private theorem not_mem_wanted (knows : l.knows key = true) (unloaded : c.contains key = false)
    (rested : b.backsOff c now key = false) (spared : key ∉ b.missing d c l config now) :
    key ∉ d.wanted config := by
  intro wanted
  apply spared
  rw [missing, List.mem_filter]
  exact ⟨wanted, by simp [knows, unloaded, rested]⟩

/-- What could be asked for and is not missing would change nothing: while the default theme is
loaded, the decorations stay what they are when it is added. -/
theorem decorate_keep_of_not_missing (shown : (c.theme? config.defaultTheme).isSome)
    (knows : l.knows key = true) (unloaded : c.contains key = false)
    (rested : b.backsOff c now key = false) (spared : key ∉ b.missing d c l config now)
    (time : Nat) (resource : Resource) :
    d.decorate (c.keep time key resource) config = d.decorate c config := by
  have unwanted := not_mem_wanted knows unloaded rested spared
  apply Document.decorate_congr_wanted shown
  intro other wanted
  have different : other ≠ key := by
    rintro rfl
    exact unwanted wanted
  exact Cache.get?_keep_of_ne different

/-! A document that names its languages and themes in several ways: a known language in capitals
and with blanks around it, an unknown one, and a blank theme. -/

namespace Unnamed

def document : Document :=
  ⟨[.codeBlock { language := some " PY ", theme := some " dusk " } "x",
    .blockquote [.codeBlock { language := some "klingon", theme := some " " } "y"]], 1⟩

def loader : Loader := ⟨fun _ => true, fun _ => .error .crashed⟩

/-- Nothing is loaded but the default theme. -/
def cache : Cache := { loaded := [(⟨.theme, "vitesse-light"⟩, ⟨.theme .plain, 0⟩)] }

def spare : ResourceKey := ⟨.grammar, "go"⟩

private theorem wanted_document : ⟨.grammar, "python"⟩ ∈ document.wanted {} ∧
    ⟨.theme, "dusk"⟩ ∈ document.wanted {} ∧ spare ∉ document.wanted {} := by
  simp only [Document.mem_wanted_iff]
  decide +kernel

private theorem missing_document :
    ⟨.grammar, "python"⟩ ∈ (start 0).missing document cache loader {} 0 ∧
    ⟨.theme, "dusk"⟩ ∈ (start 0).missing document cache loader {} 0 ∧
    spare ∉ (start 0).missing document cache loader {} 0 := by
  obtain ⟨grammar, theme, unwanted⟩ := wanted_document
  refine ⟨List.mem_filter.mpr ⟨grammar, by decide⟩, List.mem_filter.mpr ⟨theme, by decide⟩, ?_⟩
  exact fun missing => unwanted (List.mem_filter.mp missing).1

theorem decorate_keep_of_not_missing_spare :
    (cache.theme? "vitesse-light").isSome ∧ loader.knows spare = true ∧
    cache.contains spare = false ∧ (start 0).backsOff cache 0 spare = false ∧
    spare ∉ (start 0).missing document cache loader {} 0 ∧
    ∀ time resource, document.decorate (cache.keep time spare resource) {} =
      document.decorate cache {} :=
  ⟨rfl, rfl, rfl, rfl, missing_document.2.2,
    decorate_keep_of_not_missing rfl rfl rfl rfl missing_document.2.2⟩

end Unnamed

end Batches

end CodeTint
