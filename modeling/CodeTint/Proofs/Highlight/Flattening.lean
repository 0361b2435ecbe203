import CodeTint.Proofs.Highlight.Tiling
import Mathlib.Data.List.Chain
import Mathlib.Data.List.OfFn

/-!
What flattening makes of the categories that are painted on the bytes of a text. Main statement:
whatever is painted, the spans are the only ones that tile the characters of the text, show each of
them in the style of the category on its first byte, and have no two neighbours of one style.
-/

set_option autoImplicit false
set_option relaxedAutoImplicit false

namespace CodeTint

namespace Text

def bytesBefore (cs : List Char) (i : Nat) : Nat := (String.ofList (cs.take i)).utf8ByteSize

private theorem bytesBefore_zero (cs : List Char) : bytesBefore cs 0 = 0 := rfl

private theorem bytesBefore_succ (c : Char) (rest : List Char) (i : Nat) :
    bytesBefore (c :: rest) (i + 1) = c.utf8Size + bytesBefore rest i := by
  rw [bytesBefore, List.take_succ_cons, String.ofList_cons, String.utf8ByteSize_append,
    String.utf8ByteSize_singleton, bytesBefore]

private theorem bytesBefore_lt {text : String} {i : Nat} (inside : i < text.length) :
    bytesBefore text.toList i < text.utf8ByteSize := by
  have within : i < text.toList.length := by rwa [String.length_toList]
  have parts : text.toList = text.toList.take i ++ text.toList[i] :: text.toList.drop (i + 1) := by
    rw [← List.drop_eq_getElem_cons within, List.take_append_drop]
  have sizes : text.utf8ByteSize = bytesBefore text.toList i +
      (text.toList[i].utf8Size + (String.ofList (text.toList.drop (i + 1))).utf8ByteSize) := by
    have whole := congrArg (fun cs => (String.ofList cs).utf8ByteSize) parts
    rwa [String.ofList_toList, String.ofList_append, String.ofList_cons,
      String.utf8ByteSize_append, String.utf8ByteSize_append,
      String.utf8ByteSize_singleton] at whole
  have positive := text.toList[i].utf8Size_pos
  omega

end Text

namespace Capture

theorem length_overwrite {painted : List (Option CategoryId)} {c : Capture}
    (below : c.stop ≤ painted.length) (early : c.start < c.stop ∨ c.stop = painted.length) :
    (overwrite painted c).length = painted.length := by
  simp only [overwrite, size, List.length_append, List.length_take, List.length_replicate,
    List.length_drop]
  omega

theorem of_mem_layers {length : Nat} {captures : List Capture} {c : Capture}
    (member : c ∈ layers length captures) :
    c.stop ≤ length ∧ (c.start < c.stop ∨ c.stop = length) := by
  obtain ⟨found, chosen, rfl⟩ := List.mem_map.mp (List.mem_mergeSort.mp member)
  have paints : found.start < found.stop := by
    have both := (List.mem_filter.mp chosen).2
    simp only [paints, Bool.and_eq_true, decide_eq_true_eq] at both
    exact both.2
  simp only [clamp]
  omega

private theorem length_foldl_overwrite {length : Nat} (cs : List Capture)
    (fits : ∀ c ∈ cs, c.stop ≤ length ∧ (c.start < c.stop ∨ c.stop = length))
    {painted : List (Option CategoryId)} (size : painted.length = length) :
    (cs.foldl overwrite painted).length = length := by
  induction cs generalizing painted with
  | nil => exact size
  | cons c rest ih =>
    obtain ⟨below, early⟩ := fits c List.mem_cons_self
    have same : (overwrite painted c).length = painted.length :=
      length_overwrite (by omega) (by omega)
    exact ih (fun other member => fits other (List.mem_cons_of_mem _ member)) (same.trans size)

theorem length_paint (length : Nat) (captures : List Capture) :
    (paint length captures).length = length :=
  length_foldl_overwrite (layers length captures) (fun _ => of_mem_layers) List.length_replicate

end Capture

private theorem length_paintText (text : String) (grammar : Option Grammar) :
    (paintText text grammar).length = text.utf8ByteSize := by
  cases grammar with
  | none => exact List.length_replicate
  | some g => exact Capture.length_paint text.utf8ByteSize (g.captures text)

namespace Span

private theorem getElem?_charStyles (theme : Theme) (painted : List (Option CategoryId))
    (cs : List Char)
    {i : Nat} (inside : i < cs.length) : (charStyles theme painted cs)[i]? =
      some (theme.styleFor painted[Text.bytesBefore cs i]?.join) := by
  induction cs generalizing painted i with
  | nil => exact absurd inside (Nat.not_lt_zero i)
  | cons c rest ih =>
    cases i with
    | zero =>
      rw [charStyles, Text.bytesBefore_zero, List.getElem?_cons_zero, List.head?_eq_getElem?]
    | succ i =>
      have later := ih (painted.drop c.utf8Size) (Nat.lt_of_succ_lt_succ inside)
      rw [List.getElem?_drop, ← Text.bytesBefore_succ] at later
      exact later

def styles (spans : List Span) : List SpanStyle :=
  spans.flatMap fun s => List.replicate (s.stop - s.start) s.style

private theorem styles_cons (s : Span) (rest : List Span) :
    styles (s :: rest) = List.replicate (s.stop - s.start) s.style ++ styles rest :=
  List.flatMap_cons

private theorem getElem?_styles_eq_some_iff {pos stop : Nat} {spans : List Span}
    (tile : Tile pos spans stop) {i : Nat} {style : SpanStyle} : (styles spans)[i]? = some style ↔
      ∃ s ∈ spans, s.start ≤ pos + i ∧ pos + i < s.stop ∧ s.style = style := by
  induction spans generalizing pos i with
  | nil => simp [styles]
  | cons s rest ih =>
    obtain ⟨rfl, long, later⟩ := tile
    have beyond := later.bounds.2
    rw [styles_cons]
    by_cases here : i < s.stop - s.start
    · have first : i < (List.replicate (s.stop - s.start) s.style).length := by
        rwa [List.length_replicate]
      rw [List.getElem?_append_left first, List.getElem?_replicate_of_lt here]
      constructor
      · intro shown
        exact ⟨s, List.mem_cons_self, by omega, by omega, Option.some.inj shown⟩
      · rintro ⟨t, member, begins, -, shown⟩
        rcases List.mem_cons.mp member with rfl | further
        · rw [shown]
        · have apart := beyond t further
          omega
    · have past : (List.replicate (s.stop - s.start) s.style).length ≤ i := by
        rw [List.length_replicate]
        omega
      rw [List.getElem?_append_right past, List.length_replicate, ih later]
      have moved : s.stop + (i - (s.stop - s.start)) = s.start + i := by omega
      rw [moved]
      constructor
      · rintro ⟨t, member, shown⟩
        exact ⟨t, List.mem_cons_of_mem _ member, shown⟩
      · rintro ⟨t, member, begins, ends, shown⟩
        rcases List.mem_cons.mp member with rfl | further
        · omega
        · exact ⟨t, further, begins, ends, shown⟩

private theorem length_styles {pos stop : Nat} {spans : List Span} (tile : Tile pos spans stop) :
    (styles spans).length = stop - pos := by
  induction spans generalizing pos with
  | nil =>
    have same : pos = stop := tile
    rw [same, Nat.sub_self]
    rfl
  | cons s rest ih =>
    obtain ⟨rfl, long, later⟩ := tile
    have bound := later.bounds.1
    rw [styles_cons, List.length_append, List.length_replicate, ih later]
    omega

private theorem runs_replicate (style : SpanStyle) (n : Nat) {pos : Nat} {rest : List SpanStyle}
    (apart : ∀ s ∈ (runs (pos + (n + 1)) rest).head?, style ≠ s.style) :
    runs pos (List.replicate (n + 1) style ++ rest) =
      ⟨pos, pos + (n + 1), style⟩ :: runs (pos + (n + 1)) rest := by
  induction n generalizing pos with
  | zero =>
    rw [Nat.zero_add] at apart
    rw [Nat.zero_add, List.replicate_one, List.singleton_append, runs]
    cases spans : runs (pos + 1) rest with
    | nil => rfl
    | cons s more =>
      rw [spans] at apart
      have different := apart s rfl
      simp only [if_neg (Ne.symm different)]
  | succ n ih =>
    have shift : pos + 1 + (n + 1) = pos + (n + 1 + 1) := by omega
    rw [← shift] at apart
    have later := ih apart
    rw [shift] at later
    rw [List.replicate_succ, List.cons_append, runs, later]
    simp only [if_pos trivial]

private theorem isChain_runs (own : List SpanStyle) (pos : Nat) :
    (runs pos own).IsChain fun s t => s.style ≠ t.style := by
  rw [← List.isChain_map Span.style (R := (· ≠ ·))]
  induction own generalizing pos with
  | nil => exact List.IsChain.nil
  | cons style rest ih =>
    have later := ih (pos + 1)
    simp only [runs]
    cases spans : runs (pos + 1) rest with
    | nil => exact List.IsChain.singleton style
    | cons s more =>
      rw [spans] at later
      by_cases same : s.style = style
      · simp only [if_pos same]
        exact later
      · simp only [if_neg same]
        exact List.IsChain.cons_cons (Ne.symm same) later

private theorem styles_runs (own : List SpanStyle) (pos : Nat) : styles (runs pos own) = own := by
  induction own generalizing pos with
  | nil => rfl
  | cons style rest ih =>
    have later := ih (pos + 1)
    have tile := tile_runs rest (pos + 1)
    simp only [runs]
    cases spans : runs (pos + 1) rest with
    | nil =>
      rw [spans] at later
      rw [← later, styles_cons, Nat.add_sub_cancel_left]
      rfl
    | cons s more =>
      rw [spans] at later tile
      obtain ⟨begins, long, -⟩ := tile
      by_cases same : s.style = style
      · have longer : s.stop - pos = s.stop - s.start + 1 := by omega
        simp only [if_pos same]
        rw [← later, styles_cons, styles_cons, longer, List.replicate_succ, same]
        rfl
      · simp only [if_neg same]
        rw [← later, styles_cons, Nat.add_sub_cancel_left]
        rfl

private theorem eq_runs {pos stop : Nat} {spans : List Span} (tile : Tile pos spans stop)
    (apart : spans.IsChain fun s t => s.style ≠ t.style) : spans = runs pos (styles spans) := by
  induction spans generalizing pos with
  | nil => rfl
  | cons s rest ih =>
    obtain ⟨begins, long, later⟩ := tile
    have same := ih later apart.tail
    have size : s.stop - s.start = (s.stop - s.start - 1) + 1 := by omega
    have reach : pos + (s.stop - s.start - 1 + 1) = s.stop := by omega
    have different : ∀ t ∈ (runs (pos + (s.stop - s.start - 1 + 1)) (styles rest)).head?,
        s.style ≠ t.style := by
      intro t first
      rw [reach, ← same] at first
      cases rest with
      | nil => cases first
      | cons u more =>
        obtain rfl : u = t := Option.some.inj first
        exact apart.rel
    rw [styles_cons, size, runs_replicate s.style _ different, reach, ← same, ← begins]

/-- The spans of a text whose bytes are painted. -/
def flatten (theme : Theme) (text : String)
    (paint : Fin text.utf8ByteSize → Option CategoryId) : List Span :=
  runs 0 (charStyles theme (List.ofFn paint) text.toList)

/-- What the spans of a painted text have to be. -/
structure Flattens (theme : Theme) (text : String)
    (paint : Fin text.utf8ByteSize → Option CategoryId) (spans : List Span) : Prop where
  tile : Tile 0 spans text.length
  apart : spans.IsChain fun s t => s.style ≠ t.style
  styled : ∀ i (inside : i < text.length), ∃ s ∈ spans, s.start ≤ i ∧ i < s.stop ∧
    s.style = theme.styleFor (paint ⟨Text.bytesBefore text.toList i, Text.bytesBefore_lt inside⟩)

section Flatten

variable {theme : Theme} {text : String} {paint : Fin text.utf8ByteSize → Option CategoryId}

private theorem getElem?_charStyles_ofFn {i : Nat} (inside : i < text.length) :
    (charStyles theme (List.ofFn paint) text.toList)[i]? = some (theme.styleFor
      (paint ⟨Text.bytesBefore text.toList i, Text.bytesBefore_lt inside⟩)) := by
  have within : i < text.toList.length := by rwa [String.length_toList]
  rw [getElem?_charStyles theme _ _ within, List.getElem?_ofFn,
    dif_pos (Text.bytesBefore_lt inside)]
  rfl

private theorem eq_flatten_iff {spans : List Span} :
    spans = flatten theme text paint ↔ Flattens theme text paint spans := by
  constructor
  · rintro rfl
    have counted := tile_runs (charStyles theme (List.ofFn paint) text.toList) 0
    have tile := counted
    rw [length_charStyles, String.length_toList, Nat.zero_add] at tile
    refine ⟨tile, isChain_runs _ 0, fun i inside => ?_⟩
    have found : (charStyles theme (List.ofFn paint) text.toList)[i]? = _ :=
      getElem?_charStyles_ofFn inside
    rw [← styles_runs (charStyles theme (List.ofFn paint) text.toList) 0,
      getElem?_styles_eq_some_iff counted, Nat.zero_add] at found
    exact found
  · intro flattens
    have same : styles spans = charStyles theme (List.ofFn paint) text.toList := by
      apply List.ext_getElem?
      intro i
      by_cases inside : i < text.length
      · obtain ⟨s, member, begins, ends, style⟩ := flattens.styled i inside
        rw [getElem?_charStyles_ofFn inside, getElem?_styles_eq_some_iff flattens.tile,
          Nat.zero_add]
        exact ⟨s, member, begins, ends, style⟩
      · have beyond : text.length ≤ i := Nat.not_lt.mp inside
        rw [List.getElem?_eq_none, List.getElem?_eq_none]
        · rw [length_charStyles, String.length_toList]
          exact beyond
        · rw [length_styles flattens.tile, Nat.sub_zero]
          exact beyond
    rw [flatten, ← same]
    exact eq_runs flattens.tile flattens.apart

end Flatten

end Span

private theorem exists_eq_ofFn {α : Type} {l : List α} {n : Nat} (size : l.length = n) :
    ∃ f : Fin n → α, l = List.ofFn f := by
  subst size
  exact ⟨l.get, (List.ofFn_get l).symm⟩

/-- However the bytes of a text are painted, flattening gives the only spans that tile its
characters, show each in the style of its first byte and have no two neighbours of one style; there
are none just if the text is empty. What a grammar captures, and plain text, is flattened so. -/
theorem highlight_flattens (text : String) (theme : Theme) :
    (∀ paint spans, spans = Span.flatten theme text paint ↔
      Span.Flattens theme text paint spans) ∧
    (∀ paint, Span.flatten theme text paint = [] ↔ text = "") ∧
    ∀ grammar, ∃ paint, paintText text grammar = List.ofFn paint ∧
      highlight text grammar theme = Span.flatten theme text paint := by
  refine ⟨fun paint spans => Span.eq_flatten_iff, ?_, ?_⟩
  · intro paint
    have tile := (Span.eq_flatten_iff.mp (rfl : Span.flatten theme text paint = _)).tile
    rw [← String.length_eq_zero_iff]
    cases spans : Span.flatten theme text paint with
    | nil =>
      rw [spans] at tile
      have empty : 0 = text.length := tile
      simp [← empty]
    | cons s rest =>
      rw [spans] at tile
      have long := tile.bounds.2 s List.mem_cons_self
      simp only [reduceCtorEq, false_iff]
      omega
  · intro grammar
    obtain ⟨paint, same⟩ := exists_eq_ofFn (length_paintText text grammar)
    exact ⟨paint, same, by rw [highlight, Span.flatten, ← same]⟩

end CodeTint
