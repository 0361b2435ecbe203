import CodeTint.Highlight.Span

/-!
The spans of a highlighted text tile it: the first begins at its beginning, each of the others
where the one before it ends, and the last ends at its end.
-/

set_option autoImplicit false
set_option relaxedAutoImplicit false

namespace CodeTint

namespace Span

/-- Spans that cover the characters from `start` up to `stop`, none of them empty. -/
def Tile (start : Nat) : List Span → Nat → Prop
  | [], stop => start = stop
  | s :: rest, stop => s.start = start ∧ start < s.stop ∧ Tile s.stop rest stop

theorem tile_runs (styles : List SpanStyle) (pos : Nat) :
    Tile pos (runs pos styles) (pos + styles.length) := by
  induction styles generalizing pos with
  | nil => rfl
  | cons style rest ih =>
    have later := ih (pos + 1)
    have stop : pos + (style :: rest).length = pos + 1 + rest.length := by
      rw [List.length_cons]
      omega
    rw [stop]
    simp only [runs]
    cases spans : runs (pos + 1) rest with
    | nil =>
      rw [spans] at later
      exact ⟨rfl, Nat.lt_succ_self pos, later⟩
    | cons s more =>
      rw [spans] at later
      dsimp only
      split
      · obtain ⟨begins, long, tile⟩ := later
        exact ⟨rfl, Nat.lt_of_succ_lt long, tile⟩
      · exact ⟨rfl, Nat.lt_succ_self pos, later⟩

theorem Tile.bounds {start stop : Nat} {spans : List Span} (h : Tile start spans stop) :
    start ≤ stop ∧ ∀ s ∈ spans, start ≤ s.start ∧ s.start < s.stop ∧ s.stop ≤ stop := by
  induction spans generalizing start with
  | nil => exact ⟨Nat.le_of_eq h, by simp⟩
  | cons s rest ih =>
    obtain ⟨begins, long, tile⟩ := h
    obtain ⟨le, inside⟩ := ih tile
    refine ⟨by omega, ?_⟩
    intro t member
    rcases List.mem_cons.mp member with rfl | later
    · omega
    · have bounds := inside t later
      omega

theorem Tile.pairwise {start stop : Nat} {spans : List Span} (h : Tile start spans stop) :
    spans.Pairwise fun s t => s.stop ≤ t.start := by
  induction spans generalizing start with
  | nil => exact List.Pairwise.nil
  | cons s rest ih =>
    obtain ⟨-, -, tile⟩ := h
    exact List.Pairwise.cons (fun t member => (tile.bounds.2 t member).1) (ih tile)

theorem length_charStyles (theme : Theme) (painted : List (Option CategoryId)) (cs : List Char) :
    (charStyles theme painted cs).length = cs.length := by
  induction cs generalizing painted with
  | nil => rfl
  | cons c rest ih => simp only [charStyles, List.length_cons, ih]

end Span

theorem tile_highlight (text : String) (grammar : Option Grammar) (theme : Theme) :
    Span.Tile 0 (highlight text grammar theme) text.length := by
  have tile := Span.tile_runs
    (Span.charStyles theme (paintText text grammar) text.toList) 0
  rwa [Span.length_charStyles, String.length_toList, Nat.zero_add] at tile

end CodeTint
