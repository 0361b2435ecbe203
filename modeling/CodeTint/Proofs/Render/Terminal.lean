import CodeTint.Proofs.Decoration.Valid
import CodeTint.Proofs.Decoration.Coverage
import CodeTint.Render.Terminal

/-!
What is written to a terminal for a document. Main statement: whatever decorations there are, each
code block is written with all its characters in their order, and each of them stands between the
escape sequence of its style and a reset, where its style is that of the first decoration that
shows its position.
-/

set_option autoImplicit false
set_option relaxedAutoImplicit false

namespace CodeTint

namespace Terminal

def rgb (c : Color) : String :=
  "38;2;" ++ toString c.red ++ ";" ++ toString c.green ++ ";" ++ toString c.blue

/-- The parameters of the escape sequence for a style: 1 for a bold font, 3 for an italic and 4 for
an underlined one, 38;2 and the channels for a color, in this order and no others. -/
structure Selects (style : SpanStyle) (parameters : List String) : Prop where
  bold : "1" ∈ parameters ↔ style.font.bold = true
  italic : "3" ∈ parameters ↔ style.font.italic = true
  underline : "4" ∈ parameters ↔ style.font.underline = true
  color : ∀ c, style.color = some c → rgb c ∈ parameters
  ordered : parameters.Sublist ("1" :: "3" :: "4" :: (style.color.map rgb).toList)

/-- A style that shows nothing: a plain font and no color. -/
def Bare (style : SpanStyle) : Prop := style.font = {} ∧ style.color = none

/-- The escape sequence that selects the look of a style with something to show. -/
def Look (style : SpanStyle) (look : String) : Prop :=
  ¬Bare style ∧ ∃ parameters, Selects style parameters ∧
    look = "\x1b[" ++ String.intercalate ";" parameters ++ "m"

private theorem rgb_ne {c : Color} {s : String} (short : s.length = 1) : s ≠ rgb c := by
  rintro rfl
  simp only [rgb, String.length_append] at short
  have front : "38;2;".length = 5 := rfl
  omega

private theorem selects_codes (style : SpanStyle) : Selects style (codes style) := by
  obtain ⟨category, color, italic, bold, underline⟩ := style
  have one (c : Color) : "1" ≠ rgb c := rgb_ne rfl
  have three (c : Color) : "3" ≠ rgb c := rgb_ne rfl
  have four (c : Color) : "4" ≠ rgb c := rgb_ne rfl
  have parts : codes ⟨category, color, italic, bold, underline⟩ =
      (if bold then ["1"] else []) ++ (if italic then ["3"] else []) ++
        (if underline then ["4"] else []) ++ (color.map rgb).toList := rfl
  rw [parts]
  constructor
  · cases color <;> cases italic <;> cases bold <;> cases underline <;> simp [one]
  · cases color <;> cases italic <;> cases bold <;> cases underline <;> simp [three]
  · cases color <;> cases italic <;> cases bold <;> cases underline <;> simp [four]
  · rintro c rfl
    simp
  · have switches : ((if bold then ["1"] else []) ++ (if italic then ["3"] else []) ++
        (if underline then ["4"] else [])).Sublist ["1", "3", "4"] := by
      cases italic <;> cases bold <;> cases underline <;> simp
    exact switches.append (List.Sublist.refl _)

private theorem opening?_eq_none_iff {style : SpanStyle} : opening? style = none ↔ Bare style := by
  have empty : codes style = [] ↔ Bare style := by
    obtain ⟨category, color, italic, bold, underline⟩ := style
    cases color <;> cases italic <;> cases bold <;> cases underline <;> simp [codes, Bare]
  rw [← empty, opening?]
  split
  next none => exact iff_of_true rfl none
  next some => exact iff_of_false (Option.some_ne_none _) some

private theorem look_of_opening? {style : SpanStyle} {look : String}
    (found : opening? style = some look) : Look style look := by
  refine ⟨fun bare => ?_, codes style, selects_codes style, ?_⟩
  · rw [opening?_eq_none_iff.mpr bare] at found
    cases found
  · rw [opening?] at found
    split at found
    next => cases found
    next => rw [← Option.some.inj found, Text.join_eq_intercalate]

/-- A text from a position on, each of whose characters is written plainly, where there is no style
for its position or one that shows nothing, or in a run between the escape sequence of its style
and a reset. -/
inductive Written (style : Nat → Option SpanStyle) : Nat → List Char → String → Prop
  | done (pos : Nat) : Written style pos [] ""
  | plain {pos : Nat} {c : Char} {rest : List Char} {later : String}
      (bare : ∀ own ∈ style pos, Bare own) (written : Written style (pos + 1) rest later) :
      Written style pos (c :: rest) (String.singleton c ++ later)
  | styled {pos : Nat} {run rest : List Char} {look later : String} (nonempty : run ≠ [])
      (shown : ∀ i < run.length, ∃ own ∈ style (pos + i), Look own look)
      (written : Written style (pos + run.length) rest later) :
      Written style pos (run ++ rest) (look ++ String.ofList run ++ "\x1b[0m" ++ later)

namespace Written

variable {style style' : Nat → Option SpanStyle} {pos : Nat} {cs run rest : List Char}
  {out later : String}

private theorem congr (written : Written style pos cs out)
    (same : ∀ i < cs.length, style' (pos + i) = style (pos + i)) : Written style' pos cs out := by
  induction written with
  | done pos => exact .done pos
  | @plain pos c rest later bare written ih =>
    refine .plain ?_ (ih fun i inside => ?_)
    · have here : style' pos = style pos := same 0 (Nat.zero_lt_succ _)
      rwa [here]
    · have next := same (i + 1) (Nat.succ_lt_succ inside)
      rwa [← Nat.add_assoc, Nat.add_right_comm] at next
  | @styled pos run rest look later nonempty shown written ih =>
    refine .styled nonempty (fun i inside => ?_) (ih fun i inside => ?_)
    · rw [same i (by rw [List.length_append]; omega)]
      exact shown i inside
    · rw [Nat.add_assoc]
      exact same (run.length + i) (by rw [List.length_append]; omega)

private theorem plain_append (written : Written style (pos + run.length) rest later)
    (bare : ∀ i < run.length, ∀ own ∈ style (pos + i), Bare own) :
    Written style pos (run ++ rest) ((Piece.mk none run).write ++ later) := by
  rw [Piece.write]
  induction run generalizing pos with
  | nil => simpa using written
  | cons c run ih =>
    rw [String.ofList_cons, String.append_assoc]
    refine .plain (bare 0 (Nat.zero_lt_succ _)) (ih ?_ fun i inside => ?_)
    rotate_left
    · have next := bare (i + 1) (Nat.succ_lt_succ inside)
      rwa [← Nat.add_assoc, Nat.add_right_comm] at next
    · have next : pos + (c :: run).length = pos + 1 + run.length := by
        rw [List.length_cons]
        omega
      rwa [next] at written

private theorem piece {own : SpanStyle} (nonempty : run ≠ [])
    (shown : ∀ i < run.length, style (pos + i) = some own)
    (written : Written style (pos + run.length) rest later) :
    Written style pos (run ++ rest) ((Piece.mk (opening? own) run).write ++ later) := by
  cases found : opening? own with
  | none =>
    refine written.plain_append fun i inside other member => ?_
    rw [shown i inside, Option.mem_some_iff] at member
    exact member ▸ opening?_eq_none_iff.mp found
  | some look =>
    exact .styled nonempty (fun i inside => ⟨own, shown i inside, look_of_opening? found⟩) written

private theorem cut {own : SpanStyle} {first last : Nat} (nonempty : first < last)
    (inside : last ≤ cs.length) (bare : ∀ i < first, style (pos + i) = none)
    (shown : ∀ i < last, first ≤ i → style (pos + i) = some own)
    (written : Written style (pos + last) (cs.drop last) later) :
    Written style pos cs ((Piece.mk none (cs.take first)).write ++
      ((Piece.mk (opening? own) ((cs.drop first).take (last - first))).write ++ later)) := by
  have before : (cs.take first).length = first := by
    rw [List.length_take]
    omega
  have run : ((cs.drop first).take (last - first)).length = last - first := by
    rw [List.length_take, List.length_drop]
    omega
  have parts : cs.take first ++ ((cs.drop first).take (last - first) ++ cs.drop last) = cs := by
    have far : first + (last - first) = last := by omega
    conv => lhs; rw [← far, ← List.drop_drop, far, List.take_append_drop, List.take_append_drop]
  have place : pos + last = pos + (cs.take first).length +
      ((cs.drop first).take (last - first)).length := by omega
  have inStyle : ∀ i < ((cs.drop first).take (last - first)).length,
      style (pos + (cs.take first).length + i) = some own := by
    intro i below
    rw [run] at below
    rw [before, Nat.add_assoc]
    exact shown (first + i) (by omega) (Nat.le_add_right _ _)
  rw [place] at written
  have styled := written.piece (List.ne_nil_of_length_pos (by rw [run]; omega)) inStyle
  have plain := styled.plain_append fun i below other member => by
    rw [before] at below
    rw [bare i below] at member
    cases member
  rwa [parts] at plain

end Written

/-- The style for a position: that of the first styled run in order that covers it. -/
def styleAt? (ds : List Decoration) (pos : Nat) : Option SpanStyle :=
  (ds.find? fun d => d.isInline && decide (d.start ≤ pos ∧ pos < d.stop)).bind (·.span?)

section Style

variable {ds : List Decoration} {start stop pos : Nat} {shown : Presentation} {span : SpanStyle}

private theorem styleAt?_cons_node :
    styleAt? (.node start stop shown :: ds) pos = styleAt? ds pos := rfl

private theorem styleAt?_cons_of_outside (outside : pos < start ∨ stop ≤ pos) :
    styleAt? (.inline start stop shown span :: ds) pos = styleAt? ds pos := by
  have hidden : decide (start ≤ pos ∧ pos < stop) = false := decide_eq_false (by omega)
  rw [styleAt?, List.find?_cons, Decoration.start, Decoration.stop, hidden, Bool.and_false,
    styleAt?]

private theorem styleAt?_cons_of_shown (first : start ≤ pos) (last : pos < stop) :
    styleAt? (.inline start stop shown span :: ds) pos = some span := by
  have covers : decide (start ≤ pos ∧ pos < stop) = true := decide_eq_true ⟨first, last⟩
  rw [styleAt?, List.find?_cons, Decoration.start, Decoration.stop, covers]
  rfl

private theorem styleAt?_eq_none_of_lt (later : ∀ d ∈ ds, pos < d.start) :
    styleAt? ds pos = none := by
  have none : (ds.find? fun d => d.isInline && decide (d.start ≤ pos ∧ pos < d.stop)) = none := by
    refine List.find?_eq_none.mpr fun d member => ?_
    have behind := later d member
    rw [Bool.and_eq_true, decide_eq_true_eq]
    omega
  rw [styleAt?, none]
  rfl

private theorem styleAt?_filter_overlaps (first : start ≤ pos) (last : pos < stop) :
    styleAt? (ds.filter (·.overlaps start stop)) pos = styleAt? ds pos := by
  have same : (fun d : Decoration => decide (d.overlaps start stop = true ∧
      (d.isInline && decide (d.start ≤ pos ∧ pos < d.stop)) = true)) =
      fun d => d.isInline && decide (d.start ≤ pos ∧ pos < d.stop) := by
    funext d
    rw [Bool.eq_iff_iff, decide_eq_true_eq, and_iff_right_iff_imp, Bool.and_eq_true]
    rintro ⟨-, covers⟩
    simp only [Decoration.overlaps, Bool.and_eq_true, decide_eq_true_eq] at covers ⊢
    omega
  rw [styleAt?, List.find?_filter, same, styleAt?]

end Style

private theorem written_pieces (base : Nat) {length : Nat} {ds : List Decoration}
    (sorted : ds.Pairwise fun a b => a.start ≤ b.start) {cursor : Nat} {rest : List Char}
    (size : cursor + rest.length = length) :
    Written (styleAt? ds) (base + cursor) rest
      (String.join ((pieces base length cursor rest ds).map (·.write))) := by
  -- The decorations that were handled show nothing behind the cursor, and those that are left begin
  -- no earlier than the next one, so that what stands before it is plain.
  induction ds generalizing cursor rest with
  | nil =>
    have done : Written (styleAt? []) (base + cursor + rest.length) [] "" := .done _
    have bare := done.plain_append fun _ _ _ member => by cases member
    rw [List.append_nil] at bare
    rw [pieces, List.map_cons, String.join_cons]
    exact bare
  | cons d more ih =>
    obtain ⟨behind, sorted'⟩ := List.pairwise_cons.mp sorted
    cases d with
    | node start stop shown =>
      rw [pieces]
      exact (ih sorted' size).congr fun i _ => styleAt?_cons_node
    | inline start stop shown span =>
      rw [pieces]
      generalize first_eq : max (min (start - base) length) cursor = first
      generalize last_eq : min (stop - base) length = last
      split
      next skipped =>
        -- What no character is left for shows none of those that are left.
        exact (ih sorted' size).congr fun i inside => styleAt?_cons_of_outside (by omega)
      next taken =>
        have far : last - first = last - cursor - (first - cursor) := by omega
        rw [List.map_cons, List.map_cons, String.join_cons, String.join_cons, far]
        refine Written.cut (by omega) (by omega) (fun i inside => ?_) (fun i below above => ?_) ?_
        · refine styleAt?_eq_none_of_lt fun d member => ?_
          have le : start ≤ d.start := by
            rcases List.mem_cons.mp member with rfl | later
            · exact Nat.le_refl start
            · exact behind d later
          omega
        · exact styleAt?_cons_of_shown (by omega) (by omega)
        · have place : base + cursor + (last - cursor) = base + last := by omega
          have reach : last + (rest.drop (last - cursor)).length = length := by
            rw [List.length_drop]
            omega
          rw [place]
          exact (ih sorted' reach).congr fun i inside => styleAt?_cons_of_outside (by omega)

/-- The language that a code block is headed with: the one that the first node decoration from its
start on names, else the tag of its own. -/
structure Heads (s : DecorationSet) (r : CodeRegion) (language : String) : Prop where
  named : ∀ before d after, s.nodes = before ++ d :: after → d.start = r.start →
    (∀ e ∈ before, e.start ≠ r.start) →
      language = d.shown.dataLanguage.getD (Language.tag r.language)
  own : (∀ d ∈ s.nodes, d.start ≠ r.start) → language = Language.tag r.language

private theorem heads_headerLanguage (s : DecorationSet) (r : CodeRegion) :
    Heads s r (headerLanguage r s) := by
  refine ⟨fun before d after nodes here earlier => ?_, fun elsewhere => ?_⟩
  · have found : s.nodes.find? (·.start = r.start) = some d :=
      List.find?_eq_some_iff_append.mpr ⟨decide_eq_true here, before, after, nodes,
        fun e member => by simpa using earlier e member⟩
    rw [headerLanguage, found, Option.bind_some]
  · have none : s.nodes.find? (·.start = r.start) = none :=
      List.find?_eq_none.mpr fun d member => by simpa using elsewhere d member
    rw [headerLanguage, none]
    rfl

/-- What a code block is written as with a decoration set: a line that names its language, its text
in the styles of the set, and a line break if the text does not end in one. -/
def WrittenRegion (s : DecorationSet) (r : CodeRegion) (out : String) : Prop :=
  ∃ language text, Heads s r language ∧
    Written (styleAt? s.decorations) r.contentStart r.text.toList text ∧
    out = "── " ++ language ++ " ──\n" ++ text ++
      if r.text.toList.getLast? = some '\n' then "" else "\n"

private theorem writtenRegion_writeRegion {s : DecorationSet}
    (sorted : s.decorations.Pairwise fun a b => a.start ≤ b.start) {d : Document} {r : CodeRegion}
    (member : r ∈ d.regions) : WrittenRegion s r (writeRegion r s) := by
  refine ⟨_, _, heads_headerLanguage s r, ?_, rfl⟩
  have own : (s.overlapping r.contentStart r.contentStop).Pairwise fun a b => a.start ≤ b.start :=
    sorted.filter _
  have size : 0 + r.text.toList.length = r.text.length := by rw [Nat.zero_add, String.length_toList]
  refine (written_pieces r.contentStart own size).congr fun i inside => ?_
  have stop := Document.stop_of_mem_regions member
  rw [String.length_toList] at inside
  refine (styleAt?_filter_overlaps (Nat.le_add_right _ _) ?_).symm
  simp only [CodeRegion.contentStart, CodeRegion.contentStop]
  omega

/-- Whatever decorations a set is made of, a document is written code block by code block, with a
line break between them, and each character of code is written in the style of the first styled run
that covers its position, plainly if there is none or its style shows nothing. -/
theorem render_written (d : Document) (version : Nat) (ds : List Decoration) :
    ∃ blocks, render d (.ofList version ds) = String.intercalate "\n" blocks ∧
      List.Forall₂ (WrittenRegion (.ofList version ds)) d.regions blocks := by
  refine ⟨d.regions.map (writeRegion · (.ofList version ds)), Text.join_eq_intercalate _ _, ?_⟩
  rw [List.forall₂_map_right_iff, List.forall₂_same]
  exact fun r member => writtenRegion_writeRegion (DecorationSet.sorted_ofList version ds) member

end Terminal

end CodeTint
