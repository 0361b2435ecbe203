import CodeTint.Proofs.Highlight.Flattening

/-!
Which of several captures shows on a byte of a text. Main statement: whatever captures nest or
overlap, and in whatever order they are found, painting them one over the other leaves on each byte
the category of one of those that cover it and have a category: of the shortest one; of several, of
that whose rule comes first; and of several, of the one found last.
-/

set_option autoImplicit false
set_option relaxedAutoImplicit false

namespace CodeTint

/-- What a stable sort leaves last of the elements that satisfy `p`: none of the earlier ones comes
behind it, and each of the later ones comes before it. -/
private theorem exists_split_of_getLast?_mergeSort {α : Type} {le : α → α → Bool} {p : α → Bool}
    (trans : ∀ a b c, le a b → le b c → le a c) (total : ∀ a b, le a b || le b a) {l : List α}
    {a : α} (last : ((l.mergeSort le).filter p).getLast? = some a) :
    ∃ front back, l = front ++ a :: back ∧ (∀ b ∈ front, p b → le b a) ∧
      ∀ b ∈ back, p b → ¬le a b := by
  induction l with
  | nil => simp at last
  | cons first rest ih =>
    obtain ⟨before, after, sorted, sorted', below⟩ := List.mergeSort_cons trans total first rest
    have order : (before ++ first :: after).Pairwise fun a b => le a b :=
      sorted ▸ List.pairwise_mergeSort trans total (first :: rest)
    rw [sorted, List.filter_append, List.getLast?_append, List.filter_cons] at last
    rw [sorted', List.filter_append, List.getLast?_append] at ih
    cases later : (after.filter p).getLast? with
    | some b =>
      -- The last one stands behind `first`, so that it is also the last one without it.
      have same : b = a := by
        split at last
        · rw [List.getLast?_cons, later] at last
          exact Option.some.inj last
        · rw [later] at last
          exact Option.some.inj last
      subst same
      obtain ⟨front, back, rfl, front_le, back_lt⟩ := ih (by rw [later]; rfl)
      have member : b ∈ after := List.mem_of_mem_filter (List.mem_of_getLast? later)
      have behind : le first b :=
        (List.pairwise_cons.mp (List.pairwise_append.mp order).2.1).1 b member
      refine ⟨first :: front, back, rfl, ?_, back_lt⟩
      intro c inside chosen
      rcases List.mem_cons.mp inside with rfl | inside
      · exact behind
      · exact front_le c inside chosen
    | none =>
      rw [List.getLast?_eq_none_iff] at later
      by_cases chosen : p first = true
      · rw [if_pos chosen, later] at last
        obtain rfl : first = a := Option.some.inj last
        refine ⟨[], rest, rfl, fun b inside => absurd inside List.not_mem_nil, ?_⟩
        intro b inside own
        have among : b ∈ before ++ after := sorted' ▸ List.mem_mergeSort.mpr inside
        rcases List.mem_append.mp among with early | late
        · simpa using below b early
        · exact absurd own (List.filter_eq_nil_iff.mp later b late)
      · rw [if_neg chosen] at last
        obtain ⟨front, back, rfl, front_le, back_lt⟩ := ih last
        refine ⟨first :: front, back, rfl, ?_, back_lt⟩
        intro c inside own
        rcases List.mem_cons.mp inside with rfl | inside
        · exact absurd own chosen
        · exact front_le c inside own

namespace Capture

def covers (byte : Nat) (c : Capture) : Bool := c.start ≤ byte && byte < c.stop

/-- A capture wants to show on a byte. -/
def contends (byte : Nat) (c : Capture) : Bool := c.category.isSome && c.covers byte

private theorem covers_iff {byte : Nat} {c : Capture} :
    c.covers byte = true ↔ c.start ≤ byte ∧ byte < c.stop := by
  simp [covers]

private theorem contends_iff {byte : Nat} {c : Capture} :
    c.contends byte = true ↔ c.category.isSome = true ∧ c.covers byte = true := by
  simp [contends]

/-- The capture at a place of a list goes before all others that contend for a byte: it is the
shortest one, or else its rule comes first, or else it was found last. -/
structure Prevails (captures : List Capture) (byte place : Nat) (c : Capture) : Prop where
  found : captures[place]? = some c
  contends : c.contends byte = true
  best : ∀ other d, captures[other]? = some d → d.contends byte = true →
    c.size < d.size ∨ c.size = d.size ∧
      (c.pattern < d.pattern ∨ c.pattern = d.pattern ∧ other ≤ place)

private theorem Prevails.unique {captures : List Capture} {byte place place' : Nat} {c c' : Capture}
    (one : Prevails captures byte place c) (two : Prevails captures byte place' c') : c = c' := by
  have first := one.best place' c' two.found two.contends
  have second := two.best place c one.found one.contends
  have same : place = place' := by omega
  have found := one.found
  rw [same, two.found] at found
  exact (Option.some.inj found).symm

private theorem paintedBefore_iff {a b : Capture} :
    a.paintedBefore b = true ↔ b.size < a.size ∨ a.size = b.size ∧ b.pattern ≤ a.pattern := by
  simp [paintedBefore]

private theorem paintedBefore_trans (a b c : Capture) (one : a.paintedBefore b = true)
    (two : b.paintedBefore c = true) : a.paintedBefore c = true := by
  rw [paintedBefore_iff] at one two ⊢
  omega

private theorem paintedBefore_total (a b : Capture) :
    (a.paintedBefore b || b.paintedBefore a) = true := by
  rw [Bool.or_eq_true, paintedBefore_iff, paintedBefore_iff]
  omega

/-- What is not painted after the captures found before it, and before those found after it, goes
before them all. -/
theorem prevails_of_split {early late : List Capture} {byte : Nat} {c : Capture}
    (contends : c.contends byte = true)
    (above : ∀ d ∈ early, d.contends byte = true → d.paintedBefore c = true)
    (under : ∀ d ∈ late, d.contends byte = true → ¬c.paintedBefore d = true) :
    Prevails (early ++ c :: late) byte early.length c where
  found := by rw [List.getElem?_append_right (Nat.le_refl _), Nat.sub_self, List.getElem?_cons_zero]
  contends := contends
  best other d found rival := by
    rcases Nat.lt_trichotomy other early.length with before | rfl | after
    · rw [List.getElem?_append_left before] at found
      have order := above d (List.mem_of_getElem? found) rival
      rw [paintedBefore_iff] at order
      omega
    · rw [List.getElem?_append_right (Nat.le_refl _), Nat.sub_self,
        List.getElem?_cons_zero] at found
      obtain rfl := Option.some.inj found
      omega
    · obtain ⟨further, place⟩ : ∃ n, other - early.length = n + 1 :=
        ⟨other - early.length - 1, by omega⟩
      rw [List.getElem?_append_right (by omega), place, List.getElem?_cons_succ] at found
      have order := under d (List.mem_of_getElem? found) rival
      rw [paintedBefore_iff] at order
      omega

section Layers

variable {byte length : Nat} {painted : List (Option CategoryId)} {c : Capture}
  {captures : List Capture}

private theorem getElem?_overwrite (below : c.stop ≤ painted.length)
    (early : c.start < c.stop ∨ c.stop = painted.length) : (overwrite painted c)[byte]? =
      if c.covers byte then some c.category else painted[byte]? := by
  have front : (painted.take c.start).length = min c.start painted.length := List.length_take
  have middle : (List.replicate c.size c.category).length = c.stop - c.start :=
    List.length_replicate
  simp only [covers, Bool.and_eq_true, decide_eq_true_eq]
  by_cases inside : byte < painted.length
  · rw [overwrite, List.append_assoc]
    rcases Nat.lt_or_ge byte c.start with left | notLeft
    · rw [if_neg (by omega), List.getElem?_append_left (by omega), List.getElem?_take_of_lt left]
    · rw [List.getElem?_append_right (by omega)]
      rcases Nat.lt_or_ge byte c.stop with within | right
      · rw [if_pos ⟨notLeft, within⟩, List.getElem?_append_left (by omega),
          List.getElem?_replicate_of_lt (by rw [size]; omega)]
      · have place : c.stop + (byte - (painted.take c.start).length -
            (List.replicate c.size c.category).length) = byte := by omega
        rw [if_neg (by omega), List.getElem?_append_right (by omega), List.getElem?_drop, place]
  · have beyond : painted.length ≤ byte := Nat.not_lt.mp inside
    rw [if_neg (by omega), List.getElem?_eq_none beyond, List.getElem?_eq_none]
    rw [length_overwrite below early]
    exact beyond

private theorem getElem?_foldl_overwrite (cs : List Capture)
    (fits : ∀ c ∈ cs, c.stop ≤ length ∧ (c.start < c.stop ∨ c.stop = length))
    (size : painted.length = length) : (cs.foldl overwrite painted)[byte]? =
      (((cs.filter (covers byte)).getLast?).map category).or painted[byte]? := by
  induction cs generalizing painted with
  | nil => rfl
  | cons c rest ih =>
    obtain ⟨below, early⟩ := fits c List.mem_cons_self
    rw [← size] at below early
    have same := (length_overwrite below early).trans size
    rw [List.foldl_cons, ih (fun d member => fits d (List.mem_cons_of_mem _ member)) same,
      getElem?_overwrite below early, List.filter_cons]
    split
    · rw [List.getLast?_cons]
      cases (rest.filter (covers byte)).getLast? <;> rfl
    · rfl

private theorem mem_layers_iff : c ∈ layers length captures ↔
    ∃ found ∈ captures, found.paints = true ∧ found.clamp length = c := by
  simp only [layers, List.mem_mergeSort, List.mem_map, List.mem_filter, and_assoc]

private theorem paints_of_contends (contends : (c.clamp length).contends byte = true) :
    c.paints = true := by
  obtain ⟨some, covers⟩ := contends_iff.mp contends
  obtain ⟨first, last⟩ := covers_iff.mp covers
  have stop : byte < min c.stop length := last
  have long : c.start < c.stop := by
    have start : c.start ≤ byte := first
    omega
  rw [paints, Bool.and_eq_true, decide_eq_true_eq]
  exact ⟨some, long⟩

private theorem mem_map_filter_paints (member : c ∈ captures)
    (contends : (c.clamp length).contends byte = true) :
    c.clamp length ∈ (captures.filter paints).map (clamp length) :=
  List.mem_map_of_mem (List.mem_filter.mpr ⟨member, paints_of_contends contends⟩)

private theorem category_of_paints (paints : c.paints = true) : ∃ id, c.category = some id := by
  rw [Capture.paints, Bool.and_eq_true] at paints
  exact Option.isSome_iff_exists.mp paints.1

private theorem getElem?_paint : (paint length captures)[byte]? =
    (((layers length captures).filter (covers byte)).getLast?.map category).or
      (List.replicate length none)[byte]? :=
  getElem?_foldl_overwrite _ (fun _ => of_mem_layers) List.length_replicate

private theorem exists_prevails
    (last : ((layers length captures).filter (covers byte)).getLast? = some c) :
    ∃ place, Prevails (captures.map (clamp length)) byte place c := by
  obtain ⟨layer, covering⟩ := List.mem_filter.mp (List.mem_of_getLast? last)
  obtain ⟨front, back, split, above, under⟩ :=
    exists_split_of_getLast?_mergeSort paintedBefore_trans paintedBefore_total last
  -- What stands on either side of it among the layers, before they are sorted, stands there among
  -- the captures as they were found, with those between that paint nothing.
  obtain ⟨early, rest, parts, rfl, tail⟩ := List.map_eq_append_iff.mp split
  obtain ⟨found, late, rfl, rfl, rfl⟩ := List.map_eq_cons_iff.mp tail
  obtain ⟨before, others, rfl, rfl, kept⟩ := List.filter_eq_append_iff.mp parts
  obtain ⟨skipped, after, rfl, unpainted, paints, rfl⟩ := List.filter_eq_cons_iff.mp kept
  obtain ⟨id, named⟩ := category_of_paints paints
  have contends : (found.clamp length).contends byte = true :=
    contends_iff.mpr ⟨by rw [clamp, named]; rfl, covering⟩
  refine ⟨(before.map (clamp length) ++ skipped.map (clamp length)).length, ?_⟩
  rw [List.map_append, List.map_append, List.map_cons, ← List.append_assoc]
  refine prevails_of_split contends ?_ ?_
  · intro d member rival
    rcases List.mem_append.mp member with member | member
    · obtain ⟨own, inside, rfl⟩ := List.mem_map.mp member
      exact above _ (mem_map_filter_paints inside rival) (contends_iff.mp rival).2
    · obtain ⟨own, inside, rfl⟩ := List.mem_map.mp member
      exact absurd (paints_of_contends rival) (unpainted own inside)
  · intro d member rival
    obtain ⟨own, inside, rfl⟩ := List.mem_map.mp member
    exact under _ (mem_map_filter_paints inside rival) (contends_iff.mp rival).2

private theorem filter_layers_eq_nil_iff : (layers length captures).filter (covers byte) = [] ↔
    ∀ c ∈ captures.map (clamp length), c.covers byte = true → c.category = none := by
  rw [List.filter_eq_nil_iff]
  constructor
  · intro bare d member covering
    obtain ⟨found, inside, rfl⟩ := List.mem_map.mp member
    by_contra named
    have contends : (found.clamp length).contends byte = true :=
      contends_iff.mpr ⟨Option.isSome_iff_ne_none.mpr named, covering⟩
    exact bare _ (mem_layers_iff.mpr ⟨found, inside, paints_of_contends contends, rfl⟩) covering
  · intro unnamed d layer covering
    obtain ⟨found, inside, paints, rfl⟩ := mem_layers_iff.mp layer
    obtain ⟨id, named⟩ := category_of_paints paints
    have none : found.category = none :=
      unnamed (found.clamp length) (List.mem_map_of_mem inside) covering
    rw [none] at named
    cases named

private theorem layers_filter_category :
    layers length (captures.filter (·.category.isSome)) = layers length captures := by
  have same : (fun c : Capture => c.paints && c.category.isSome) = fun c => c.paints := by
    funext c
    cases named : c.category <;> simp [paints, named]
  rw [layers, List.filter_filter, same, layers]

private theorem Prevails.getElem?_paint {place : Nat}
    (prevails : Prevails (captures.map (clamp length)) byte place c) :
    (paint length captures)[byte]? = some c.category := by
  cases last : ((layers length captures).filter (covers byte)).getLast? with
  | none =>
    have bare := filter_layers_eq_nil_iff.mp (List.getLast?_eq_none_iff.mp last)
    obtain ⟨some, covering⟩ := contends_iff.mp prevails.contends
    have none := bare c (List.mem_of_getElem? prevails.found) covering
    rw [none] at some
    cases some
  | some d =>
    obtain ⟨other, prevails'⟩ := exists_prevails last
    rw [Capture.getElem?_paint, last, prevails.unique prevails']
    rfl

private theorem getElem?_paint_eq_category_iff {id : CategoryId} :
    (paint length captures)[byte]? = some (some id) ↔
      ∃ place c, Prevails (captures.map (clamp length)) byte place c ∧ c.category = some id := by
  constructor
  · intro shown
    rw [getElem?_paint] at shown
    cases last : ((layers length captures).filter (covers byte)).getLast? with
    | none =>
      rw [last, List.getElem?_replicate] at shown
      split at shown <;> cases shown
    | some c =>
      rw [last] at shown
      obtain ⟨place, prevails⟩ := exists_prevails last
      exact ⟨place, c, prevails, Option.some.inj shown⟩
  · rintro ⟨place, c, prevails, named⟩
    rw [prevails.getElem?_paint, named]

private theorem getElem?_paint_eq_bare_iff :
    (paint length captures)[byte]? = some none ↔ byte < length ∧
      ∀ c ∈ captures.map (clamp length), c.covers byte = true → c.category = none := by
  rw [← filter_layers_eq_nil_iff, ← List.getLast?_eq_none_iff]
  constructor
  · intro shown
    obtain ⟨inside, -⟩ := List.getElem?_eq_some_iff.mp shown
    rw [length_paint] at inside
    refine ⟨inside, ?_⟩
    cases last : ((layers length captures).filter (covers byte)).getLast? with
    | none => rfl
    | some c =>
      obtain ⟨place, prevails⟩ := exists_prevails last
      obtain ⟨some, -⟩ := contends_iff.mp prevails.contends
      rw [prevails.getElem?_paint] at shown
      rw [Option.some.inj shown] at some
      cases some
  · rintro ⟨inside, last⟩
    rw [getElem?_paint, last, List.getElem?_replicate_of_lt inside]
    rfl

private theorem paint_filter_category :
    paint length (captures.filter (·.category.isSome)) = paint length captures := by
  rw [paint, layers_filter_category, paint]

end Layers

/-- Whatever captures of a text are painted, each byte shows the category of the capture that
prevails on it, and none if none of those that cover it has a category; captures without a category
hide nothing. -/
theorem paint_prevails (text : String) (captures : List Capture) (byte : Nat) :
    (∀ id, (paint text.utf8ByteSize captures)[byte]? = some (some id) ↔
      ∃ place c, Prevails (captures.map (clamp text.utf8ByteSize)) byte place c ∧
        c.category = some id) ∧
    ((paint text.utf8ByteSize captures)[byte]? = some none ↔ byte < text.utf8ByteSize ∧
      ∀ c ∈ captures.map (clamp text.utf8ByteSize), c.covers byte = true → c.category = none) ∧
    paint text.utf8ByteSize (captures.filter (·.category.isSome)) =
      paint text.utf8ByteSize captures :=
  ⟨fun _ => getElem?_paint_eq_category_iff, getElem?_paint_eq_bare_iff, paint_filter_category⟩

end Capture

end CodeTint
