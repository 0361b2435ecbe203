import CodeTint.Proofs.Document.Edit

/-!
The outline of a document: its nodes from left to right, each before the nodes in it, with their
places. An outline tells which document it is of. Main statement: every walk over a document sees
this one list, so what is found, deleted or written at a position is the node that is listed there,
and all other nodes stay what they are.
-/

set_option autoImplicit false
set_option relaxedAutoImplicit false

namespace CodeTint

/-- What an outline tells of a node: where it begins, how many positions it takes, and what it is
without the nodes in it. -/
structure Entry where
  pos : Nat
  size : Nat
  own : Node

namespace Entry

variable {at_ gap : Nat} {e : Entry}

/-- The entry after `gap` positions are put at `at_`: a node behind them shifts, and one around them
gets longer. -/
def spread (at_ gap : Nat) (e : Entry) : Entry :=
  if at_ ≤ e.pos then { e with pos := e.pos + gap }
  else if at_ < e.pos + e.size then { e with size := e.size + gap }
  else e

/-- The entry after `gap` positions from `at_` on are taken away. -/
def close (at_ gap : Nat) (e : Entry) : Entry :=
  if at_ ≤ e.pos then { e with pos := e.pos - gap }
  else if at_ < e.pos + e.size then { e with size := e.size - gap }
  else e

/-- The entry after an attribute of the code block at a position is written. -/
def write (pos : Nat) (attr : CodeAttr) (value : Option String) (e : Entry) : Entry :=
  if e.pos = pos then { e with own := (e.own.setAttr? attr value).getD e.own } else e

private theorem spread_behind (behind : at_ ≤ e.pos) :
    e.spread at_ gap = { e with pos := e.pos + gap } := if_pos behind

private theorem spread_before (before : e.pos < at_) (ends : e.pos + e.size ≤ at_) :
    e.spread at_ gap = e := by
  rw [spread, if_neg (Nat.not_le.mpr before), if_neg (Nat.not_lt.mpr ends)]

private theorem spread_around (before : e.pos < at_) (around : at_ < e.pos + e.size) :
    e.spread at_ gap = { e with size := e.size + gap } := by
  rw [spread, if_neg (Nat.not_le.mpr before), if_pos around]

private theorem spread_zero (at_ : Nat) (e : Entry) : e.spread at_ 0 = e := by
  simp only [spread, Nat.add_zero, ite_self]

theorem own_spread (at_ gap : Nat) (e : Entry) : (e.spread at_ gap).own = e.own := by
  simp only [spread]
  split
  · rfl
  · split <;> rfl

theorem pos_spread (at_ gap : Nat) (e : Entry) :
    (e.spread at_ gap).pos = if at_ ≤ e.pos then e.pos + gap else e.pos := by
  simp only [spread]
  split
  · rfl
  · split <;> rfl

private theorem close_spread (at_ gap : Nat) (e : Entry) :
    (e.spread at_ gap).close at_ gap = e := by
  by_cases behind : at_ ≤ e.pos
  · rw [spread_behind behind, close, if_pos (Nat.le_trans behind (Nat.le_add_right _ _))]
    simp only [Nat.add_sub_cancel]
  · by_cases around : at_ < e.pos + e.size
    · rw [spread_around (Nat.not_le.mp behind) around, close, if_neg behind,
        if_pos (by dsimp only; omega)]
      simp only [Nat.add_sub_cancel]
    · rw [spread_before (Nat.not_le.mp behind) (Nat.not_lt.mp around), close, if_neg behind,
        if_neg around]

private theorem outside_spread (at_ gap : Nat) (e : Entry) :
    (e.spread at_ gap).pos < at_ ∨ at_ + gap ≤ (e.spread at_ gap).pos := by
  rw [pos_spread]
  split <;> omega

end Entry

private theorem Node.sizes_append (ns ms : List Node) : sizes (ns ++ ms) = sizes ns + sizes ms := by
  induction ns with
  | nil => exact (Nat.zero_add _).symm
  | cons n rest ih => simp only [List.cons_append, sizes, ih, Nat.add_assoc]

namespace Place

theorem sizes_fill (p : Place) (ns : List Node) :
    Node.sizes (p.fill ns) = Node.sizes (p.fill []) + Node.sizes ns := by
  induction p with
  | here rest =>
    rw [fill, fill, Node.sizes_append, List.nil_append, Nat.add_comm]
  | behind first later ih => simp only [fill, Node.sizes, ih, Nat.add_assoc]
  | inside inner rest ih =>
    simp only [fill, Node.sizes, Node.size, ih]
    omega

end Place

namespace Node

def shell : Node → Node
  | blockquote _ => blockquote []
  | n => n

/-- What an outline tells of a node. -/
def entry (found : Nat × Node) : Entry := ⟨found.1, found.2.size, found.2.shell⟩

/-- The outline of a sequence of nodes that begins at a position. -/
def outline (ns : List Node) (pos : Nat) : List Entry :=
  (visitAll (fun _ _ => true) ns pos).map entry

section Visit

variable {into : Node → Nat → Bool}

private theorem visitAll_append (ns ms : List Node) (pos : Nat) :
    visitAll into (ns ++ ms) pos = visitAll into ns pos ++ visitAll into ms (pos + sizes ns) := by
  induction ns generalizing pos with
  | nil => rfl
  | cons n rest ih => simp only [List.cons_append, visitAll, sizes, ih, List.append_assoc,
      Nat.add_assoc]

end Visit

/-- A node listed before another one: it begins before, and either ends before the other begins or
has the other in it. -/
def Leads (a b : Nat × Node) : Prop :=
  a.1 < b.1 ∧ (a.1 + a.2.size ≤ b.1 ∨ b.1 + b.2.size ≤ a.1 + a.2.size)

private theorem mem_visitAll_bounds {ns : List Node} {pos : Nat} {found : Nat × Node}
    (member : found ∈ visitAll (fun _ _ => true) ns pos) :
    pos ≤ found.1 ∧ found.1 + found.2.size ≤ pos + sizes ns := by
  obtain ⟨p, place, rfl⟩ := exists_place_of_mem_visitAll ns pos found.2 member
  have inside := p.stop_le_sizes [found.2]
  simp only [sizes] at inside
  omega

mutual

private theorem visit_leads :
    ∀ (n : Node) (pos : Nat), (visit (fun _ _ => true) n pos).Pairwise Leads
  | paragraph _, pos | heading _ _, pos | codeBlock _ _, pos | horizontalRule, pos => by
      simp only [visit, List.pairwise_singleton]
  | blockquote content, pos => by
      simp only [visit, if_true, List.pairwise_cons]
      refine ⟨fun inner member => ?_, visitAll_leads content (pos + 1)⟩
      have bounds := mem_visitAll_bounds member
      simp only [Leads, size]
      omega

/-- The nodes are listed in the order in which they begin, and two of them are nested or have no
position in common. -/
theorem visitAll_leads : ∀ (ns : List Node) (pos : Nat),
    (visitAll (fun _ _ => true) ns pos).Pairwise Leads
  | [], pos => List.Pairwise.nil
  | n :: rest, pos => by
      rw [visitAll]
      refine List.pairwise_append.mpr ⟨visit_leads n pos, visitAll_leads rest _, ?_⟩
      intro a first b later
      have one : a ∈ visitAll (fun _ _ => true) [n] pos := by simpa [visitAll] using first
      have left := (mem_visitAll_bounds one).2
      have right := (mem_visitAll_bounds later).1
      have long := a.2.size_pos
      simp only [sizes] at left
      simp only [Leads]
      omega

end

private theorem outline_append (ns ms : List Node) (pos : Nat) :
    outline (ns ++ ms) pos = outline ns pos ++ outline ms (pos + sizes ns) := by
  rw [outline, visitAll_append, List.map_append]
  rfl

private theorem outline_cons (n : Node) (rest : List Node) (pos : Nat) :
    outline (n :: rest) pos = outline [n] pos ++ outline rest (pos + n.size) := by
  rw [← List.singleton_append, outline_append, sizes, sizes, Nat.add_zero]

private theorem outline_blockquote (content : List Node) (pos : Nat) :
    outline [blockquote content] pos =
      ⟨pos, sizes content + 2, blockquote []⟩ :: outline content (pos + 1) := by
  simp only [outline, visitAll, visit, if_true, List.append_nil, List.map_cons]
  rfl

private theorem head?_outline (n : Node) (rest : List Node) (pos : Nat) :
    (outline (n :: rest) pos).head? = some ⟨pos, n.size, n.shell⟩ := by
  cases n <;> rfl

private theorem head_of_outline {n m : Node} {rest others : List Node} {pos : Nat}
    (same : outline (n :: rest) pos = outline (m :: others) pos) :
    (⟨pos, n.size, n.shell⟩ : Entry) = ⟨pos, m.size, m.shell⟩ := by
  have heads := congrArg List.head? same
  rw [head?_outline, head?_outline] at heads
  exact Option.some.inj heads

private theorem mem_outline_bounds {ns : List Node} {pos : Nat} {e : Entry}
    (member : e ∈ outline ns pos) : pos ≤ e.pos ∧ 0 < e.size ∧ e.pos + e.size ≤ pos + sizes ns := by
  obtain ⟨found, visited, rfl⟩ := List.mem_map.mp member
  have bounds := mem_visitAll_bounds visited
  exact ⟨bounds.1, found.2.size_pos, bounds.2⟩

mutual

private theorem outline_shift_one : ∀ (n : Node) (pos gap : Nat), outline [n] (pos + gap) =
    (outline [n] pos).map fun e => { e with pos := e.pos + gap }
  | paragraph _, pos, gap | heading _ _, pos, gap | codeBlock _ _, pos, gap
  | horizontalRule, pos, gap => rfl
  | blockquote content, pos, gap => by
      have place : pos + gap + 1 = pos + 1 + gap := by omega
      rw [outline_blockquote, outline_blockquote, List.map_cons, place,
        outline_shift content (pos + 1) gap]

private theorem outline_shift : ∀ (ns : List Node) (pos gap : Nat), outline ns (pos + gap) =
    (outline ns pos).map fun e => { e with pos := e.pos + gap }
  | [], pos, gap => rfl
  | n :: rest, pos, gap => by
      have place : pos + gap + n.size = pos + n.size + gap := by omega
      rw [outline_cons, outline_cons n rest pos, List.map_append, place,
        outline_shift_one n pos gap, outline_shift rest (pos + n.size) gap]

end

section Around

variable {at_ gap pos : Nat} (ns : List Node)

private theorem map_spread_behind (behind : at_ ≤ pos) :
    (outline ns pos).map (Entry.spread at_ gap) = outline ns (pos + gap) := by
  rw [outline_shift]
  refine List.map_congr_left fun e member => ?_
  exact Entry.spread_behind (Nat.le_trans behind (mem_outline_bounds member).1)

private theorem map_spread_before (before : pos + sizes ns ≤ at_) :
    (outline ns pos).map (Entry.spread at_ gap) = outline ns pos := by
  rw [List.map_congr_left fun e member => ?_, List.map_id]
  have bounds := mem_outline_bounds member
  exact Entry.spread_before (by omega) (by omega)

private theorem filter_lt_before (before : pos + sizes ns ≤ at_) :
    (outline ns pos).filter (fun e => e.pos < at_) = outline ns pos ∧
      (outline ns pos).filter (fun e => at_ ≤ e.pos) = [] := by
  rw [List.filter_eq_self, List.filter_eq_nil_iff]
  simp only [decide_eq_true_eq]
  constructor <;> intro e member <;> have bounds := mem_outline_bounds member <;> omega

private theorem filter_lt_behind (behind : at_ ≤ pos) :
    (outline ns pos).filter (fun e => e.pos < at_) = [] ∧
      (outline ns pos).filter (fun e => at_ ≤ e.pos) = outline ns pos := by
  rw [List.filter_eq_self, List.filter_eq_nil_iff]
  simp only [decide_eq_true_eq]
  constructor <;> intro e member <;> have bounds := mem_outline_bounds member <;> omega

end Around

/-- What fills a place is listed in one run. The nodes before the place are listed before it, those
behind it after it, and the block quotes around the place get longer. -/
theorem outline_fill (p : Place) (ns : List Node) {at_ pos : Nat} (place : at_ = pos + p.pos) :
    outline (p.fill ns) pos =
      ((outline (p.fill []) pos).filter (fun e => e.pos < at_)).map
          (Entry.spread at_ (sizes ns)) ++
        outline ns at_ ++
        ((outline (p.fill []) pos).filter (fun e => at_ ≤ e.pos)).map
          (Entry.spread at_ (sizes ns)) := by
  induction p generalizing pos with
  | here rest =>
    obtain rfl : at_ = pos := place
    obtain ⟨left, right⟩ := filter_lt_behind rest (Nat.le_refl at_)
    rw [Place.fill, Place.fill, List.nil_append, left, right, outline_append,
      map_spread_behind rest (Nat.le_refl at_)]
    rfl
  | behind first later ih =>
    rw [Place.pos] at place
    have before : pos + sizes [first] ≤ at_ := by
      simp only [sizes]
      omega
    obtain ⟨left, right⟩ := filter_lt_before [first] before
    rw [Place.fill, Place.fill, outline_cons, outline_cons first (later.fill []),
      List.filter_append, List.filter_append, left, right, List.map_append,
      map_spread_before [first] before, List.nil_append, ih (by omega)]
    simp only [List.append_assoc]
  | inside inner rest ih =>
    rw [Place.pos] at place
    have inside : inner.pos ≤ sizes (inner.fill []) := inner.stop_le_sizes []
    let quote : Entry := ⟨pos, sizes (inner.fill []) + 2, blockquote []⟩
    have longer : quote.spread at_ (sizes ns) =
        ⟨pos, sizes (inner.fill ns) + 2, blockquote []⟩ := by
      rw [Entry.spread_around (show pos < at_ by omega)
        (show at_ < pos + (sizes (inner.fill []) + 2) by omega), inner.sizes_fill ns]
      simp only [quote, Entry.mk.injEq, true_and, and_true]
      omega
    have behind : at_ ≤ pos + (blockquote (inner.fill [])).size := by
      rw [size]
      omega
    have first : quote.pos < at_ := show pos < at_ by omega
    obtain ⟨left, right⟩ := filter_lt_behind rest behind
    have shifted : pos + (blockquote (inner.fill ns)).size =
        pos + (blockquote (inner.fill [])).size + sizes ns := by
      rw [size, size, inner.sizes_fill ns]
      omega
    calc outline (blockquote (inner.fill ns) :: rest) pos
        = quote.spread at_ (sizes ns) :: outline (inner.fill ns) (pos + 1) ++
            (outline rest (pos + (blockquote (inner.fill [])).size)).map
              (Entry.spread at_ (sizes ns)) := by
          rw [outline_cons, outline_blockquote, longer, map_spread_behind rest behind, shifted]
      _ = _ := by
          rw [ih (by omega), Place.fill, outline_cons, outline_blockquote, List.filter_append,
            List.filter_append, left, right, List.append_nil, List.map_append]
          simp only [List.filter_cons, quote, first, Nat.not_le.mpr first, decide_true,
            decide_false, if_true, Bool.false_eq_true, if_false, List.map_cons, List.cons_append,
            List.append_assoc]

private theorem filter_append_filter (p : Place) {at_ pos : Nat} (place : at_ = pos + p.pos) :
    (outline (p.fill []) pos).filter (fun e => e.pos < at_) ++
      (outline (p.fill []) pos).filter (fun e => at_ ≤ e.pos) = outline (p.fill []) pos := by
  have whole := outline_fill p [] place
  have still : Entry.spread at_ (sizes []) = id := funext fun e => e.spread_zero at_
  rw [still, List.map_id, List.map_id] at whole
  exact (whole.trans (congrArg (· ++ _) (List.append_nil _))).symm

private theorem outline_emptied (p : Place) (gone : Node) {at_ pos : Nat}
    (place : at_ = pos + p.pos) : outline (p.fill []) pos =
      ((outline (p.fill [gone]) pos).filter fun e => e.pos < at_ || at_ + gone.size ≤ e.pos).map
        (Entry.close at_ gone.size) := by
  have size : sizes [gone] = gone.size := Nat.add_zero _
  have kept (es : List Entry) : (((es.map (Entry.spread at_ gone.size)).filter fun e =>
      e.pos < at_ || at_ + gone.size ≤ e.pos).map (Entry.close at_ gone.size)) = es := by
    rw [List.filter_eq_self.mpr, List.map_map]
    · exact (List.map_congr_left fun e _ => e.close_spread at_ gone.size).trans (List.map_id es)
    · intro e member
      obtain ⟨old, -, rfl⟩ := List.mem_map.mp member
      simpa using old.outside_spread at_ gone.size
  have dropped : ((outline [gone] at_).filter fun e =>
      e.pos < at_ || at_ + gone.size ≤ e.pos) = [] := by
    refine List.filter_eq_nil_iff.mpr fun e member => ?_
    have bounds := mem_outline_bounds member
    simp only [Bool.or_eq_true, decide_eq_true_eq]
    omega
  rw [outline_fill p [gone] place, size, List.filter_append, List.filter_append, dropped,
    List.append_nil, List.map_append, kept, kept, filter_append_filter p place]

private theorem outline_written (p : Place) (attr : CodeAttr) (value : Option String)
    (attrs : CodeAttrs)
    (text : String) {at_ pos : Nat} (place : at_ = pos + p.pos) :
    outline (p.fill [codeBlock (attrs.set attr value) text]) pos =
      (outline (p.fill [codeBlock attrs text]) pos).map (Entry.write at_ attr value) := by
  have kept (es : List Entry) : (es.map (Entry.spread at_ (text.length + 2))).map
      (Entry.write at_ attr value) = es.map (Entry.spread at_ (text.length + 2)) := by
    refine (List.map_congr_left fun e member => ?_).trans (List.map_id _)
    obtain ⟨before, -, rfl⟩ := List.mem_map.mp member
    have outside := before.outside_spread at_ (text.length + 2)
    exact if_neg (by omega)
  have own : Entry.write at_ attr value ⟨at_, text.length + 2, codeBlock attrs text⟩ =
      ⟨at_, text.length + 2, codeBlock (attrs.set attr value) text⟩ := if_pos rfl
  have listed (attrs : CodeAttrs) : outline [codeBlock attrs text] at_ =
      [⟨at_, text.length + 2, codeBlock attrs text⟩] := rfl
  have size (attrs : CodeAttrs) : sizes [codeBlock attrs text] = text.length + 2 := rfl
  rw [outline_fill p [codeBlock (attrs.set attr value) text] place,
    outline_fill p [codeBlock attrs text] place, size, size, List.map_append, List.map_append,
    kept, kept, listed, listed, List.map_singleton, own]

mutual

private theorem eq_of_outline_singleton : ∀ (n m : Node) (pos : Nat),
    outline [n] pos = outline [m] pos → n = m
  | paragraph _, m, pos, same | heading _ _, m, pos, same | codeBlock _ _, m, pos, same
  | horizontalRule, m, pos, same => by
      have own := (Entry.mk.inj (head_of_outline same)).2.2
      cases m with
      | blockquote _ => cases own
      | _ => exact own
  | blockquote content, m, pos, same => by
      have own := (Entry.mk.inj (head_of_outline same)).2.2
      cases m with
      | blockquote other =>
        rw [outline_blockquote, outline_blockquote] at same
        rw [eq_of_outline content other (pos + 1) (List.cons.inj same).2]
      | _ => cases own

theorem eq_of_outline : ∀ (ns ms : List Node) (pos : Nat), outline ns pos = outline ms pos → ns = ms
  | [], [], pos, same => rfl
  | [], m :: others, pos, same => by
      have none := (congrArg List.head? same).trans (head?_outline m others pos)
      cases none
  | n :: rest, [], pos, same => by
      have none := (congrArg List.head? same).symm.trans (head?_outline n rest pos)
      cases none
  | n :: rest, m :: others, pos, same => by
      have size : n.size = m.size := (Entry.mk.inj (head_of_outline same)).2.1
      -- the entries of the first node are those that begin before the second one does
      have cut (k : Node) (later : List Node) :
          (outline (k :: later) pos).filter (fun e => e.pos < pos + k.size) = outline [k] pos ∧
            (outline (k :: later) pos).filter (fun e => pos + k.size ≤ e.pos) =
              outline later (pos + k.size) := by
        obtain ⟨own, beyond⟩ := filter_lt_before [k] (Nat.le_refl (pos + sizes [k]))
        obtain ⟨short, rest⟩ := filter_lt_behind later (Nat.le_refl (pos + k.size))
        rw [show pos + sizes [k] = pos + k.size from rfl] at own beyond
        rw [outline_cons, List.filter_append, List.filter_append, own, beyond, short, rest,
          List.append_nil, List.nil_append]
        exact ⟨rfl, rfl⟩
      obtain ⟨first, later⟩ := cut n rest
      obtain ⟨first', later'⟩ := cut m others
      rw [same, size] at first later
      rw [eq_of_outline_singleton n m pos (first.symm.trans first'),
        eq_of_outline rest others (pos + m.size) (later.symm.trans later')]

end

theorem searchAll_eq_outline (ns : List Node) (pos : Nat) : searchAll isCodeBlock ns pos =
    ((outline ns pos).filter fun e => e.own.isCodeBlock).map fun e => (e.pos, e.own) := by
  have kind (n : Node) : n.shell.isCodeBlock = n.isCodeBlock := by cases n <;> rfl
  rw [searchAll_eq_filter, outline, List.filter_map, List.map_map]
  simp only [Function.comp_def, entry, kind]
  refine (List.map_id _).symm.trans (List.map_congr_left fun found member => ?_)
  obtain ⟨at_, n⟩ := found
  have code := (List.mem_filter.mp member).2
  cases n with
  | codeBlock attrs text => rfl
  | _ => cases code

end Node

namespace Document

/-- The outline of a document. -/
def outline (d : Document) : List Entry := Node.outline d.content 0

variable {d : Document} {content : List Node} {pos : Nat} {n : Node}

private theorem nodes_leads (d : Document) :
    d.nodes.Pairwise Node.Leads := Node.visitAll_leads d.content 0

private theorem nodesWhere_true (d : Document) : (d.nodesWhere fun _ => true) = d.nodes := by
  rw [nodesWhere, Node.searchAll_eq_filter]
  exact List.filter_eq_self.mpr fun _ _ => rfl

private theorem nodeAt_eq_lookup (d : Document) (pos : Nat) :
    d.nodeAt pos = d.nodes.lookup pos := by
  refine Option.ext fun n => ?_
  rw [nodeAt_eq_some_iff, List.lookup_eq_some_iff]
  constructor
  · intro member
    obtain ⟨left, right, whole⟩ := List.append_of_mem member
    refine ⟨left, right, whole, fun other before => ?_⟩
    -- what is listed before begins before, so a lookup does not stop there
    have ordered := d.nodes_leads
    rw [whole, List.pairwise_append] at ordered
    have less := (ordered.2.2 other before (pos, n) List.mem_cons_self).1
    exact bne_iff_ne.mpr (Nat.ne_of_gt less)
  · rintro ⟨left, right, whole, -⟩
    rw [whole]
    exact List.mem_append_right left List.mem_cons_self

theorem deleteNode_eq_ok_iff_outline : d.deleteNode pos = .ok (content, n) ↔
    d.nodeAt pos = some n ∧ Node.outline content 0 =
      (d.outline.filter fun e => e.pos < pos || pos + n.size ≤ e.pos).map
        (Entry.close pos n.size) := by
  rw [deleteNode_eq_ok_iff, nodeAt_eq_some_iff, mem_nodes_iff]
  constructor
  · rintro ⟨p, rfl, before, rfl⟩
    refine ⟨⟨p, rfl, before⟩, ?_⟩
    rw [outline, before]
    exact Node.outline_emptied p n (Nat.zero_add _).symm
  · rintro ⟨⟨p, rfl, before⟩, listed⟩
    refine ⟨p, rfl, before, Node.eq_of_outline content (p.fill []) 0 ?_⟩
    rw [listed, outline, before]
    exact (Node.outline_emptied p n (Nat.zero_add _).symm).symm

theorem setAttr_eq_ok_iff_outline {attr : CodeAttr} {value : Option String} :
    d.setAttr pos attr value = .ok content ↔ ∃ attrs text,
      d.nodeAt pos = some (.codeBlock attrs text) ∧
        Node.outline content 0 = d.outline.map (Entry.write pos attr value) := by
  simp only [setAttr_eq_ok_iff, nodeAt_eq_some_iff, mem_nodes_iff]
  constructor
  · rintro ⟨p, attrs, text, rfl, before, rfl⟩
    refine ⟨attrs, text, ⟨p, rfl, before⟩, ?_⟩
    rw [outline, before]
    exact Node.outline_written p attr value attrs text (Nat.zero_add _).symm
  · rintro ⟨attrs, text, ⟨p, rfl, before⟩, listed⟩
    refine ⟨p, attrs, text, rfl, before, Node.eq_of_outline content _ 0 ?_⟩
    rw [listed, outline, before]
    exact (Node.outline_written p attr value attrs text (Nat.zero_add _).symm).symm

/-- All walks over a document see the same nodes at the same positions. They are listed in the order
in which they begin, nested or apart, inside the document. At each position, what is found is what
is listed there; a deletion removes just that node with the nodes in it, and an attribute is written
just in that node. -/
theorem walks_agree (d : Document) :
    (d.nodesWhere fun _ => true) = d.visit (fun _ _ => true) ∧
    (d.nodes.Pairwise fun a b => a.1 < b.1) ∧
    (d.nodes.Pairwise fun a b =>
      a.1 + a.2.size ≤ b.1 ∨ a.1 ≤ b.1 ∧ b.1 + b.2.size ≤ a.1 + a.2.size) ∧
    (∀ a ∈ d.nodes, a.1 < a.1 + a.2.size ∧ a.1 + a.2.size ≤ d.size) ∧
    ∀ pos, d.nodeAt pos = d.nodes.lookup pos ∧
      ((∃ result, d.deleteNode pos = .ok result) ↔ ∃ n, d.nodeAt pos = some n) ∧
      (∀ content n, d.deleteNode pos = .ok (content, n) ↔
        d.nodeAt pos = some n ∧ Node.outline content 0 =
          (d.outline.filter fun e => e.pos < pos || pos + n.size ≤ e.pos).map
            (Entry.close pos n.size)) ∧
      ∀ attr value content, d.setAttr pos attr value = .ok content ↔ ∃ attrs text,
        d.nodeAt pos = some (.codeBlock attrs text) ∧
          Node.outline content 0 = d.outline.map (Entry.write pos attr value) := by
  refine ⟨d.nodesWhere_true, d.nodes_leads.imp fun leads => leads.1, ?_, ?_, fun pos =>
    ⟨d.nodeAt_eq_lookup pos, ?_, fun content n => deleteNode_eq_ok_iff_outline,
      fun attr value content => setAttr_eq_ok_iff_outline⟩⟩
  · refine d.nodes_leads.imp fun leads => ?_
    exact leads.2.imp_right fun nested => ⟨Nat.le_of_lt leads.1, nested⟩
  · intro a member
    have bounds := Node.mem_visitAll_bounds member
    rw [Nat.zero_add] at bounds
    exact ⟨Nat.lt_add_of_pos_right a.2.size_pos, bounds.2⟩
  · simp only [Prod.exists, deleteNode_eq_ok_iff, nodeAt_eq_some_iff, mem_nodes_iff]
    constructor
    · rintro ⟨content, n, p, place, before, -⟩
      exact ⟨n, p, place, before⟩
    · rintro ⟨n, p, place, before⟩
      exact ⟨_, n, p, place, before, rfl⟩

/-! The inner one of two block quotes is deleted, with the code block in it; then an attribute of
that code block is written instead. -/

namespace Listed

def document : Document :=
  ⟨[.blockquote [.paragraph "a", .blockquote [.codeBlock {} "x"]], .horizontalRule], 1⟩

def inner : Node := .blockquote [.codeBlock {} "x"]

def emptied : List Node := [.blockquote [.paragraph "a"], .horizontalRule]

def written : List Node :=
  [.blockquote [.paragraph "a", .blockquote [.codeBlock { language := some "json" } "x"]],
    .horizontalRule]

theorem walks_agree_listed :
    (document.nodesWhere fun _ => true) = document.visit (fun _ _ => true) ∧
    (document.nodes.Pairwise fun a b => a.1 < b.1) ∧
    (document.nodes.Pairwise fun a b =>
      a.1 + a.2.size ≤ b.1 ∨ a.1 ≤ b.1 ∧ b.1 + b.2.size ≤ a.1 + a.2.size) ∧
    (4, inner) ∈ document.nodes ∧ 4 < 4 + inner.size ∧ 4 + inner.size ≤ document.size ∧
    document.nodeAt 4 = document.nodes.lookup 4 ∧
    document.deleteNode 4 = .ok (emptied, inner) ∧
      Node.outline emptied 0 =
        (document.outline.filter fun e => e.pos < 4 || 4 + inner.size ≤ e.pos).map
          (Entry.close 4 inner.size) ∧
    document.setAttr 5 .language (some "json") = .ok written ∧ ∃ attrs text,
      document.nodeAt 5 = some (.codeBlock attrs text) ∧
        Node.outline written 0 =
          document.outline.map (Entry.write 5 .language (some "json")) := by
  obtain ⟨same, ordered, nested, inside, at_⟩ := walks_agree document
  have member : (4, inner) ∈ document.nodes :=
    List.mem_cons_of_mem _ (List.mem_cons_of_mem _ List.mem_cons_self)
  have deleted : document.deleteNode 4 = .ok (emptied, inner) := rfl
  have wrote : document.setAttr 5 .language (some "json") = .ok written := rfl
  obtain ⟨found, -, removed, -⟩ := at_ 4
  obtain ⟨-, -, -, changed⟩ := at_ 5
  exact ⟨same, ordered, nested, member, (inside _ member).1, (inside _ member).2, found, deleted,
    ((removed emptied inner).mp deleted).2, wrote,
    (changed .language (some "json") written).mp wrote⟩

end Listed

end Document

end CodeTint
