import CodeTint.Proofs.Document.Cursor
import CodeTint.Proofs.Transaction.Built
import CodeTint.Proofs.Transaction.Commands

/-!
The command that inserts a code block. Main statement: it is taken just at the boundaries of a
document; then the new code block is there, with the cursor in its text, all code blocks of before
are where the mapping carries them, in the same order and with all that they hold, and the
decorations are computed anew because there is one code block more.
-/

set_option autoImplicit false
set_option relaxedAutoImplicit false

namespace CodeTint

/-- A region where a mapping carries it. -/
def CodeRegion.carried (m : Mapping) (r : CodeRegion) : CodeRegion :=
  { r with start := m.map r.start .after, stop := m.map r.stop .before }

namespace Document

private theorem exists_codeBlocks_fill (p : Place) : ∃ left right : List (Nat × Node),
    (∀ block ∈ left, block.1 < p.pos) ∧ (∀ block ∈ right, p.pos ≤ block.1) ∧
    ∀ ns version, codeBlocks ⟨p.fill ns, version⟩ =
      left ++ Node.searchAll Node.isCodeBlock ns p.pos ++
        right.map fun block => (block.1 + Node.sizes ns, block.2) := by
  let around := Node.outline (p.fill []) 0
  let pick (es : List Entry) := (es.filter fun e => e.own.isCodeBlock).map fun e => (e.pos, e.own)
  have pick_spread (es : List Entry) (gap : Nat) : pick (es.map (Entry.spread p.pos gap)) =
      (pick es).map fun block => (if p.pos ≤ block.1 then block.1 + gap else block.1, block.2) := by
    simp only [pick, List.filter_map, Function.comp_def, Entry.own_spread, Entry.pos_spread,
      List.map_map]
  have before : ∀ block ∈ pick (around.filter fun e => e.pos < p.pos), block.1 < p.pos := by
    simp only [pick, List.mem_map, List.mem_filter, decide_eq_true_eq]
    rintro _ ⟨e, ⟨⟨-, before⟩, -⟩, rfl⟩
    exact before
  have behind : ∀ block ∈ pick (around.filter fun e => p.pos ≤ e.pos), p.pos ≤ block.1 := by
    simp only [pick, List.mem_map, List.mem_filter, decide_eq_true_eq]
    rintro _ ⟨e, ⟨⟨-, behind⟩, -⟩, rfl⟩
    exact behind
  refine ⟨_, _, before, behind, fun ns version => ?_⟩
  calc codeBlocks ⟨p.fill ns, version⟩
      = pick (Node.outline (p.fill ns) 0) := Node.searchAll_eq_outline (p.fill ns) 0
    _ = pick ((around.filter fun e => e.pos < p.pos).map (Entry.spread p.pos (Node.sizes ns))) ++
          pick (Node.outline ns p.pos) ++
          pick ((around.filter fun e => p.pos ≤ e.pos).map
            (Entry.spread p.pos (Node.sizes ns))) := by
        rw [Node.outline_fill p ns (Nat.zero_add p.pos).symm]
        simp only [pick, List.filter_append, List.map_append]
        rfl
    _ = _ := by
        have left : (pick (around.filter fun e => e.pos < p.pos)).map (fun block =>
            (if p.pos ≤ block.1 then block.1 + Node.sizes ns else block.1, block.2)) =
            pick (around.filter fun e => e.pos < p.pos) := by
          rw [List.map_congr_left fun block member => ?_, List.map_id]
          rw [if_neg (Nat.not_le.mpr (before block member))]
          rfl
        have right : (pick (around.filter fun e => p.pos ≤ e.pos)).map (fun block =>
            (if p.pos ≤ block.1 then block.1 + Node.sizes ns else block.1, block.2)) =
            (pick (around.filter fun e => p.pos ≤ e.pos)).map fun block =>
              (block.1 + Node.sizes ns, block.2) :=
          List.map_congr_left fun block member => by rw [if_pos (behind block member)]
        rw [pick_spread, pick_spread, left, right, Node.searchAll_eq_outline]

private theorem exists_codeBlocks_inserted (p : Place) (version clock : Nat) (attrs : CodeAttrs)
    (text : String) : ∃ left right : List (Nat × Node),
      (∀ block ∈ left, block.1 + block.2.size ≤ p.pos) ∧ (∀ block ∈ right, p.pos ≤ block.1) ∧
      codeBlocks ⟨p.fill [], version⟩ = left ++ right ∧
      codeBlocks ⟨p.fill [.codeBlock attrs text], clock⟩ =
        left ++ (p.pos, .codeBlock attrs text) ::
          right.map fun block => (block.1 + (text.length + 2), block.2) := by
  obtain ⟨left, right, before, behind, blocks⟩ := exists_codeBlocks_fill p
  have old : codeBlocks ⟨p.fill [], version⟩ = left ++ right := by
    rw [blocks]
    simp [Node.searchAll, Node.sizes]
  refine ⟨left, right, fun block member => ?_, behind, old, ?_⟩
  · -- nothing can be put into a code block, so one that begins before the place ends before it
    have listed : block ∈ codeBlocks ⟨p.fill [], version⟩ := by
      rw [old]
      exact List.mem_append_left _ member
    have spliced := insertNode_spliced (insertNode_eq_ok_iff.mpr
      ⟨p, rfl, rfl, rfl⟩ : insertNode ⟨p.fill [], version⟩ p.pos (.codeBlock attrs text) = .ok _)
    have begins := before block member
    have apart := apart_of_inserted listed spliced
    omega
  · rw [blocks, List.append_assoc]
    rfl

private theorem exists_regions_inserted (p : Place) (version clock : Nat) (attrs : CodeAttrs)
    (text : String) : ∃ left right : List (Nat × Node),
      (∀ block ∈ left, block.1 + block.2.size ≤ p.pos) ∧
      (∀ block ∈ right, p.pos ≤ block.1 ∧ block.1 + block.2.size ≤ Node.sizes (p.fill [])) ∧
      regions ⟨p.fill [], version⟩ = left.mapIdx CodeRegion.ofBlock ++
        (right.mapIdx fun i block => CodeRegion.ofBlock (i + left.length) block) ∧
      regions ⟨p.fill [.codeBlock attrs text], clock⟩ = left.mapIdx CodeRegion.ofBlock ++
        CodeRegion.ofBlock left.length (p.pos, .codeBlock attrs text) ::
          right.mapIdx fun i block => CodeRegion.ofBlock (i + 1 + left.length)
            (block.1 + (text.length + 2), block.2) := by
  obtain ⟨left, right, before, behind, old, new⟩ :=
    exists_codeBlocks_inserted p version clock attrs text
  have regions (d : Document) : d.regions = d.codeBlocks.mapIdx CodeRegion.ofBlock := rfl
  refine ⟨left, right, before, fun block member => ⟨behind block member, ?_⟩, ?_, ?_⟩
  · refine stop_le_size (d := ⟨p.fill [], version⟩) ?_
    rw [old]
    exact List.mem_append_right _ member
  · rw [regions, old, List.mapIdx_append]
  · rw [regions, new, List.mapIdx_append, List.mapIdx_cons, Nat.zero_add]
    have shifted : (right.map fun block => (block.1 + (text.length + 2), block.2)).mapIdx
        (fun i => CodeRegion.ofBlock (i + 1 + left.length)) =
        right.mapIdx fun i block => CodeRegion.ofBlock (i + 1 + left.length)
          (block.1 + (text.length + 2), block.2) :=
      List.ext_getElem (by simp) fun i _ _ => by simp
    rw [shifted]

end Document

namespace CodeRegion

private theorem carried_ofBlock {m : Mapping} {block : Nat × Node} {target : Nat} (index : Nat)
    (carries : Carries m.place block.1 block.2.size target) :
    (ofBlock index block).carried m = ofBlock index (target, block.2) := by
  have first : m.map block.1 .after = target := congrArg Placement.pos carries.first
  have last : m.map (block.1 + block.2.size) .before = target + block.2.size :=
    congrArg Placement.pos carries.last
  simp only [carried, ofBlock, first, last]

section Inserted

variable {at_ gap : Nat} (bound : at_ + gap ≤ Position.shiftLimit)
include bound

private theorem map_carried_before {left : List (Nat × Node)}
    (before : ∀ block ∈ left, block.1 + block.2.size ≤ at_) :
    (left.mapIdx ofBlock).map (carried ⟨[.single at_ 0 gap]⟩) = left.mapIdx ofBlock := by
  refine List.ext_getElem (by simp) fun i inside _ => ?_
  have member : i < left.length := by simpa using inside
  have carries := PositionMap.carries_before (show at_ + 0 ≤ _ by omega) bound
    (before _ (List.getElem_mem member)) left[i].2.size_pos
  simp only [List.getElem_map, List.getElem_mapIdx]
  exact carried_ofBlock i ⟨carries.inner, carries.first, carries.last⟩

private theorem map_carried_behind {right : List (Nat × Node)} (count : Nat)
    (behind : ∀ block ∈ right, at_ ≤ block.1 ∧ block.1 + block.2.size ≤ Position.shiftLimit) :
    ((right.mapIdx fun i block => ofBlock (i + count) block).map fun r =>
        { r.carried ⟨[.single at_ 0 gap]⟩ with index := r.index + 1 }) =
      right.mapIdx fun i block => ofBlock (i + 1 + count) (block.1 + gap, block.2) := by
  refine List.ext_getElem (by simp) fun i inside _ => ?_
  have member : i < right.length := by simpa using inside
  obtain ⟨later, fits⟩ := behind _ (List.getElem_mem member)
  have carries := PositionMap.carries_behind (show at_ + 0 ≤ _ by omega) bound later
    right[i].2.size_pos fits
  have shifts := carried_ofBlock (i + count)
    (⟨carries.inner, carries.first, carries.last⟩ :
      Carries (Mapping.place ⟨[.single at_ 0 gap]⟩) right[i].1 right[i].2.size (right[i].1 + gap))
  rw [List.getElem_map, List.getElem_mapIdx, List.getElem_mapIdx, shifts, Nat.add_right_comm]
  rfl

end Inserted

end CodeRegion

namespace Transaction

variable {d : Document} {selection : Selection} {clock pos : Nat} {language : Option String}
  {text : String} {t : Transaction}

/-- The transaction that the command makes of what the document becomes. -/
def ofInserted (d : Document) (selection : Selection) (clock pos : Nat) (node : Node)
    (content : List Node) : Transaction :=
  { before := d
    after := ⟨content, clock⟩
    steps := [.insertNode pos node]
    mapping := ⟨[.single pos 0 node.size]⟩
    selectionBefore := selection
    selectionAfter := .cursor (pos + 1) }

private theorem insertCodeBlock_eq (d : Document) (selection : Selection) (clock pos : Nat)
    (language : Option String) (text : String) :
    insertCodeBlock d selection clock pos language text =
      (d.insertNode pos (.codeBlock { language := attrValue language } text)).map
        (ofInserted d selection clock pos
          (.codeBlock { language := attrValue language } text)) := by
  let node : Node := .codeBlock { language := attrValue language } text
  show ((TransactionBuilder.start d selection).step clock (.insertNode pos node)).map _ =
    (d.insertNode pos node).map _
  rw [TransactionBuilder.step, Step.apply]
  show (((d.insertNode pos node).map _).map _).map _ = _
  cases d.insertNode pos node <;> rfl

/-- What a transaction does that inserts a code block at a position and puts the cursor into it. -/
structure InsertsCode (d : Document) (pos : Nat) (language : Option String) (text : String)
    (t : Transaction) : Prop where
  before : t.before = d
  node : t.after.nodeAt pos = some (.codeBlock { language } text)
  selection : t.selectionAfter = .cursor (pos + 1)
  cursor : ∃ r ∈ t.after.regions, r.start = pos ∧ r.containsCursor (pos + 1) = true ∧
    t.after.regionAt (pos + 1) = some r.index
  regions : t.after.Fits → ∃ left right : List CodeRegion, d.regions = left ++ right ∧
    t.after.regions = left.map (CodeRegion.carried t.mapping) ++
      ⟨left.length, pos, pos + text.length + 2, language, none, text⟩ ::
        right.map fun r => { r.carried t.mapping with index := r.index + 1 }
  count : t.after.regionCount = d.regionCount + 1
  decision : t.classify = .recompute .structureChanged

private theorem insertsCode_of_place (p : Place) (version : Nat) (selection : Selection)
    (clock : Nat)
    (language : Option String) (text : String) :
    InsertsCode ⟨p.fill [], version⟩ p.pos language text
      (ofInserted ⟨p.fill [], version⟩ selection clock p.pos (.codeBlock { language } text)
        (p.fill [.codeBlock { language } text])) := by
  let node : Node := .codeBlock { language } text
  let old : Document := ⟨p.fill [], version⟩
  let new : Document := ⟨p.fill [node], clock⟩
  obtain ⟨left, right, before, behind, oldRegions, newRegions⟩ :=
    Document.exists_regions_inserted p version clock { language } text
  let region : CodeRegion := CodeRegion.ofBlock left.length (p.pos, node)
  have member : region ∈ new.regions := by
    rw [newRegions]
    exact List.mem_append_right _ List.mem_cons_self
  have held : region.containsCursor (p.pos + 1) = true := by
    rw [Document.containsCursor_ofBlock node.size_pos]
    simp [Node.holds, node, Node.size]
  have count : new.regionCount = old.regionCount + 1 := by
    have counted (d : Document) : d.regionCount = d.regions.length := List.length_mapIdx.symm
    rw [counted, counted, newRegions, oldRegions]
    simp only [List.length_append, List.length_cons, List.length_mapIdx]
    omega
  refine ⟨rfl, ?_, rfl, ⟨region, member, rfl, held, Document.regionAt_eq_some_iff.mpr
    ⟨region, member, rfl, held⟩⟩, fun fits => ?_, count, ?_⟩
  · exact Document.nodeAt_eq_some_iff.mpr (Document.mem_nodes_iff.mpr ⟨p, rfl, rfl⟩)
  · have size : new.size ≤ Position.shiftLimit := fits
    have longer : new.size = old.size + (text.length + 2) := p.sizes_fill [node]
    have inside : p.pos ≤ old.size := p.stop_le_sizes []
    have bound : p.pos + (text.length + 2) ≤ Position.shiftLimit := by omega
    have stay := CodeRegion.map_carried_before bound before
    have shift := CodeRegion.map_carried_behind bound left.length fun block member =>
      ⟨(behind block member).1, by
        have ends : block.1 + block.2.size ≤ old.size := (behind block member).2
        omega⟩
    refine ⟨_, _, oldRegions, ?_⟩
    show new.regions = (left.mapIdx CodeRegion.ofBlock).map
        (CodeRegion.carried ⟨[.single p.pos 0 (text.length + 2)]⟩) ++
      CodeRegion.ofBlock (left.mapIdx CodeRegion.ofBlock).length (p.pos, node) :: _
    rw [stay, List.length_mapIdx]
    exact newRegions.trans (by rw [← shift]; rfl)
  · have differ : (old.regionCount != new.regionCount) = true := by
      rw [count]
      simp
    show (if (true && old.regionCount != new.regionCount) = true then _ else _) = _
    rw [differ]
    rfl

/-- A code block is inserted just at a boundary. It is then there with its language and its text and
with the cursor in it, one region more than before; all other regions are where the mapping carries
them, in their order, with what they held, and everything is to be computed anew. -/
theorem code_block_inserted (d : Document) (selection : Selection) (clock pos : Nat)
    (language : Option String) (text : String) :
    ((∃ t, insertCodeBlock d selection clock pos language text = .ok t) ↔ d.IsBoundary pos) ∧
      ∀ t, insertCodeBlock d selection clock pos language text = .ok t →
        ∃ stored, Becomes language stored ∧ InsertsCode d pos stored text t := by
  rw [insertCodeBlock_eq, Document.isBoundary_iff]
  constructor
  · constructor
    · rintro ⟨t, taken⟩
      obtain ⟨content, done, -⟩ := map_eq_ok_iff.mp taken
      obtain ⟨p, place, before, -⟩ := Document.insertNode_eq_ok_iff.mp done
      exact ⟨p, place, before⟩
    · rintro ⟨p, place, before⟩
      have done : d.insertNode pos (.codeBlock { language := attrValue language } text) = .ok _ :=
        Document.insertNode_eq_ok_iff.mpr ⟨p, place, before, rfl⟩
      exact ⟨_, map_eq_ok_iff.mpr ⟨_, done, rfl⟩⟩
  · intro t taken
    refine ⟨_, becomes_attrValue language, ?_⟩
    obtain ⟨content, done, rfl⟩ := map_eq_ok_iff.mp taken
    obtain ⟨_, version⟩ := d
    obtain ⟨p, rfl, rfl, rfl⟩ := Document.insertNode_eq_ok_iff.mp done
    exact insertsCode_of_place p version selection clock (attrValue language) text

/-! An empty code block is put into an empty block quote, with a code block behind it. -/

namespace Inserted

def document : Document := ⟨[.blockquote [], .codeBlock { theme := some "midnight" } "x"], 1⟩

theorem code_block_inserted_quoted : ∃ t,
    insertCodeBlock document {} 2 1 (some " rust ") "" = .ok t ∧
    (∃ stored, Becomes (some " rust ") stored ∧ InsertsCode document 1 stored "" t) ∧
    t.after.Fits ∧
    t.after.regions = [⟨0, 1, 3, some "rust", none, ""⟩, ⟨1, 4, 7, none, some "midnight", "x"⟩] ∧
    t.after.regionAt 2 = some 0 := by
  have inserts := (code_block_inserted document {} 2 1 (some " rust ") "").2
  have done : insertCodeBlock document {} 2 1 (some " rust ") "" = .ok _ := rfl
  exact ⟨_, done, inserts _ done, by decide +kernel, rfl, rfl⟩

end Inserted

end Transaction

end CodeTint
