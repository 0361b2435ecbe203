import CodeTint.Proofs.Decoration.Computed
import CodeTint.Proofs.Transaction.Built

/-!
Code blocks without their attributes. Steps that meet no code block carry each of them along with
its text, whatever attributes are written meanwhile; so decorations that are carried along show each
in its new place as it was shown before. Attribute writes alone move nothing.
-/

set_option autoImplicit false
set_option relaxedAutoImplicit false

namespace CodeTint

/-- A token without the attributes of a code block. -/
def Token.bare : Token → Token
  | .opening (.codeBlock _) => .opening (.codeBlock {})
  | token => token

private theorem Token.exists_attrs_of_bare {token : Token}
    (h : token.bare = .opening (.codeBlock {})) : ∃ attrs, token = .opening (.codeBlock attrs) := by
  cases token with
  | opening block =>
    cases block with
    | codeBlock attrs => exact ⟨attrs, rfl⟩
    | _ => simp [bare] at h
  | _ => simp [bare] at h

private theorem map_bare_textTokens (attrs : CodeAttrs) (text : String) :
    (textTokens (.codeBlock attrs) text).map Token.bare = textTokens (.codeBlock {}) text := by
  simp [textTokens, Token.bare, Function.comp_def]

private theorem Document.exists_codeBlock_of_bare {d : Document} {pos : Nat} {text : String}
    (stands : Stands pos (textTokens (.codeBlock {}) text) (d.tokens.map Token.bare)) :
    ∃ attrs, (pos, .codeBlock attrs text) ∈ d.codeBlocks := by
  have opening := stands.getElem?_start
  rw [List.getElem?_map, Option.map_eq_some_iff] at opening
  obtain ⟨token, found, bare⟩ := opening
  obtain ⟨attrs, rfl⟩ := Token.exists_attrs_of_bare bare
  obtain ⟨other, member⟩ := Node.searchAll_of_opening d.content 0 pos attrs found
  rw [Nat.zero_add] at member
  have whole := (mem_codeBlocks_iff.mp member).2.map Token.bare
  rw [Node.tokens, map_bare_textTokens] at whole
  obtain ⟨-, rfl⟩ := textTokens_inj stands whole
  exact ⟨attrs, member⟩

/-- What the code blocks of the first document are shown as, with the attributes that they have
there, where the mapping carries them. -/
def TransactionBuilder.moved (b : TransactionBuilder) (c : Cache) (config : Config) :
    DecorationSet :=
  ⟨b.current.version,
    (b.before.codeBlocks.map fun block => (b.mapping.map block.1 .after, block.2)).flatMap
      (blockDecorations c config)⟩

namespace TransactionBuilder.Made

variable {b : TransactionBuilder}

theorem exists_moved (made : b.Made) {block : Nat × Node} (member : block ∈ b.before.codeBlocks)
    (clear : ∀ r ∈ b.mapping.ranges, ¬r.Meets block) :
    ∃ target node, (target, node) ∈ b.current.codeBlocks ∧ node.text? = block.2.text? ∧
      node.size = block.2.size ∧ Carries b.mapping.place block.1 block.2.size target := by
  obtain ⟨attrs, text, shape, size, stands⟩ := Document.textTokens_of_mem_codeBlocks member
  have bare := stands.map Token.bare
  have length := length_textTokens (.codeBlock {}) text
  rw [map_bare_textTokens] at bare
  rw [← size] at length
  obtain ⟨target, stands', traces⟩ := made.keeps (fun _ _ _ _ _ => rfl)
    (by rw [length]; exact block.2.size_pos) bare (by rwa [length])
  obtain ⟨attrs', member'⟩ := Document.exists_codeBlock_of_bare stands'
  have there := traces.there
  rw [length] at there
  exact ⟨target, _, member', by rw [shape]; rfl, by rw [shape]; rfl, there⟩

theorem remap_decorate_eq_moved (made : b.Made)
    (clear : ∀ block ∈ b.before.codeBlocks, ∀ r ∈ b.mapping.ranges, ¬r.Meets block) (c : Cache)
    (config : Config) : (b.before.decorate c config).remap b.mapping b.current =
      .ok (b.moved c config) := by
  have images : ∀ block ∈ b.before.codeBlocks,
      b.mapping.map block.1 .after + block.2.size ≤ b.current.size ∧
        Carries b.mapping.place block.1 block.2.size (b.mapping.map block.1 .after) := by
    intro block member
    obtain ⟨target, node, member', -, size, carries⟩ :=
      made.exists_moved member (clear block member)
    have place : b.mapping.map block.1 .after = target := congrArg Placement.pos carries.first
    rw [place, ← size]
    exact ⟨Document.stop_le_size member', size ▸ carries⟩
  refine CodeTint.remap_decorate_moved (fun pos => b.mapping.map pos .after) c config ?_
    (fun block member => (images block member).1) fun block member => (images block member).2
  exact b.before.codeBlocks_apart.imp_of_mem fun member member' apart =>
    Mapping.apart_of_carries made.bounded (images _ member).2 (images _ member').2 apart

theorem still_of_attrWrites (made : b.Made) (writes : ∀ s ∈ b.steps, s.isAttrWrite = true) :
    b.mapping.ranges = [] ∧ ∀ pos side, pos ≤ Position.limit → b.mapping.map pos side = pos := by
  induction made with
  | start _ _ => exact ⟨rfl, fun _ _ _ => rfl⟩
  | select _ _ ih => exact ih writes
  | force _ ih => exact ih writes
  | @step b next clock s _ taken _ ih =>
    obtain ⟨content, map, applied, rfl⟩ := step_eq_ok_iff.mp taken
    obtain ⟨ranges, places⟩ := ih fun s member => writes s (List.mem_append_left _ member)
    have own := writes s (List.mem_append_right _ List.mem_cons_self)
    obtain rfl := (Step.rewrites_of_apply applied).map_eq_identity_iff.mpr (.inl own)
    refine ⟨?_, fun pos side le => ?_⟩
    · rw [Mapping.ranges_push, ranges]
      rfl
    · have there : (b.mapping.place pos side).pos = pos := places pos side le
      rw [Mapping.map, Mapping.place_push, there]
      exact Position.shift_zero le

theorem places_of_attrWrites (made : b.Made) (writes : ∀ s ∈ b.steps, s.isAttrWrite = true) :
    b.current.codeBlocks.map (fun block => (block.1, block.2.size)) =
      b.before.codeBlocks.map fun block => (block.1, block.2.size) := by
  obtain ⟨ranges, places⟩ := made.still_of_attrWrites writes
  have flat : ∀ s ∈ b.steps, s.isStructural = false := by
    intro s member
    have write := writes s member
    cases s with
    | setAttr pos attr value => rfl
    | _ => exact Bool.noConfusion write
  have moved := made.codeBlocks_map_eq Node.size (fun block member => by
    obtain ⟨target, node, member', -, size, carries⟩ :=
      made.exists_moved member (by simp [ranges])
    exact ⟨target, node, member', size, carries⟩) (made.regionCount_eq flat)
  rw [moved]
  refine List.map_congr_left fun block member => ?_
  have fits : b.before.size ≤ Position.shiftLimit := made.before_fits
  have inside := Document.stop_le_size member
  have limit := Position.limit_eq
  have shiftLimit := Position.shiftLimit_eq
  rw [places block.1 .after (by omega)]

theorem attrRanges_of_attrWrites (made : b.Made) (writes : ∀ s ∈ b.steps, s.isAttrWrite = true) :
    ∀ r ∈ Transaction.attrRanges b.steps,
      ∃ block ∈ b.before.codeBlocks, r = ⟨block.1, block.1⟩ := by
  induction made with
  | start _ _ => exact fun r member => absurd member List.not_mem_nil
  | select _ _ ih => exact ih writes
  | force _ ih => exact ih writes
  | @step b next clock s made taken _ ih =>
    obtain ⟨content, map, applied, rfl⟩ := step_eq_ok_iff.mp taken
    have earlier : ∀ s ∈ b.steps, s.isAttrWrite = true :=
      fun s member => writes s (List.mem_append_left _ member)
    intro r member
    rw [Transaction.attrRanges, List.filterMap_append] at member
    rcases List.mem_append.mp member with old | own
    · exact ih earlier r old
    · cases s with
      | setAttr pos attr value =>
        obtain rfl := List.mem_singleton.mp own
        obtain ⟨-, attrs, spliced⟩ := Step.rewrites_of_apply applied
        obtain ⟨text, found⟩ := Node.searchAll_of_opening b.current.content 0 pos attrs
          spliced.symm.stands_put.getElem?_start
        have place : (pos, text.length + 2) ∈
            b.current.codeBlocks.map fun block => (block.1, block.2.size) :=
          List.mem_map.mpr ⟨_, found, by simp [Node.size]⟩
        rw [made.places_of_attrWrites earlier] at place
        obtain ⟨block, member', same⟩ := List.mem_map.mp place
        exact ⟨block, member', by rw [(Prod.mk.inj same).1]⟩
      | _ => exact absurd own List.not_mem_nil

end TransactionBuilder.Made

end CodeTint
