import CodeTint.Proofs.Document.Outline
import CodeTint.Proofs.Transaction.Attributes
import CodeTint.Proofs.Transaction.Changed

/-!
Where a transaction reports its attribute writes. A node that no step takes away can be followed
through the steps, and the way back through their maps ends where it began. Main statement: a write
is reported at its place in the document that the step was given. Carried back, that place is one of
the first document, and the start of the code block if it was there; the two are the same where
nothing before the code block was replaced.
-/

set_option autoImplicit false
set_option relaxedAutoImplicit false

namespace CodeTint

/-- Where the node that begins at a position begins after a step, unless the step takes it away. -/
def Step.follow (d : Document) (pos : Nat) : Step → Option Nat
  | replace start stop text =>
    some (if pos < start then pos else pos - (stop - start) + text.length)
  | insertNode at_ node => some (if pos < at_ then pos else pos + node.size)
  | deleteNode at_ =>
    (d.nodeAt at_).bind fun gone =>
      if pos < at_ then some pos
      else if at_ + gone.size ≤ pos then some (pos - gone.size)
      else none
  | setAttr _ _ _ => some pos

/-- Where the node that begins at a position begins after steps, unless one of them takes it away or
is refused. -/
def Document.follow (d : Document) (pos : Nat) : List Step → Option Nat
  | [] => some pos
  | s :: rest =>
    match s.apply d with
    | .ok (content, _) =>
      (s.follow d pos).bind fun next => Document.follow ⟨content, d.version⟩ next rest
    | .error _ => none

namespace Transaction

/-- The range that is reported for the attribute write with an index among the steps: those of the
writes come behind those of the maps. -/
def reportedWrite? (t : Transaction) (i : Nat) : Option Range :=
  t.changedRanges[t.mapping.ranges.length + (t.steps.take i).countP (·.isAttrWrite)]?

/-- The chain of the maps of the steps before an index. -/
def mappingBefore (t : Transaction) (i : Nat) : Mapping := ⟨t.mapping.maps.take i⟩

/-- A place in the document that the step with an index was given, carried back to the first
document. -/
def origin (t : Transaction) (i pos : Nat) : Nat :=
  Mapping.carryBack (t.mappingBefore i).maps pos .after

private theorem length_attrRanges (steps : List Step) :
    (attrRanges steps).length = steps.countP (·.isAttrWrite) := by
  induction steps with
  | nil => rfl
  | cons s rest ih =>
    rw [List.countP_cons, ← ih]
    cases s <;> rfl

private theorem reportedWrite?_of_getElem? {t : Transaction} {i pos : Nat} {attr : CodeAttr}
    {value : Option String} (write : t.steps[i]? = some (.setAttr pos attr value)) :
    t.reportedWrite? i = some ⟨pos, pos⟩ := by
  obtain ⟨inside, own⟩ := List.getElem?_eq_some_iff.mp write
  have parts : t.steps = t.steps.take i ++ .setAttr pos attr value :: t.steps.drop (i + 1) := by
    rw [← own, ← List.drop_eq_getElem_cons inside, List.take_append_drop]
  have ranges : attrRanges t.steps =
      attrRanges (t.steps.take i) ++ ⟨pos, pos⟩ :: attrRanges (t.steps.drop (i + 1)) := by
    conv_lhs => rw [parts, attrRanges, List.filterMap_append]
    rfl
  rw [reportedWrite?, changedRanges, List.getElem?_append_right (Nat.le_add_right _ _),
    Nat.add_sub_cancel_left, ← length_attrRanges, ranges,
    List.getElem?_append_right (Nat.le_refl _), Nat.sub_self]
  rfl

end Transaction

namespace Step

/-- A code block that is followed through a step begins before the run of tokens that the step
replaces, or behind it. -/
theorem splice_of_follow {d : Document} {s : Step} {content : List Node} {map : PositionMap}
    {pos target : Nat} (applied : s.apply d = .ok (content, map))
    (opens : (d.tokens.map Token.bare)[pos]? = some (.opening (.codeBlock {})))
    (followed : s.follow d pos = some target) : ∃ at_ gone put,
      Spliced at_ gone put (d.tokens.map Token.bare) ((Node.tokensAll content).map Token.bare) ∧
      map = .single at_ gone.length put.length ∧
      (pos < at_ ∧ target = pos ∨
        at_ + gone.length ≤ pos ∧ target = pos - gone.length + put.length) := by
  have rewrites := rewrites_of_apply applied
  cases s with
  | replace start stop text =>
    obtain ⟨ordered, rfl, gone, length, spliced⟩ := rewrites
    obtain rfl := Option.some.inj followed
    refine ⟨start, _, _, spliced.map Token.bare, by simp [length, String.length], ?_⟩
    simp only [List.length_map, length, String.length_toList]
    by_cases before : pos < start
    · rw [if_pos before]
      exact .inl ⟨before, rfl⟩
    · rw [if_neg before]
      refine .inr ⟨Nat.le_of_not_lt fun inside => ?_, rfl⟩
      -- no code block begins in the text of a block
      obtain ⟨i, rfl⟩ := Nat.exists_eq_add_of_le (Nat.le_of_not_lt before)
      have letter := spliced.symm.stands_put.getElem?_inside
        (show i < (gone.map Token.char).length by rw [List.length_map]; omega)
      rw [List.getElem?_map, letter, List.getElem?_map, Option.map_map,
        Option.map_eq_some_iff] at opens
      obtain ⟨c, -, other⟩ := opens
      cases other
  | insertNode at_ node =>
    obtain ⟨rfl, spliced⟩ := rewrites
    obtain rfl := Option.some.inj followed
    refine ⟨at_, _, _, spliced.map Token.bare, by simp [Node.length_tokens], ?_⟩
    simp only [List.length_map, List.length_nil, Node.length_tokens]
    split <;> omega
  | deleteNode at_ =>
    obtain ⟨⟨changed, gone⟩, done, ⟨⟩⟩ := map_eq_ok_iff.mp applied
    have found : d.nodeAt at_ = some gone := (Document.deleteNode_eq_ok_iff_outline.mp done).1
    rw [follow, found, Option.bind_some] at followed
    refine ⟨at_, _, _, (Document.deleteNode_spliced done).map Token.bare,
      by simp [Node.length_tokens], ?_⟩
    simp only [List.length_map, List.length_nil, Node.length_tokens]
    split at followed
    · exact .inl ⟨‹_›, (Option.some.inj followed).symm⟩
    · split at followed
      · exact .inr ⟨‹_›, (Option.some.inj followed).symm⟩
      · cases followed
  | setAttr at_ attr value =>
    obtain ⟨rfl, attrs, left, right, -, old, new⟩ := rewrites
    obtain rfl := Option.some.inj followed
    have same : (Node.tokensAll content).map Token.bare = d.tokens.map Token.bare := by
      rw [old, new]
      simp [Token.bare]
    rw [same]
    exact ⟨0, [], [], .nothing _, rfl, .inr ⟨Nat.zero_le _, rfl⟩⟩

end Step

namespace Document

private theorem follow_version (content : List Node) (v w pos : Nat) (steps : List Step) :
    follow ⟨content, v⟩ pos steps = follow ⟨content, w⟩ pos steps := by
  induction steps generalizing content pos with
  | nil => rfl
  | cons s rest ih =>
    have same : s.apply ⟨content, v⟩ = s.apply ⟨content, w⟩ := by cases s <;> rfl
    rw [follow, follow, same]
    cases s.apply ⟨content, w⟩ with
    | error e => rfl
    | ok result =>
      have own : s.follow ⟨content, v⟩ pos = s.follow ⟨content, w⟩ pos := by cases s <;> rfl
      simp only [own, ih]

end Document

namespace TransactionBuilder

variable {b : TransactionBuilder}

private theorem Made.follow_append (made : b.Made) (start : Nat) (rest : List Step) :
    b.before.follow start (b.steps ++ rest) =
      (b.before.follow start b.steps).bind fun pos => b.current.follow pos rest := by
  induction made generalizing rest with
  | start _ _ => rfl
  | select _ _ ih => exact ih rest
  | force _ ih => exact ih rest
  | @step b next clock s _ taken _ ih =>
    obtain ⟨content, map, applied, rfl⟩ := step_eq_ok_iff.mp taken
    -- the versions that builders give to documents do not matter for where a node is
    have own (later : List Step) (pos : Nat) : b.current.follow pos (s :: later) =
        (s.follow b.current pos).bind fun next => Document.follow ⟨content, clock⟩ next later := by
      rw [Document.follow, applied]
      simp only [Document.follow_version content b.current.version clock]
    simp only [List.append_assoc, List.singleton_append, ih, own, Option.bind_assoc]
    rfl

private theorem Made.exists_earlier (made : b.Made) {i : Nat} {s : Step}
    (found : b.steps[i]? = some s) :
    ∃ earlier : TransactionBuilder, earlier.Made ∧ earlier.before = b.before ∧
      earlier.steps = b.steps.take i ∧ earlier.mapping = b.build.mappingBefore i ∧
      ∃ result, s.apply earlier.current = .ok result := by
  induction made with
  | start _ _ => cases found
  | select _ _ ih => exact ih found
  | force _ ih => exact ih found
  | @step b next clock s' made taken _ ih =>
    obtain ⟨content, map, applied, rfl⟩ := step_eq_ok_iff.mp taken
    have length := made.length_maps
    by_cases old : i < b.steps.length
    · rw [List.getElem?_append_left old] at found
      obtain ⟨earlier, made', before, steps, mapping, result⟩ := ih found
      refine ⟨earlier, made', before, ?_, ?_, result⟩
      · rw [List.take_append_of_le_length (Nat.le_of_lt old), steps]
      · rw [mapping]
        exact congrArg Mapping.mk (List.take_append_of_le_length (length ▸ Nat.le_of_lt old)).symm
    · obtain ⟨bound, own⟩ := List.getElem?_eq_some_iff.mp found
      simp only [List.length_append, List.length_singleton] at bound
      obtain rfl : i = b.steps.length := by omega
      rw [List.getElem_append_right (Nat.le_refl _)] at own
      simp only [Nat.sub_self, List.getElem_cons_zero] at own
      obtain rfl := own
      refine ⟨b, made, rfl, (List.take_left' rfl).symm, ?_, _, applied⟩
      exact congrArg Mapping.mk (List.take_left' length).symm

private theorem Made.splice_of_follow {next : TransactionBuilder} {clock start target : Nat}
    {s : Step}
    (made : b.Made) (taken : b.step clock s = .ok next)
    (followed : next.before.follow start next.steps = some target)
    (keeps : ∀ pos, b.before.follow start b.steps = some pos →
      b.Keeps Token.bare start [.opening (.codeBlock {})] pos) : ∃ pos at_ gone put,
      b.before.follow start b.steps = some pos ∧
      Spliced at_ gone put (b.current.tokens.map Token.bare) (next.current.tokens.map Token.bare) ∧
      next.mapping = b.mapping.push (.single at_ gone.length put.length) ∧
      (pos < at_ ∧ target = pos ∨
        at_ + gone.length ≤ pos ∧ target = pos - gone.length + put.length) := by
  obtain ⟨content, map, applied, rfl⟩ := step_eq_ok_iff.mp taken
  have both : b.before.follow start (b.steps ++ [s]) = some target := followed
  rw [made.follow_append] at both
  obtain ⟨pos, earlier, own⟩ := Option.bind_eq_some_iff.mp both
  rw [Document.follow, applied] at own
  simp only [Document.follow, Option.bind_fun_some] at own
  obtain ⟨at_, gone, put, spliced, rfl, place⟩ :=
    Step.splice_of_follow applied (keeps pos earlier).stands.getElem?_start own
  exact ⟨pos, at_, gone, put, earlier, spliced, rfl, place⟩

private theorem Made.keeps_of_follow (made : b.Made) {start target : Nat}
    (opens : Stands start [.opening (.codeBlock {})] (b.before.tokens.map Token.bare))
    (followed : b.before.follow start b.steps = some target) :
    b.Keeps Token.bare start [.opening (.codeBlock {})] target := by
  induction made generalizing target with
  | start _ _ =>
    obtain rfl := Option.some.inj followed
    exact ⟨opens, Mapping.traces_nil _ _⟩
  | select _ _ ih =>
    have keeps := ih opens followed
    exact ⟨keeps.stands, keeps.traces⟩
  | force _ ih =>
    have keeps := ih opens followed
    exact ⟨keeps.stands, keeps.traces⟩
  | @step b next clock s made taken fits ih =>
    rw [before_of_step taken] at opens
    obtain ⟨pos, at_, gone, put, earlier, spliced, mapping, place⟩ :=
      made.splice_of_follow taken followed fun _ earlier => ih opens earlier
    rcases place with ⟨before, rfl⟩ | ⟨behind, rfl⟩
    · exact (ih opens earlier).splice_before made fits Nat.one_pos spliced mapping before
    · exact (ih opens earlier).splice_behind made fits Nat.one_pos spliced mapping behind

private theorem Made.follow_still (made : b.Made) {start target : Nat}
    (opens : Stands start [.opening (.codeBlock {})] (b.before.tokens.map Token.bare))
    (followed : b.before.follow start b.steps = some target)
    (later : ∀ r ∈ b.mapping.ranges, start < r.start) : target = start := by
  induction made generalizing target with
  | start _ _ => exact (Option.some.inj followed).symm
  | select _ _ ih => exact ih opens followed later
  | force _ ih => exact ih opens followed later
  | @step b next clock s made taken fits ih =>
    rw [before_of_step taken] at opens
    have keeps {pos : Nat} (earlier : b.before.follow start b.steps = some pos) :=
      made.keeps_of_follow opens earlier
    obtain ⟨pos, at_, gone, put, earlier, spliced, mapping, place⟩ :=
      made.splice_of_follow taken followed fun _ earlier => keeps earlier
    rw [mapping, Mapping.ranges_push] at later
    have same := ih opens earlier fun r member => later r (List.mem_append_left _ member)
    rcases place with ⟨-, rfl⟩ | ⟨behind, rfl⟩
    · exact same
    · by_cases nothing : gone.length = 0 ∧ put.length = 0
      · omega
      · -- a range before the code block would come back to one that begins before it
        have range : start < (Mapping.rangeBefore b.mapping.maps
            ⟨at_, gone.length, put.length⟩).start := by
          rw [PositionMap.single, if_neg nothing] at later
          exact later _ (List.mem_append_right _ List.mem_cons_self)
        have first : Mapping.carryBack b.mapping.maps pos .after = start :=
          congrArg Placement.pos (keeps earlier).traces.back.first
        have order : Mapping.carryBack b.mapping.maps at_ .before ≤
            Mapping.carryBack b.mapping.maps pos .after :=
          Mapping.carryBack_le_carryBack made.bounded (by omega) fun _ => rfl
        rw [first] at order
        exact absurd range (Nat.not_lt.mpr order)

end TransactionBuilder

namespace Transaction

/-- A transaction reports an attribute write at its place in the document that the step was given.
Carried back, that place is one of the first document; if the code block was there, it is where the
code block began, and the two are the same if nothing before the code block was replaced. -/
theorem write_reported {b : TransactionBuilder} (made : b.Made) {i pos : Nat} {attr : CodeAttr}
    {value : Option String} (write : b.steps[i]? = some (.setAttr pos attr value)) :
    b.build.reportedWrite? i = some ⟨pos, pos⟩ ∧
    b.build.origin i pos ≤ b.build.before.size ∧
    ∀ block ∈ b.build.before.codeBlocks,
      b.build.before.follow block.1 (b.steps.take i) = some pos →
        b.build.origin i pos = block.1 ∧
        (b.build.mappingBefore i).map block.1 .after = pos ∧
        ((∀ r ∈ (b.build.mappingBefore i).ranges, block.1 < r.start) → pos = block.1) := by
  obtain ⟨earlier, made', before, steps, mapping, result, applied⟩ := made.exists_earlier write
  have inside : pos ≤ earlier.current.size := by
    obtain ⟨-, attrs, spliced⟩ := Step.rewrites_of_apply applied
    have bound := spliced.stop_le
    rw [Document.length_tokens, List.length_singleton] at bound
    omega
  have back : b.build.origin i pos = Mapping.carryBack earlier.mapping.maps pos .after := by
    rw [origin, mapping]
  rw [← steps, ← mapping, back]
  refine ⟨reportedWrite?_of_getElem? write, ?_, fun block member followed => ?_⟩
  · have bound := made'.carryBack_le inside .after
    rwa [before] at bound
  · have opens :
        Stands block.1 [.opening (.codeBlock {})] (earlier.before.tokens.map Token.bare) := by
      obtain ⟨attrs, text, -, -, stands⟩ := Document.textTokens_of_mem_codeBlocks member
      refine .singleton ?_
      rw [before, List.getElem?_map]
      exact congrArg (Option.map Token.bare) stands.getElem?_start
    have followed' : earlier.before.follow block.1 earlier.steps = some pos := before ▸ followed
    have traces := (made'.keeps_of_follow opens followed').traces
    exact ⟨congrArg Placement.pos traces.back.first, congrArg Placement.pos traces.there.first,
      made'.follow_still opens followed'⟩

/-! What is behind a code block is deleted, then its theme is written; a rule is put before it, then
its language is written, which is reported one position too far. -/

namespace Written

def start : TransactionBuilder :=
  .start ⟨[.paragraph "ab", .codeBlock {} "x", .paragraph "c"], 1⟩ {}

def shorter : TransactionBuilder :=
  { start with
    current := ⟨[.paragraph "ab", .codeBlock {} "x"], 2⟩
    steps := [.deleteNode 7]
    mapping := ⟨[.single 7 3 0]⟩ }

def themed : TransactionBuilder :=
  { shorter with
    current := ⟨[.paragraph "ab", .codeBlock { theme := some "midnight" } "x"], 3⟩
    steps := [.deleteNode 7, .setAttr 4 .theme (some "midnight")]
    mapping := ⟨[.single 7 3 0, .identity]⟩
    forced := true }

def longer : TransactionBuilder :=
  { themed with
    current :=
      ⟨[.horizontalRule, .paragraph "ab", .codeBlock { theme := some "midnight" } "x"], 4⟩
    steps := [.deleteNode 7, .setAttr 4 .theme (some "midnight"), .insertNode 0 .horizontalRule]
    mapping := ⟨[.single 7 3 0, .identity, .single 0 0 1]⟩
    selection := themed.selection.through (.single 0 0 1) }

def named : TransactionBuilder :=
  { longer with
    current :=
      ⟨[.horizontalRule, .paragraph "ab",
        .codeBlock { language := some "json", theme := some "midnight" } "x"], 5⟩
    steps := [.deleteNode 7, .setAttr 4 .theme (some "midnight"), .insertNode 0 .horizontalRule,
      .setAttr 5 .language (some "json")]
    mapping := ⟨[.single 7 3 0, .identity, .single 0 0 1, .identity]⟩ }

private theorem made_named : named.Made := by
  have made₀ : start.Made := .start (by decide +kernel) _
  have first : start.step 2 (.deleteNode 7) = .ok shorter := rfl
  have second : shorter.step 3 (.setAttr 4 .theme (some "midnight")) = .ok themed := rfl
  have third : themed.step 4 (.insertNode 0 .horizontalRule) = .ok longer := rfl
  have fourth : longer.step 5 (.setAttr 5 .language (some "json")) = .ok named := rfl
  have made₁ : shorter.Made := made₀.step first (by decide +kernel)
  have made₂ : themed.Made := made₁.step second (by decide +kernel)
  have made₃ : longer.Made := made₂.step third (by decide +kernel)
  exact made₃.step fourth (by decide +kernel)

theorem write_reported_written :
    named.Made ∧ (4, .codeBlock {} "x") ∈ named.build.before.codeBlocks ∧
    (∃ pos, named.steps[1]? = some (.setAttr pos .theme (some "midnight")) ∧
      named.build.reportedWrite? 1 = some ⟨pos, pos⟩ ∧
      named.build.before.follow 4 (named.steps.take 1) = some pos ∧
      (∀ r ∈ (named.build.mappingBefore 1).ranges, 4 < r.start) ∧ pos = 4) ∧
    named.steps[3]? = some (.setAttr 5 .language (some "json")) ∧
    named.build.reportedWrite? 3 = some ⟨5, 5⟩ ∧
    named.build.origin 3 5 ≤ named.build.before.size ∧
    named.build.before.follow 4 (named.steps.take 3) = some 5 ∧
    named.build.origin 3 5 = 4 ∧ (named.build.mappingBefore 3).map 4 .after = 5 := by
  have member : (4, .codeBlock {} "x") ∈ named.build.before.codeBlocks := List.mem_cons_self
  have theme : named.steps[1]? = some (.setAttr 4 .theme (some "midnight")) := rfl
  have language : named.steps[3]? = some (.setAttr 5 .language (some "json")) := rfl
  have before : named.build.before.follow 4 (named.steps.take 1) = some 4 := rfl
  have shifted : named.build.before.follow 4 (named.steps.take 3) = some 5 := rfl
  have behind : ∀ r ∈ (named.build.mappingBefore 1).ranges, 4 < r.start := by decide +kernel
  obtain ⟨first, -, still⟩ := write_reported made_named theme
  obtain ⟨second, inside, carried⟩ := write_reported made_named language
  exact ⟨made_named, member, ⟨4, theme, first, before, behind, (still _ member before).2.2 behind⟩,
    language, second, inside, shifted, (carried _ member shifted).1, (carried _ member shifted).2.1⟩

end Written

/-! A paragraph is put before an empty code block, the whole document; then the language of the code
block is written. -/

namespace Displaced

def start : TransactionBuilder := .start ⟨[.codeBlock {} ""], 1⟩ {}

def longer : TransactionBuilder :=
  { start with
    current := ⟨[.paragraph "abc", .codeBlock {} ""], 2⟩
    steps := [.insertNode 0 (.paragraph "abc")]
    mapping := ⟨[.single 0 0 5]⟩
    selection := start.selection.through (.single 0 0 5) }

def named : TransactionBuilder :=
  { longer with
    current := ⟨[.paragraph "abc", .codeBlock { language := some "json" } ""], 3⟩
    steps := [.insertNode 0 (.paragraph "abc"), .setAttr 5 .language (some "json")]
    mapping := ⟨[.single 0 0 5, .identity]⟩
    forced := true }

/-- The code block was at the beginning of a document of two positions, and the write is reported
three positions behind its end. -/
theorem write_reported_outside :
    named.Made ∧ named.steps[1]? = some (.setAttr 5 .language (some "json")) ∧
    (0, .codeBlock {} "") ∈ named.build.before.codeBlocks ∧
    named.build.before.follow 0 (named.steps.take 1) = some 5 ∧
    named.build.changedRanges = [⟨0, 0⟩, ⟨5, 5⟩] ∧
    ∃ r, named.build.reportedWrite? 1 = some r ∧ ¬r.stop ≤ named.build.before.size ∧
      r ≠ ⟨0, 0⟩ := by
  have made₀ : start.Made := .start (by decide +kernel) _
  have first : start.step 2 (.insertNode 0 (.paragraph "abc")) = .ok longer := rfl
  have second : longer.step 3 (.setAttr 5 .language (some "json")) = .ok named := rfl
  have made₁ : longer.Made := made₀.step first (by decide +kernel)
  have made₂ : named.Made := made₁.step second (by decide +kernel)
  exact ⟨made₂, rfl, List.mem_cons_self, rfl, rfl, ⟨5, 5⟩, rfl, by decide +kernel, by decide⟩

end Displaced

end Transaction

end CodeTint
