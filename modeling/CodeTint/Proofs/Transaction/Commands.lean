import CodeTint.Engine.Detector
import CodeTint.Proofs.Decoration.Computed
import CodeTint.Proofs.Document.Outline
import CodeTint.Proofs.Transaction.Accepted
import Mathlib.Data.List.DropRight

/-!
Commands that write an attribute of a code block. Main statement: a command is taken just where a
code block begins; it changes that attribute of that block and nothing else, and calls for
everything to be computed anew. Of commands in a row, the last one for an attribute decides what it
becomes, so that those for different attributes commute.
-/

set_option autoImplicit false
set_option relaxedAutoImplicit false

namespace CodeTint

namespace Text

/-- A word is a text without the blanks at its two ends. -/
structure Trims (given word : String) : Prop where
  within : ∃ front back : List Char, given.toList = front ++ word.toList ++ back ∧
    (∀ c ∈ front, isBlank c = true) ∧ ∀ c ∈ back, isBlank c = true
  first : ∀ c, word.toList.head? = some c → isBlank c = false
  last : ∀ c, word.toList.getLast? = some c → isBlank c = false

private theorem trims_trim (given : String) : Trims given (trim given) := by
  have word : (trim given).toList = (given.toList.dropWhile isBlank).rdropWhile isBlank :=
    String.toList_ofList
  refine ⟨⟨given.toList.takeWhile isBlank, (given.toList.dropWhile isBlank).rtakeWhile isBlank, ?_,
    fun c member => List.mem_takeWhile_imp member, fun c member => List.mem_rtakeWhile_imp member⟩,
    fun c first => ?_, fun c last => ?_⟩
  · rw [word, List.append_assoc, List.rdropWhile_append_rtakeWhile, List.takeWhile_append_dropWhile]
  · rw [word] at first
    have start : (given.toList.dropWhile isBlank).rdropWhile isBlank <+:
      given.toList.dropWhile isBlank := List.rdropWhile_prefix isBlank _
    obtain ⟨rest, begins⟩ := List.head?_eq_some_iff.mp first
    obtain ⟨back, whole⟩ := start
    have same : (given.toList.dropWhile isBlank).head? = some c := by
      rw [← whole, begins]
      rfl
    have stopped := List.head?_dropWhile_not isBlank given.toList
    rw [same] at stopped
    exact stopped
  · rw [word] at last
    have long : (given.toList.dropWhile isBlank).rdropWhile isBlank ≠ [] :=
      List.ne_nil_of_mem (List.mem_of_getLast? last)
    rw [← List.getLast_of_getLast?_eq_some last]
    exact Bool.not_eq_true _ ▸ List.rdropWhile_last_not isBlank _ long

end Text

/-- What an attribute becomes if it is given a value: the value without the blanks around it, and
nothing if no value is given or all of it is blank. -/
def Transaction.Becomes (value : Option String) : Option String → Prop
  | some word => word ≠ "" ∧ ∃ given, value = some given ∧ Text.Trims given word
  | none => ∀ given, value = some given → ∀ c ∈ given.toList, isBlank c = true

theorem Transaction.becomes_attrValue (value : Option String) :
    Becomes value (attrValue value) := by
  cases value with
  | none => exact fun given none => nomatch none
  | some given =>
    have trims := Text.trims_trim given
    have whole : attrValue (some given) =
      if Text.trim given != "" then some (Text.trim given) else none := rfl
    rw [whole]
    split
    · rename_i long
      exact ⟨bne_iff_ne.mp long, given, rfl, trims⟩
    · rename_i blank
      have empty : Text.trim given = "" := by simpa using blank
      obtain ⟨front, back, parts, before, behind⟩ := trims.within
      rintro _ ⟨⟩ c member
      rw [empty, String.toList_empty, List.append_nil] at parts
      rw [parts] at member
      exact (List.mem_append.mp member).elim (before c) (behind c)

/-- A region after an attribute of the code block at a position is written. -/
def CodeRegion.write (pos : Nat) (attr : CodeAttr) (value : Option String) (r : CodeRegion) :
    CodeRegion :=
  if r.start = pos then
    match attr with
    | .language => { r with language := value }
    | .theme => { r with theme := value }
  else r

namespace Entry

variable {pos : Nat} {attr : CodeAttr} {value : Option String} {e : Entry}

private theorem pos_write (pos : Nat) (attr : CodeAttr) (value : Option String) (e : Entry) :
    (e.write pos attr value).pos = e.pos := by
  rw [write]
  split <;> rfl

private theorem size_write (pos : Nat) (attr : CodeAttr) (value : Option String) (e : Entry) :
    (e.write pos attr value).size = e.size := by
  rw [write]
  split <;> rfl

private theorem own_write (pos : Nat) (attr : CodeAttr) (value : Option String) (e : Entry) :
    (e.write pos attr value).own =
      if e.pos = pos then (e.own.setAttr? attr value).getD e.own else e.own := by
  rw [write]
  split <;> rfl

private theorem text?_write (pos : Nat) (attr : CodeAttr) (value : Option String) (e : Entry) :
    (e.write pos attr value).own.text? = e.own.text? := by
  rw [own_write]
  split
  · cases e.own <;> rfl
  · rfl

private theorem isCodeBlock_write (pos : Nat) (attr : CodeAttr) (value : Option String)
    (e : Entry) : (e.write pos attr value).own.isCodeBlock = e.own.isCodeBlock := by
  rw [own_write]
  split
  · cases e.own <;> rfl
  · rfl

private theorem ofBlock_write (index : Nat) (code : e.own.isCodeBlock = true) :
    CodeRegion.ofBlock index (e.pos, (e.write pos attr value).own) =
      (CodeRegion.ofBlock index (e.pos, e.own)).write pos attr value := by
  obtain ⟨at_, size, own⟩ := e
  cases own with
  | codeBlock attrs text =>
    by_cases here : at_ = pos
    · cases attr <;> simp [write, CodeRegion.write, CodeRegion.ofBlock, here, Node.setAttr?,
        CodeAttrs.set, Node.codeAttrs?, Node.text?, Node.size]
    · simp [write, CodeRegion.write, CodeRegion.ofBlock, here]
  | _ => cases code

end Entry

namespace Document

variable {d : Document} {pos : Nat} {attr : CodeAttr} {value : Option String}

private theorem exists_codeBlock_iff : (∃ n, (pos, n) ∈ d.nodes ∧ n.isCodeBlock = true) ↔
    ∃ e ∈ d.outline, e.pos = pos ∧ e.own.isCodeBlock = true := by
  have kind (n : Node) : n.shell.isCodeBlock = n.isCodeBlock := by cases n <;> rfl
  constructor
  · rintro ⟨n, member, code⟩
    exact ⟨_, List.mem_map_of_mem member, rfl, (kind n).trans code⟩
  · rintro ⟨e, member, rfl, code⟩
    obtain ⟨⟨at_, n⟩, visited, rfl⟩ := List.mem_map.mp member
    exact ⟨n, visited, (kind n).symm.trans code⟩

private theorem regions_of_outline_write {changed : Document}
    (listed : changed.outline = d.outline.map (Entry.write pos attr value)) :
    changed.regions = d.regions.map (CodeRegion.write pos attr value) := by
  have blocks (d : Document) : d.regions =
      (d.outline.filter fun e => e.own.isCodeBlock).mapIdx fun i e =>
        CodeRegion.ofBlock i (e.pos, e.own) := by
    have regions : d.regions = (d.nodesWhere Node.isCodeBlock).mapIdx CodeRegion.ofBlock := rfl
    have blocks : d.nodesWhere Node.isCodeBlock = _ := Node.searchAll_eq_outline d.content 0
    rw [regions, blocks, outline]
    exact List.ext_getElem (by simp) fun i _ _ => by simp
  rw [blocks, blocks, listed, List.filter_map]
  simp only [Function.comp_def, Entry.isCodeBlock_write]
  refine List.ext_getElem (by simp) fun i bound _ => ?_
  have inside : i < (d.outline.filter fun e => e.own.isCodeBlock).length := by simpa using bound
  simp only [List.getElem_mapIdx, List.getElem_map, Entry.pos_write]
  exact Entry.ofBlock_write i (List.mem_filter.mp (List.getElem_mem inside)).2

end Document

namespace Transaction

variable {d : Document} {selection : Selection} {clock pos : Nat} {attr : CodeAttr}
  {value : Option String} {t : Transaction}

/-- The transaction that a command makes of what the document becomes. -/
def ofAttr (d : Document) (selection : Selection) (clock pos : Nat) (attr : CodeAttr)
    (value : Option String) (content : List Node) : Transaction :=
  { before := d
    after := ⟨content, clock⟩
    steps := [.setAttr pos attr (attrValue value)]
    mapping := ⟨[.identity]⟩
    selectionBefore := selection
    selectionAfter := selection.through .identity
    forced := true }

private theorem setAttr_eq (d : Document) (selection : Selection) (clock pos : Nat)
    (attr : CodeAttr)
    (value : Option String) : setAttr d selection clock pos attr value =
      (d.setAttr pos attr (attrValue value)).map (ofAttr d selection clock pos attr value) := by
  rw [setAttr, TransactionBuilder.step, Step.apply]
  show (((d.setAttr pos attr (attrValue value)).map _).map _).map _ = _
  cases d.setAttr pos attr (attrValue value) <;> rfl

private theorem exists_setAttr_iff : (∃ t, setAttr d selection clock pos attr value = .ok t) ↔
    ∃ n, (pos, n) ∈ d.nodes ∧ n.isCodeBlock = true := by
  have step : (∃ result, (Step.setAttr pos attr (attrValue value)).apply d = .ok result) ↔ _ :=
    Step.exists_ok_iff
  rw [Step.HasPlace] at step
  simp only [← step, setAttr_eq, Step.apply, map_eq_ok_iff, exists_comm, exists_eq_right']

/-- What a transaction does that writes an attribute of the code block at a position: all else in
the document stays, nothing moves, and everything is computed anew. -/
structure WritesAttr (d : Document) (pos : Nat) (attr : CodeAttr) (value : Option String)
    (t : Transaction) : Prop where
  before : t.before = d
  outline : t.after.outline = d.outline.map (Entry.write pos attr value)
  places : t.after.nodes.map (fun node => (node.1, node.2.size, node.2.text?)) =
    d.nodes.map fun node => (node.1, node.2.size, node.2.text?)
  regions : t.after.regions = d.regions.map (CodeRegion.write pos attr value)
  still : ∀ p ≤ Position.limit, ∀ side, t.mapping.place p side = ⟨p, false⟩
  decision : t.classify = .recompute .forced

private theorem writesAttr_of_setAttr (taken : setAttr d selection clock pos attr value = .ok t) :
    WritesAttr d pos attr (attrValue value) t := by
  rw [setAttr_eq] at taken
  obtain ⟨content, done, rfl⟩ := map_eq_ok_iff.mp taken
  obtain ⟨_, _, -, listed⟩ := Document.setAttr_eq_ok_iff_outline.mp done
  have outline : Document.outline ⟨content, clock⟩ =
    d.outline.map (Entry.write pos attr (attrValue value)) := listed
  have places (d : Document) : d.nodes.map (fun node => (node.1, node.2.size, node.2.text?)) =
      d.outline.map fun e => (e.pos, e.size, e.own.text?) := by
    rw [Document.outline, Node.outline, List.map_map]
    refine List.map_congr_left fun found _ => ?_
    obtain ⟨at_, n⟩ := found
    cases n <;> rfl
  refine ⟨rfl, outline, ?_, Document.regions_of_outline_write outline, ?_, rfl⟩
  · rw [places, places]
    show (Document.outline ⟨content, clock⟩).map _ = _
    rw [outline, List.map_map]
    simp only [Function.comp_def, Entry.pos_write, Entry.size_write, Entry.text?_write]
  · intro p inside side
    show (⟨Position.shift p 0, false⟩ : Placement) = _
    rw [Position.shift_zero inside]

end Transaction

/-- A command for an attribute: the code block that it is for, the attribute, the value that it is
given, and the selection at the time. -/
structure AttrCommand where
  pos : Nat
  attr : CodeAttr
  value : Option String
  selection : Selection

namespace AttrCommand

/-- What the last of the commands for an attribute gives to it, if there is one. -/
def lastFor (commands : List AttrCommand) (pos : Nat) (attr : CodeAttr) : Option (Option String) :=
  ((commands.filter fun c => c.pos = pos ∧ c.attr = attr).getLast?).map fun c =>
    Transaction.attrValue c.value

def attrsAfter (commands : List AttrCommand) (pos : Nat) (attrs : CodeAttrs) : CodeAttrs where
  language := (lastFor commands pos .language).getD attrs.language
  theme := (lastFor commands pos .theme).getD attrs.theme

end AttrCommand

/-- The entry after commands for attributes. -/
def Entry.command (commands : List AttrCommand) (e : Entry) : Entry :=
  match e.own with
  | .codeBlock attrs text =>
    { e with own := .codeBlock (AttrCommand.attrsAfter commands e.pos attrs) text }
  | _ => e

/-- The document that commands lead to, each given to the document that those before it lead to. -/
def Document.afterCommands (d : Document) (clock : Nat) :
    List AttrCommand → Except TransformError Document
  | [] => .ok d
  | c :: rest =>
    match Transaction.setAttr d c.selection clock c.pos c.attr c.value with
    | .ok t => t.after.afterCommands (clock + 1) rest
    | .error e => .error e

/-- What commands make of the content of a document, or nothing if one of them is refused. -/
def Document.contentAfter (d : Document) (clock : Nat) (commands : List AttrCommand) :
    Option (List Node) := (d.afterCommands clock commands).toOption.map (·.content)

section Runs

variable {d : Document} {clock : Nat} {commands others : List AttrCommand}

private theorem AttrCommand.lastFor_cons (c : AttrCommand) (rest : List AttrCommand) (pos : Nat)
    (attr : CodeAttr) : lastFor (c :: rest) pos attr = (lastFor rest pos attr).or
      (if c.pos = pos ∧ c.attr = attr then some (Transaction.attrValue c.value) else none) := by
  rw [lastFor, lastFor, List.filter_cons]
  by_cases own : c.pos = pos ∧ c.attr = attr
  · rw [if_pos (decide_eq_true own), if_pos own, List.getLast?_cons]
    cases (rest.filter fun c => c.pos = pos ∧ c.attr = attr).getLast? <;> rfl
  · rw [if_neg (by simpa using own), if_neg own, Option.or_none]

private theorem Entry.command_write (c : AttrCommand) (rest : List AttrCommand) (e : Entry) :
    (e.write c.pos c.attr (Transaction.attrValue c.value)).command rest =
      e.command (c :: rest) := by
  obtain ⟨at_, size, own⟩ := e
  by_cases here : at_ = c.pos
  · cases own with
    | codeBlock attrs text =>
      cases kind : c.attr <;>
        simp [write, command, here, kind, Node.setAttr?, CodeAttrs.set, AttrCommand.attrsAfter,
          AttrCommand.lastFor_cons]
    | _ => simp [write, command, Node.setAttr?]
  · have elsewhere : ¬c.pos = at_ := fun same => here same.symm
    cases own <;> simp [write, command, here, elsewhere, AttrCommand.attrsAfter,
      AttrCommand.lastFor_cons]

private theorem Entry.command_nil (e : Entry) : e.command [] = e := by
  obtain ⟨at_, size, own⟩ := e
  cases own <;> rfl

private theorem outline_afterCommands {final : Document}
    (done : d.afterCommands clock commands = .ok final) :
    final.outline = d.outline.map (Entry.command commands) := by
  induction commands generalizing d clock with
  | nil =>
    obtain rfl := Except.ok.inj done
    exact ((List.map_congr_left fun e _ => e.command_nil).trans (List.map_id _)).symm
  | cons c rest ih =>
    rw [Document.afterCommands] at done
    split at done
    · rename_i t taken
      rw [ih done, (Transaction.writesAttr_of_setAttr taken).outline, List.map_map]
      exact List.map_congr_left fun e _ => Entry.command_write c rest e
    · cases done

private theorem exists_afterCommands_iff : (∃ final, d.afterCommands clock commands = .ok final) ↔
    ∀ c ∈ commands, ∃ n, (c.pos, n) ∈ d.nodes ∧ n.isCodeBlock = true := by
  induction commands generalizing d clock with
  | nil => simp [Document.afterCommands]
  | cons c rest ih =>
    have first :
        (∃ t, Transaction.setAttr d c.selection clock c.pos c.attr c.value = .ok t) ↔ _ :=
      Transaction.exists_setAttr_iff
    rw [List.forall_mem_cons, ← first, Document.afterCommands]
    cases taken : Transaction.setAttr d c.selection clock c.pos c.attr c.value with
    | error e => simp
    | ok t =>
      have listed := (Transaction.writesAttr_of_setAttr taken).outline
      simp only [ih, Document.exists_codeBlock_iff, listed]
      simp [Entry.pos_write, Entry.isCodeBlock_write]

private theorem AttrCommand.isSome_lastFor {pos : Nat} {attr : CodeAttr} :
    (lastFor commands pos attr).isSome = true ↔ ∃ c ∈ commands, c.pos = pos ∧ c.attr = attr := by
  rw [lastFor, Option.isSome_map, Option.isSome_iff_ne_none, ne_eq, List.getLast?_eq_none_iff,
    List.filter_eq_nil_iff]
  simp

private theorem contentAfter_congr (same : ∀ pos attr,
      AttrCommand.lastFor commands pos attr = AttrCommand.lastFor others pos attr)
    (clock other : Nat) : d.contentAfter clock commands = d.contentAfter other others := by
  -- what commands there are for an attribute shows in the last one, so both lists are taken or none
  have places : (∀ c ∈ commands, ∃ n, (c.pos, n) ∈ d.nodes ∧ n.isCodeBlock = true) ↔
      ∀ c ∈ others, ∃ n, (c.pos, n) ∈ d.nodes ∧ n.isCodeBlock = true := by
    have written (pos : Nat) (attr : CodeAttr) : (∃ c ∈ commands, c.pos = pos ∧ c.attr = attr) ↔
        ∃ c ∈ others, c.pos = pos ∧ c.attr = attr := by
      rw [← AttrCommand.isSome_lastFor, same, AttrCommand.isSome_lastFor]
    constructor <;> intro each c member
    · obtain ⟨twin, among, place, -⟩ := (written c.pos c.attr).mpr ⟨c, member, rfl, rfl⟩
      exact place ▸ each twin among
    · obtain ⟨twin, among, place, -⟩ := (written c.pos c.attr).mp ⟨c, member, rfl, rfl⟩
      exact place ▸ each twin among
  have entries : Entry.command commands = Entry.command others := by
    funext e
    have attrs (attrs : CodeAttrs) : AttrCommand.attrsAfter commands e.pos attrs =
        AttrCommand.attrsAfter others e.pos attrs := by
      simp only [AttrCommand.attrsAfter, same]
    simp only [Entry.command, attrs]
  have alike : (∃ final, d.afterCommands clock commands = .ok final) ↔
      ∃ final, d.afterCommands other others = .ok final :=
    exists_afterCommands_iff.trans (places.trans exists_afterCommands_iff.symm)
  rw [Document.contentAfter, Document.contentAfter]
  cases done : d.afterCommands clock commands with
  | error e =>
    cases done' : d.afterCommands other others with
    | error e' => rfl
    | ok final' =>
      obtain ⟨final, taken⟩ := alike.mpr ⟨final', done'⟩
      rw [done] at taken
      cases taken
  | ok final =>
    obtain ⟨final', done'⟩ := alike.mp ⟨final, done⟩
    have outlines : final.outline = final'.outline := by
      rw [outline_afterCommands done, outline_afterCommands done', entries]
    have contents : final.content = final'.content := Node.eq_of_outline _ _ 0 outlines
    rw [done']
    exact congrArg some contents

private theorem AttrCommand.lastFor_overwritten (front middle back : List AttrCommand)
    {a b : AttrCommand}
    (place : a.pos = b.pos) (name : a.attr = b.attr) (pos : Nat) (attr : CodeAttr) :
    lastFor (front ++ a :: middle ++ b :: back) pos attr =
      lastFor (front ++ middle ++ b :: back) pos attr := by
  simp only [lastFor, List.append_assoc, List.cons_append, List.filter_append, List.filter_cons,
    place, name]
  split
  · simp only [List.getLast?_append, List.getLast?_cons, Option.some_or, Option.getD_some]
  · rfl

private theorem AttrCommand.lastFor_swap (front back : List AttrCommand) {a b : AttrCommand}
    (differ : (a.pos, a.attr) ≠ (b.pos, b.attr)) (pos : Nat) (attr : CodeAttr) :
    lastFor (front ++ a :: b :: back) pos attr = lastFor (front ++ b :: a :: back) pos attr := by
  simp only [lastFor, List.filter_append, List.filter_cons]
  by_cases first : a.pos = pos ∧ a.attr = attr
  · have second : ¬(b.pos = pos ∧ b.attr = attr) := by
      rintro ⟨rfl, rfl⟩
      exact differ (Prod.ext first.1 first.2)
    simp only [second, decide_false, Bool.false_eq_true, if_false]
  · simp only [first, decide_false, Bool.false_eq_true, if_false]

end Runs

namespace Document

/-- A command for an attribute is taken just where a code block begins; it changes that attribute of
that code block and nothing else. Commands in a row are taken if each is for a code block, and the
last one for an attribute decides what it becomes: those for different attributes commute, and one
that another for the same attribute follows is without effect. -/
theorem attribute_commands (d : Document) (clock : Nat) :
    (∀ selection pos attr value,
      ((∃ t, Transaction.setAttr d selection clock pos attr value = .ok t) ↔
        ∃ n, (pos, n) ∈ d.nodes ∧ n.isCodeBlock = true) ∧
      ∀ t, Transaction.setAttr d selection clock pos attr value = .ok t →
        ∃ stored, Transaction.Becomes value stored ∧
          Transaction.WritesAttr d pos attr stored t) ∧
    (∀ commands,
      ((∃ final, d.afterCommands clock commands = .ok final) ↔
        ∀ c ∈ commands, ∃ n, (c.pos, n) ∈ d.nodes ∧ n.isCodeBlock = true) ∧
      ∀ final, d.afterCommands clock commands = .ok final →
        final.outline = d.outline.map (Entry.command commands)) ∧
    (∀ front a b back, (a.pos, a.attr) ≠ (b.pos, b.attr) →
      d.contentAfter clock (front ++ a :: b :: back) =
        d.contentAfter clock (front ++ b :: a :: back)) ∧
    ∀ front a middle b back, a.pos = b.pos → a.attr = b.attr →
      d.contentAfter clock (front ++ a :: middle ++ b :: back) =
        d.contentAfter clock (front ++ middle ++ b :: back) := by
  refine ⟨fun selection pos attr value => ⟨Transaction.exists_setAttr_iff, fun t taken =>
    ⟨_, Transaction.becomes_attrValue value, Transaction.writesAttr_of_setAttr taken⟩⟩,
    fun commands => ⟨exists_afterCommands_iff, fun final => outline_afterCommands⟩, ?_, ?_⟩
  · intro front a b back differ
    exact contentAfter_congr (AttrCommand.lastFor_swap front back differ) clock clock
  · intro front a middle b back place name
    have last := AttrCommand.lastFor_overwritten front middle back place name
    exact contentAfter_congr last clock clock

/-! A code block in a block quote and one behind it: one gets a language with blanks around it, the
other a theme, and then the language is unset again. -/

namespace Commanded

def document : Document :=
  ⟨[.blockquote [.codeBlock { theme := some "midnight" } "x"], .codeBlock {} "y"], 1⟩

def named : AttrCommand := ⟨1, .language, some " json ", {}⟩

def themed : AttrCommand := ⟨5, .theme, some "midnight", {}⟩

def unset : AttrCommand := ⟨1, .language, some " ", {}⟩

theorem attribute_commands_commanded :
    (∃ t, Transaction.setAttr document {} 2 1 .language (some " json ") = .ok t ∧
      ∃ stored, Transaction.Becomes (some " json ") stored ∧
        Transaction.WritesAttr document 1 .language stored t) ∧
    (∃ final, document.afterCommands 2 [named, themed, unset] = .ok final ∧
      final.outline = document.outline.map (Entry.command [named, themed, unset])) ∧
    (named.pos, named.attr) ≠ (themed.pos, themed.attr) ∧
      document.contentAfter 2 [named, themed, unset] =
        document.contentAfter 2 [themed, named, unset] ∧
    named.pos = unset.pos ∧ named.attr = unset.attr ∧
      document.contentAfter 2 [named, themed, unset] =
        document.contentAfter 2 [themed, unset] ∧
    document.contentAfter 2 [named, themed, unset] =
      some [.blockquote [.codeBlock { theme := some "midnight" } "x"],
        .codeBlock { theme := some "midnight" } "y"] := by
  obtain ⟨single, several, commute, last⟩ := attribute_commands document 2
  have first : ∃ n, (1, n) ∈ document.nodes ∧ n.isCodeBlock = true :=
    ⟨_, List.mem_cons_of_mem _ List.mem_cons_self, rfl⟩
  have second : ∃ n, (5, n) ∈ document.nodes ∧ n.isCodeBlock = true :=
    ⟨_, List.mem_cons_of_mem _ (List.mem_cons_of_mem _ List.mem_cons_self), rfl⟩
  obtain ⟨t, taken⟩ := (single {} 1 .language (some " json ")).1.mpr first
  obtain ⟨final, done⟩ := (several [named, themed, unset]).1.mpr (by
    simpa [named, themed, unset] using ⟨first, second, first⟩)
  have differ : (named.pos, named.attr) ≠ (themed.pos, themed.attr) := by decide
  exact ⟨⟨t, taken, (single {} 1 .language (some " json ")).2 t taken⟩,
    ⟨final, done, (several _).2 final done⟩, differ, commute [] named themed [unset] differ, rfl,
    rfl, last [] named [themed] unset [] rfl rfl, rfl⟩

end Commanded

end Document

end CodeTint
