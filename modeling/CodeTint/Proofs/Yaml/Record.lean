import CodeTint.Proofs.Yaml.Line
import CodeTint.Yaml.Reading

/-!
What is read from a document that begins with lines of keys and values. Main statement: if the
document is read as a record, what the lines say is among the fields.
-/

set_option autoImplicit false
set_option relaxedAutoImplicit false

namespace CodeTint.Yaml

namespace Line

/-- The entry that a line is in the mapping. -/
def entry (l : Line) : Node × Node :=
  (.scalar none (String.ofList l.key) .plain, .scalar none (String.ofList l.text) l.style)

end Line

namespace Node

private theorem take_scalar {block bare : Bool} {fuel : Nat} {scope : Scope} {text : String}
    {style : ScalarStyle} {ts : List Token} {result : Taken Node}
    (taken : take block bare fuel scope (.scalar text style :: ts) = .ok result) :
    result = (.scalar none text style, scope, ts) := by
  cases fuel with
  | zero => cases taken
  | succ fuel =>
    cases fuel with
    | zero => cases taken
    | succ fuel =>
      cases taken
      rfl

private theorem takeBlockEntries_lines {lines : List Line} {fuel : Nat} {scope : Scope}
    {more : List Token} {result : Taken (List (Node × Node))}
    (taken : takeBlockEntries fuel scope (lines.flatMap Line.tokens ++ more) = .ok result) :
    lines.map Line.entry <+: result.1 := by
  induction lines generalizing fuel result with
  | nil => simp
  | cons l lines ih =>
    cases fuel with
    | zero => cases taken
    | succ fuel =>
      simp only [List.flatMap_cons, Line.tokens, List.cons_append, List.nil_append,
        takeBlockEntries, endsBlockEntry, Bool.false_eq_true, if_false] at taken
      obtain ⟨_, keyed, taken⟩ := bind_eq_ok_iff.mp taken
      rw [take_scalar keyed] at taken
      dsimp only at taken
      obtain ⟨_, valued, taken⟩ := bind_eq_ok_iff.mp taken
      rw [take_scalar valued] at taken
      dsimp only at taken
      obtain ⟨later, rest, given⟩ := bind_eq_ok_iff.mp taken
      cases given
      simpa [Line.entry] using ih rest

private theorem take_mapping {fuel : Nat} {scope : Scope} {lines : List Line} {more : List Token}
    {result : Taken Node}
    (taken : take true false fuel scope
      (.blockMappingStart :: (lines.flatMap Line.tokens ++ more)) = .ok result) :
    ∃ entries, result.1 = .mapping none entries ∧ lines.map Line.entry <+: entries := by
  cases fuel with
  | zero => cases taken
  | succ fuel =>
    cases fuel with
    | zero => cases taken
    | succ fuel =>
      obtain ⟨_, properties, taken⟩ := bind_eq_ok_iff.mp taken
      cases properties
      obtain ⟨_, content, given⟩ := bind_eq_ok_iff.mp taken
      obtain ⟨⟨entries, _, _⟩, inside, given'⟩ := bind_eq_ok_iff.mp content
      cases given'
      cases given
      exact ⟨entries, rfl, takeBlockEntries_lines inside⟩

end Node

theorem Opens.parse {lines : List Line} {text : String} (opens : Opens lines text.toList) {t : Tree}
    (parsed : Tree.parse text = .ok t) :
    ∃ entries, t.root = .mapping none entries ∧ lines.map Line.entry <+: entries := by
  obtain ⟨tokens, scanned, built⟩ := bind_eq_ok_iff.mp parsed
  obtain ⟨more, rfl⟩ := opens.prefix_scan scanned
  simp only [List.cons_append, Tree.ofTokens] at built
  obtain ⟨⟨root, scope, rest⟩, taken, finished⟩ := bind_eq_ok_iff.mp built
  obtain ⟨entries, mapping, first⟩ := Node.take_mapping taken
  dsimp only at finished mapping
  split at finished
  · cases finished
    exact ⟨entries, mapping, first⟩
  · cases finished

namespace Reading

variable {α β : Type} {t : Tree} {left after : Nat}

theorem bind_eq_some_iff {x : Reading α} {f : α → Reading β} {b : β} :
    (x >>= f) t left = some (b, after) ↔
      ∃ a between, x t left = some (a, between) ∧ f a t between = some (b, after) := by
  simp only [bind, ReaderT.bind, StateT.bind, Option.bind_eq_some_iff, Prod.exists]

private theorem pure_eq_some_iff {a b : α} :
    (pure a : Reading α) t left = some (b, after) ↔ a = b ∧ left = after := by
  show some (a, left) = some (b, after) ↔ _
  simp

theorem text_scalar {tag : Option Tag} {text' result : String} {style : ScalarStyle}
    (given : text (.scalar tag text' style) t left = some (result, after)) :
    result = text' ∧ after = left := by
  obtain ⟨n, between, resolved, given⟩ := bind_eq_some_iff.mp given
  cases resolved
  cases given
  exact ⟨rfl, rfl⟩

theorem fields_mapping {tag : Option Tag} {entries : List (Node × Node)}
    {fs : List (String × Node)} (read : fields (.mapping tag entries) t left = some (fs, after))
    {lines : List Line} (first : lines.map Line.entry <+: entries) :
    ∀ l ∈ lines, (String.ofList l.key, Node.scalar none (String.ofList l.text) l.style) ∈ fs := by
  obtain ⟨n, between, resolved, given⟩ := bind_eq_some_iff.mp read
  cases resolved
  obtain ⟨more, rfl⟩ := first
  dsimp only at given
  clear read
  induction lines generalizing left fs with
  | nil => simp
  | cons l lines ih =>
    rw [List.map_cons, List.cons_append, List.mapM_cons] at given
    obtain ⟨f, _, own, given⟩ := bind_eq_some_iff.mp given
    obtain ⟨later, _, others, given⟩ := bind_eq_some_iff.mp given
    obtain ⟨rfl, rfl⟩ := pure_eq_some_iff.mp given
    obtain ⟨key, _, named, given⟩ := bind_eq_some_iff.mp own
    obtain ⟨rfl, rfl⟩ := pure_eq_some_iff.mp given
    rw [List.forall_mem_cons]
    rw [(text_scalar named).1]
    refine ⟨List.mem_cons_self, fun l member => List.mem_cons_of_mem _ ?_⟩
    exact ih others l member

theorem field_once {name : String} {read : Node → Reading α} {fs : List (String × Node)}
    {n : Node} (member : (name, n) ∈ fs) {result : Option α}
    (given : field name read fs t left = some (result, after)) :
    ∃ a, result = some a ∧ read n t left = some (a, after) := by
  have kept : (name, n) ∈ fs.filter fun f => f.1 == name := by simpa using member
  rw [field] at given
  generalize fs.filter (fun f => f.1 == name) = found at kept given
  match found, kept, given with
  | [f], kept, given =>
    rw [List.mem_singleton] at kept
    subst kept
    dsimp only at given
    rw [map_eq_pure_bind] at given
    obtain ⟨a, between, own, given⟩ := bind_eq_some_iff.mp given
    obtain ⟨rfl, rfl⟩ := pure_eq_some_iff.mp given
    exact ⟨a, rfl, own⟩
  | _ :: _ :: _, _, given => cases given

end Reading

end CodeTint.Yaml
