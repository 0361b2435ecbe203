import CodeTint.Parse.Grammar

/-!
The table of a grammar: what to do in each state with each kind of token. A state is a set of rules
that may be under way, each up to the same place; a rule is complete before every token that can
follow it.

State `broken` is the one after a token that fits nowhere, state `initial` the one at the start.
-/

set_option autoImplicit false
set_option relaxedAutoImplicit false

namespace CodeTint.Parse

/-- What to do with a token. -/
inductive Action (N : Type) where
  /-- Take it; `repeats` if it only goes on with a repetition that could as well be complete. -/
  | shift (state : Nat) (repeats : Bool)
  | shiftExtra
  | reduce (head : N) (count : Nat)
  | accept
  | recover
  deriving DecidableEq, Repr

/-- What may come in a state. -/
structure State (T N : Type) where
  actions : List (T × List (Action N)) := []
  /-- The actions at the end of the text; in a state that is final, those before anything. -/
  atEnd : List (Action N) := []
  gotos : List (N × Nat) := []
  /-- A rule that may stand anywhere is complete, whatever follows. -/
  final : Bool := false
  deriving Repr

instance {T N : Type} : Inhabited (State T N) := ⟨{}⟩

structure Table (T N : Type) where
  states : Array (State T N)

def broken : Nat := 0

def initial : Nat := 1

namespace Table

variable {T N : Type} [BEq T] [BEq N]

def state (t : Table T N) (q : Nat) : State T N := t.states.getD q {}

def actions (t : Table T N) (q : Nat) : Option T → List (Action N)
  | some k => ((t.state q).actions.lookup k).getD []
  | none => (t.state q).atEnd

def goto (t : Table T N) (q : Nat) (n : N) : Nat := ((t.state q).gotos.lookup n).getD broken

def afterToken (t : Table T N) (q : Nat) (k : T) : Nat :=
  match (t.actions q (some k)).getLast? with
  | some (.shift r _) => r
  | some .shiftExtra => q
  | _ => broken

def reducesFirst (t : Table T N) (q : Nat) (k : Option T) : Bool :=
  match t.actions q k with
  | .reduce _ _ :: _ => true
  | _ => false

end Table

/-! ### Making a table -/

namespace Grammar

variable {T N : Type} [BEq T] [BEq N]

/-- A rule of which some symbols have been read, by its place; the goal has place zero. -/
structure Item where
  rule : Nat
  read : Nat
  deriving DecidableEq, Repr

structure Production (T N : Type) where
  head : Option N
  body : List (Symbol T N)

def productions (g : Grammar T N) : Array (Production T N) :=
  (⟨none, [.rule g.goal]⟩ :: g.rules.map fun r => ⟨some r.head, r.body⟩).toArray

def nextSymbol? (g : Grammar T N) (i : Item) : Option (Symbol T N) :=
  (g.productions[i.rule]?).bind fun p => p.body[i.read]?

def sameSymbol : Symbol T N → Symbol T N → Bool
  | .token s, .token t => s == t
  | .rule m, .rule n => m == n
  | _, _ => false

def starts (g : Grammar T N) (n : N) : List Item :=
  (List.range g.productions.size).filterMap fun k =>
    match g.productions[k]? with
    | some p => if p.head.any (· == n) then some ⟨k, 0⟩ else none
    | none => none

def addNew {α : Type} [BEq α] (xs ys : List α) : List α :=
  ys.foldl (fun xs y => if xs.contains y then xs else xs ++ [y]) xs

def widen (g : Grammar T N) (items : List Item) : List Item :=
  addNew items <| items.flatMap fun i =>
    match g.nextSymbol? i with
    | some (.rule n) => g.starts n
    | _ => []

/-- Items with all that may be under way at the same place: they are widened until none is new,
which happens after as many rounds as there are rules at the latest. -/
def closure (g : Grammar T N) (items : List Item) : List Item :=
  go (g.rules.length + 1) items
where
  go : Nat → List Item → List Item
    | 0, items => items
    | n + 1, items =>
      let wider := g.widen items
      if wider.length == items.length then items else go n wider

def iterate {α : Type} (f : α → α) : Nat → α → α
  | 0, a => a
  | n + 1, a => iterate f n (f a)

def allItems (g : Grammar T N) : List Item :=
  (List.range g.productions.size).flatMap fun k =>
    (List.range (((g.productions[k]?).map fun p => p.body.length + 1).getD 0)).map fun d => ⟨k, d⟩

def sameSymbols : List (Symbol T N) → List (Symbol T N) → Bool
  | [], [] => true
  | s :: ss, t :: ts => sameSymbol s t && sameSymbols ss ts
  | _, _ => false

/-- Two items need not be told apart: they form the same of as many symbols and read the same from
here on. -/
def sameGoal (g : Grammar T N) (i j : Item) : Bool :=
  match g.productions[i.rule]?, g.productions[j.rule]? with
  | some p, some q =>
    i.read == j.read && p.body.length == q.body.length &&
      (match p.head, q.head with
        | some m, some n => m == n
        | none, none => true
        | _, _ => false) &&
      sameSymbols (p.body.drop i.read) (q.body.drop j.read)
  | _, _ => false

/-- The items after a symbol; of those that need not be told apart only the first. -/
def advance (g : Grammar T N) (items : List Item) (s : Symbol T N) : List Item :=
  let next := items.filterMap fun i =>
    if (g.nextSymbol? i).any (sameSymbol s) then some (⟨i.rule, i.read + 1⟩ : Item) else none
  let first := next.map fun i => (g.allItems.find? (g.sameGoal i)).getD i
  g.allItems.filter first.contains

def nextSymbols (g : Grammar T N) (items : List Item) : List (Symbol T N) :=
  (items.filterMap g.nextSymbol?).foldl
    (fun ss s => if ss.any (sameSymbol s) then ss else ss ++ [s]) []

/-- The sets of items, each with the places of those after a symbol. The first `done` are ready. -/
def explore (g : Grammar T N) : Nat → Nat → Array (List Item) →
    List (List (Symbol T N × Nat)) → Array (List Item) × List (List (Symbol T N × Nat))
  | 0, _, sets, edges => (sets, edges)
  | fuel + 1, done, sets, edges =>
    match sets[done]? with
    | none => (sets, edges)
    | some kernel =>
      let items := g.closure kernel
      let (sets, row) := (g.nextSymbols items).foldl (fun (sets, row) s =>
        let target := g.advance items s
        match sets.findIdx? (· == target) with
        | some q => (sets, row ++ [(s, q)])
        | none => (sets.push target, row ++ [(s, sets.size)])) (sets, [])
      explore g fuel (done + 1) sets (edges ++ [row])

def firstTokens (g : Grammar T N) (s : Symbol T N) : List T :=
  match s with
  | .token t => [t]
  | .rule n => (g.closure (g.starts n)).foldl (fun ts i =>
      match g.nextSymbol? i with
      | some (.token t) => addNew ts [t]
      | _ => ts) []

/-- What can follow each rule: tokens, or nothing for the end. -/
def followers (g : Grammar T N) : List (N × List (Option T)) :=
  let heads := addNew [] (g.rules.map (·.head))
  let start := heads.map fun n => (n, if n == g.goal then [none] else [])
  let step (known : List (N × List (Option T))) : List (N × List (Option T)) :=
    g.rules.foldl (fun known r =>
      (List.range r.body.length).foldl (fun (known : List (N × List (Option T))) k =>
        match r.body[k]? with
        | some (Symbol.rule n) =>
          let found := match r.body[k + 1]? with
            | some s => (g.firstTokens s).map some
            | none => (known.lookup r.head).getD []
          known.map fun (m, ts) => if m == n then (m, addNew ts found) else (m, ts)
        | _ => known) known) known
  iterate step (heads.length + 1) start

/-- The sets of items from which everything is reached: those at the start, and those after the
first token of a rule that may stand anywhere. -/
def roots (g : Grammar T N) : List (T × List Item) × List (List Item) :=
  let starts : List (T × List Item) := g.extraRules.flatMap fun n => (g.starts n).filterMap fun i =>
    match g.nextSymbol? i with
    | some (.token t) => some (t, [⟨i.rule, 1⟩])
    | _ => none
  let merged := starts.foldl (fun (found : List (T × List Item)) (t, items) =>
    if found.any (·.1 == t) then
      found.map fun (u, old) => if u == t then (u, old ++ items) else (u, old)
    else found ++ [(t, items)]) []
  (merged, [⟨0, 0⟩] :: merged.map (·.2))

/-- The actions of complete items before a token, or at the end. -/
def reductions (g : Grammar T N) (follow : List (N × List (Option T))) (items : List Item)
    (k : Option T) : List (Action N) :=
  items.filterMap fun i =>
    match g.productions[i.rule]? with
    | some p =>
      if i.read < p.body.length then none
      else match p.head with
        | none => if k.isNone then some .accept else none
        | some n =>
          if ((follow.lookup n).getD []).any (fun f => match f, k with
            | some s, some t => s == t
            | none, none => true
            | _, _ => false) then some (.reduce n p.body.length) else none
    | none => none

def completeExtra? (g : Grammar T N) (items : List Item) : Option (Action N) :=
  items.findSome? fun i =>
    match g.productions[i.rule]? with
    | some p => p.head.bind fun n =>
      if g.extraRules.contains n && i.read == p.body.length then some (.reduce n p.body.length)
      else none
    | none => none

/-- The states before units are passed over. Places of sets of items are one less than their
states. -/
def rawStates (g : Grammar T N) : Array (State T N) :=
  let (extraStarts, roots) := g.roots
  let (sets, edges) := g.explore (g.allItems.length * g.allItems.length) 0 roots.toArray []
  let follow := g.followers
  let extraState (k : T) : Option Nat := (extraStarts.findIdx? (·.1 == k)).map (· + 2)
  let extraGotos (q : Nat) : List (N × Nat) := g.extraRules.map fun n => (n, q)
  let otherwise (k : T) (unknown : List (Action N)) : List (Action N) :=
    match extraState k with
    | some q => [.shift q false]
    | none => if g.extraTokens.contains k then [.shiftExtra] else unknown
  let faulty : State T N := {
    actions := g.terminals.map fun t =>
      (t.kind, otherwise t.kind (if t.contextual then [] else [.recover]))
    atEnd := [.recover]
    gotos := extraGotos broken }
  let ofSet (place : Nat) (items : List Item) (row : List (Symbol T N × Nat)) : State T N :=
    match g.completeExtra? items with
    | some a => { atEnd := [a], final := true }
    | none =>
      let actionsOf (k : T) : List (Action N) :=
        let reduces := g.reductions follow items (some k)
        let shifts := row.filterMap fun (s, q) => match s with
          | .token t => if t == k then some (.shift (q + 1) (!reduces.isEmpty)) else none
          | .rule _ => none
        if (reduces ++ shifts).isEmpty then otherwise k [] else reduces ++ shifts
      { actions := (g.tokens.map fun k => (k, actionsOf k)).filter fun a => !a.2.isEmpty
        atEnd := g.reductions follow items none
        gotos := row.filterMap (fun (s, q) => match s with
          | .rule n => some (n, q + 1)
          | .token _ => none) ++ extraGotos (place + 1) }
  let ready := (List.range sets.size).map fun place =>
    ofSet place (g.closure (sets.getD place [])) (edges.getD place [])
  (faulty :: ready).toArray

/-- The repetition that a state only makes of one piece. -/
def unit? (g : Grammar T N) (s : State T N) : Option N :=
  if s.final then none
  else
    let actions := (s.actions.flatMap (·.2) ++ s.atEnd).filter fun a => match a with
      | .shiftExtra => false
      | _ => true
    match actions with
    | .reduce n 1 :: rest =>
      if g.visibility n == .repetition then
        if rest.all (fun a => match a with
          | .reduce m 1 => m == n
          | _ => false) then some n else none
      else none
    | _ => none

/-- The table of a grammar. Where a state only makes a repetition of one piece, the state after that
repetition is entered instead. -/
def table (g : Grammar T N) : Table T N :=
  let raw := g.rawStates
  let target (gotos : List (N × Nat)) (q : Nat) : Nat :=
    match g.unit? (raw.getD q {}) with
    | some n => (gotos.lookup n).getD q
    | none => q
  ⟨raw.map fun s => { s with
    actions := s.actions.map fun (k, actions) => (k, actions.map fun a => match a with
      | .shift q repeats => .shift (target s.gotos q) repeats
      | a => a)
    gotos := s.gotos.map fun (n, q) => (n, target s.gotos q) }⟩

end Grammar

end CodeTint.Parse
