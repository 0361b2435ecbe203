import CodeTint.Parse.Table
import CodeTint.Parse.Tree

/-!
The next token of a text. Where a token stands that is not expected, any other is looked for; where
none is found, the text up to the next token fits nowhere.
-/

set_option autoImplicit false
set_option relaxedAutoImplicit false

namespace CodeTint.Parse

/-- The characters of a text, with how much text is before each of them. -/
structure Source where
  chars : Array Char
  before : Array Extent

namespace Source

def of (text : String) : Source :=
  let chars := text.toList.toArray
  ⟨chars, chars.foldl (fun es c => es.push ((es.back?.getD {}).add (.ofChar c))) #[{}]⟩

def between (s : Source) (start stop : Nat) : Extent :=
  (s.before.getD stop {}).drop (s.before.getD start {})

end Source

/-- A kind of token that is looked for, with what is left of its pattern after some characters. -/
structure Partial (T : Type) where
  terminal : Terminal T
  rest : Pattern
  /-- Nothing of it has been read, and blanks may come before it. -/
  fresh : Bool

namespace Partial

variable {T : Type} [BEq T]

def start (t : Terminal T) : Partial T := ⟨t, t.pattern, !t.immediate⟩

def take? (c : Char) (p : Partial T) : Option (Partial T) :=
  match p.rest.after c with
  | .never => none
  | rest => some ⟨p.terminal, rest, false⟩

def awaits (blanks : CharSet) (c : Char) (p : Partial T) : Bool := p.fresh && blanks.contains c

def step (blanks : CharSet) (c : Char) (live : List (Partial T)) : List (Partial T) :=
  live.flatMap fun p => (p.take? c).toList ++ if p.awaits blanks c then [p] else []

def complete? (live : List (Partial T)) : Option (Terminal T) :=
  (live.filter (·.rest.nullable)).foldl (fun best p => match best with
    | none => some p.terminal
    | some t => some (if p.terminal.rank > t.rank then p.terminal else t)) none

/-- A complete token is not given up for others of lower rank, nor for blanks, nor for others of its
rank if blanks could come as well. -/
def keeps (complete : Terminal T) (live next : List (Partial T)) : Bool :=
  let rank := (next.filter (!·.fresh)).foldl (fun n p => max n p.terminal.rank) 0
  rank < complete.rank || (rank == complete.rank && (next.all (·.fresh) ||
    (live.any (·.fresh) && !next.any (·.terminal.kind == complete.kind))))

end Partial

structure Attempt (T : Type) where
  found : Option (T × Nat)
  start : Nat
  reach : Nat

variable {T N : Type} [BEq T] [BEq N]

/-- Look for the longest token. It begins behind the characters that can only come before it. -/
def longest (blanks : CharSet) (s : Source) :
    Nat → Nat → Nat → List (Partial T) → Option (T × Nat) → Attempt T
  | 0, start, pos, _, found => ⟨found, start, pos⟩
  | fuel + 1, start, pos, live, found =>
    let complete := Partial.complete? live
    let found := (complete.map fun t => (t.kind, pos)).or found
    match s.chars[pos]? with
    | none => ⟨found, start, pos⟩
    | some c =>
      let next := Partial.step blanks c live
      if next.isEmpty || complete.any (Partial.keeps · live next) then ⟨found, start, pos⟩
      else
        longest blanks s fuel (if next.all (·.fresh) then pos + 1 else start) (pos + 1) next found

def Source.skipMark (s : Source) (pos : Nat) : Nat :=
  if pos = 0 && s.chars[0]? == some '\uFEFF' then 1 else pos

def attempt (g : Grammar T N) (s : Source) (pos : Nat) (terminals : List (Terminal T)) :
    Attempt T :=
  let pos := s.skipMark pos
  longest g.blanks s (s.chars.size + 1) pos pos (terminals.map .start) none

/-- The end of the text that fits nowhere: the place before the next token. `stop` is the end of
what is known to fit nowhere. -/
def faultEnd (g : Grammar T N) (s : Source) : Nat → Nat → Nat
  | 0, stop => stop
  | fuel + 1, stop =>
    let a := attempt g s stop (g.terminals.filter (!·.contextual))
    if a.found.isSome || s.chars.size ≤ a.start then stop
    else faultEnd g s fuel (max a.reach (stop + 1))

def expected (g : Grammar T N) (t : Table T N) (q : Nat) : List (Terminal T) :=
  let mine := g.terminals.filter fun x => !(t.actions q (some x.kind)).isEmpty
  if mine.any (·.contextual) then mine else g.terminals.filter (!·.contextual)

def nextToken (g : Grammar T N) (t : Table T N) (s : Source) (q pos : Nat) : Tree T N :=
  let size := s.chars.size
  let make (label : Label T N) (start stop : Nat) : Tree T N :=
    .leaf label (s.between pos start) (s.between start stop)
  let first := attempt g s pos (expected g t q)
  match first.found with
  | some (k, stop) => make (.token k) first.start stop
  | none =>
    let second := attempt g s pos (g.terminals.filter (!·.contextual))
    match second.found with
    | some (k, stop) => make (.token k) second.start stop
    | none =>
      if size ≤ second.start then make .stop size size
      else make .fault second.start
        (faultEnd g s (size + 1) (max second.reach (second.start + 1)))

end CodeTint.Parse
