import CodeTint.Parse.Lexer
import CodeTint.Parse.Stack

/-!
Parsing any text. Where a token fits, a version of the parse goes on as the table says. Where it
does not, the versions that remain are those in which a token was put in before it, in which the
parse went back to a state that takes it, and in which it was passed over; of these the cheapest
goes on first.
-/

set_option autoImplicit false
set_option relaxedAutoImplicit false

namespace CodeTint.Parse

structure Parser (T N : Type) where
  grammar : Grammar T N
  table : Table T N
  source : Source

namespace Parser

variable {T N : Type} [BEq T] [BEq N]

def kind? (t : Tree T N) : Option (Option T) :=
  match t.label with
  | .token k => some (some k)
  | .stop => some none
  | _ => none

def actions (m : Parser T N) (q : Nat) (t : Tree T N) : List (Action N) :=
  match kind? t with
  | some k => m.table.actions q k
  | none => []

/-! ### Forming rules -/

/-- The best tree that the last pieces form, with the extra ones behind it. -/
def best (m : Parser T N) (n : N) : List (List (Tree T N)) → Tree T N × List (Tree T N)
  | [] => (.node m.grammar (.rule n) [], [])
  | first :: rest =>
    let form (ts : List (Tree T N)) : Tree T N × List (Tree T N) :=
      let (inner, extras) := Tree.splitExtras ts
      (.node m.grammar (.rule n) inner, extras)
    rest.foldl (fun found ts =>
      let other := form ts
      if found.1.prefersSecond other.1 then other else found) (form first)

/-- Merge the last version into the first other than `v` that it can be merged into. -/
def mergeLast (m : Parser T N) (p : Progress T N) (v : Nat) : Progress T N :=
  let last := p.versions.size - 1
  ((List.range last).findSome? fun j =>
    if j = v then none else p.merge? m.grammar j last).getD p

/-- Form a rule of the last pieces of a version, as new versions. `complete` tells that the rule is
complete whatever follows, so that it may stand anywhere. -/
def reduce (m : Parser T N) (p : Progress T N) (v : Nat) (n : N) (count : Nat)
    (complete : Bool := false) : Progress T N :=
  let stopped := (p.versions.filter (·.status == .halted)).size
  let faultCount := (p.version v).faultCount
  (p.popCount v count).foldl (fun p (place, ways) =>
    let w := p.versions.size
    if w > Progress.maxVersions + Progress.spareVersions + stopped then p
    else
      let (tree, extras) := m.best n ways
      let state := (p.place place).state
      let next := m.table.goto state n
      let tree := { tree with extra := complete && next == state }
      let p := p.add { top := place, faultCount }
      let p := p.push m.grammar w (some tree) next
      let p := extras.foldl (fun p t => p.push m.grammar w (some t) next) p
      m.mergeLast p v) p

structure Reduction (N : Type) where
  head : N
  count : Nat

/-- The rules that may be formed in a state before some tokens, each once, and whether one of the
tokens can be taken. -/
def reductions (m : Parser T N) (q : Nat) (tokens : List T) : List (Reduction N) × Bool :=
  (tokens.flatMap fun k => m.table.actions q (some k)).foldl (fun (found, takes) a =>
    match a with
    | .shift _ repeats => (found, takes || !repeats)
    | .recover => (found, true)
    | .reduce n count =>
      if count == 0 || found.any (fun r => r.head == n && r.count == count) then (found, takes)
      else (found ++ [⟨n, count⟩], takes)
    | _ => (found, takes)) ([], false)

/-- Form all rules that may be formed in a version before a token, or before any, and in the
versions that come of it. Versions that cannot take the token then are given up. The answer tells
whether some version can. -/
def reduceAll (m : Parser T N) (first start : Nat) (token : Option T) :
    Nat → Nat → Nat → Bool → Progress T N → Progress T N × Bool
  | 0, _, _, can, p => (p, can)
  | fuel + 1, round, v, can, p =>
    let size := p.versions.size
    if v ≥ size then (p, can)
    else
      match (List.range v).findSome? fun j =>
        if j < first then none else p.merge? m.grammar j v with
      | some p => reduceAll m first start token fuel (round + 1) v can p
      | none =>
        let (found, takes) := m.reductions (p.top v).state
          (token.elim m.grammar.tokens fun k => [k])
        let (p, last) := found.foldl (fun (p, _) r =>
          let before := p.versions.size
          let p := m.reduce p v r.head r.count
          (p, if p.versions.size > before then some before else none))
          (p, (none : Option Nat))
        let next := if v = start then size else v + 1
        if takes then reduceAll m first start token fuel (round + 1) next true p
        else match last with
          | some w =>
            if round < Progress.maxVersions then
              reduceAll m first start token fuel (round + 1) v can (p.replace w v)
            else if token.isSome then
              reduceAll m first start token fuel (round + 1) next can (p.remove v)
            else reduceAll m first start token fuel (round + 1) next can p
          | none =>
            if token.isSome then
              reduceAll m first start token fuel (round + 1) next can (p.remove v)
            else reduceAll m first start token fuel (round + 1) next can p

def maxRounds : Nat := 256

def reduceAllFrom (m : Parser T N) (p : Progress T N) (v : Nat) (token : Option T) :
    Progress T N × Bool :=
  m.reduceAll p.versions.size v token maxRounds 0 v false p

/-! ### Comparing versions -/

structure Rating where
  cost : Nat
  since : Nat
  faulty : Bool

inductive Verdict where
  | takeLeft | preferLeft | equal | preferRight | takeRight
  deriving DecidableEq, Repr

def maxDifference : Nat := 18 * costs.skippedTree

/-- Compare two versions. The more was parsed since the last fault, the less may a version cost
less. -/
def Rating.compare (a b : Rating) : Verdict :=
  if !a.faulty && b.faulty then (if a.cost < b.cost then .takeLeft else .preferLeft)
  else if a.faulty && !b.faulty then (if b.cost < a.cost then .takeRight else .preferRight)
  else if a.cost < b.cost then
    (if (b.cost - a.cost) * (1 + a.since) > maxDifference then .takeLeft else .preferLeft)
  else if b.cost < a.cost then
    (if (a.cost - b.cost) * (1 + b.since) > maxDifference then .takeRight else .preferRight)
  else .equal

def rating (p : Progress T N) (v : Nat) : Rating :=
  let paused := (p.version v).status == .paused
  { cost := p.cost v costs.recovery + if paused then costs.skippedTree else 0
    since := p.sinceFault v
    faulty := paused || (p.top v).state == broken }

/-- One of some versions is so much better than a rating that it need not be tried. The versions
that are looked at are settled. -/
def betterAmong (mine : Rating) (v position : Nat) :
    List Nat → Progress T N → Progress T N × Bool
  | [], p => (p, false)
  | w :: rest, p =>
    if w == v || (p.version w).status != .active || (p.top w).position.bytes < position then
      betterAmong mine v position rest p
    else
      let p := p.settle w
      match mine.compare (rating p w) with
      | .takeRight => (p, true)
      | .preferRight => if p.mergeable w v then (p, true) else betterAmong mine v position rest p
      | _ => betterAmong mine v position rest p

/-- Some version is so much better that this one need not be tried at a cost. -/
def betterExists (p : Progress T N) (v cost : Nat) : Progress T N × Bool :=
  if p.finished.any (·.cost ≤ cost) then (p, true)
  else
    betterAmong ⟨cost, p.sinceFault v, false⟩ v (p.top v).position.bytes
      (List.range p.versions.size) p

/-- Settle some versions, up to the first that is not inside text that fits nowhere. -/
def settleFaulty : List Nat → Progress T N → Progress T N
  | [], p => p
  | v :: rest, p =>
    let p := p.settle v
    if (rating p v).faulty then settleFaulty rest p else p

/-! ### The end of the text -/

/-- Finish a version: its trees become the children of the last of them that is not extra. -/
def accept (m : Parser T N) (p : Progress T N) (v : Nat) (t : Tree T N) : Progress T N :=
  let p := p.push m.grammar v (some t) initial
  let finish (ts : List (Tree T N)) : Option (Tree T N) :=
    let after := (ts.reverse.takeWhile (·.extra)).reverse
    match ts.take (ts.length - after.length) with
    | [] => none
    | x :: rest =>
      let body := (x :: rest).getLast (by simp)
      some (.node m.grammar body.label ((x :: rest).dropLast ++ body.children ++ after))
  let p := ((p.popAll v).filterMap finish).foldl (fun p root =>
    let finished := match p.finished with
      | some old => if old.prefersSecond root then root else old
      | none => root
    { p with finished := some finished, accepted := p.accepted + 1 }) p
  p.halt v

/-! ### Recovery -/

/-- Go back to a state: what is above it fits nowhere. -/
def goBack (m : Parser T N) (p : Progress T N) (v depth goal : Nat) : Progress T N × Bool :=
  let faultCount := (p.version v).faultCount
  (p.popCount v depth).foldl (fun (p, did) (place, ways) =>
    if (p.place place).state != goal then (p, did)
    else
      let skipped := ways.headD []
      let (place, skipped) := match p.popFault? place with
        | some (t, below) => (below, t.children ++ skipped)
        | none => (place, skipped)
      let (inner, extras) := Tree.splitExtras skipped
      let w := p.versions.size
      let p := p.add { top := place, faultCount }
      let p := if inner.isEmpty then p
        else p.push m.grammar w (some (.node m.grammar .fault inner true)) goal
      (extras.foldl (fun p t => p.push m.grammar w (some t) goal) p, true)) (p, false)

/-- Go back to the nearest state that takes a token, if that may be worth it. -/
def goBackFor (m : Parser T N) (p : Progress T N) (v : Nat) (t : Tree T N) :
    List Landing → Progress T N × Bool
  | [] => (p, false)
  | l :: rest =>
    let position := (p.top v).position
    let known := (List.range p.versions.size).any fun w =>
      (p.top w).state == l.state && (p.top w).position.bytes == position.bytes
    if l.state == broken || l.position.bytes == position.bytes || known then
      goBackFor m p v t rest
    else
      let skipped := position.drop l.position
      let cost := p.cost v costs.recovery + l.depth * costs.skippedTree +
        skipped.length m.grammar.measure * costs.skippedLength +
        skipped.breaks * costs.skippedBreak
      match betterExists p v cost with
      | (p, true) => (p, false)
      | (p, false) =>
        if (m.actions l.state t).isEmpty then goBackFor m p v t rest
        else
          let depth := if p.sinceFault v > 0 then l.depth + 1 else l.depth
          match m.goBack p v depth l.state with
          | (p, true) => (p, true)
          | (p, false) => goBackFor m p v t rest

def skip (m : Parser T N) (p : Progress T N) (v : Nat) (t : Tree T N) : Progress T N :=
  let extra := match (m.actions initial t).getLast? with
    | some .shiftExtra => true
    | _ => t.extra
  let part := Tree.node m.grammar .faultPart [{ t with extra }]
  if p.sinceFault v > 0 then
    match p.popCount v 1 with
    | (place, ways) :: _ =>
      let x := p.version v
      let p := p.setVersion v
        { top := place, faultCount := x.faultCount, landings := x.landings }
      p.push m.grammar v (some (.node m.grammar .faultPart (ways.headD [] ++ [part]))) broken
    | [] => p
  else p.push m.grammar v (some part) broken

/-- Go on with a token that fits nowhere. -/
def recover (m : Parser T N) (p : Progress T N) (v : Nat) (t : Tree T N) : Progress T N :=
  let p := p.settle v
  let cost := p.cost v costs.recovery
  let (p, did) := if t.isFault then (p, false)
    else m.goBackFor p v t ((p.version v).landings.getD [])
  if t.label matches .stop then
    m.accept (p.push m.grammar v (some (.node m.grammar .fault [])) initial) v t
  else if did && p.versions.size > Progress.maxVersions then p.halt v
  else
    let cost := cost + costs.skippedTree + t.total.length m.grammar.measure * costs.skippedLength +
      t.total.breaks * costs.skippedBreak
    match betterExists p v cost with
    | (p, true) => p.halt v
    | (p, false) =>
      let p := m.skip p v t
      settleFaulty (List.range p.versions.size) p

/-- Try tokens that may be missing before another in a version, until with one of them a rule is
complete and the other can be taken. -/
def putIn (m : Parser T N) (v : Nat) (next : Option T) :
    List T → Progress T N → Progress T N × Bool
  | [], p => (p, false)
  | k :: rest, p =>
    let state := (p.top v).state
    let after := m.table.afterToken state k
    if after == broken || after == state || !m.table.reducesFirst after next then
      putIn m v next rest p
    else
      let w := p.versions.size
      let p := p.add { p.version v with landings := none }
      let p := p.push m.grammar w (some (.absent k)) after
      match m.reduceAllFrom p w next with
      | (p, true) => (p, true)
      | (p, false) => putIn m v next rest p

/-- Begin text that fits nowhere in some versions, trying once to put a token in. -/
def beginFault (m : Parser T N) (t : Tree T N) : List Nat → Bool → Progress T N → Progress T N
  | [], _, p => p
  | v :: rest, did, p =>
    let (p, did) := match did, kind? t with
      | false, some next => m.putIn v next m.grammar.tokens p
      | _, _ => (p, did)
    beginFault m t rest did (p.push m.grammar v none broken)

def meetFault (m : Parser T N) (p : Progress T N) (v : Nat) (t : Tree T N) : Progress T N :=
  let before := p.versions.size
  let (p, _) := m.reduceAllFrom p v none
  let size := p.versions.size
  let p := m.beginFault t (v :: (List.range (size - before)).map (before + ·)) false p
  let p := (List.range (size - before)).foldl (fun p _ =>
    (p.merge? m.grammar v before).getD p) p
  m.recover (p.recordLandings v) v t

/-! ### Going on -/

/-- Do what the actions for a token say. Taking it or ending comes last of them; otherwise the last
version that the forming of a rule has begun takes the place of this one. -/
def perform (m : Parser T N) (v : Nat) (t : Option (Tree T N)) :
    List (Action N) → Option Nat → Bool → Progress T N → Progress T N × Option (Option Nat × Bool)
  | [], last, did, p => (p, some (last, did))
  | a :: rest, last, did, p =>
    match a, t with
    | .shift q repeats, some t =>
      if repeats then perform m v (some t) rest last did p
      else (p.push m.grammar v (some { t with extra := false }) q, none)
    | .shiftExtra, some t =>
      (p.push m.grammar v (some { t with extra := true }) (p.top v).state, none)
    | .reduce n count, t =>
      let before := p.versions.size
      let p := m.reduce p v n count t.isNone
      perform m v t rest (if p.versions.size > before then some before else last) true p
    | .accept, some t => (m.accept p v t, none)
    | .recover, some t => (m.recover p v t, none)
    | _, none => perform m v t rest last did p

/-- Take the next token in a version, after forming the rules that are complete before it. -/
def advance (m : Parser T N) (v : Nat) :
    Nat → Option (Tree T N) → Progress T N → Progress T N
  | 0, _, p => p.halt v
  | fuel + 1, known, p =>
    let state := (p.top v).state
    let final := (m.table.state state).final
    let t : Option (Tree T N) :=
      if final then none
      else some (known.getD
        (nextToken m.grammar m.table m.source state (p.top v).position.chars))
    let actions := match t with
      | some t => m.actions state t
      | none => m.table.actions state none
    match m.perform v t actions none false p with
    | (p, none) => p
    | (p, some (some w, _)) => advance m v fuel t (p.replace w v)
    | (p, some (none, did)) =>
      match t with
      | none => p.halt v
      | some t =>
        if did then p.halt v
        else
          let x := p.version v
          p.setVersion v
            { x with status := .paused, waiting := some t, faultCount := (p.top v).count }

/-- Advance a version until it is ahead of all before it, or stops. -/
def advanceVersion (m : Parser T N) (v : Nat) : Nat → Nat → Progress T N → Progress T N × Nat
  | 0, reached, p => (p, reached)
  | fuel + 1, reached, p =>
    if (p.version v).status != .active || p.versions.size ≤ v then (p, reached)
    else
      let p := m.advance v maxRounds none p
      let position := (p.top v).position.bytes
      if position > reached || (v > 0 && position == reached) then (p, position)
      else advanceVersion m v fuel reached p

def advanceAll (m : Parser T N) (fuel : Nat) :
    Nat → Nat → Nat → Progress T N → Progress T N × Nat
  | 0, _, reached, p => (p, reached)
  | rounds + 1, v, reached, p =>
    if v ≥ p.versions.size then (p, reached)
    else
      let (p, reached) := m.advanceVersion v fuel reached p
      advanceAll m fuel rounds (v + 1) reached p

/-- Compare a version with those before it, from `j` on: give up the clearly worse, merge those that
have come to the same, and put the better first. The answer is the place of the last version that
was looked at, plus one. -/
def arrangeOne (m : Parser T N) (mine : Rating) :
    Nat → Nat → Nat → Progress T N → Progress T N × Nat
  | 0, i, _, p => (p, i + 1)
  | fuel + 1, i, j, p =>
    if j ≥ i then (p, i + 1)
    else
      let p := p.settle j
      match (rating p j).compare mine with
      | .takeLeft => (p.remove i, i)
      | .preferLeft | .equal =>
        match p.merge? m.grammar j i with
        | some p => (p, i)
        | none => arrangeOne m mine fuel i (j + 1) p
      | .preferRight =>
        match p.merge? m.grammar j i with
        | some p => (p, i)
        | none => arrangeOne m mine fuel i (j + 1) (p.swap i j)
      | .takeRight => arrangeOne m mine fuel (i - 1) j (p.remove j)

/-- Arrange the versions from `i` on. The answer has the least cost of one that is not inside text
that fits nowhere. -/
def arrange (m : Parser T N) :
    Nat → Nat → Option Nat → Progress T N → Progress T N × Option Nat
  | 0, _, least, p => (p, least)
  | fuel + 1, i, least, p =>
    if i ≥ p.versions.size then (p, least)
    else if (p.version i).status == .halted then arrange m fuel i least (p.remove i)
    else
      let p := p.settle i
      let mine := rating p i
      let least := if mine.faulty then least
        else some ((least.map (min mine.cost)).getD mine.cost)
      let (p, next) := m.arrangeOne mine maxRounds i 0 p
      arrange m fuel next least p

/-- Of the versions that wait, resume the first if no other goes on before it, and give up the
rest. -/
def resume (m : Parser T N) :
    Nat → Nat → Nat → Bool → Option Nat → Progress T N → Progress T N × Option Nat
  | 0, _, _, _, least, p => (p, least)
  | fuel + 1, i, size, going, least, p =>
    if i ≥ size then (p, least)
    else
      let x := p.version i
      if x.status != .paused then resume m fuel (i + 1) size true least p
      else if !going && p.accepted < Progress.maxVersions then
        let least := p.cost i costs.recovery
        let p := p.setVersion i { x with status := .active, waiting := none }
        let p := match x.waiting with
          | some t => m.meetFault p i t
          | none => p
        resume m fuel (i + 1) size true (some least) p
      else resume m fuel i (size - 1) going least (p.remove i)

def condense (m : Parser T N) (p : Progress T N) : Progress T N × Option Nat :=
  let (p, least) := m.arrange maxRounds 0 none p
  let p := { p with versions := p.versions.take Progress.maxVersions }
  m.resume maxRounds 0 p.versions.size false least p

/-- Parse until nothing can be better than what is finished. -/
def loop (m : Parser T N) : Nat → Nat → Progress T N → Progress T N
  | 0, _, p => p
  | fuel + 1, reached, p =>
    let (p, reached) := m.advanceAll fuel maxRounds 0 reached p
    let (p, least) := m.condense p
    if p.versions.isEmpty || p.finished.any (fun t => least.all (t.cost < ·)) then p
    else loop m fuel reached p

def roundsPerChar : Nat := 100

end Parser

def Grammar.parse {T N : Type} [BEq T] [BEq N] (g : Grammar T N) (table : Table T N)
    (text : String) : Tree T N :=
  let source := Source.of text
  let m : Parser T N := ⟨g, table, source⟩
  let p := m.loop (Parser.roundsPerChar * (source.chars.size + 10)) 0 (.start initial)
  p.finished.getD { label := .fault }

end CodeTint.Parse
