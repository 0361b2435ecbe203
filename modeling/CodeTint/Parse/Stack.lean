import CodeTint.Parse.Tree

/-!
The versions of a parse. A version is a stack of trees, each on top of the state before it; versions
share what they have in common, and one that several ways lead to has a link for each of them.
-/

set_option autoImplicit false
set_option relaxedAutoImplicit false

namespace CodeTint.Parse

/-- One way that leads to a place: the place below, and the tree on top of it. No tree stands for
the begin of text that fits nowhere. -/
structure Link (T N : Type) where
  below : Nat
  tree : Option (Tree T N)

structure Place (T N : Type) where
  state : Nat
  position : Extent := {}
  cost : Nat := 0
  count : Nat := 0
  links : List (Link T N) := []

instance {T N : Type} : Inhabited (Place T N) := ⟨{ state := 0 }⟩

/-- A state that was left, and how many trees have been put on top of it. -/
structure Landing where
  position : Extent
  depth : Nat
  state : Nat
  deriving Repr

inductive Status where
  | active
  /-- Its next token does not fit; it waits for the other versions. -/
  | paused
  | halted
  deriving DecidableEq, Repr

structure Version (T N : Type) where
  top : Nat
  landings : Option (List Landing) := none
  faultCount : Nat := 0
  status : Status := .active
  waiting : Option (Tree T N) := none

instance {T N : Type} : Inhabited (Version T N) := ⟨{ top := 0 }⟩

/-- All versions, the most promising first, with the best finished tree. -/
structure Progress (T N : Type) where
  places : Array (Place T N)
  versions : Array (Version T N)
  finished : Option (Tree T N) := none
  accepted : Nat := 0

namespace Progress

variable {T N : Type} [BEq T] [BEq N]

def maxVersions : Nat := 6

def spareVersions : Nat := 4

def maxLinks : Nat := 8

def maxWays : Nat := 64

def maxDepth : Nat := 16

def start (state : Nat) : Progress T N :=
  { places := #[{ state }], versions := #[{ top := 0 }] }

def place (p : Progress T N) (n : Nat) : Place T N := p.places.getD n default

def version (p : Progress T N) (v : Nat) : Version T N := p.versions.getD v default

def top (p : Progress T N) (v : Nat) : Place T N := p.place (p.version v).top

def setVersion (p : Progress T N) (v : Nat) (x : Version T N) : Progress T N :=
  { p with versions := p.versions.setIfInBounds v x }

def remove (p : Progress T N) (v : Nat) : Progress T N :=
  { p with versions := p.versions.eraseIdxIfInBounds v }

def add (p : Progress T N) (x : Version T N) : Progress T N :=
  { p with versions := p.versions.push x }

def swap (p : Progress T N) (v w : Nat) : Progress T N :=
  (p.setVersion v (p.version w)).setVersion w (p.version v)

def halt (p : Progress T N) (v : Nat) : Progress T N :=
  p.setVersion v { p.version v with status := .halted }

def replace (p : Progress T N) (v w : Nat) : Progress T N :=
  if v = w then p
  else
    let x := p.version v
    (p.setVersion w { x with landings := x.landings.or (p.version w).landings }).remove v

/-- Put a tree on top of a version, or the begin of text that fits nowhere. -/
def push (p : Progress T N) (g : Grammar T N) (v : Nat) (tree : Option (Tree T N)) (state : Nat) :
    Progress T N :=
  let x := p.version v
  let old := p.place x.top
  let new : Place T N := match tree with
    | some t => { state
                  position := old.position.add t.total
                  cost := old.cost + t.cost
                  count := old.count + t.count g
                  links := [⟨x.top, tree⟩] }
    | none => { old with state, links := [⟨x.top, none⟩] }
  let faultCount := if tree.isNone then new.count else x.faultCount
  setVersion { p with places := p.places.push new } v { x with top := p.places.size, faultCount }

/-! ### Ways down -/

/-- A way down from the top: where it has come to, the trees on it, the lowest first, and how many
of them are not extra. -/
structure Way (T N : Type) where
  at_ : Nat
  trees : List (Tree T N) := []
  count : Nat := 0

def Way.along (w : Way T N) (l : Link T N) : Way T N :=
  match l.tree with
  | some t => ⟨l.below, t :: w.trees, if t.extra then w.count else w.count + 1⟩
  | none => ⟨l.below, w.trees, w.count + 1⟩

/-- Follow each way one link further, its first link in its place and the others behind all. -/
def further (p : Progress T N) : List (Way T N) → List (Way T N) → List (Way T N) → List (Way T N)
  | [], kept, added => kept ++ added
  | w :: rest, kept, added =>
    match (p.place w.at_).links with
    | [] => further p rest kept added
    | l :: others =>
      let room := maxWays - (kept.length + 1 + rest.length + added.length)
      further p rest (kept ++ [w.along l]) (added ++ (others.take room).map w.along)

/-- The ways down from the top to where they are wanted, shorter ones first. -/
def ways (p : Progress T N) (wanted : Way T N → Bool) : Nat → List (Way T N) → List (Way T N)
  | 0, _ => []
  | _, [] => []
  | fuel + 1, current =>
    let (found, open_) := current.partition wanted
    found ++ ways p wanted fuel (p.further open_ [] [])

def gather (ways : List (Way T N)) : List (Nat × List (List (Tree T N))) :=
  ways.foldl (fun groups w =>
    if groups.any (·.1 == w.at_) then
      groups.map fun (n, ts) => if n == w.at_ then (n, ts ++ [w.trees]) else (n, ts)
    else groups ++ [(w.at_, [w.trees])]) []

def popCount (p : Progress T N) (v count : Nat) : List (Nat × List (List (Tree T N))) :=
  gather (p.ways (fun w => w.count == count) (p.places.size + 1) [⟨(p.version v).top, [], 0⟩])

def popAll (p : Progress T N) (v : Nat) : List (List (Tree T N)) :=
  (p.ways (fun w => (p.place w.at_).links.isEmpty) (p.places.size + 1)
    [⟨(p.version v).top, [], 0⟩]).map (·.trees)

def popFault? (p : Progress T N) (place : Nat) : Option (Tree T N × Nat) :=
  (p.place place).links.findSome? fun l => match l.tree with
    | some t => if t.isFault then some (t, l.below) else none
    | none => none

/-- The landings on the ways from the top, the last first. One is left out if its state is among
those found last at its depth or below. -/
def landings (p : Progress T N) : Nat → List (Way T N) → List Landing → List Landing
  | 0, _, found => found
  | _, [], found => found
  | fuel + 1, current, found =>
    let near := current.filter fun w => w.count ≤ maxDepth
    let found := near.foldl (fun (found : List Landing) w =>
      let x := p.place w.at_
      if (found.takeWhile (w.count ≤ ·.depth)).any fun l =>
          l.depth == w.count && l.state == x.state then found
      else ⟨x.position, w.count, x.state⟩ :: found) found
    landings p fuel (p.further near [] []) found

def recordLandings (p : Progress T N) (v : Nat) : Progress T N :=
  let x := p.version v
  let found := p.landings (p.places.size + 1) [⟨x.top, [], 0⟩] []
  p.setVersion v { x with landings := some found.reverse }

/-! ### Merging -/

def mergeable (p : Progress T N) (v w : Nat) : Bool :=
  let a := p.top v
  let b := p.top w
  ((p.version v).status == .active && (p.version w).status == .active) &&
    a.state == b.state && a.position.bytes == b.position.bytes && a.cost == b.cost

def alikeTrees : Option (Tree T N) → Option (Tree T N) → Bool
  | none, none => true
  | some a, some b => a.alike b
  | _, _ => false

/-- Add a link to a place. If a link with such a tree is there, the places below are merged, or
nothing is done where they cannot differ. -/
def link (g : Grammar T N) : Nat → Nat → Progress T N → Link T N → Progress T N
  | 0, _, p, _ => p
  | fuel + 1, n, p, l =>
    if l.below = n then p
    else
      let x := p.place n
      let below := p.place l.below
      let same (e : Link T N) : Bool :=
        let y := p.place e.below
        alikeTrees e.tree l.tree && (e.below == l.below ||
          (y.state == below.state && y.position.bytes == below.position.bytes &&
            y.cost == below.cost))
      match x.links.find? same with
      | some e =>
        if e.below == l.below then p
        else below.links.foldl (fun p m => link g fuel e.below p m) p
      | none =>
        if x.links.length == maxLinks then p
        else
          let count := below.count + (l.tree.map (·.count g)).getD 0
          let x := { x with links := x.links ++ [l], count := max x.count count }
          { p with places := p.places.setIfInBounds n x }

/-- Merge a version into an earlier one, if they have come to the same. -/
def merge? (p : Progress T N) (g : Grammar T N) (v w : Nat) : Option (Progress T N) :=
  if p.mergeable v w then
    let n := (p.version v).top
    let p := (p.top w).links.foldl (fun p l => link g (p.places.size + 1) n p l) p
    let p := if (p.top v).state == 0 then
        p.setVersion v { p.version v with faultCount := (p.top v).count }
      else p
    some (p.remove w)
  else none

/-! ### Costs -/

/-- What a version costs. Text that fits nowhere costs from its begin. -/
def cost (p : Progress T N) (v : Nat) (recovery : Nat) : Nat :=
  let x := p.top v
  let begins := x.state == 0 && (match x.links with
    | l :: _ => l.tree.isNone
    | [] => false)
  x.cost + if (p.version v).status == .paused || begins then recovery else 0

def settle (p : Progress T N) (v : Nat) : Progress T N :=
  let x := p.version v
  p.setVersion v { x with faultCount := min x.faultCount (p.top v).count }

def sinceFault (p : Progress T N) (v : Nat) : Nat := (p.top v).count - (p.version v).faultCount

end Progress

end CodeTint.Parse
