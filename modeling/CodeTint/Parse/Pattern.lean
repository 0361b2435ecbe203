/-!
Patterns of characters, read by derivatives: what is left of a pattern after one character is again
a pattern, so a text matches if a pattern that allows the empty text is left of it.
-/

set_option autoImplicit false
set_option relaxedAutoImplicit false

namespace CodeTint.Parse

/-- A set of characters: those in some ranges, or all others except the null character, which stands
for the end of a text. -/
structure CharSet where
  ranges : List (Char × Char)
  negated : Bool := false
  deriving DecidableEq, Repr

namespace CharSet

def of (s : String) : CharSet := { ranges := s.toList.map fun c => (c, c) }

def except (s : String) : CharSet := { of s with negated := true }

def digits (low : Char := '0') : CharSet := { ranges := [(low, '9')] }

def contains (s : CharSet) (c : Char) : Bool :=
  let listed := s.ranges.any fun (low, high) => low ≤ c && c ≤ high
  if s.negated then !listed && c != '\x00' else listed

end CharSet

/-- A pattern of characters. -/
inductive Pattern where
  | never
  | empty
  | one (s : CharSet)
  | append (p q : Pattern)
  | either (p q : Pattern)
  | many (p : Pattern)
  deriving DecidableEq, Repr

namespace Pattern

def word (s : String) : Pattern :=
  s.toList.foldr (fun c p => append (one ⟨[(c, c)], false⟩) p) empty

def allOf (ps : List Pattern) : Pattern := ps.foldr append empty

def maybe (p : Pattern) : Pattern := either p empty

def oneOrMore (p : Pattern) : Pattern := append p (many p)

def nullable : Pattern → Bool
  | never => false
  | empty => true
  | one _ => false
  | append p q => nullable p && nullable q
  | either p q => nullable p || nullable q
  | many _ => true

def join (p q : Pattern) : Pattern :=
  match p with
  | never => never
  | empty => q
  | p => append p q

def choose (p q : Pattern) : Pattern :=
  match p, q with
  | never, q => q
  | p, never => p
  | p, q => if p = q then p else either p q

/-- What is left of a pattern after a character. -/
def after (c : Char) : Pattern → Pattern
  | never => never
  | empty => never
  | one s => if s.contains c then empty else never
  | append p q =>
    let first := join (after c p) q
    if nullable p then choose first (after c q) else first
  | either p q => choose (after c p) (after c q)
  | many p => join (after c p) (many p)

def accepts (p : Pattern) : List Char → Bool
  | [] => nullable p
  | c :: rest => accepts (after c p) rest

end Pattern

end CodeTint.Parse
