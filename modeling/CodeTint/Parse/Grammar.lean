import CodeTint.Parse.Pattern

/-!
Grammars: the tokens of a text with their patterns, the rules that arrange them, and what may stand
between any two of them.
-/

set_option autoImplicit false
set_option relaxedAutoImplicit false

namespace CodeTint.Parse

/-- A kind of token. -/
structure Terminal (T : Type) where
  kind : T
  pattern : Pattern
  immediate : Bool := false
  rank : Nat := 0
  /-- It is looked for only where it can stand; all others are looked for also where they cannot. -/
  contextual : Bool := false
  visible : Bool := true

inductive Symbol (T N : Type) where
  | token (t : T)
  | rule (n : N)
  deriving DecidableEq, Repr

structure Rule (T N : Type) where
  head : N
  body : List (Symbol T N)

/-- How the name of a rule shows in a tree. -/
inductive Visibility where
  | shown
  | choice
  | repetition
  deriving DecidableEq, Repr

/-- What the length of a text is counted in where it fits nowhere. -/
inductive Measure where
  | bytes
  | characters
  deriving DecidableEq, Repr

/-- A grammar. Only the goal may be empty. -/
structure Grammar (T N : Type) where
  goal : N
  terminals : List (Terminal T)
  rules : List (Rule T N)
  visibility : N → Visibility
  extraTokens : List T
  /-- Rules that may stand anywhere; each begins with a token. -/
  extraRules : List N
  blanks : CharSet
  /-- Text that fits nowhere costs more the longer it is. -/
  measure : Measure := .bytes

namespace Grammar

variable {T N : Type} [BEq T] [BEq N]

def tokens (g : Grammar T N) : List T := g.terminals.map (·.kind)

def isVisible (g : Grammar T N) (t : T) : Bool :=
  (g.terminals.find? (·.kind == t)).any (·.visible)

end Grammar

end CodeTint.Parse
