import CodeTint.Transaction

/-!
A document as the sequence of its tokens, each one position wide, and what it means that one run of
tokens is replaced by another.
-/

set_option autoImplicit false
set_option relaxedAutoImplicit false

namespace CodeTint

/-- What the opening of a block says about it. -/
inductive Opening where
  | paragraph
  | heading (level : UInt8)
  | codeBlock (attrs : CodeAttrs)
  | blockquote
  deriving DecidableEq, Repr

/-- What lies between two neighbouring positions of a document. -/
inductive Token where
  | opening (block : Opening)
  | char (c : Char)
  | closing
  | rule
  deriving DecidableEq, Repr

def textTokens (block : Opening) (text : String) : List Token :=
  .opening block :: (text.toList.map .char ++ [.closing])

namespace Node

mutual

/-- The tokens of a node, from its opening to its closing. -/
def tokens : Node → List Token
  | paragraph text => textTokens .paragraph text
  | heading level text => textTokens (.heading level) text
  | codeBlock attrs text => textTokens (.codeBlock attrs) text
  | blockquote content => .opening .blockquote :: (tokensAll content ++ [.closing])
  | horizontalRule => [.rule]

def tokensAll : List Node → List Token
  | [] => []
  | n :: rest => tokens n ++ tokensAll rest

end

end Node

/-- The tokens of a document. -/
def Document.tokens (d : Document) : List Token := Node.tokensAll d.content

theorem length_textTokens (block : Opening) (text : String) :
    (textTokens block text).length = text.length + 2 := by
  simp [textTokens, String.length_toList]

namespace Node

mutual

theorem length_tokens : ∀ n : Node, n.tokens.length = n.size
  | paragraph text => by simp only [tokens, size, length_textTokens]
  | heading level text => by simp only [tokens, size, length_textTokens]
  | codeBlock attrs text => by simp only [tokens, size, length_textTokens]
  | blockquote content => by simp [tokens, size, length_tokensAll content]
  | horizontalRule => rfl

theorem length_tokensAll : ∀ ns : List Node, (tokensAll ns).length = sizes ns
  | [] => rfl
  | n :: rest => by
      simp only [tokensAll, sizes, List.length_append, length_tokens n, length_tokensAll rest]

end

end Node

theorem Document.length_tokens (d : Document) : d.tokens.length = d.size :=
  Node.length_tokensAll d.content

def Stands (start : Nat) (part whole : List Token) : Prop :=
  ∃ left right, left.length = start ∧ whole = left ++ part ++ right

/-- `new` is `old` with `gone`, which stands at `start`, replaced by `put`. -/
def Spliced (start : Nat) (gone put old new : List Token) : Prop :=
  ∃ left right, left.length = start ∧ old = left ++ gone ++ right ∧ new = left ++ put ++ right

namespace Spliced

variable {start : Nat} {gone put old new : List Token}

theorem whole (gone put : List Token) : Spliced 0 gone put gone put :=
  ⟨[], [], rfl, by simp, by simp⟩

theorem nothing (tokens : List Token) : Spliced 0 [] [] tokens tokens :=
  ⟨[], tokens, rfl, by simp, by simp⟩

theorem map (f : Token → Token) (h : Spliced start gone put old new) :
    Spliced start (gone.map f) (put.map f) (old.map f) (new.map f) := by
  obtain ⟨left, right, rfl, rfl, rfl⟩ := h
  exact ⟨left.map f, right.map f, by simp, by simp, by simp⟩

theorem symm (h : Spliced start gone put old new) : Spliced start put gone new old := by
  obtain ⟨left, right, length, one, two⟩ := h
  exact ⟨left, right, length, two, one⟩

theorem stands_put (h : Spliced start gone put old new) : Stands start put new := by
  obtain ⟨left, right, length, -, whole⟩ := h
  exact ⟨left, right, length, whole⟩

private theorem within (first last : List Token) (h : Spliced start gone put old new) :
    Spliced (first.length + start) gone put (first ++ old ++ last) (first ++ new ++ last) := by
  obtain ⟨left, right, rfl, rfl, rfl⟩ := h
  exact ⟨first ++ left, right ++ last, by simp, by simp, by simp⟩

theorem before (last : List Token) (h : Spliced start gone put old new) :
    Spliced start gone put (old ++ last) (new ++ last) := by
  simpa using h.within [] last

theorem after (first : List Token) (h : Spliced start gone put old new) :
    Spliced (first.length + start) gone put (first ++ old) (first ++ new) := by
  simpa using h.within first []

theorem nested {at_ : Nat} {less more : List Token} (h : Spliced start old new less more)
    (inner : Spliced at_ gone put old new) : Spliced (start + at_) gone put less more := by
  obtain ⟨left, right, rfl, rfl, rfl⟩ := h
  exact inner.within left right

theorem head {p q : Token} {rest : List Token} (h : Spliced start (p :: rest) (q :: rest) old new) :
    Spliced start [p] [q] old new := by
  obtain ⟨left, right, hlen, rfl, rfl⟩ := h
  exact ⟨left, rest ++ right, hlen, by simp, by simp⟩

theorem stop_le (h : Spliced start gone put old new) : start + gone.length ≤ old.length := by
  obtain ⟨left, right, rfl, rfl, rfl⟩ := h
  simp only [List.length_append]
  omega

theorem stands_before (h : Spliced start gone put old new) {pos : Nat} {part : List Token}
    (stands : Stands pos part old) (apart : pos + part.length ≤ start) : Stands pos part new := by
  obtain ⟨left, right, rfl, rfl, rfl⟩ := h
  obtain ⟨front, back, rfl, whole⟩ := stands
  have pre : front ++ part <+: left := by
    refine List.prefix_of_prefix_length_le ⟨back, whole.symm⟩ ⟨gone ++ right, by simp⟩ ?_
    rw [List.length_append]
    exact apart
  obtain ⟨between, rfl⟩ := pre
  exact ⟨front, between ++ put ++ right, rfl, by simp⟩

theorem stands_after (h : Spliced start gone put old new) {pos : Nat} {part : List Token}
    (stands : Stands pos part old) (apart : start + gone.length ≤ pos) :
    Stands (pos - gone.length + put.length) part new := by
  obtain ⟨left, right, rfl, rfl, rfl⟩ := h
  obtain ⟨front, back, rfl, whole⟩ := stands
  have pre : left ++ gone <+: front := by
    refine List.prefix_of_prefix_length_le ⟨right, rfl⟩ ⟨part ++ back, by simp [whole]⟩ ?_
    rw [List.length_append]
    exact apart
  obtain ⟨between, rfl⟩ := pre
  have rest : right = between ++ part ++ back := by
    simpa only [List.append_assoc, List.append_cancel_left_eq] using whole
  refine ⟨left ++ put ++ between, back, ?_, by simp [rest]⟩
  simp only [List.length_append]
  omega

end Spliced

end CodeTint
