import CodeTint.Text.Blank

/-!
The block nodes of a document and their sizes. A text block takes one position for each character
and two for its ends, a block quote two around its content, a horizontal rule one.
-/

set_option autoImplicit false
set_option relaxedAutoImplicit false

namespace CodeTint

/-- The attributes of a code block, as written by the user. -/
structure CodeAttrs where
  language : Option String := none
  theme : Option String := none
  deriving DecidableEq, Repr, Inhabited

inductive CodeAttr where
  | language | theme
  deriving DecidableEq, Repr

def CodeAttrs.set (attrs : CodeAttrs) (attr : CodeAttr) (value : Option String) : CodeAttrs :=
  match attr with
  | .language => { attrs with language := value }
  | .theme => { attrs with theme := value }

inductive NodeKind where
  | paragraph | heading | codeBlock | blockquote | horizontalRule
  deriving DecidableEq, Repr

def NodeKind.word : NodeKind → String
  | .paragraph => "paragraph"
  | .heading => "heading"
  | .codeBlock => "code_block"
  | .blockquote => "blockquote"
  | .horizontalRule => "horizontal_rule"

inductive Node where
  | paragraph (text : String)
  | heading (level : UInt8) (text : String)
  | codeBlock (attrs : CodeAttrs) (text : String)
  | blockquote (content : List Node)
  | horizontalRule
  deriving Repr, Inhabited

namespace Node

def kind : Node → NodeKind
  | paragraph _ => .paragraph
  | heading _ _ => .heading
  | codeBlock _ _ => .codeBlock
  | blockquote _ => .blockquote
  | horizontalRule => .horizontalRule

mutual

def size : Node → Nat
  | paragraph text => text.length + 2
  | heading _ text => text.length + 2
  | codeBlock _ text => text.length + 2
  | blockquote content => sizes content + 2
  | horizontalRule => 1

def sizes : List Node → Nat
  | [] => 0
  | n :: rest => size n + sizes rest

end

def text? : Node → Option String
  | paragraph text => some text
  | heading _ text => some text
  | codeBlock _ text => some text
  | blockquote _ => none
  | horizontalRule => none

def children : Node → List Node
  | blockquote content => content
  | _ => []

def codeAttrs? : Node → Option CodeAttrs
  | codeBlock attrs _ => some attrs
  | _ => none

def isTextblock (n : Node) : Bool := n.text?.isSome

def isContainer : Node → Bool
  | blockquote _ => true
  | _ => false

def isCodeBlock : Node → Bool
  | codeBlock _ _ => true
  | _ => false

mutual

def same : Node → Node → Bool
  | paragraph a, paragraph b => a == b
  | heading l a, heading m b => l == m && a == b
  | codeBlock p a, codeBlock q b => p == q && a == b
  | blockquote c, blockquote d => sameAll c d
  | horizontalRule, horizontalRule => true
  | _, _ => false

def sameAll : List Node → List Node → Bool
  | [], [] => true
  | a :: as, b :: bs => same a b && sameAll as bs
  | _, _ => false

end

instance : BEq Node := ⟨same⟩

end Node

end CodeTint
