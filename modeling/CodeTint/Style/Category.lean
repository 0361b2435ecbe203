import CodeTint.Text.Blank

/-!
The categories that captured source text falls into. A capture name belongs to the category of
its own name, or else to that of its nearest ancestor in the dotted hierarchy.
-/

set_option autoImplicit false
set_option relaxedAutoImplicit false

namespace CodeTint

abbrev CategoryId := Nat

namespace Category

def names : List String :=
  ["attribute", "boolean", "comment", "constant", "constant.builtin", "constructor", "escape",
   "function", "function.builtin", "function.macro", "function.method", "keyword",
   "keyword.return", "keyword.function", "keyword.operator", "label", "module", "number",
   "operator", "property", "punctuation", "punctuation.bracket", "punctuation.delimiter",
   "punctuation.special", "string", "string.special", "tag", "tag.attribute", "text", "text.uri",
   "type", "type.builtin", "variable", "variable.builtin", "variable.parameter"]

def name? (id : CategoryId) : Option String :=
  names[id]?

def ofName? (name : String) : Option CategoryId :=
  names.findIdx? (· == name)

def ofCapture? (capture : String) : Option CategoryId :=
  (Text.ancestors capture).findSome? ofName?

end Category

end CodeTint
