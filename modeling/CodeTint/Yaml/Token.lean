import CodeTint.Yaml.Tag

/-!
The tokens of a document in the block and flow notation of YAML, and the causes of refusing one.
-/

set_option autoImplicit false
set_option relaxedAutoImplicit false

namespace CodeTint.Yaml

inductive ScalarStyle where
  | plain | singleQuoted | doubleQuoted | literal | folded
  deriving DecidableEq, Repr, Inhabited

/-- A token. Block collections are opened and closed by indentation, flow ones by brackets. -/
inductive Token where
  | streamEnd
  | versionDirective (major minor : Nat)
  | tagDirective (handle : String) (start : Tag)
  | documentStart
  | documentEnd
  | blockSequenceStart
  | blockMappingStart
  | blockEnd
  | flowSequenceStart
  | flowSequenceEnd
  | flowMappingStart
  | flowMappingEnd
  | blockEntry
  | flowEntry
  | key
  | value
  | alias (name : String)
  | anchor (name : String)
  | tag (handle : String) (suffix : Tag)
  | scalar (text : String) (style : ScalarStyle)
  deriving DecidableEq, Repr, Inhabited

/-- Why a text is refused. -/
inductive Error where
  /-- A character that no document may hold, or that starts no token. -/
  | character
  /-- A line is indented in a way that fits no open collection. -/
  | indentation
  /-- A line that has to be a key lacks its colon, or a colon lacks its key. -/
  | key
  /-- A quoted scalar is not closed, or holds an unknown escape. -/
  | quoted
  | blockHeader
  /-- A directive, anchor or tag is malformed, or names nothing. -/
  | property
  | arrangement
  | documents
  deriving DecidableEq, Repr

end CodeTint.Yaml
