import CodeTint.Config
import CodeTint.Yaml.Printer
import CodeTint.Yaml.Reading

/-!
Settings in the notation of YAML: one record of up to five fields. A field that is left out has its
default, an unknown one is passed over, and one that recurs is refused.
-/

set_option autoImplicit false
set_option relaxedAutoImplicit false

namespace CodeTint.Config

open Yaml.Reading in
def ofNode (n : Yaml.Node) : Yaml.Reading Config := do
  let fields ← fields n
  let d : Config := {}
  return {
    defaultTheme := (← field "default_theme" text fields).getD d.defaultTheme
    defaultLanguage := (← field "default_language" text fields).getD d.defaultLanguage
    nodeClass := (← field "node_class" text fields).getD d.nodeClass
    classPrefix := (← field "language_class_prefix" text fields).getD d.classPrefix
    retryAfter := (← field "retry_after_ms" (natural (Nat.pow 2 64)) fields).getD d.retryAfter }

def ofYaml? (yaml : String) : Option Config :=
  match Yaml.Tree.parse yaml with
  | .ok t => Yaml.Reading.run ofNode t
  | .error _ => none

def toYaml (c : Config) : String :=
  Yaml.Printer.record
    [("default_theme", .text c.defaultTheme), ("default_language", .text c.defaultLanguage),
     ("node_class", .text c.nodeClass), ("language_class_prefix", .text c.classPrefix),
     ("retry_after_ms", .natural c.retryAfter)]

end CodeTint.Config
