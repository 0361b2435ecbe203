import CodeTint.Config.Yaml
import CodeTint.Storage.Places

/-!
Settings in files: read from a file that is named, or from the user's own, where anything amiss
gives the defaults; and written to either.
-/

set_option autoImplicit false
set_option relaxedAutoImplicit false

namespace CodeTint

inductive ConfigError where
  | unreadable (path : String) (cause : DiskError)
  | malformed (path : String)
  deriving Repr

def ConfigError.message : ConfigError → String
  | .unreadable path cause => "Failed to read config at " ++ path ++ ": " ++ cause.message
  | .malformed path => "Failed to parse config at " ++ path

namespace Config

def loadFrom (d : Disk) (path : String) : Except ConfigError Config :=
  match d.readText path with
  | .error cause => .error (.unreadable path cause)
  | .ok yaml =>
    match ofYaml? yaml with
    | some c => .ok c
    | none => .error (.malformed path)

/-- The user's settings, or the defaults if there are none that can be read. -/
def load (d : Disk) (p : Places) : Config :=
  match p.configFile with
  | none => {}
  | some path =>
    match loadFrom d path with
    | .ok c => c
    | .error _ => {}

def save (c : Config) (d : Disk) (place : List String) : Disk :=
  d.addFile place c.toYaml.toUTF8

end Config

end CodeTint
