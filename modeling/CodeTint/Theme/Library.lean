import CodeTint.Storage.Disk
import CodeTint.Theme.Builtin

/-!
The themes of a user's directory together with the builtin ones. A user's theme hides the builtin
theme of the same identifier, both when themes are listed and when one is loaded.
-/

set_option autoImplicit false
set_option relaxedAutoImplicit false

namespace CodeTint

inductive ThemeSource where
  | user | builtin
  deriving DecidableEq, Repr

def ThemeSource.word : ThemeSource → String
  | .user => "user"
  | .builtin => "builtin"

structure ThemeListing where
  id : String
  name : String
  source : ThemeSource
  deriving DecidableEq, Repr

/-- The disk, and the directory of a user's themes if there can be one. -/
structure ThemeLibrary where
  disk : Disk
  directory : Option String

namespace ThemeLibrary

def extensions : List String := ["yaml", "yml"]

def fileOf (dir id ext : String) : String := Path.join dir (id ++ "." ++ ext)

def userFile? (l : ThemeLibrary) (id : String) : Option String := do
  let dir ← l.directory
  (extensions.map (fileOf dir id)).find? l.disk.isFile

def contains (l : ThemeLibrary) (id : String) : Bool :=
  (l.userFile? id).isSome || ThemeData.builtins.any (·.1 == id)

/-- Read a theme from a file; its identifier is the stem of the file's name. -/
def loadFrom [ThemeReader] (disk : Disk) (path : String) : Except ThemeError Theme :=
  match disk.readText path with
  | .error e => .error (.unreadable path e.message)
  | .ok text =>
    match Path.stem? path with
    | some id => Theme.ofYaml id text
    | none => .error (.fileName path)

def load [ThemeReader] (l : ThemeLibrary) (id : String) : Except ThemeError Theme :=
  match l.userFile? id with
  | some path => loadFrom l.disk path
  | none => Theme.ofBuiltin id

/-- The value of a line that starts with `name:`, without quotes around it. -/
def named? (line : String) : Option String :=
  let trimmed := Text.trim line
  if trimmed.startsWith "name:" then
    let value := Text.trim (String.ofList (trimmed.toList.drop 5))
    some (Text.trimOf '\'' (Text.trimOf '"' value))
  else none

def nameLine? (text : String) : Option String := (Text.lines text).findSome? named?

def listedName (l : ThemeLibrary) (path id : String) : String :=
  match l.disk.readText path with
  | .ok text => (nameLine? text).getD id
  | .error _ => id

/-- The list of the user's themes after one more name in their directory. -/
def addListing (l : ThemeLibrary) (dir : String) (found : List ThemeListing) (name : String) :
    List ThemeListing :=
  match Path.splitName name with
  | (id, some ext) =>
    if extensions.contains ext && !found.any (·.id == id) then
      found ++ [⟨id, l.listedName (Path.join dir name) id, .user⟩]
    else found
  | (_, none) => found

/-- The user's themes, one for each identifier, in the order of the directory. -/
def userListings (l : ThemeLibrary) : List ThemeListing :=
  match l.directory with
  | none => []
  | some dir =>
    match l.disk.list dir with
    | .error _ => []
    | .ok names => names.foldl (l.addListing dir) []

/-- The themes that can be chosen: the user's, then the builtin ones that these do not hide. -/
def listings (l : ThemeLibrary) : List ThemeListing :=
  let user := l.userListings
  user ++ (ThemeData.builtins.filter fun b => !user.any (·.id == b.1)).map fun (id, data) =>
    ⟨id, data.name, .builtin⟩

end ThemeLibrary

end CodeTint
