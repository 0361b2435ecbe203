import CodeTint.Storage.Path

/-!
A snapshot of files and directories, and what reading, testing and creating gives there. Paths
that are not absolute start at the working directory.
-/

set_option autoImplicit false
set_option relaxedAutoImplicit false

namespace CodeTint

inductive DiskEntry where
  | file (bytes : ByteArray)
  | directory
  deriving Inhabited

/-- Files and directories by the names that lead to them from the root, in any order. -/
structure Disk where
  workingDirectory : List String := []
  entries : List (List String × DiskEntry) := []
  deriving Inhabited

/-- Why a place cannot be read or created. -/
inductive DiskError where
  | notFound
  | notDirectory
  | isDirectory
  | alreadyExists
  | nameTooLong
  | zeroInPath
  | notText
  deriving DecidableEq, Repr

namespace DiskError

def message : DiskError → String
  | .notFound => "No such file or directory (os error 2)"
  | .notDirectory => "Not a directory (os error 20)"
  | .isDirectory => "Is a directory (os error 21)"
  | .alreadyExists => "File exists (os error 17)"
  | .nameTooLong => "File name too long (os error 36)"
  | .zeroInPath => "file name contained an unexpected NUL byte"
  | .notText => "stream did not contain valid UTF-8"

end DiskError

namespace Disk

def at? (d : Disk) (place : List String) : Option DiskEntry :=
  if place.isEmpty then some .directory else d.entries.lookup place

def addDirectory (d : Disk) (place : List String) : Disk :=
  (List.range (place.length + 1)).foldl (fun d n =>
    let p := place.take n
    match d.at? p with
    | some _ => d
    | none => { d with entries := d.entries ++ [(p, .directory)] }) d

/-- Add a file and the directories that lead to it. The files stay in front. -/
def addFile (d : Disk) (place : List String) (bytes : ByteArray) : Disk :=
  let d := d.addDirectory place.dropLast
  let others := d.entries.filter fun e => e.1 != place
  let (folders, files) := others.partition fun e => e.2 matches .directory
  { d with entries := files ++ (place, .file bytes) :: folders }

def maxName : Nat := 255

def maxPath : Nat := 4095

def checkName (name : String) : Except DiskError Unit :=
  if name.utf8ByteSize > maxName then .error .nameTooLong else .ok ()

def checkPath (path : String) : Except DiskError Unit :=
  if path.toList.contains '\x00' then .error .zeroInPath
  else if path = "" then .error .notFound
  else if path.utf8ByteSize > maxPath then .error .nameTooLong
  else .ok ()

/-- Follow the parts of a path from a place that is a directory. -/
def walk (d : Disk) : List String → List String → Except DiskError (List String)
  | place, [] => .ok place
  | place, part :: rest =>
    match d.at? place with
    | some .directory => do
      checkName part
      let next := if part = ".." then place.dropLast else place ++ [part]
      match d.at? next with
      | some _ => walk d next rest
      | none => .error .notFound
    | some (.file _) => .error .notDirectory
    | none => .error .notFound

def start (d : Disk) (path : String) : List String :=
  if Path.isAbsolute path then [] else d.workingDirectory

def locate (d : Disk) (path : String) : Except DiskError (List String) := do
  checkPath path
  let place ← d.walk (d.start path) (Path.parts path)
  if path.endsWith "/" || path.endsWith "/." then
    match d.at? place with
    | some (.file _) => throw .notDirectory
    | _ => return place
  else return place

def find (d : Disk) (path : String) : Except DiskError DiskEntry := do
  match d.at? (← d.locate path) with
  | some e => return e
  | none => throw .notFound

def isDirectory (d : Disk) (path : String) : Bool :=
  match d.find path with
  | .ok .directory => true
  | _ => false

def isFile (d : Disk) (path : String) : Bool :=
  match d.find path with
  | .ok (.file _) => true
  | _ => false

def readText (d : Disk) (path : String) : Except DiskError String := do
  match ← d.find path with
  | .directory => throw .isDirectory
  | .file bytes =>
    match String.fromUTF8? bytes with
    | some text => return text
    | none => throw .notText

/-- The names in a directory, in the order of the entries, which can be any. -/
def list (d : Disk) (path : String) : Except DiskError (List String) := do
  let place ← d.locate path
  match d.at? place with
  | some .directory =>
    return (d.entries.filter fun e => e.1.dropLast == place).filterMap fun e => e.1.getLast?
  | some (.file _) => throw .notDirectory
  | none => throw .notFound

/-- Create a directory and those that lead to it; what is there already has to be one. -/
def createDirectory (d : Disk) (path : String) : Except DiskError Disk := do
  let rec go (d : Disk) : List String → List String → Except DiskError Disk
    | _, [] => .ok d
    | place, part :: rest => do
      checkName part
      let next := if part = ".." then place.dropLast else place ++ [part]
      match d.at? next with
      | some .directory => go d next rest
      | some (.file _) =>
        if rest.isEmpty then .error .alreadyExists else .error .notDirectory
      | none => go (d.addDirectory next) next rest
  checkPath path
  go d (d.start path) (Path.parts path)

end Disk

end CodeTint
