import CodeTint.Cli.Run

/-!
The program: it takes a snapshot of the files that a command line can touch, runs the command line
on it and prints what that leaves.
-/

set_option autoImplicit false
set_option relaxedAutoImplicit false

namespace CodeTint.Cli

def placeOf (d : Disk) (path : String) : List String :=
  (Path.parts path).foldl (fun place part =>
    if part = ".." then place.dropLast else place ++ [part]) (d.start path)

def pathOf (place : List String) : String := "/" ++ Text.join "/" place

/-- Add what is at a place. Nothing is added if it cannot be read. -/
def addPlace (d : Disk) (place : List String) : IO Disk := do
  try
    let path ← IO.FS.realPath (pathOf place)
    if ← path.isDir then return d.addDirectory place
    else return d.addFile place (← IO.FS.readBinFile path)
  catch _ => return d

def addPath (d : Disk) (path : String) : IO Disk := do
  let parts := Path.parts path
  (List.range parts.length).foldlM (fun d n =>
    addPlace d (placeOf d ((if Path.isAbsolute path then "/" else "") ++
      Text.join "/" (parts.take (n + 1))))) d

def addFolder (d : Disk) (path : String) : IO Disk := do
  let d ← addPath d path
  try
    let entries ← (← IO.FS.realPath path).readDir
    entries.toList.foldlM (fun d e => addPath d (Path.join path e.fileName)) d
  catch _ => return d

def namedPaths (arguments : List String) : List String :=
  match Arguments.parse arguments with
  | .ok a => a.path.toList ++ a.config.toList
  | .error _ => []

def readsStdin (arguments : List String) : Bool :=
  match Arguments.parse arguments with
  | .ok a => a.path.isNone && !a.listThemes && !a.listLanguages
  | .error _ => false

/-- What a run with a command line meets. -/
def World.gather (arguments : List String) : IO World := do
  let places : Places :=
    { configHome := ← IO.getEnv "XDG_CONFIG_HOME", home := ← IO.getEnv "HOME" }
  let workingDirectory := Path.parts (← IO.currentDir).toString
  let d : Disk := ({} : Disk).addDirectory workingDirectory
  let d := { d with workingDirectory }
  let d ← (namedPaths arguments ++ places.configFile.toList).foldlM addPath d
  let d ← places.themesDir.toList.foldlM addFolder d
  let stdin ← if readsStdin arguments then (← IO.getStdin).readBinToEnd else pure ByteArray.empty
  return { disk := d, places, stdin }

end CodeTint.Cli

open CodeTint in
def main (arguments : List String) : IO UInt32 := do
  let result := Cli.run arguments (← Cli.World.gather arguments)
  IO.print result.stdout
  IO.eprint result.stderr
  return UInt32.ofNat result.code
