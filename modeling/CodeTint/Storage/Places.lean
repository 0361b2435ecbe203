import CodeTint.Storage.Path
import CodeTint.Storage.Disk

/-!
Where the user's files are: all under one directory of the program, which is in the directory for
configuration that the user has set, or else in the usual one of the home directory.
-/

set_option autoImplicit false
set_option relaxedAutoImplicit false

namespace CodeTint

structure Places where
  configHome : Option String := none
  home : Option String := none
  deriving Repr, Inhabited

structure DirectoryError where
  path : String
  cause : DiskError
  deriving Repr

def DirectoryError.message (e : DirectoryError) : String :=
  "Failed to create directory " ++ e.path ++ ": " ++ e.cause.message

namespace Places

def directoryName : String := "codeblock-highlight"

def logName : String := "codeblock-highlight.log"

def configDir (p : Places) : Option String :=
  (p.configHome.or (p.home.map (Path.join · ".config"))).map (Path.join · directoryName)

def themesDir (p : Places) : Option String := p.configDir.map (Path.join · "themes")

def configFile (p : Places) : Option String := p.configDir.map (Path.join · "config.yaml")

def logsDir (p : Places) : Option String := p.configDir.map (Path.join · "logs")

def lastName? (names : List String) : Option String :=
  names.foldl (fun found n => match found with
    | none => some n
    | some m => some (if m < n then n else m)) none

/-- The newest log file, or the one to be written if there is none; nothing without a directory of
logs. The names of log files end in their date. -/
def logFile (p : Places) (d : Disk) : Option String := do
  let dir ← p.logsDir
  let names ← (d.list dir).toOption
  return Path.join dir ((lastName? (names.filter (·.startsWith logName))).getD logName)

def ensure (d : Disk) (path : String) : Except DirectoryError Disk :=
  (d.createDirectory path).mapError (⟨path, ·⟩)

def ensureLogs (p : Places) (d : Disk) : Except DirectoryError (Option (String × Disk)) :=
  match p.configDir, p.logsDir with
  | some config, some logs => do
    let d ← ensure d config
    return some (logs, ← ensure d logs)
  | _, _ => return none

end Places

end CodeTint
