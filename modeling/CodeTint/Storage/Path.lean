import CodeTint.Text.Blank

/-!
File paths as texts: their parts between slashes, file names, stems and extensions, and joining.
-/

set_option autoImplicit false
set_option relaxedAutoImplicit false

namespace CodeTint.Path

/-- The parts of a path between slashes; empty parts and single dots name nothing and are left
out. -/
def parts (path : String) : List String :=
  ((Text.cutAt (· == '/') path.toList).map String.ofList).filter fun p => p != "" && p != "."

def isAbsolute (path : String) : Bool := path.startsWith "/"

def fileName? (path : String) : Option String :=
  (parts path).getLast?.filter (fun p => p != "..")

/-- Stem and extension of a file name, cut at its last dot. A name whose only dot leads it is all
stem. -/
def splitName (name : String) : String × Option String :=
  match name.toList.reverse.span (· != '.') with
  | (_, []) => (name, none)
  | (ext, _ :: stem) =>
    if stem.isEmpty then (name, none)
    else (String.ofList stem.reverse, some (String.ofList ext.reverse))

def stem? (path : String) : Option String :=
  (fileName? path).map fun name => (splitName name).1

def extension? (path : String) : Option String :=
  (fileName? path).bind fun name => (splitName name).2

def join (base path : String) : String :=
  if isAbsolute path || base = "" then path
  else if base.endsWith "/" then base ++ path
  else base ++ "/" ++ path

end CodeTint.Path
