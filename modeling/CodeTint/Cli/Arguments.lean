import CodeTint.Text.Digits

/-!
The command line: at most one path, options with a value and flags, each at most once. A value
follows its option, or is attached to it: behind an equals sign, or right behind a single letter. It
does not begin with a hyphen unless it is attached or a lone one. Values are checked when the next
argument that belongs to the program is met, so an unknown argument is reported before a bad value
ahead of it.
-/

set_option autoImplicit false
set_option relaxedAutoImplicit false

namespace CodeTint.Cli

inductive OutputFormat where
  | ansi | json
  deriving DecidableEq, Repr, Inhabited

def OutputFormat.word : OutputFormat → String
  | .ansi => "ansi"
  | .json => "json"

/-- Why a command line is refused, or not carried out. -/
inductive UsageError where
  /-- A value is missing, empty where it must not be, or not among those that are allowed. -/
  | invalidValue
  | valueValidation
  | argumentConflict
  | unknownArgument
  | tooManyValues
  | displayHelp
  | displayVersion
  deriving DecidableEq, Repr

/-- What was given on a command line. -/
structure Arguments where
  path : Option String := none
  format : Option OutputFormat := none
  theme : Option String := none
  language : Option String := none
  config : Option String := none
  timeout : Option Nat := none
  listThemes : Bool := false
  listLanguages : Bool := false
  deriving DecidableEq, Repr, Inhabited

inductive Parameter where
  | path | format | theme | language | config | timeout
  deriving DecidableEq, Repr

inductive Flag where
  | listThemes | listLanguages | help | version
  deriving DecidableEq, Repr

abbrev Named := Parameter ⊕ Flag

def longNames : List (String × Named) :=
  [("format", .inl .format), ("theme", .inl .theme), ("language", .inl .language),
   ("config", .inl .config), ("timeout-ms", .inl .timeout), ("list-themes", .inr .listThemes),
   ("list-languages", .inr .listLanguages), ("help", .inr .help), ("version", .inr .version)]

def shortNames : List (Char × Named) :=
  [('f', .inl .format), ('t', .inl .theme), ('l', .inl .language), ('h', .inr .help),
   ('V', .inr .version)]

def natural? (s : String) : Option Nat :=
  let digits := match s.toList with
    | '+' :: rest => rest
    | cs => cs
  (Text.numeral? 10 digits).filter (· < Nat.pow 2 64)

def path? (s : String) : Except UsageError String :=
  if s = "" then .error .invalidValue else .ok s

def format? (s : String) : Except UsageError OutputFormat :=
  match s with
  | "ansi" => .ok .ansi
  | "json" => .ok .json
  | _ => .error .invalidValue

namespace Arguments

def fill {α : Type} (old : Option α) (value : Except UsageError α) :
    Except UsageError (Option α) :=
  if old.isSome then .error .argumentConflict else value.map some

def set (a : Arguments) (p : Parameter) (value : String) : Except UsageError Arguments :=
  match p with
  | .path => do return { a with path := ← fill a.path (path? value) }
  | .format => do return { a with format := ← fill a.format (format? value) }
  | .theme => do return { a with theme := ← fill a.theme (.ok value) }
  | .language => do return { a with language := ← fill a.language (.ok value) }
  | .config => do return { a with config := ← fill a.config (path? value) }
  | .timeout =>
    let number := match natural? value with
      | some n => .ok n
      | none => .error .valueValidation
    do return { a with timeout := ← fill a.timeout number }

def raise (a : Arguments) (f : Flag) : Except UsageError Arguments :=
  match f with
  | .help => .error .displayHelp
  | .version => .error .displayVersion
  | .listThemes =>
    if a.listThemes then .error .argumentConflict else .ok { a with listThemes := true }
  | .listLanguages =>
    if a.listLanguages then .error .argumentConflict else .ok { a with listLanguages := true }

end Arguments

/-- A command line that is being read. -/
structure Reading where
  arguments : Arguments := {}
  /-- A parameter whose value is not checked yet, or still to come. -/
  pending : Option (Parameter × Option String) := none
  hasPath : Bool := false
  onlyPaths : Bool := false
  deriving Repr

namespace Reading

def resolve (r : Reading) : Except UsageError Reading :=
  match r.pending with
  | none => .ok r
  | some (_, none) => .error .invalidValue
  | some (p, some value) => do
    return { r with arguments := ← r.arguments.set p value, pending := none }

/-- Take a parameter with the value that is attached to it, or that is still to come. -/
def takeParameter (r : Reading) (p : Parameter) (attached : Option String) :
    Except UsageError Reading := do
  let r ← r.resolve
  match attached with
  | some value => return { r with arguments := ← r.arguments.set p value }
  | none => return { r with pending := some (p, none) }

def takeFlag (r : Reading) (f : Flag) : Except UsageError Reading := do
  let r ← r.resolve
  return { r with arguments := ← r.arguments.raise f }

/-- Take a word behind two hyphens, with what follows an equals sign in it. -/
def takeLong (r : Reading) (word : List Char) : Except UsageError Reading :=
  let name := word.takeWhile (· != '=')
  let attached : Option String := match word.drop name.length with
    | _ :: value => some (String.ofList value)
    | [] => none
  match longNames.lookup (String.ofList name) with
  | none => .error .unknownArgument
  | some (.inl p) => r.takeParameter p attached
  | some (.inr f) => if attached.isSome then .error .tooManyValues else r.takeFlag f

/-- Take letters behind one hyphen; what follows that of a parameter is its value. -/
def takeShort (r : Reading) : List Char → Except UsageError Reading
  | [] => .ok r
  | c :: rest =>
    match shortNames.lookup c with
    | none => .error .unknownArgument
    | some (.inr f) => do (← r.takeFlag f).takeShort rest
    | some (.inl p) =>
      let value := match rest with
        | '=' :: value => value
        | value => value
      r.takeParameter p (if rest.isEmpty then none else some (String.ofList value))

def takePath (r : Reading) (path : String) : Except UsageError Reading :=
  if r.hasPath then .error .unknownArgument
  else do
    let r ← r.resolve
    return { r with pending := some (.path, some path), hasPath := true }

def take (r : Reading) (argument : String) : Except UsageError Reading :=
  if r.onlyPaths then r.takePath argument
  else match argument.toList with
    | ['-', '-'] => .ok { r with onlyPaths := true }
    | '-' :: '-' :: word => r.takeLong word
    | '-' :: c :: rest => r.takeShort (c :: rest)
    | _ =>
      match r.pending with
      | some (p, none) => .ok { r with pending := some (p, some argument) }
      | _ => r.takePath argument

end Reading

def Arguments.parse (given : List String) : Except UsageError Arguments := do
  let r ← given.foldlM Reading.take {}
  return (← r.resolve).arguments

end CodeTint.Cli
