import CodeTint.Cli.Arguments
import CodeTint.Config.Store
import CodeTint.Document.Reader
import CodeTint.Language

/-!
What a command line asks for: to list themes or languages, or to highlight a document, a source file
or what comes on standard input; and with which settings.
-/

set_option autoImplicit false
set_option relaxedAutoImplicit false

namespace CodeTint.Cli

/-- Where the document comes from. -/
inductive InputSource where
  | stdin
  | document (path : String)
  /-- Any other file; its text becomes the only code block. -/
  | sourceFile (path : String)
  deriving DecidableEq, Repr

inductive Task where
  | listThemes
  | listLanguages
  | highlight (source : InputSource)
  deriving DecidableEq, Repr

/-- A command line made sense of. -/
structure Settings where
  task : Task
  format : OutputFormat
  timeout : Nat
  configPath : Option String
  theme : Option String
  language : Option String
  deriving DecidableEq, Repr

inductive SettingsError where
  | bothLists
  | noTime
  | isDirectory (path : String)
  deriving DecidableEq, Repr

def SettingsError.message : SettingsError → String
  | .bothLists => "--list-themes and --list-languages are mutually exclusive"
  | .noTime => "--timeout-ms must be greater than zero"
  | .isDirectory path => path ++ " is a directory"

def defaultTimeout : Nat := 5000

def isDocumentPath (path : String) : Bool :=
  (Path.extension? path).any (Text.eqIgnoreCase "json")

def sourceOf (d : Disk) : Option String → Except SettingsError InputSource
  | none => .ok .stdin
  | some path =>
    if d.isDirectory path then .error (.isDirectory path)
    else if isDocumentPath path then .ok (.document path)
    else .ok (.sourceFile path)

def Arguments.settings (a : Arguments) (d : Disk) : Except SettingsError Settings := do
  if a.listThemes && a.listLanguages then throw .bothLists
  let timeout := a.timeout.getD defaultTimeout
  if timeout = 0 then throw .noTime
  let task ←
    if a.listThemes then pure .listThemes
    else if a.listLanguages then pure .listLanguages
    else (sourceOf d a.path).map .highlight
  return { task, timeout, format := a.format.getD .ansi, configPath := a.config,
           theme := Text.nonBlank a.theme, language := Text.nonBlank a.language }

/-- The settings of the highlighter: those of a file, with what the command line overrides. -/
def Settings.config (s : Settings) (d : Disk) (p : Places) : Except ConfigError Config := do
  let config ← match s.configPath with
    | some path => Config.loadFrom d path
    | none => pure (Config.load d p)
  return { config with
    defaultTheme := s.theme.getD config.defaultTheme
    defaultLanguage := s.language.getD config.defaultLanguage }

inductive InputError where
  | unreadable (cause : DiskError)
  | malformed (cause : Json.ReadError)
  deriving Repr

def InputError.message : InputError → String
  | .unreadable cause => cause.message
  | .malformed cause => "Invalid document JSON: " ++ cause.message

/-- The content of a document with a text as its only code block. Plain text leaves the language
open. -/
def sourceContent (text : String) (language : Language) : List Node :=
  let attr := if language = .plain then none else some language.id
  [.codeBlock { language := attr } text]

def contentOfInput (input : String) : List Node :=
  match Document.parse input with
  | .ok content => content
  | .error _ => sourceContent input .plain

def languageOfPath (path : String) : Language :=
  (Path.extension? path).elim .plain Language.ofExtension

/-- Read the content of the document. -/
def InputSource.read (s : InputSource) (d : Disk) (stdin : ByteArray) :
    Except InputError (List Node) :=
  match s with
  | .stdin =>
    match String.fromUTF8? stdin with
    | some text => .ok (contentOfInput text)
    | none => .error (.unreadable .notText)
  | .document path => do
    (Document.parse (← (d.readText path).mapError .unreadable)).mapError .malformed
  | .sourceFile path => do
    return sourceContent (← (d.readText path).mapError .unreadable) (languageOfPath path)

end CodeTint.Cli
