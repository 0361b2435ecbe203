import CodeTint.Cli.Settings
import CodeTint.Engine.Session
import CodeTint.Render.Listing
import CodeTint.Render.Terminal
import CodeTint.Theme.Reader

/-!
What the program does with a command line: it prints a list, or highlights a document after
everything that it needs was loaded, and ends with a code.
-/

set_option autoImplicit false
set_option relaxedAutoImplicit false

namespace CodeTint.Cli

structure Result where
  code : Nat := 0
  stdout : String := ""
  stderr : String := ""
  deriving DecidableEq, Repr

structure World where
  disk : Disk
  places : Places
  stdin : ByteArray

namespace World

def themes (w : World) : ThemeLibrary := ⟨w.disk, w.places.themesDir⟩

end World

def versionLine : String := "codeblock-highlight 0.1.0\n"

def usageLine : String := "Usage: codeblock-highlight [OPTIONS] [PATH]\n"

def helpText : String :=
  "Highlight code blocks inside a rich-text document\n\n" ++ usageLine ++ "\n" ++
  "  -f, --format <FORMAT>     Output format: ansi or json\n" ++
  "  -t, --theme <ID>          Theme for blocks without a theme attribute\n" ++
  "  -l, --language <ID>       Language for blocks without a language attribute\n" ++
  "      --config <PATH>       Config file to use instead of the user config\n" ++
  "      --timeout-ms <MS>     How long to wait for grammars and themes to load\n" ++
  "      --list-themes         List available themes and exit\n" ++
  "      --list-languages      List supported languages and exit\n" ++
  "  -h, --help                Print help\n" ++
  "  -V, --version             Print version\n"

def themeTable (l : ThemeLibrary) : String :=
  String.join (l.listings.map fun t =>
    Text.padRight 16 t.id ++ " " ++ Text.padRight 20 t.name ++ " " ++
      (match t.source with
        | .user => "user"
        | .builtin => "builtin") ++ "\n")

def languageTable : String :=
  String.join (Language.registry.map fun i =>
    Text.padRight 12 i.id ++ " " ++ Text.padRight 12 i.displayName ++ " " ++
      Text.join ", " i.aliases ++ "\n")

def failure (message : String) : Result := { code := 1, stderr := "Error: " ++ message ++ "\n" }

def indented (text : String) : String :=
  Text.join "\n" (((Text.cutAt (· == '\n') text.toList).map String.ofList).map ("    " ++ ·))

def inputFailure (e : InputError) : Result :=
  failure ("Failed to read input\n\nCaused by:\n" ++ indented e.message)

/-- The decorations of a document once everything that it needs is loaded or has failed. The
document is the first snapshot. -/
def decorated (w : World) (config : Config) (content : List Node) : Session :=
  let loader := Loader.ofLibrary w.themes
  let d : Document := ⟨content, 1⟩
  Session.await loader ((d.wanted config).length + 2)
    (({ engine := .start config 2 } : Session).init loader d)

def highlightInput (s : Settings) (source : InputSource) (w : World) : Result :=
  match s.config w.disk w.places with
  | .error e => failure e.message
  | .ok config =>
    match source.read w.disk w.stdin with
    | .error e => inputFailure e
    | .ok content =>
      let e := (decorated w config content).engine
      { stdout := match s.format with
          | .ansi => Terminal.render e.document e.decorations
          | .json => e.decorations.toJson ++ "\n" }

def Settings.run (s : Settings) (w : World) : Result :=
  match s.task with
  | .listThemes => { stdout := themeTable w.themes }
  | .listLanguages => { stdout := languageTable }
  | .highlight source => highlightInput s source w

def run (arguments : List String) (w : World) : Result :=
  match Arguments.parse arguments with
  | .error .displayHelp => { stdout := helpText }
  | .error .displayVersion => { stdout := versionLine }
  | .error _ => { code := 2, stderr := usageLine }
  | .ok a =>
    match a.settings w.disk with
    | .error e => failure e.message
    | .ok s => s.run w

end CodeTint.Cli
