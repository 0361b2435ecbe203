import CodeTint.Text.Blank

/-!
The languages that code blocks may name, and how a free text attribute is resolved to one: by its
identifier, its display name or an alias, in any case and with blanks around it.
-/

set_option autoImplicit false
set_option relaxedAutoImplicit false

namespace CodeTint

inductive Language where
  | plain | rust | javaScript | typeScript | json | python | go | php | c | cpp | java | bash
  | scheme | ini | xml
  deriving DecidableEq, Repr, Inhabited

/-- What the registry says of one language. -/
structure LanguageInfo where
  language : Language
  id : String
  displayName : String
  aliases : List String
  deriving Repr

namespace Language

/-- Every language in the order of the picker, plain text first. -/
def registry : List LanguageInfo :=
  [⟨.plain, "text", "Plain Text", ["plaintext", "plain", "txt"]⟩,
   ⟨.rust, "rust", "Rust", ["rs"]⟩,
   ⟨.javaScript, "javascript", "JavaScript", ["js", "mjs", "cjs", "jsx"]⟩,
   ⟨.typeScript, "typescript", "TypeScript", ["ts", "mts", "cts"]⟩,
   ⟨.json, "json", "JSON", ["jsonc"]⟩,
   ⟨.python, "python", "Python", ["py"]⟩,
   ⟨.go, "go", "Go", ["golang"]⟩,
   ⟨.php, "php", "PHP", []⟩,
   ⟨.c, "c", "C", ["h"]⟩,
   ⟨.cpp, "cpp", "C++", ["c++", "cc", "cxx", "hpp"]⟩,
   ⟨.java, "java", "Java", []⟩,
   ⟨.bash, "bash", "Bash", ["sh", "shell", "zsh", "shellscript"]⟩,
   ⟨.scheme, "scheme", "Scheme", ["racket", "rkt", "scm"]⟩,
   ⟨.ini, "ini", "INI", ["cfg", "conf", "properties"]⟩,
   ⟨.xml, "xml", "XML", ["svg", "xsd", "xsl"]⟩]

def info : Language → LanguageInfo
  | l => (registry.find? (fun i => i.language = l)).getD ⟨.plain, "text", "Plain Text", []⟩

def id (l : Language) : String := l.info.id

def displayName (l : Language) : String := l.info.displayName

def hasHighlighting (l : Language) : Bool := l ≠ .plain

def names (i : LanguageInfo) (name : String) : Bool :=
  Text.eqIgnoreCase i.id name || Text.eqIgnoreCase i.displayName name ||
    i.aliases.any (Text.eqIgnoreCase · name)

def resolve (given : String) : Option Language :=
  let name := Text.trim given
  if name = "" then none
  else (registry.find? (names · name)).map (·.language)

def ofExtension (extension : String) : Language :=
  (resolve extension).getD .plain

def tag (given : Option String) : String :=
  ((given.bind resolve).getD .plain).id

def className (classPrefix : String) (given : Option String) : String :=
  classPrefix ++ tag given

end Language

structure LanguageOption where
  id : String
  displayName : String
  selected : Bool
  deriving Repr

def Language.options (given : Option String) : List LanguageOption :=
  let chosen := given.bind Language.resolve
  Language.registry.map fun i => ⟨i.id, i.displayName, some i.language = chosen⟩

end CodeTint
