/-!
The settings of the highlighter, with the values that hold where nothing is set.
-/

set_option autoImplicit false
set_option relaxedAutoImplicit false

namespace CodeTint

/-- The settings. -/
structure Config where
  defaultTheme : String := "vitesse-light"
  defaultLanguage : String := "text"
  nodeClass : String := "code-block"
  /-- What the class of the inner code element begins with. -/
  classPrefix : String := "language-"
  /-- For how many milliseconds a resource that failed to load is left alone. -/
  retryAfter : Nat := 30000
  deriving DecidableEq, Repr, Inhabited

end CodeTint
