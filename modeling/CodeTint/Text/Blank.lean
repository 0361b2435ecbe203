/-!
Blank characters, and what cutting a text at them yields. A character is blank when it has the
property of white space in the Unicode standard; every blank character of ASCII is one of them.
-/

set_option autoImplicit false
set_option relaxedAutoImplicit false

namespace CodeTint

def isBlank (c : Char) : Bool :=
  let n := c.toNat
  (9 ≤ n && n ≤ 13) || n == 0x20 || n == 0x85 || n == 0xA0 || n == 0x1680 ||
    (0x2000 ≤ n && n ≤ 0x200A) || n == 0x2028 || n == 0x2029 || n == 0x202F ||
    n == 0x205F || n == 0x3000

namespace Text

def trimChars (cs : List Char) : List Char :=
  ((cs.dropWhile isBlank).reverse.dropWhile isBlank).reverse

def trim (s : String) : String :=
  String.ofList (trimChars s.toList)

def trimOf (c : Char) (s : String) : String :=
  String.ofList (((s.toList.dropWhile (· == c)).reverse.dropWhile (· == c)).reverse)

/-- Cut a list at every element that satisfies `p`, keeping empty pieces. -/
def cutAt {α : Type} (p : α → Bool) : List α → List (List α)
  | [] => [[]]
  | a :: rest =>
    if p a then [] :: cutAt p rest
    else match cutAt p rest with
      | [] => [[a]]
      | piece :: pieces => (a :: piece) :: pieces

def words (s : String) : List String :=
  ((cutAt isBlank s.toList).filter (fun w => !w.isEmpty)).map String.ofList

def lines (s : String) : List String :=
  (cutAt (· == '\n') s.toList).map String.ofList

def eqIgnoreCase (a b : String) : Bool :=
  a.toList.map Char.toLower == b.toList.map Char.toLower

def nonBlank (value : Option String) : Option String :=
  (value.map trim).filter (fun v => v != "")

def join (sep : String) : List String → String
  | [] => ""
  | [s] => s
  | s :: rest => s ++ sep ++ join sep rest

def ancestors (name : String) : List String :=
  let parts := (cutAt (· == '.') name.toList).map String.ofList
  (List.range parts.length).map fun k => join "." (parts.take (parts.length - k))

def padRight (width : Nat) (s : String) : String :=
  s ++ String.ofList (List.replicate (width - s.length) ' ')

theorem join_eq_intercalate (sep : String) (l : List String) :
    join sep l = String.intercalate sep l := by
  induction l with
  | nil => rfl
  | cons s rest ih =>
    cases rest with
    | nil => rw [join, String.intercalate_singleton]
    | cons t rest =>
      rw [String.intercalate_cons_cons, ← ih]
      rfl

theorem cutAt_ne_nil {α : Type} (p : α → Bool) (l : List α) : cutAt p l ≠ [] := by
  cases l with
  | nil => simp [cutAt]
  | cons a rest =>
    simp only [cutAt]
    split
    · simp
    · split <;> simp

end Text

end CodeTint
