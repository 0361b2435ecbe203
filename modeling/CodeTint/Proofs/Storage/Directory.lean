import CodeTint.Proofs.Attempt
import CodeTint.Proofs.Text.Cut
import CodeTint.Storage.Disk
import Mathlib.Data.List.TakeDrop

/-!
A name joined to the path of a directory, and what is found there. Main statements: a file that is
found is listed in its directory, and what is listed is found.
-/

set_option autoImplicit false
set_option relaxedAutoImplicit false

namespace CodeTint

namespace Path

/-- A name that stands for something in a directory. -/
structure IsName (name : String) : Prop where
  some : name ≠ ""
  notDot : name ≠ "."
  notDots : name ≠ ".."
  noSlash : '/' ∉ name.toList

instance (name : String) : Decidable (IsName name) :=
  decidable_of_iff (name ≠ "" ∧ name ≠ "." ∧ name ≠ ".." ∧ '/' ∉ name.toList)
    ⟨fun h => ⟨h.1, h.2.1, h.2.2.1, h.2.2.2⟩, fun h => ⟨h.1, h.2, h.3, h.4⟩⟩

private theorem endsWith_iff {s last : String} :
    s.endsWith last = true ↔ last.toList <:+ s.toList := by
  rw [String.endsWith_eq_endsWith_toSlice, String.Slice.endsWith_string_iff, String.copy_toSlice]

private theorem isAbsolute_iff {path : String} :
    isAbsolute path = true ↔ path.toList.head? = some '/' := by
  rw [isAbsolute, String.startsWith_string_iff]
  cases path.toList with
  | nil => simp
  | cons a rest => simp [eq_comm]

section Join

variable {dir name : String} (proper : IsName name) (present : dir ≠ "")
include proper present

private theorem join_eq :
    join dir name = if dir.endsWith "/" then dir ++ name else dir ++ "/" ++ name := by
  have relative : isAbsolute name = false := by
    rw [Bool.eq_false_iff, Ne, isAbsolute_iff]
    exact fun first => proper.noSlash (List.mem_of_head? first)
  simp [join, relative, present]

private theorem toList_join :
    (∃ front, dir.toList = front ++ ['/'] ∧
      (join dir name).toList = front ++ '/' :: name.toList) ∨
    (join dir name).toList = dir.toList ++ '/' :: name.toList := by
  rw [join_eq proper present]
  split
  · next slash =>
    obtain ⟨front, same⟩ := endsWith_iff.mp slash
    exact .inl ⟨front, same.symm, by simp [← same]⟩
  · exact .inr (by simp)

private theorem suffix_join : '/' :: name.toList <:+ (join dir name).toList := by
  rcases toList_join proper present with ⟨front, -, path⟩ | path
  · exact ⟨front, path.symm⟩
  · exact ⟨dir.toList, path.symm⟩

private theorem endsWith_join {last : List Char} (slash : '/' ∈ last)
    (ends : last <:+ (join dir name).toList) : '/' :: name.toList <:+ last := by
  rcases List.suffix_or_suffix_of_suffix ends (suffix_join proper present) with inside | whole
  · rcases List.suffix_cons_iff.mp inside with rfl | inside
    · exact List.suffix_rfl
    · exact absurd (inside.mem slash) proper.noSlash
  · exact whole

private theorem not_endsWith_join :
    ¬ ((join dir name).endsWith "/" || (join dir name).endsWith "/.") := by
  rw [Bool.or_eq_true, endsWith_iff, endsWith_iff]
  rintro (ends | ends)
  · have empty := (endsWith_join proper present (by decide) ends).length_le
    exact proper.some (String.toList_eq_nil_iff.mp (by simpa using empty))
  · obtain ⟨front, dot⟩ := endsWith_join proper present (by decide) ends
    cases front with
    | nil =>
      refine proper.notDot (String.toList_injective ?_)
      simpa using dot
    | cons a front =>
      have size := congrArg List.length dot
      have empty : name.toList ≠ [] := by simpa using proper.some
      have some := List.length_pos_iff.mpr empty
      simp at size
      omega

def isPart (p : String) : Bool := p != "" && p != "."

private theorem parts_join : parts (join dir name) = parts dir ++ [name] := by
  have alone : Text.cutAt (· == '/') name.toList = [name.toList] := by
    refine Text.cutAt_of_none fun a member => ?_
    rw [beq_eq_false_iff_ne]
    rintro rfl
    exact proper.noSlash member
  have kept : isPart name = true := by simp [isPart, proper.some, proper.notDot]
  have cut (front : List Char) : ((Text.cutAt (· == '/') (front ++ '/' :: name.toList)).map
      String.ofList).filter isPart =
        ((Text.cutAt (· == '/') front).map String.ofList).filter isPart ++ [name] := by
    rw [Text.cutAt_append (by decide), alone]
    simp [kept]
  rcases toList_join proper present with ⟨front, directory, path⟩ | path
  · have same : ((Text.cutAt (· == '/') (front ++ ['/'])).map String.ofList).filter isPart =
        ((Text.cutAt (· == '/') front).map String.ofList).filter isPart := by
      rw [Text.cutAt_append (by decide)]
      simp [Text.cutAt, isPart]
    rw [parts, path, parts, directory]
    exact (cut front).trans (congrArg (· ++ [name]) same.symm)
  · rw [parts, path]
    exact cut dir.toList

private theorem isAbsolute_join : isAbsolute (join dir name) = isAbsolute dir := by
  have first : (join dir name).toList.head? = dir.toList.head? := by
    rcases toList_join proper present with ⟨front, directory, path⟩ | path
    · rw [path, directory]
      cases front <;> rfl
    · rw [path]
      cases chars : dir.toList with
      | nil => exact absurd (String.toList_eq_nil_iff.mp chars) present
      | cons a rest => rfl
  rw [Bool.eq_iff_iff, isAbsolute_iff, isAbsolute_iff, first]

theorem stem?_join : stem? (join dir name) = some (splitName name).1 := by
  simp [stem?, fileName?, parts_join proper present, proper.notDots]

end Join

/-! Stems and extensions. -/

theorem splitName_append {id ext : String} (present : id ≠ "") (noDot : '.' ∉ ext.toList) :
    splitName (id ++ "." ++ ext) = (id, some ext) := by
  have reversed : (id ++ "." ++ ext).toList.reverse =
      ext.toList.reverse ++ '.' :: id.toList.reverse := by simp
  have letters : ∀ a ∈ ext.toList.reverse, (a != '.') = true := by
    intro a member
    rw [bne_iff_ne]
    rintro rfl
    exact noDot (List.mem_reverse.mp member)
  have stem : id.toList.reverse.isEmpty = false := by simpa using present
  rw [splitName, reversed, List.span_eq_takeWhile_dropWhile,
    List.takeWhile_append_of_pos letters, List.dropWhile_append_of_pos letters]
  simp [stem]

theorem eq_of_splitName {name id ext : String} (cut : splitName name = (id, some ext)) :
    name = id ++ "." ++ ext ∧ id ≠ "" := by
  have whole := List.takeWhile_append_dropWhile (p := (· != '.')) (l := name.toList.reverse)
  have mark := List.head?_dropWhile_not (· != '.') name.toList.reverse
  rw [splitName, List.span_eq_takeWhile_dropWhile] at cut
  generalize name.toList.reverse.takeWhile (· != '.') = last at whole cut
  generalize name.toList.reverse.dropWhile (· != '.') = rest at whole mark cut
  cases rest with
  | nil => cases cut
  | cons dot stem =>
    obtain rfl : dot = '.' := by simpa using mark
    have chars : name.toList = stem.reverse ++ '.' :: last.reverse := by
      rw [← List.reverse_reverse name.toList, ← whole]
      simp
    cases stem with
    | nil => cases cut
    | cons a stem =>
      cases cut
      refine ⟨String.toList_injective ?_, ?_⟩
      · simpa using chars
      · simp [← String.toList_eq_nil_iff]

end Path

namespace Disk

variable {d : Disk} {dir name : String}

theorem checkName_eq_ok_iff : checkName name = .ok () ↔ name.utf8ByteSize ≤ maxName := by
  rw [checkName]
  split
  · next long => simp [long]
  · next short => simpa using short

private theorem checkPath_eq_ok_iff {path : String} : checkPath path = .ok () ↔
    '\x00' ∉ path.toList ∧ path ≠ "" ∧ path.utf8ByteSize ≤ maxPath := by
  unfold checkPath
  split
  · next zero =>
    have zero' : '\x00' ∈ path.toList := by simpa using zero
    simp [zero']
  · next solid =>
    have solid' : '\x00' ∉ path.toList := by simpa using solid
    split
    · next empty => simp [empty]
    · next present =>
      split
      · next long => simp [long]
      · next short => simpa [present, solid'] using short

private theorem walk_append (d : Disk) (place front back : List String) :
    d.walk place (front ++ back) = d.walk place front >>= fun next => d.walk next back := by
  induction front generalizing place with
  | nil => rfl
  | cons part front ih =>
    simp only [List.cons_append, walk]
    split
    · cases checkName part with
      | error e => rfl
      | ok _ =>
        simp only [bind, Except.bind]
        split
        · exact ih _
        · rfl
    · rfl
    · rfl

private theorem walk_name_eq_ok_iff (proper : Path.IsName name) {place found : List String} :
    d.walk place [name] = .ok found ↔ found = place ++ [name] ∧
      (∃ e, d.at? (place ++ [name]) = some e) ∧ d.at? place = some .directory ∧
      checkName name = .ok () := by
  simp only [walk, proper.notDots, if_false]
  split
  · next directory =>
    cases checkName name with
    | error e => simp [bind, Except.bind]
    | ok _ =>
      simp only [bind, Except.bind]
      split
      · next e there => simp [there, directory, eq_comm]
      · next absent => simp [absent]
  · next bytes file => simp [file]
  · next absent => simp [absent]

private theorem locate_eq_ok_iff {path : String} {place : List String} :
    d.locate path = .ok place ↔ checkPath path = .ok () ∧
      d.walk (d.start path) (Path.parts path) = .ok place ∧
      ((path.endsWith "/" || path.endsWith "/.") = true →
        ∀ bytes, d.at? place ≠ some (.file bytes)) := by
  cases check : checkPath path with
  | error e => simp [locate, check, bind, Except.bind]
  | ok _ =>
    cases steps : d.walk (d.start path) (Path.parts path) with
    | error e => simp [locate, check, steps, bind, Except.bind]
    | ok found =>
      simp only [locate, check, steps, bind, Except.bind]
      split
      · next slash =>
        split
        · next bytes file =>
          constructor
          · rintro ⟨⟩
          · rintro ⟨-, ⟨⟩, other⟩
            exact absurd file (other slash bytes)
        · next other =>
          constructor
          · rintro ⟨⟩
            exact ⟨trivial, rfl, fun _ => other⟩
          · rintro ⟨-, ⟨⟩, -⟩
            rfl
      · next slash => simp [slash, pure, Except.pure]

private theorem find_eq_ok_iff {path : String} {e : DiskEntry} :
    d.find path = .ok e ↔ ∃ place, d.locate path = .ok place ∧ d.at? place = some e := by
  rw [find, bind_eq_ok_iff]
  refine exists_congr fun place => and_congr_right fun _ => ?_
  split
  · next other there => simp [there, pure, Except.pure]
  · next absent => simp [absent]

theorem isFile_iff {path : String} :
    d.isFile path = true ↔ ∃ bytes, d.find path = .ok (.file bytes) := by
  unfold isFile
  split
  · next bytes file => simp [file]
  · next other => simpa using other

theorem isDirectory_iff {path : String} :
    d.isDirectory path = true ↔ d.find path = .ok .directory := by
  unfold isDirectory
  split
  · next there => simp [there]
  · next other => simpa using other

private theorem exists_at_name_iff {place : List String} :
    (∃ e, d.at? (place ++ [name]) = some e) ↔ ∃ e ∈ d.entries, e.1 = place ++ [name] := by
  have some : (place ++ [name]).isEmpty = false := by simp
  rw [at?, some, if_neg Bool.false_ne_true, ← Option.isSome_iff_exists, Option.isSome_iff_ne_none,
    Ne, List.lookup_eq_none_iff]
  simp only [bne_iff_ne, ne_eq, not_forall, not_not, exists_prop, eq_comm (a := place ++ [name])]

theorem list_eq_ok {path : String} {names : List String} (listed : d.list path = .ok names) :
    ∃ place, d.locate path = .ok place ∧ d.at? place = some .directory ∧
      ∀ name, name ∈ names ↔ ∃ e ∈ d.entries, e.1 = place ++ [name] := by
  obtain ⟨place, found, listed⟩ := bind_eq_ok_iff.mp listed
  refine ⟨place, found, ?_⟩
  split at listed
  · next directory =>
    refine ⟨directory, fun name => ?_⟩
    cases listed
    have inside (e : List String × DiskEntry) : e.1 = place ++ [name] ↔
        e.1.dropLast = place ∧ e.1.getLast? = some name := by
      constructor
      · intro same
        simp [same]
      · rintro ⟨rfl, last⟩
        exact (List.dropLast_append_getLast? name last).symm
    simp only [List.mem_filterMap, List.mem_filter, beq_iff_eq, and_assoc, inside]
  · cases listed
  · cases listed

private theorem exists_list {path : String} {place : List String}
    (found : d.locate path = .ok place)
    (there : d.at? place = some .directory) : ∃ names, d.list path = .ok names := by
  rw [list, found]
  simp only [bind, Except.bind, there]
  exact ⟨_, rfl⟩

section Join

variable (proper : Path.IsName name) (present : dir ≠ "")
include proper present

private theorem checkPath_of_join (check : checkPath (Path.join dir name) = .ok ()) :
    checkPath dir = .ok () := by
  rw [checkPath_eq_ok_iff] at check ⊢
  obtain ⟨solid, -, short⟩ := check
  rw [Path.join_eq proper present] at solid short
  refine ⟨?_, present, ?_⟩
  · intro zero
    refine solid ?_
    split <;> simp [zero]
  · refine Nat.le_trans ?_ short
    split
    · simp
    · simp [Nat.add_assoc]

private theorem locate_join_iff {found : List String} :
    d.locate (Path.join dir name) = .ok found ↔
      checkPath (Path.join dir name) = .ok () ∧ ∃ place, d.locate dir = .ok place ∧
        d.at? place = some .directory ∧ d.walk place [name] = .ok found := by
  have steps : d.locate (Path.join dir name) = .ok found ↔
      checkPath (Path.join dir name) = .ok () ∧ ∃ place,
        d.walk (d.start dir) (Path.parts dir) = .ok place ∧ d.walk place [name] = .ok found := by
    have start : d.start (Path.join dir name) = d.start dir := by
      rw [Disk.start, Path.isAbsolute_join proper present, Disk.start]
    simp [locate_eq_ok_iff, Path.parts_join proper present, walk_append, bind_eq_ok_iff, start,
      Path.not_endsWith_join proper present]
  rw [steps]
  refine and_congr_right fun check => exists_congr fun place => ?_
  constructor
  · rintro ⟨outer, last⟩
    -- a slash at the end of the directory's path asks for a directory, and it is one
    have there := ((walk_name_eq_ok_iff proper).mp last).2.2.1
    refine ⟨locate_eq_ok_iff.mpr ⟨checkPath_of_join proper present check, outer, ?_⟩, there, last⟩
    simp [there]
  · rintro ⟨outer, -, last⟩
    exact ⟨(locate_eq_ok_iff.mp outer).2.1, last⟩

theorem exists_find_join_iff : (∃ e, d.find (Path.join dir name) = .ok e) ↔
    checkPath (Path.join dir name) = .ok () ∧ checkName name = .ok () ∧
      ∃ names, d.list dir = .ok names ∧ name ∈ names := by
  simp only [find_eq_ok_iff, locate_join_iff proper present, walk_name_eq_ok_iff proper]
  constructor
  · rintro ⟨e, found, ⟨check, place, outer, directory, rfl, there, -, short⟩, -⟩
    obtain ⟨names, listed⟩ := exists_list outer directory
    refine ⟨check, short, names, listed, ?_⟩
    obtain ⟨place', outer', -, members⟩ := list_eq_ok listed
    cases outer.symm.trans outer'
    exact (members name).mpr (exists_at_name_iff.mp there)
  · rintro ⟨check, short, names, listed, member⟩
    obtain ⟨place, outer, directory, members⟩ := list_eq_ok listed
    obtain ⟨e, there⟩ := exists_at_name_iff.mpr ((members name).mp member)
    exact ⟨e, _, ⟨check, place, outer, directory, rfl, ⟨e, there⟩, directory, short⟩, there⟩

end Join

end Disk

end CodeTint
