import CodeTint.Proofs.Storage.Directory
import CodeTint.Proofs.Theme.Named
import CodeTint.Storage.Places

/-!
The list of themes and what is loaded for its entries, in whatever order the user's directory names
them. Main statement: the list names each theme once, a builtin theme only where that one is loaded,
and a user's for an entry of the user's directory; one of these is loaded from a file just if an
entry with its stem is a file, and under the name that is listed just if the file is read with the
name that its first line for it has.
-/

set_option autoImplicit false
set_option relaxedAutoImplicit false

namespace CodeTint

/-- A disk whose entries have names that a file or directory can have. -/
def Disk.Proper (d : Disk) : Prop :=
  ∀ e ∈ d.entries, ∀ name ∈ e.1, Path.IsName name ∧ name.utf8ByteSize ≤ Disk.maxName

instance (d : Disk) : Decidable d.Proper :=
  inferInstanceAs (Decidable (∀ e ∈ d.entries, _))

private theorem Disk.Proper.isName {d : Disk} (proper : d.Proper) {path name : String}
    {names : List String} (listed : d.list path = .ok names) (inside : name ∈ names) :
    Path.IsName name ∧ name.utf8ByteSize ≤ maxName := by
  obtain ⟨place, -, -, members⟩ := list_eq_ok listed
  obtain ⟨e, entry, same⟩ := (members name).mp inside
  exact proper e entry name (by simp [same])

private theorem Places.themesDir_ne {p : Places} {dir : String} (there : p.themesDir = some dir) :
    dir ≠ "" := by
  obtain ⟨config, -, rfl⟩ := Option.map_eq_some_iff.mp there
  intro empty
  have chars := congrArg String.toList empty
  unfold Path.join at chars
  split at chars
  · exact absurd chars (by decide)
  · split at chars <;> simp at chars

namespace ThemeLibrary

/-! The user's themes. -/

variable {l : ThemeLibrary} {dir name : String} {names : List String} {found : List ThemeListing}
  {t : ThemeListing}

def IsThemeFile (id name : String) : Prop :=
  ∃ ext ∈ extensions, Path.splitName name = (id, some ext)

def listingOf (l : ThemeLibrary) (dir name id : String) : ThemeListing :=
  ⟨id, l.listedName (Path.join dir name) id, .user⟩

private theorem addListing_cases (l : ThemeLibrary) (dir : String) (found : List ThemeListing)
    (name : String) : (∃ id, IsThemeFile id name ∧ (∀ t ∈ found, t.id ≠ id) ∧
      l.addListing dir found name = found ++ [l.listingOf dir name id]) ∨
    (∀ id, IsThemeFile id name → ∃ t ∈ found, t.id = id) ∧
      l.addListing dir found name = found := by
  unfold addListing
  split
  · next id ext cut =>
    split
    · next new =>
      rw [Bool.and_eq_true, List.contains_iff_mem, Bool.not_eq_true', List.any_eq_false] at new
      refine .inl ⟨id, ⟨ext, new.1, cut⟩, ?_, rfl⟩
      simpa using new.2
    · next old =>
      refine .inr ⟨?_, rfl⟩
      rintro other ⟨ext', member, cut'⟩
      cases cut.symm.trans cut'
      simpa [member] using old
  · next id cut =>
    refine .inr ⟨?_, rfl⟩
    rintro other ⟨ext', -, cut'⟩
    cases cut.symm.trans cut'

/-- The themes that are listed for names: one for each identifier among them. -/
structure Lists (l : ThemeLibrary) (dir : String) (names : List String)
    (found : List ThemeListing) : Prop where
  once : (found.map (·.id)).Nodup
  sound : ∀ t ∈ found, ∃ name ∈ names, IsThemeFile t.id name ∧ t = l.listingOf dir name t.id
  complete : ∀ name ∈ names, ∀ id, IsThemeFile id name → ∃ t ∈ found, t.id = id

private theorem Lists.add (lists : Lists l dir names found) (name : String) :
    Lists l dir (names ++ [name]) (l.addListing dir found name) := by
  have before : ∀ t ∈ found, ∃ other ∈ names ++ [name],
      IsThemeFile t.id other ∧ t = l.listingOf dir other t.id := by
    intro t member
    obtain ⟨other, inside, given⟩ := lists.sound t member
    exact ⟨other, List.mem_append_left _ inside, given⟩
  rcases addListing_cases l dir found name with ⟨id, file, new, same⟩ | ⟨known, same⟩
  · rw [same]
    refine ⟨?_, ?_, ?_⟩
    · rw [List.map_append, List.nodup_append]
      refine ⟨lists.once, List.pairwise_singleton _ _, ?_⟩
      intro a member b own
      obtain ⟨t, inside, rfl⟩ := List.mem_map.mp member
      rw [List.mem_singleton.mp own]
      exact new t inside
    · rw [List.forall_mem_append]
      refine ⟨before, ?_⟩
      rw [List.forall_mem_singleton]
      exact ⟨name, by simp, file, rfl⟩
    · rw [List.forall_mem_append]
      constructor
      · intro other member id' file'
        obtain ⟨t, inside, given⟩ := lists.complete other member id' file'
        exact ⟨t, List.mem_append_left _ inside, given⟩
      · rw [List.forall_mem_singleton]
        rintro id' ⟨ext', -, cut'⟩
        obtain ⟨ext, -, cut⟩ := file
        cases cut.symm.trans cut'
        exact ⟨_, List.mem_append_right _ (List.mem_singleton_self _), rfl⟩
  · rw [same]
    refine ⟨lists.once, before, ?_⟩
    rw [List.forall_mem_append, List.forall_mem_singleton]
    exact ⟨lists.complete, known⟩

private theorem Lists.addAll (more : List String) (lists : Lists l dir names found) :
    Lists l dir (names ++ more) (more.foldl (l.addListing dir) found) := by
  induction more generalizing names found with
  | nil => simpa using lists
  | cons name more ih => simpa using ih (lists.add name)

private theorem lists_userListings (there : l.directory = some dir)
    (listed : l.disk.list dir = .ok names) : Lists l dir names l.userListings := by
  have folded : l.userListings = names.foldl (l.addListing dir) [] := by
    rw [userListings, there]
    dsimp only
    rw [listed]
  have none : Lists l dir [] [] := ⟨List.nodup_nil, by simp, by simp⟩
  rw [folded]
  exact none.addAll names

private theorem exists_lists (listed : t ∈ l.userListings) :
    ∃ dir names, l.directory = some dir ∧ l.disk.list dir = .ok names ∧
      Lists l dir names l.userListings := by
  cases there : l.directory with
  | none =>
    rw [userListings, there] at listed
    cases listed
  | some dir =>
    cases read : l.disk.list dir with
    | error e =>
      rw [userListings, there] at listed
      dsimp only at listed
      rw [read] at listed
      cases listed
    | ok names => exact ⟨dir, names, rfl, read, lists_userListings there read⟩

private theorem source_of_userListings (listed : t ∈ l.userListings) : t.source = .user := by
  obtain ⟨dir, names, -, -, lists⟩ := exists_lists listed
  obtain ⟨name, -, -, same⟩ := lists.sound t listed
  rw [same]
  rfl

/-! The list of all themes. -/

private theorem mem_listings_iff : t ∈ l.listings ↔ t ∈ l.userListings ∨
    ∃ data, (t.id, data) ∈ ThemeData.builtins ∧ (∀ u ∈ l.userListings, u.id ≠ t.id) ∧
      t = ⟨t.id, data.name, .builtin⟩ := by
  simp only [listings, List.mem_append, List.mem_map, List.mem_filter, Bool.not_eq_true',
    List.any_eq_false, beq_iff_eq, Prod.exists]
  refine or_congr_right ?_
  constructor
  · rintro ⟨id, data, ⟨member, free⟩, rfl⟩
    exact ⟨data, member, free, rfl⟩
  · rintro ⟨data, member, free, same⟩
    exact ⟨t.id, data, ⟨member, free⟩, same.symm⟩

private theorem nodup_builtins : (ThemeData.builtins.map Prod.fst).Nodup := by decide

private theorem nodup_userListings (l : ThemeLibrary) : (l.userListings.map (·.id)).Nodup := by
  cases user : l.userListings with
  | nil => exact List.nodup_nil
  | cons t more =>
    have first : t ∈ l.userListings := by simp [user]
    obtain ⟨dir, names, -, -, lists⟩ := exists_lists first
    rw [← user]
    exact lists.once

private theorem nodup_listings (l : ThemeLibrary) : (l.listings.map (·.id)).Nodup := by
  have builtin : ((ThemeData.builtins.filter fun b => !l.userListings.any (·.id == b.1)).map
      Prod.fst).Nodup := nodup_builtins.sublist (List.filter_sublist.map _)
  rw [listings, List.map_append, List.map_map, List.nodup_append]
  refine ⟨nodup_userListings l, builtin, ?_⟩
  intro a member b other
  obtain ⟨t, inside, rfl⟩ := List.mem_map.mp member
  obtain ⟨x, kept, rfl⟩ := List.mem_map.mp other
  have free := (List.mem_filter.mp kept).2
  rw [Bool.not_eq_true', List.any_eq_false] at free
  simpa using free t inside

/-! Files of themes. -/

private theorem isName_of_id {id ext : String} (present : id ≠ "") (noSlash : '/' ∉ id.toList)
    (member : ext ∈ extensions) : Path.IsName (id ++ "." ++ ext) := by
  have chars : (id ++ "." ++ ext).toList = id.toList ++ '.' :: ext.toList := by simp
  have inside := List.length_pos_iff.mpr (mt String.toList_eq_nil_iff.mp present)
  have long : 2 < (id ++ "." ++ ext).toList.length ∧ '/' ∉ ext.toList := by
    rw [chars, List.length_append, List.length_cons]
    simp only [extensions, List.mem_cons, List.not_mem_nil, or_false] at member
    rcases member with rfl | rfl
    · exact ⟨by simp, by decide⟩
    · exact ⟨by simp, by decide⟩
  refine ⟨?_, ?_, ?_, ?_⟩
  · intro same
    rw [same] at long
    exact absurd long.1 (by decide)
  · intro same
    rw [same] at long
    exact absurd long.1 (by decide)
  · intro same
    rw [same] at long
    exact absurd long.1 (by decide)
  · rw [chars]
    simp [noSlash, long.2]

private theorem noDot_of_extension {ext : String} (member : ext ∈ extensions) :
    '.' ∉ ext.toList := by
  simp only [extensions, List.mem_cons, List.not_mem_nil, or_false] at member
  rcases member with rfl | rfl <;> decide

private theorem isThemeFile_iff {id : String} : IsThemeFile id name ↔
    id ≠ "" ∧ ∃ ext ∈ extensions, name = id ++ "." ++ ext := by
  constructor
  · rintro ⟨ext, member, cut⟩
    obtain ⟨same, present⟩ := Path.eq_of_splitName cut
    exact ⟨present, ext, member, same⟩
  · rintro ⟨present, ext, member, rfl⟩
    exact ⟨ext, member, Path.splitName_append present (noDot_of_extension member)⟩

/-- The file that is read for an identifier: that with the first of the extensions with one. -/
def Used (l : ThemeLibrary) (dir id ext : String) : Prop :=
  l.disk.isFile (fileOf dir id ext) = true ∧ ∃ preferred rest,
    extensions = preferred ++ ext :: rest ∧
      ∀ other ∈ preferred, l.disk.isFile (fileOf dir id other) = false

private theorem Used.extension {id ext : String} (used : l.Used dir id ext) : ext ∈ extensions := by
  obtain ⟨-, preferred, rest, same, -⟩ := used
  simp [same]

private theorem userFile?_eq_some_iff (there : l.directory = some dir) {id path : String} :
    l.userFile? id = some path ↔ ∃ ext, l.Used dir id ext ∧ path = fileOf dir id ext := by
  have found : l.userFile? id =
      (extensions.find? fun ext => l.disk.isFile (fileOf dir id ext)).map (fileOf dir id) := by
    rw [userFile?, there]
    exact List.find?_map
  simp only [found, Option.map_eq_some_iff, List.find?_eq_some_iff_append, Bool.not_eq_true', Used,
    eq_comm (a := path)]

private theorem exists_used_iff {id : String} : (∃ ext, l.Used dir id ext) ↔
    ∃ ext ∈ extensions, l.disk.isFile (fileOf dir id ext) = true := by
  constructor
  · rintro ⟨ext, used⟩
    exact ⟨ext, used.extension, used.1⟩
  · rintro ⟨ext, member, file⟩
    have some : (extensions.find? fun ext => l.disk.isFile (fileOf dir id ext)).isSome = true :=
      List.find?_isSome.mpr ⟨ext, member, file⟩
    obtain ⟨chosen, found⟩ := Option.isSome_iff_exists.mp some
    simp only [List.find?_eq_some_iff_append, Bool.not_eq_true'] at found
    exact ⟨chosen, found⟩

private theorem Used.listed {id ext : String} (used : l.Used dir id ext) (somewhere : dir ≠ "")
    (present : id ≠ "") (noSlash : '/' ∉ id.toList) :
    ∃ names, l.disk.list dir = .ok names ∧ id ++ "." ++ ext ∈ names := by
  obtain ⟨bytes, file⟩ := Disk.isFile_iff.mp used.1
  obtain ⟨-, -, listed⟩ := (Disk.exists_find_join_iff
    (isName_of_id present noSlash used.extension) somewhere).mp ⟨_, file⟩
  exact listed

/-- The entry of the user's directory that a theme is listed for. -/
structure EntryOf (l : ThemeLibrary) (t : ThemeListing) (dir ext : String) (names : List String) :
    Prop where
  directory : l.directory = some dir
  read : l.disk.list dir = .ok names
  extension : ext ∈ extensions
  inside : t.id ++ "." ++ ext ∈ names
  present : t.id ≠ ""
  name : t.name = l.listedName (fileOf dir t.id ext) t.id

private theorem exists_entryOf (listed : t ∈ l.userListings) :
    ∃ dir ext names, l.EntryOf t dir ext names := by
  obtain ⟨dir, names, there, read, lists⟩ := exists_lists listed
  obtain ⟨name, inside, file, same⟩ := lists.sound t listed
  obtain ⟨present, ext, member, rfl⟩ := isThemeFile_iff.mp file
  exact ⟨dir, ext, names, there, read, member, inside, present, congrArg ThemeListing.name same⟩

section Loaded

variable (directory : ∀ dir, l.directory = some dir → dir ≠ "")
include directory

private theorem userFile?_of_builtin {data : ThemeData}
    (builtin : (t.id, data) ∈ ThemeData.builtins)
    (free : ∀ u ∈ l.userListings, u.id ≠ t.id) : l.userFile? t.id = none := by
  have proper : ∀ b ∈ ThemeData.builtins, b.1 ≠ "" ∧ '/' ∉ b.1.toList := by decide
  obtain ⟨present, noSlash⟩ := proper _ builtin
  cases used : l.userFile? t.id with
  | none => rfl
  | some path =>
    obtain ⟨dir, there, -⟩ := Option.bind_eq_some_iff.mp used
    obtain ⟨ext, chosen, -⟩ := (userFile?_eq_some_iff there).mp used
    obtain ⟨names, read, inside⟩ := chosen.listed (directory dir there) present noSlash
    have file := isThemeFile_iff.mpr ⟨present, ext, chosen.extension, rfl⟩
    obtain ⟨u, listed, same⟩ := (lists_userListings there read).complete _ inside _ file
    exact absurd same (free u listed)

variable {dir ext : String} (entry : l.EntryOf t dir ext names)
include entry

private theorem EntryOf.isFile (proper : l.disk.Proper)
    (check : Disk.checkPath (fileOf dir t.id ext) = .ok ())
    (notDirectory : l.disk.isDirectory (fileOf dir t.id ext) = false) :
    l.disk.isFile (fileOf dir t.id ext) = true := by
  obtain ⟨isName, short⟩ := proper.isName entry.read entry.inside
  obtain ⟨e, found⟩ := (Disk.exists_find_join_iff isName (directory dir entry.directory)).mpr
    ⟨check, Disk.checkName_eq_ok_iff.mpr short, names, entry.read, entry.inside⟩
  cases e with
  | file bytes => exact Disk.isFile_iff.mpr ⟨bytes, found⟩
  | directory =>
    have there : l.disk.isDirectory (fileOf dir t.id ext) = true := Disk.isDirectory_iff.mpr found
    rw [there] at notDirectory
    cases notDirectory

private theorem EntryOf.listed (proper : l.disk.Proper) {other : String}
    (used : l.Used dir t.id other) : t.id ++ "." ++ other ∈ names := by
  -- what is read may have the other extension, so that its name has to be a proper one as well
  have noSlash : '/' ∉ t.id.toList := by
    have whole := (proper.isName entry.read entry.inside).1.noSlash
    simp only [String.toList_append, List.mem_append, not_or] at whole
    exact whole.1.1
  obtain ⟨names', read, inside⟩ :=
    used.listed (directory dir entry.directory) entry.present noSlash
  cases entry.read.symm.trans read
  exact inside

private theorem EntryOf.stem? (proper : l.disk.Proper) {other : String}
    (used : l.Used dir t.id other) : Path.stem? (fileOf dir t.id other) = some t.id := by
  have isName := (proper.isName entry.read (entry.listed directory proper used)).1
  rw [fileOf, Path.stem?_join isName (directory dir entry.directory),
    Path.splitName_append entry.present (noDot_of_extension used.extension)]

private theorem EntryOf.name_load [reader : ThemeReader] (proper : l.disk.Proper) {path : String}
    (found : l.userFile? t.id = some path) {theme : Theme} (loaded : l.load t.id = .ok theme) :
    ∃ text data, l.disk.readText path = .ok text ∧ reader.read? text = some data ∧
      theme.name = data.name := by
  obtain ⟨other, used, rfl⟩ := (userFile?_eq_some_iff entry.directory).mp found
  rw [load, found] at loaded
  dsimp only [loadFrom] at loaded
  rw [entry.stem? directory proper used] at loaded
  split at loaded
  · cases loaded
  · next text read =>
    obtain ⟨data, given, same⟩ := Theme.ofYaml_eq_ok loaded
    exact ⟨text, data, read, given, same⟩

end Loaded

private theorem listedName_of_text {path id text : String}
    (read : l.disk.readText path = .ok text) : l.listedName path id = (nameLine? text).getD id := by
  rw [listedName, read]

private theorem load_of_file [ThemeReader] {id path : String} (used : l.userFile? id = some path) :
    l.load id = loadFrom l.disk path := by
  rw [load, used]

private theorem load_of_none [ThemeReader] {id : String} (none : l.userFile? id = none) :
    l.load id = Theme.ofBuiltin id := by
  rw [load, none]

private theorem lookup_builtins : ∀ b ∈ ThemeData.builtins,
    (ThemeData.builtins.lookup b.1).map ThemeData.name = some b.2.name := by decide

private theorem name_ofBuiltin {id : String} {data : ThemeData}
    (member : (id, data) ∈ ThemeData.builtins)
    {theme : Theme} (loaded : Theme.ofBuiltin id = .ok theme) : theme.name = data.name := by
  obtain ⟨found, looked, same⟩ := Option.map_eq_some_iff.mp (lookup_builtins _ member)
  rw [Theme.ofBuiltin, looked] at loaded
  obtain ⟨named, foreground, background, -, -, -, rfl⟩ := Theme.ofData_eq_ok_iff.mp loaded
  exact same

/-- What is loaded for a theme that is listed for an entry of the user's directory. -/
structure Serves [reader : ThemeReader] (l : ThemeLibrary) (t : ThemeListing) (dir ext : String)
    (names : List String) : Prop where
  entry : l.EntryOf t dir ext names
  /-- The user's file that is read, which is there just if an entry with the stem is a file. -/
  file : ∀ path, l.userFile? t.id = some path ↔
    ∃ other, l.Used dir t.id other ∧ path = fileOf dir t.id other
  exists_file : (l.userFile? t.id).isSome = true ↔
    ∃ other ∈ extensions, l.disk.isFile (fileOf dir t.id other) = true
  inside : ∀ other, l.Used dir t.id other → t.id ++ "." ++ other ∈ names
  solid : Disk.checkPath (fileOf dir t.id ext) = .ok () →
    l.disk.isDirectory (fileOf dir t.id ext) = false → l.disk.isFile (fileOf dir t.id ext) = true
  unused : l.userFile? t.id = none → l.load t.id = Theme.ofBuiltin t.id
  /-- The name of the theme is the one that the file is read with. If it is the file of the entry,
  the listed name is the same just if the first line for the name says so. -/
  loaded : ∀ path, l.userFile? t.id = some path → l.load t.id = loadFrom l.disk path ∧
    ∀ theme, l.load t.id = .ok theme → ∃ text data, l.disk.readText path = .ok text ∧
      reader.read? text = some data ∧ theme.name = data.name ∧
      (path = fileOf dir t.id ext → (theme.name = t.name ↔ data.name = (nameLine? text).getD t.id))
  /-- It does so in a file that begins with lines of keys and values up to the name's. -/
  headed : l.userFile? t.id = some (fileOf dir t.id ext) → ∀ text lines line,
    l.disk.readText (fileOf dir t.id ext) = .ok text → Headed text lines line →
      t.name = String.ofList line.text ∧
        ∀ theme, l.load t.id = .ok theme → theme.name = t.name

/-- How the list of themes relates to what is loaded. -/
structure Agrees [ThemeReader] (l : ThemeLibrary) : Prop where
  once : (l.listings.map (·.id)).Nodup
  /-- For a theme that is listed as builtin no file is read, and it has the name that is listed. -/
  builtin : ∀ t ∈ l.listings, t.source = .builtin → l.userFile? t.id = none ∧
    l.load t.id = Theme.ofBuiltin t.id ∧ ∀ theme, l.load t.id = .ok theme → theme.name = t.name
  user : ∀ t ∈ l.listings, t.source = .user → ∃ dir ext names, l.Serves t dir ext names

private theorem EntryOf.serves [reader : ThemeReader] (keeps : reader.KeepsNames)
    (directory : ∀ dir, l.directory = some dir → dir ≠ "") (proper : l.disk.Proper) {ext : String}
    (entry : l.EntryOf t dir ext names) : l.Serves t dir ext names where
  entry := entry
  file _ := userFile?_eq_some_iff entry.directory
  exists_file := by
    rw [Option.isSome_iff_exists, ← exists_used_iff]
    simp only [userFile?_eq_some_iff entry.directory]
    rw [exists_comm]
    exact exists_congr fun other => by simp
  inside _ used := entry.listed directory proper used
  solid := entry.isFile directory proper
  unused := load_of_none
  loaded path found := by
    refine ⟨load_of_file found, fun theme loaded => ?_⟩
    obtain ⟨text, data, read, given, same⟩ := entry.name_load directory proper found loaded
    refine ⟨text, data, read, given, same, ?_⟩
    rintro rfl
    rw [same, entry.name, listedName_of_text read]
  headed found text lines line read headed := by
    have name : t.name = String.ofList line.text := by
      rw [entry.name, listedName_of_text read, nameLine?_headed headed]
      rfl
    refine ⟨name, fun theme loaded => ?_⟩
    obtain ⟨text', data, read', given, same⟩ := entry.name_load directory proper found loaded
    cases read.symm.trans read'
    rw [same, name, keeps text lines line data headed given]

/-- The user's own themes and the builtin ones are listed as they are loaded, but for entries of the
user's directory that are no files, and for names that YAML takes otherwise than the first line for
the name has them. -/
theorem listings_agree [reader : ThemeReader] (keeps : reader.KeepsNames) (disk : Disk)
    (places : Places) (proper : disk.Proper) : Agrees ⟨disk, places.themesDir⟩ := by
  generalize own : (⟨disk, places.themesDir⟩ : ThemeLibrary) = l
  have directory : ∀ dir, l.directory = some dir → dir ≠ "" := by
    rw [← own]
    exact fun _ => Places.themesDir_ne
  have proper : l.disk.Proper := by rwa [← own]
  refine ⟨nodup_listings l, ?_, ?_⟩
  · intro t listed source
    rcases mem_listings_iff.mp listed with user | ⟨data, builtin, free, same⟩
    · rw [source_of_userListings user] at source
      cases source
    · have none := userFile?_of_builtin directory builtin free
      refine ⟨none, load_of_none none, fun theme loaded => ?_⟩
      rw [load_of_none none] at loaded
      rw [name_ofBuiltin builtin loaded, same]
  · intro t listed source
    rcases mem_listings_iff.mp listed with user | ⟨data, -, -, same⟩
    · obtain ⟨dir, ext, names, entry⟩ := exists_entryOf user
      exact ⟨dir, ext, names, entry.serves keeps directory proper⟩
    · rw [same] at source
      cases source

namespace Dusk

def places : Places := { configHome := some "/c" }

/-- A disk with a theme of this text. -/
def disk (text : String) : Disk :=
  Disk.addFile {} ["c", "codeblock-highlight", "themes", "dusk.yaml"] text.toUTF8

def library (text : String) : ThemeLibrary := ⟨disk text, places.themesDir⟩

def listing : ThemeListing := ⟨"dusk", "Dusk # evening", .user⟩

def quoted : String := "# evening\nversion: 1\nname: 'Dusk # evening'\nappearance: dark\n"

def version : Yaml.Line := ⟨"version".toList, .plain, "1".toList⟩

def nameLine : Yaml.Line := ⟨"name".toList, .singleQuoted, "Dusk # evening".toList⟩

private theorem headed_quoted : Headed quoted [version, nameLine] nameLine where
  opens := by
    have words : Yaml.Scanner.Words version.text :=
      .one (by decide) (List.all_eq_true.mp (by decide))
    have simple : version.Simple :=
      ⟨by decide, List.all_eq_true.mp (by decide), by decide, words, by rintro _ ⟨⟩; rfl⟩
    have ordinary : ∀ c ∈ nameLine.text, Yaml.Scanner.isOrdinary c = true :=
      List.all_eq_true.mp (by decide)
    have simple' : nameLine.Simple :=
      ⟨by decide, List.all_eq_true.mp (by decide), by decide, ordinary⟩
    have follows : Yaml.Scanner.Follows nameLine "\nappearance: dark\n".toList :=
      .inr ⟨"appearance: dark\n".toList, by decide, nofun⟩
    have last := Yaml.Opens.last simple' follows
    have left : ∀ a ∈ (nameLine.chars ++ "\nappearance: dark\n".toList).head?,
        Yaml.isSpace a = false ∧ Yaml.isBreak a = false := by
      rintro _ ⟨⟩
      exact ⟨rfl, rfl⟩
    have later := Yaml.Opens.line simple (.inr ⟨_, rfl, fun _ => left⟩) last
    have unbroken : ∀ a ∈ " evening".toList, Yaml.isBreak a = false := by
      simp [Yaml.isBreak]
    have remark : Yaml.IsFiller "# evening".toList :=
      ⟨[], _, rfl, by simp, .inr ⟨" evening".toList, rfl, unbroken⟩⟩
    exact .filler remark later
  first := rfl

def themes : String := "/c/codeblock-highlight/themes"

theorem listings_agree_quoted : ThemeReader.yaml.KeepsNames ∧ (disk quoted).Proper ∧
    listing ∈ (library quoted).listings ∧
    (library quoted).userFile? "dusk" = some (fileOf themes "dusk" "yaml") ∧
    ∃ theme, (library quoted).load "dusk" = .ok theme ∧ theme.name = listing.name := by
  have proper : (disk quoted).Proper := by decide +kernel
  have listed : listing ∈ (library quoted).listings := by decide +kernel
  obtain ⟨once, builtin, user⟩ :=
    listings_agree ThemeReader.keepsNames_yaml (disk quoted) places proper
  obtain ⟨dir, ext, names, serves⟩ := user listing listed rfl
  have directory : (library quoted).directory = some themes := by decide +kernel
  have read : (disk quoted).list themes = .ok ["dusk.yaml"] := by decide +kernel
  cases directory.symm.trans serves.entry.directory
  cases read.symm.trans serves.entry.read
  have only : ∀ other ∈ extensions, "dusk" ++ "." ++ other ∈ ["dusk.yaml"] → other = "yaml" := by
    decide
  cases only ext serves.entry.extension serves.entry.inside
  have used : (library quoted).userFile? "dusk" = some (fileOf themes "dusk" "yaml") := by
    decide +kernel
  have text : (disk quoted).readText (fileOf themes "dusk" "yaml") = .ok quoted := by
    decide +kernel
  have loads : ((library quoted).load "dusk").toOption.isSome = true := by decide +kernel
  cases loaded : (library quoted).load "dusk" with
  | error e =>
    rw [loaded] at loads
    cases loads
  | ok theme =>
    exact ⟨ThemeReader.keepsNames_yaml, proper, listed, used, theme, rfl,
      (serves.headed used quoted _ nameLine text headed_quoted).2 theme loaded⟩

def remarked : String := "version: 1\nname: Dusk # evening\n"

def shadow : ThemeLibrary :=
  ⟨Disk.addDirectory {} ["c", "codeblock-highlight", "themes", "midnight.yaml"], places.themesDir⟩

/-- The comment is listed as part of the name, but it is not part of the theme's name. A directory
is listed as a user's theme, but the builtin one is loaded. -/
theorem listed_otherwise :
    (listing ∈ (library remarked).listings ∧ ∃ theme,
      (library remarked).load "dusk" = .ok theme ∧ theme.name ≠ listing.name) ∧
    ⟨"midnight", "midnight", .user⟩ ∈ shadow.listings ∧ shadow.userFile? "midnight" = none ∧
      shadow.load "midnight" = Theme.ofBuiltin "midnight" := by
  have listed : listing ∈ (library remarked).listings := by decide +kernel
  have loads : (((library remarked).load "dusk").toOption.map Theme.name) = some "Dusk" := by
    decide +kernel
  have none : shadow.userFile? "midnight" = none := by decide +kernel
  refine ⟨⟨listed, ?_⟩, by decide +kernel, none, load_of_none none⟩
  cases loaded : (library remarked).load "dusk" with
  | error e =>
    rw [loaded] at loads
    cases loads
  | ok theme =>
    rw [loaded] at loads
    refine ⟨theme, rfl, ?_⟩
    rw [Option.some.inj loads]
    decide

end Dusk

end ThemeLibrary

end CodeTint
