/-
# Linewise.Proofs.FixtureListing -- which files of a directory are fixtures

A directory lists its entries in an order of its own. What a check takes from the list is
said by `IsFixture` without it: the files with something before an extension `c`, as far as
the path to them is short enough to be used. `mem_fixtureNames_iff` says that these are
taken, and `fixtureNames_increasing` that each is taken once and in the order of the names,
whatever the order of the entries.

Listing needs little of the files, and every file system grants it (`FileTree.Sound`).
-/
import Linewise.Fixture.Run
import Linewise.Proofs.FileGrowth
import Mathlib.Data.List.Sort

namespace Linewise

set_option autoImplicit false

/-- What holds of the files of any system: their names are names, the working directory is
there, and no device has the name of a program. -/
structure FileTree.Sound (files : FileTree) : Prop where
  named : ∀ {above : Location} {name : Path} {e : Entry}, (above ++ [name], e) ∈ files.entries →
    Path.IsName name ∧ FileTree.nameFits name = true
  home : files.get? files.workingDirectory = some .directory
  plain : ∀ (above : Location) (stem : Path), files.get? (above ++ [stem ++ ".js"]) ≠ some .sink
  finite : files.entries.length ≤ wordLimit

namespace FileTree

variable {files : FileTree} {location : Location} {name : Path}

theorem mem_entries_of_get? {e : Entry} (found : files.get? (location ++ [name]) = some e) :
    (location ++ [name], e) ∈ files.entries := by
  rw [get?, if_neg (by simp)] at found
  obtain ⟨front, back, eq, -⟩ := List.lookup_eq_some_iff.1 found
  rw [eq]
  exact List.mem_append_right _ List.mem_cons_self

theorem isFile_iff {path : Path} :
    files.isFile path = true ↔ ∃ l content, files.resolve path = .ok (l, .file content) := by
  unfold isFile
  constructor
  · intro is
    split at is
    · next l content resolved => exact ⟨l, content, resolved⟩
    · cases is
  · rintro ⟨l, content, resolved⟩
    rw [resolved]

/-- The name of an entry of a directory. -/
def nameBelow? (location l : Location) : Option Path :=
  if l.dropLast = location then l.getLast? else none

theorem nameBelow?_eq_some_iff {l : Location} :
    nameBelow? location l = some name ↔ l = location ++ [name] := by
  unfold nameBelow?
  constructor
  · intro below
    split at below
    · next above =>
        obtain ⟨front, rfl⟩ := List.getLast?_eq_some_iff.1 below
        rw [← above, List.dropLast_concat]
    · cases below
  · rintro rfl
    rw [if_pos List.dropLast_concat, List.getLast?_concat]

theorem namesBelow_eq : files.namesBelow location =
    (files.entries.map Prod.fst).filterMap (nameBelow? location) := by
  rw [List.filterMap_map]
  rfl

theorem mem_namesBelow_iff :
    name ∈ files.namesBelow location ↔ location ++ [name] ∈ files.entries.map Prod.fst := by
  rw [namesBelow_eq, List.mem_filterMap]
  simp only [nameBelow?_eq_some_iff]
  simp

theorem nodup_namesBelow : (files.namesBelow location).Nodup := by
  rw [namesBelow_eq]
  refine files.distinct.filterMap fun l l' name below below' => ?_
  rw [Option.mem_def, nameBelow?_eq_some_iff] at below below'
  rw [below, below']

end FileTree

namespace Fixture

variable {files : FileTree} {directory : Path} {location : Location} {name : Path}

/-- A file of the directory with the extension `c`, whose path can be used. A dot at the
start of a name begins no extension. -/
structure IsFixture (files : FileTree) (directory : Path) (location : Location)
    (name : Path) : Prop where
  file : ∃ content, files.get? (location ++ [name]) = some (.file content)
  extension : ∃ stem : Path, stem ≠ [] ∧ name = stem ++ ".c"
  short : (Path.join directory name).length ≤ FileTree.longestPath

/-- The names that a check takes from the list of a directory. -/
def fixtureNames (files : FileTree) (directory : Path) (location : Location) : List Path :=
  ((files.namesBelow location).mergeSort fun a b => decide (a ≤ b)).filter fun name =>
    files.isFile (Path.join directory name) &&
      Path.extension? (Path.join directory name) = some (Path.ofString "c")

/-- Their paths. -/
def fixturePaths (files : FileTree) (directory : Path) (location : Location) : List Path :=
  (fixtureNames files directory location).map (Path.join directory)

theorem discover_eq_ok (found : files.resolve directory = .ok (location, .directory)) :
    discover files directory = .ok (fixturePaths files directory location) := by
  rw [discover, found, fixturePaths]
  simp only [List.filter_map]
  rfl

/-- A name is taken once, and before every greater one. -/
theorem fixtureNames_increasing : (fixtureNames files directory location).Pairwise (· < ·) := by
  refine List.Pairwise.filter _ ?_
  have sorted : ((files.namesBelow location).mergeSort fun a b => decide (a ≤ b)).Pairwise
      (· ≤ ·) := by
    refine (List.pairwise_mergeSort ?_ ?_ _).imp of_decide_eq_true
    · intro a b c first second
      exact decide_eq_true (List.le_trans (of_decide_eq_true first) (of_decide_eq_true second))
    · intro a b
      simpa using List.le_total a b
  have once : ((files.namesBelow location).mergeSort fun a b => decide (a ≤ b)).Nodup :=
    (List.mergeSort_perm _ _).nodup_iff.2 FileTree.nodup_namesBelow
  exact (sorted.and once).imp fun both => Std.lt_of_le_of_ne both.1 both.2

theorem length_fixturePaths_le (files : FileTree) (directory : Path) (location : Location) :
    (fixturePaths files directory location).length ≤ files.entries.length :=
  calc (fixturePaths files directory location).length
      = (fixtureNames files directory location).length := List.length_map _
    _ ≤ ((files.namesBelow location).mergeSort fun a b => decide (a ≤ b)).length :=
        List.length_filter_le _ _
    _ = (files.namesBelow location).length := List.length_mergeSort _
    _ ≤ files.entries.length := List.length_filterMap_le _ _

theorem extension?_join_iff (isName : Path.IsName name) :
    Path.extension? (Path.join directory name) = some (Path.ofString "c") ↔
      ∃ stem : Path, stem ≠ [] ∧ name = stem ++ ".c" := by
  rw [Path.extension?, Path.fileName?_join isName, Option.bind_some]
  constructor
  · intro extension
    cases cut : Path.splitName name with
    | mk stem ending =>
        rw [cut] at extension
        subst extension
        obtain ⟨nonempty, -, eq⟩ := (Path.splitName_eq_iff isName.above).1 cut
        exact ⟨stem, nonempty, eq⟩
  · rintro ⟨stem, nonempty, eq⟩
    have cut : Path.splitName name = (stem, some (Path.ofString "c")) :=
      (Path.splitName_eq_iff isName.above).2 ⟨nonempty, by decide, eq⟩
    rw [cut]

section Found

variable (found : files.resolve directory = .ok (location, .directory))

include found

/-- The length of its path is all that can keep a file of the directory from being used. -/
theorem checkPath_join_iff (isName : Path.IsName name) :
    FileTree.checkPath (Path.join directory name) = .ok () ↔
      (Path.join directory name).length ≤ FileTree.longestPath := by
  obtain ⟨checked, -⟩ := FileTree.resolve_eq_ok_iff.1 found
  have zero := (FileTree.checkPath_eq_ok_iff.1 checked).1
  rw [FileTree.checkPath_eq_ok_iff]
  constructor
  · exact fun usable => usable.2.2
  · intro short
    refine ⟨?_, Path.join_ne_nil isName.nonempty isName.slash, short⟩
    exact Path.not_mem_join isName.slash (by decide) zero isName.zero

theorem resolve_join_iff (isName : Path.IsName name) (fits : FileTree.nameFits name = true)
    {l : Location} {e : Entry} :
    files.resolve (Path.join directory name) = .ok (l, e) ↔
      (Path.join directory name).length ≤ FileTree.longestPath ∧ l = location ++ [name] ∧
        files.get? (location ++ [name]) = some e := by
  rw [FileTree.resolve_join_eq_ok_iff isName (FileTree.leadsTo_of_resolve found),
    checkPath_join_iff found isName]
  simp [fits]

variable (sound : files.Sound)

include sound

/-- The names that are taken are the fixtures. -/
theorem mem_fixtureNames_iff :
    name ∈ fixtureNames files directory location ↔ IsFixture files directory location name := by
  rw [fixtureNames, List.mem_filter, List.mem_mergeSort, FileTree.mem_namesBelow_iff,
    Bool.and_eq_true, decide_eq_true_eq]
  constructor
  · rintro ⟨listed, isFile, extension⟩
    obtain ⟨⟨_, e⟩, member, rfl⟩ := List.mem_map.1 listed
    obtain ⟨isName, fits⟩ := sound.named member
    obtain ⟨l, content, resolved⟩ := FileTree.isFile_iff.1 isFile
    obtain ⟨short, -, file⟩ := (resolve_join_iff found isName fits).1 resolved
    exact ⟨⟨content, file⟩, (extension?_join_iff isName).1 extension, short⟩
  · rintro ⟨⟨content, file⟩, extension, short⟩
    have member := FileTree.mem_entries_of_get? file
    obtain ⟨isName, fits⟩ := sound.named member
    refine ⟨List.mem_map_of_mem member, ?_, (extension?_join_iff isName).2 extension⟩
    have resolved := (resolve_join_iff found isName fits).2 ⟨short, rfl, file⟩
    exact FileTree.isFile_iff.2 ⟨_, content, resolved⟩

end Found

end Fixture

end Linewise
