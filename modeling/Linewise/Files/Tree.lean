/-
# Linewise.Files.Tree -- files and directories

A tree is a list of entries, each at its location: the names on the way from the
root. Relative paths start at the working directory. An operation walks its path
name by name, and every name but the last has to lead to a directory: a missing
name is `notFound`, a file on the way is `notADirectory`, and a name of more than
255 bytes is `nameTooLong` where it is looked up. A path of 4096 bytes is too long
as a whole. There are no links: an entry is at one location only, and nothing at a
location stands for what is at another. What the last name may be depends on the
operation:

* `read?` wants a file with text in it;
* `write?` makes or replaces a file, and refuses a directory and any path that
  ends in a slash;
* `makeDirectory?` refuses what exists, `makeDirectories` accepts a directory
  that exists and makes the missing ones above it; those stay if it fails later.
-/
import Linewise.Files.Path

namespace Linewise

set_option autoImplicit false

/-- Why an operation on files fails. -/
inductive FileError where
  | notFound
  | permissionDenied
  | alreadyExists
  | notADirectory
  | isADirectory
  | nameTooLong
  | argumentTooLong
  | notText
  | nulInPath
  | nulInCommand
  deriving Repr, DecidableEq

namespace FileError

/-- The failure in words. -/
def reason : FileError → String
  | .notFound => "No such file or directory"
  | .permissionDenied => "Permission denied"
  | .alreadyExists => "File exists"
  | .notADirectory => "Not a directory"
  | .isADirectory => "Is a directory"
  | .nameTooLong => "File name too long"
  | .argumentTooLong => "Argument list too long"
  | .notText => "stream did not contain valid UTF-8"
  | .nulInPath => "file name contained an unexpected NUL byte"
  | .nulInCommand => "nul byte found in provided data"

/-- The number of the failure, when it is the operating system's. -/
def number? : FileError → Option Nat
  | .notFound => some 2
  | .permissionDenied => some 13
  | .alreadyExists => some 17
  | .notADirectory => some 20
  | .isADirectory => some 21
  | .nameTooLong => some 36
  | .argumentTooLong => some 7
  | _ => none

def message (e : FileError) : String :=
  match e.number? with
  | some number => e.reason ++ " (os error " ++ Nat.repr number ++ ")"
  | none => e.reason

end FileError

/-- Names from the root down. -/
abbrev Location := List Path

/-- What is found at a location. A sink is always empty and swallows what is
written to it. -/
inductive Entry where
  | file (content : ByteArray)
  | directory
  | sink

def Entry.isDirectory : Entry → Bool
  | .directory => true
  | _ => false

/-- The entry that is left when new content is written to one. -/
def Entry.overwrite (content : ByteArray) : Option Entry → Entry
  | some .sink => .sink
  | _ => .file content

/-- Replace the entry at a location, or add one at the end. -/
def putEntry (location : Location) (entry : Entry) :
    List (Location × Entry) → List (Location × Entry)
  | [] => [(location, entry)]
  | (l, e) :: rest =>
    if l = location then (location, entry) :: rest else (l, e) :: putEntry location entry rest

theorem locations_putEntry (location : Location) (entry : Entry)
    (entries : List (Location × Entry)) :
    (putEntry location entry entries).map Prod.fst =
      if location ∈ entries.map Prod.fst then entries.map Prod.fst
      else entries.map Prod.fst ++ [location] := by
  induction entries with
  | nil => simp [putEntry]
  | cons head rest ih =>
    obtain ⟨l, e⟩ := head
    by_cases h : l = location
    · simp [putEntry, h]
    · have h' : ¬ location = l := fun eq => h eq.symm
      simp only [putEntry, h, if_false, List.map_cons, ih, List.mem_cons, h', false_or]
      split <;> simp

theorem nodup_putEntry (location : Location) (entry : Entry)
    {entries : List (Location × Entry)} (distinct : (entries.map Prod.fst).Nodup) :
    ((putEntry location entry entries).map Prod.fst).Nodup := by
  rw [locations_putEntry]
  split
  · exact distinct
  · next absent =>
    rw [List.nodup_append]
    refine ⟨distinct, List.pairwise_singleton .., ?_⟩
    intro a ha b hb
    rw [List.mem_singleton] at hb
    subst hb
    intro eq
    exact absent (eq ▸ ha)

/-- Entries at distinct locations, and the directory where relative paths start. -/
structure FileTree where
  entries : List (Location × Entry) := []
  workingDirectory : Location := []
  distinct : (entries.map Prod.fst).Nodup := by simp

namespace FileTree

/-! ## Locations -/

def get? (tree : FileTree) (location : Location) : Option Entry :=
  if location.isEmpty then some .directory else tree.entries.lookup location

def put (tree : FileTree) (location : Location) (entry : Entry) : FileTree :=
  { tree with
    entries := putEntry location entry tree.entries
    distinct := nodup_putEntry location entry tree.distinct }

def erase (tree : FileTree) (location : Location) : FileTree :=
  { tree with
    entries := tree.entries.filter (·.1 ≠ location)
    distinct := tree.distinct.sublist ((List.filter_sublist).map Prod.fst) }

/-- The names directly below a location, in the order of the entries. -/
def namesBelow (tree : FileTree) (location : Location) : List Path :=
  tree.entries.filterMap fun (l, _) =>
    if l.dropLast = location then l.getLast? else none

/-- Add an entry and the directories above it. -/
def install (tree : FileTree) (location : Location) (entry : Entry) : FileTree :=
  let above := (List.range location.length).map location.take
  let missing := above.filter fun l => (tree.get? l).isNone
  (missing.foldl (fun tree l => tree.put l .directory) tree).put location entry

/-! ## Walking -/

def longestName : Nat := 255

def longestPath : Nat := 4095

def nameFits (name : Path) : Bool :=
  name.length ≤ longestName

/-- Follow names from a location. -/
def walk (tree : FileTree) (location : Location) : List Path → Except FileError Location
  | [] => .ok location
  | name :: rest =>
    match tree.get? location with
    | none => .error .notFound
    | some .directory =>
      if name = "." then tree.walk location rest
      else if name = ".." then tree.walk location.dropLast rest
      else if !nameFits name then .error .nameTooLong
      else
        let next := location ++ [name]
        if (tree.get? next).isNone then .error .notFound else tree.walk next rest
    | some _ => .error .notADirectory

/-- Where the walk along a path starts. -/
def origin (tree : FileTree) (path : Path) : Location :=
  if Path.isAbsolute path then [] else tree.workingDirectory

/-- A path without a name leads nowhere, none contains a zero, and the length of
all is limited. -/
def checkPath (path : Path) : Except FileError Unit :=
  if path.contains 0 then .error .nulInPath
  else if path.isEmpty then .error .notFound
  else if longestPath < path.length then .error .nameTooLong
  else .ok ()

/-- The entry that a path leads to. -/
def resolve (tree : FileTree) (path : Path) : Except FileError (Location × Entry) := do
  checkPath path
  let location ← tree.walk (tree.origin path) (Path.segments path)
  match tree.get? location with
  | none => .error .notFound
  | some .directory => .ok (location, .directory)
  | some entry =>
    if Path.endsInSlash path then .error .notADirectory else .ok (location, entry)

def isFile (tree : FileTree) (path : Path) : Bool :=
  match tree.resolve path with
  | .ok (_, .file _) => true
  | _ => false

def isDirectory (tree : FileTree) (path : Path) : Bool :=
  match tree.resolve path with
  | .ok (_, .directory) => true
  | _ => false

/-- The directory that the last name of a path lies in, and that name. `none` is
a path that ends in the root or in dots. -/
def place (tree : FileTree) (path : Path) : Except FileError (Option (Location × Path)) := do
  checkPath path
  match (Path.segments path).getLast? with
  | none => return none
  | some name =>
    let above ← tree.walk (tree.origin path) (Path.segments path).dropLast
    match tree.get? above with
    | some .directory => return if name = "." || name = ".." then none else some (above, name)
    | some _ => .error .notADirectory
    | none => .error .notFound

/-! ## Operations -/

def readBytes (tree : FileTree) (path : Path) : Except FileError ByteArray := do
  match ← tree.resolve path with
  | (_, .file content) => return content
  | (_, .sink) => return .empty
  | (_, .directory) => .error .isADirectory

/-- The text of a file. -/
def read? (tree : FileTree) (path : Path) : Except FileError String := do
  let content ← tree.readBytes path
  match String.fromUTF8? content with
  | some text => return text
  | none => .error .notText

/-- Where a file can be written. -/
def writable? (tree : FileTree) (path : Path) : Except FileError Location := do
  match ← tree.place path with
  | none => .error .isADirectory
  | some (above, name) =>
    if Path.endsInSlash path then .error .isADirectory
    else if !nameFits name then .error .nameTooLong
    else if (tree.get? (above ++ [name])).any Entry.isDirectory then .error .isADirectory
    else return above ++ [name]

def writeBytes? (tree : FileTree) (path : Path) (content : ByteArray) :
    Except FileError FileTree := do
  let location ← tree.writable? path
  return tree.put location (.overwrite content (tree.get? location))

/-- Write a text to a file. -/
def write? (tree : FileTree) (path : Path) (text : String) : Except FileError FileTree :=
  tree.writeBytes? path text.toUTF8

def makeDirectory? (tree : FileTree) (path : Path) : Except FileError FileTree := do
  match ← tree.place path with
  | none => .error .alreadyExists
  | some (above, name) =>
    if !nameFits name then .error .nameTooLong
    else if (tree.get? (above ++ [name])).isSome then .error .alreadyExists
    else return tree.put (above ++ [name]) .directory

/-- Make a directory whose parent has been made. -/
def makeLast (tree : FileTree) (path : Path) : Except FileError Unit × FileTree :=
  match tree.makeDirectory? path with
  | .ok tree => (.ok (), tree)
  | .error e => (if tree.isDirectory path then .ok () else .error e, tree)

/-- Make a directory and those above it, at most so many levels. -/
def makeLevels : Nat → FileTree → Path → Except FileError Unit × FileTree
  | 0, tree, path => tree.makeLast path
  | levels + 1, tree, path =>
    if path.isEmpty then (.ok (), tree)
    else match tree.makeDirectory? path with
      | .ok tree => (.ok (), tree)
      | .error .notFound =>
        match Path.parent? path with
        | none => (.error .notFound, tree)
        | some parent =>
          match makeLevels levels tree parent with
          | (.ok (), tree) => tree.makeLast path
          | (.error e, tree) => (.error e, tree)
      | .error e => (if tree.isDirectory path then .ok () else .error e, tree)

def makeDirectories (tree : FileTree) (path : Path) : Except FileError Unit × FileTree :=
  makeLevels (path.length + 1) tree path

end FileTree

end Linewise
