/-
# Linewise.Execution.Shell.Wildcard -- words that stand for file names

In a pattern `*` stands for any characters, `?` for one, and brackets for one of
those listed in them. A pattern with slashes is followed directory by directory.
Names that begin with a dot are only found by patterns that do. The names are
sorted; a pattern that finds none stands for itself.
-/
import Linewise.Execution.Shell.Token
import Linewise.Files.Tree

namespace Linewise.Shell

open Text

set_option autoImplicit false

/-- The character that a letter of an expanded word is. -/
def Letter.char? : Letter → Option Char
  | .bare c => some c
  | .kept c => some c
  | _ => none

def textOf (word : Word) : Text :=
  word.filterMap Letter.char?

/-- A part of a pattern. -/
inductive Glob where
  | exactly (c : Char)
  | anyChar
  | anyText
  | oneOf (inverted : Bool) (ranges : List (Char × Char))
  deriving Repr, DecidableEq

/-- The ranges listed in brackets. -/
def rangesOf : Text → List (Char × Char)
  | low :: '-' :: high :: rest => (low, high) :: rangesOf rest
  | c :: rest => (c, c) :: rangesOf rest
  | [] => []

/-- The list after an opening bracket, and the number of letters up to its end. -/
def readBrackets? (rest : Word) : Option (Glob × Nat) :=
  let inverted := rest.head?.any fun l => l = .bare '!' || l = .bare '^'
  let start := if inverted then rest.drop 1 else rest
  -- A closing bracket in the first place is one of those listed.
  let inner := textOf (start.take 1 ++ (start.drop 1).takeWhile (· ≠ .bare ']'))
  if inner.length < start.length then
    some (.oneOf inverted (rangesOf inner), inner.length + 1 + if inverted then 1 else 0)
  else none

/-- The parts of a pattern. The next `skip` letters belong to the last one. -/
def globOf (skip : Nat) : Word → List Glob
  | [] => []
  | letter :: rest =>
    match skip with
    | skip + 1 => globOf skip rest
    | 0 =>
      match letter with
      | .bare '*' => .anyText :: globOf 0 rest
      | .bare '?' => .anyChar :: globOf 0 rest
      | .bare '[' =>
        match readBrackets? rest with
        | some (glob, length) => glob :: globOf length rest
        | none => .exactly '[' :: globOf 0 rest
      | letter => (letter.char?.map Glob.exactly).toList ++ globOf 0 rest

/-- Whether a pattern finds a name. -/
def matchesName : List Glob → Text → Bool
  | [], name => name.isEmpty
  | .exactly c :: glob, name => name.head? = some c && matchesName glob name.tail
  | .anyChar :: glob, name => !name.isEmpty && matchesName glob name.tail
  | .oneOf inverted ranges :: glob, name =>
    (name.head?.any fun c => ranges.any (fun (low, high) => low ≤ c && c ≤ high) ≠ inverted) &&
      matchesName glob name.tail
  | .anyText :: glob, name =>
    (List.range (name.length + 1)).any fun n => matchesName glob (name.drop n)

def hasWildcard (word : Word) : Bool :=
  word.any fun l => l = .bare '*' || l = .bare '?' || l = .bare '['

/-- The names in a directory that a pattern finds. -/
def findNames (files : FileTree) (directory : Text) (pattern : Word) : List Text :=
  let path : Path := if directory.isEmpty then "." else Latin.toByteList directory
  match files.resolve path with
  | .ok (location, .directory) =>
    let names := [".".toList, "..".toList] ++
      (files.namesBelow location).map Latin.ofByteList
    let glob := globOf 0 pattern
    let hidden := glob.head? = some (.exactly '.')
    let found := names.filter fun name =>
      (hidden || name.head? ≠ some '.') && matchesName glob name
    found.mergeSort fun a b => decide (String.ofList a ≤ String.ofList b)
  | _ => []

/-- Follow the parts of a pattern between slashes from the paths found so far. -/
def findPaths (files : FileTree) (found : List Text) : List Word → List Text
  | [] => found
  | [part] => found.flatMap (step part)
  | part :: rest => findPaths files ((found.flatMap (step part)).map (· ++ ['/'])) rest
where
  step (part : Word) (directory : Text) : List Text :=
    if hasWildcard part then (findNames files directory part).map (directory ++ ·)
    else [directory ++ textOf part]

def splitAtSlash (word : Word) : List Word :=
  word.splitOnP fun l => l = .bare '/' || l = .kept '/'

/-- The words that an expanded word stands for. -/
def findWords (files : FileTree) (word : Word) : List Text :=
  if !hasWildcard word then [textOf word]
  else
    let paths := findPaths files [[]] (splitAtSlash (word.filter (· ≠ .seam)))
    match paths.filter fun path => (files.resolve (Latin.toByteList path)).isOk with
    | [] => [textOf word]
    | found => found

end Linewise.Shell
