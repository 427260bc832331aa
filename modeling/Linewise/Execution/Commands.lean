/-
# Linewise.Execution.Commands -- the commands that are installed

Four commands can run a program: `cat` prints it, `true` and `false` only
succeed and fail, and `sh` reads it as a script. A command with a slash is a
path; no file of the tree can be executed. A name without one is looked for among
the installed commands, where the dots are directories.
-/
import Linewise.Execution.Shell.Start

namespace Linewise.Commands

open Text

set_option autoImplicit false

inductive Installed where
  | cat
  | succeed
  | fail
  | sh
  deriving Repr, DecidableEq

/-- An installed command by its name. -/
def ofName? : String → Option Installed
  | "cat" => some .cat
  | "true" => some .succeed
  | "false" => some .fail
  | "sh" => some .sh
  | _ => none

/-- The directories of the installed commands. -/
def directories : List Location :=
  [["bin"], ["usr", "bin"]]

/-- An installed command by its name or its absolute path. -/
def find? (command : String) : Option Installed :=
  if !command.toList.contains '/' then ofName? command
  else
    let names := (Path.segments command).filter (· ≠ Path.ofString ".")
    if Path.isAbsolute command && !Path.endsInSlash command &&
        directories.contains names.dropLast then
      names.getLast?.bind fun name => ofName? name.display
    else none

/-- Run an installed command that was called `name`. -/
def execute (name : String) (program : Path) (files : FileTree) : Installed → Execution × FileTree
  | .cat =>
    let done := Cat.run (Latin.ofString name) files {} [Latin.ofByteList program]
    ({ status := done.status
       stdout := Latin.toBytes done.stdout
       stderr := Latin.toBytes done.stderr }, files)
  | .succeed => ({}, files)
  | .fail => ({ status := 1 }, files)
  | .sh =>
    let done := Shell.start (Latin.ofString name) (Latin.ofByteList program) files
    ({ status := done.status
       stdout := Latin.toBytes done.stdout
       stderr := Latin.toBytes done.stderr }, done.files)

/-- Why a name that is not installed cannot be started. -/
def refusal (command : String) (files : FileTree) : FileError :=
  if command.toList.contains '/' then
    match files.resolve command with
    | .ok _ => .permissionDenied
    | .error e => e
  else if command = "." || command = ".." then .permissionDenied
  else if !FileTree.nameFits command then .nameTooLong
  else .notFound

/-- The length that an argument cannot reach. -/
def argumentLimit : Nat := 131072

/-- Start a command on a program. -/
def runner : Runner := fun command program files =>
  if command.toList.contains '\x00' || program.contains 0 then
    (.error .nulInCommand, files)
  else match find? command with
    | none => (.error (refusal command files), files)
    | some installed =>
      if argumentLimit ≤ program.length then (.error .argumentTooLong, files)
      else
        let (execution, files) := execute command program files installed
        (.ok execution, files)

end Linewise.Commands
