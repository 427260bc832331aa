/-
# Linewise.Main -- the compiling command on real files

The command itself is a function on file trees. Here the source that the
arguments name is loaded into a tree, together with the directory of the output
file, the command runs, and what it printed and wrote is passed on.
-/
import Linewise.CommandLine.Compile
import Linewise.Execution.Commands

open Linewise

set_option autoImplicit false

/-- The location of a path in a tree whose root is the working directory. -/
def locate (path : String) : Location :=
  (Path.segments path).foldl (fun (location : Location) (name : Path) =>
    if name = "." then location
    else if name = ".." then location.dropLast
    else location ++ [name]) []

/-- The bytes of a file that can be read. -/
def contentOf? (path : String) : IO (Option ByteArray) := do
  try
    return some (← IO.FS.readBinFile path)
  catch _ =>
    return none

/-- The files that the arguments name. -/
def loadFiles (given : CommandLine.Given) : IO FileTree := do
  let mut files : FileTree := {}
  if let some path := given.value? "output" then
    files := files.install (locate path).dropLast .directory
  if let some path := given.input then
    if let some content ← contentOf? path then
      files := files.install (locate path) (.file content)
  return files

/-- Write the output file, if the command made one. -/
def storeOutput (given : CommandLine.Given) (files : FileTree) : IO Unit := do
  if let some path := given.value? "output" then
    if let some (.file content) := files.get? (locate path) then
      IO.FS.writeBinFile path content

def main (arguments : List String) : IO UInt32 := do
  let given := (CommandLine.Compile.grammar.read arguments).toOption.getD {}
  let files ← loadFiles given
  match CommandLine.Compile.run Commands.runner files arguments with
  | .error _ =>
    IO.eprintln "Error: the indentation is too long"
    return 101
  | .ok exit =>
    storeOutput given exit.files
    IO.print exit.stdout
    IO.eprint exit.stderr
    return exit.status.toUInt32
