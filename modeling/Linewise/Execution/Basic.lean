/-
# Linewise.Execution.Basic -- running a program

A command is run on a program file and leaves a status, what it wrote to its two
outputs, and the files as they are afterwards. What commands do is not fixed
here: a `Runner` is any function from a command, a program and files to that
result, or to the reason why the command cannot be started.
-/
import Linewise.Error
import Linewise.Text.Utf8

namespace Linewise

set_option autoImplicit false

/-- A finished command. Status zero is success. -/
structure Execution where
  status : Nat := 0
  stdout : ByteArray := .empty
  stderr : ByteArray := .empty

abbrev Runner :=
  (command : String) → (program : Path) → FileTree → Except FileError Execution × FileTree

/-- The standard output of a command that succeeds on a program. The error of
one that fails carries what it wrote to standard error, without the blanks around
it. -/
def Execution.output (command : String) (result : Except FileError Execution) :
    Except Error String :=
  match result with
  | .error reason => .error (.launch command reason)
  | .ok finished =>
    if finished.status = 0 then .ok (Text.Utf8.decodeLossy finished.stdout)
    else
      let stderr := Text.trim (Text.Utf8.decodeLossy finished.stderr).toList
      .error (.exitStatus command finished.status (String.ofList stderr))

/-- Run a command on a program. -/
def runProgram (runner : Runner) (command : String) (program : Path) (files : FileTree) :
    Except Error String × FileTree :=
  let (result, files) := runner command program files
  (Execution.output command result, files)

end Linewise
