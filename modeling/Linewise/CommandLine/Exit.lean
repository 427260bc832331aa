/-
# Linewise.CommandLine.Exit -- how a command ends

A command ends with a status, the text on its two outputs and the files as it
leaves them. Status 0 is success, 1 an error and 2 a wrong use of the command. An
error is printed with its cause, if the file system is behind it. The two outputs
are also files, and what is written to those is printed too.
-/
import Linewise.CommandLine.Switch
import Linewise.Error

namespace Linewise.CommandLine

set_option autoImplicit false

structure Exit where
  status : Nat := 0
  stdout : String := ""
  stderr : String := ""
  files : FileTree

/-- The text of an error and the reason behind it. -/
def errorText (text : String) (cause : Option FileError) : String :=
  match cause with
  | none => "Error: " ++ text ++ "\n"
  | some reason => "Error: " ++ text ++ "\n\nCaused by:\n    " ++ reason.message ++ "\n"

namespace Exit

def failure (files : FileTree) (text : String) (cause : Option FileError) : Exit :=
  { status := 1, stderr := errorText text cause, files }

/-- End with an error. Nothing follows the name of a settings document that
cannot be read. -/
def ofError (files : FileTree) (e : Error) : Exit :=
  match e with
  | .settings _ => { status := 1, stderr := "Error: " ++ e.message, files }
  | _ => failure files e.message e.cause?

/-- End because reading the arguments stopped. -/
def ofStop (files : FileTree) (help version : String) : Stop → Exit
  | .help => { stdout := help, files }
  | .version => { stdout := version, files }
  | .usage => { status := 2, files }

/-- The text at a location. -/
def written (files : FileTree) (location : Location) : String :=
  match files.get? location with
  | some (.file content) => (String.fromUTF8? content).getD ""
  | _ => ""

/-- Print what was written to the outputs as files, before the rest. -/
def withWritten (exit : Exit) : Exit :=
  { exit with
    stdout := written exit.files ["dev", "stdout"] ++ exit.stdout
    stderr := written exit.files ["dev", "stderr"] ++ exit.stderr }

end Exit

end Linewise.CommandLine
