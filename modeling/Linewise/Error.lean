/-
# Linewise.Error -- what can go wrong around a compilation

Compiling a source does not fail. Reading settings and sources, writing programs and
running them does, and each failure says which file or command it concerns.
-/
import Linewise.Files.Tree

namespace Linewise

set_option autoImplicit false

inductive Error where
  | read (path : Path) (reason : FileError)
  | write (path : Path) (reason : FileError)
  | settings (path : Path)
  | missingFixtureDirectory (path : Path)
  | launch (command : String) (reason : FileError)
  | exitStatus (command : String) (status : Nat) (stderr : String)
  deriving Repr, DecidableEq

namespace Error

def message : Error → String
  | .read path reason => "reading '" ++ path.display ++ "': " ++ reason.message
  | .write path reason => "writing '" ++ path.display ++ "': " ++ reason.message
  | .settings path => "invalid config '" ++ path.display ++ "': "
  | .missingFixtureDirectory path => "fixture directory '" ++ path.display ++ "' does not exist"
  | .launch command reason => "failed to run '" ++ command ++ "': " ++ reason.message
  | .exitStatus command status stderr =>
    "'" ++ command ++ "' exited with exit status: " ++ Nat.repr status ++ ": " ++ stderr

/-- The failure of the file system behind an error. -/
def cause? : Error → Option FileError
  | .read _ reason => some reason
  | .write _ reason => some reason
  | .launch _ reason => some reason
  | _ => none

end Error

end Linewise
