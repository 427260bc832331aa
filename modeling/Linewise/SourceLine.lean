/-
# Linewise.SourceLine -- the lines of a source that count

Blank lines and include directives are skipped; every other line is kept with
its number, counted from one over all lines, and its trimmed text.
-/
import Linewise.Text.Basic

namespace Linewise

open Text

set_option autoImplicit false

/-- Why a line is skipped. -/
inductive Skip where
  | blank
  | includeDirective
  deriving Repr, DecidableEq

/-- A line that is kept. -/
structure SourceLine where
  number : Nat
  raw : Text
  text : Text
  deriving Repr, DecidableEq

namespace SourceLine

/-- Trim a raw line and decide whether it counts. -/
def ofRaw (number : Nat) (raw : Text) : Except Skip SourceLine :=
  let text := trim raw
  if text.isEmpty then .error .blank
  else if startsWith text "#include".toList then .error .includeDirective
  else .ok { number, raw, text }

/-- The kept lines, where the first raw line has number `number`. -/
def keepFrom (number : Nat) : List Text → List SourceLine
  | [] => []
  | raw :: rest =>
    match ofRaw number raw with
    | .ok line => line :: keepFrom (number + 1) rest
    | .error _ => keepFrom (number + 1) rest

/-- The kept lines of a source in order. -/
def ofSource (source : Text) : List SourceLine :=
  keepFrom 1 (lines source)

end SourceLine

end Linewise
