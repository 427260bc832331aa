/-
# Linewise.Arguments -- the arguments between the commas

An argument list is cut at its top-level commas: those outside parentheses,
brackets and quoted literals. Inside a literal a backslash takes the next
character with it. Brackets are only counted, so `(` may be closed by `]`, and a
closing bracket without an opening one is ignored.

`Scan` is what the scanner remembers between two characters, `pieces` are the
raw pieces between the cuts, and `split` trims them. Text that is all blank has
no arguments, while every cut leaves a piece on both sides, even an empty one.
-/
import Linewise.Text.Basic

namespace Linewise.Arguments

open Text

set_option autoImplicit false

/-- Where the scanner stands: outside literals, inside one, or behind a
backslash inside one. `depth` counts the open brackets. -/
inductive Scan where
  | code (depth : Nat)
  | quoted (quote : Char) (depth : Nat)
  | escaped (quote : Char) (depth : Nat)
  deriving Repr, DecidableEq

namespace Scan

def start : Scan := .code 0

def next : Scan → Char → Scan
  | .code depth, c =>
    if c = '"' || c = '\x27' then .quoted c depth
    else if c = '(' || c = '[' then .code (depth + 1)
    else if c = ')' || c = ']' then .code (depth - 1)
    else .code depth
  | .quoted quote depth, c =>
    if c = '\\' then .escaped quote depth
    else if c = quote then .code depth
    else .quoted quote depth
  | .escaped quote depth, _ => .quoted quote depth

/-- Whether the text is cut at this character. -/
def cuts (state : Scan) (c : Char) : Bool :=
  c = ',' && state = .code 0

end Scan

/-- The raw pieces between the cuts; there is always at least one. -/
def pieces (state : Scan) : Text → List Text
  | [] => [[]]
  | c :: rest =>
    if state.cuts c then [] :: pieces state rest
    else consFirst c (pieces (state.next c) rest)

/-- The trimmed arguments of an argument list. -/
def split (t : Text) : List Text :=
  let trimmed := (pieces .start t).map trim
  if trimmed = [[]] then [] else trimmed

end Linewise.Arguments
