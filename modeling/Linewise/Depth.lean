/-
# Linewise.Depth -- block depth and indentation

The depth is the number of open blocks. A line opens a block, closes one, or
keeps the depth: an opening line is rendered outside its block, a closing line
outside as well, and a close at depth zero stays at zero.

Depths and widths are machine words, and an indentation is text in memory.
`Overflow` names the ways to leave those bounds; `DepthChange.apply` and
`indentation` say exactly when it happens.
-/
import Linewise.Text.Basic

namespace Linewise

set_option autoImplicit false

/-- What exceeded its bound. -/
inductive Overflow where
  | depth
  | indentation
  | counter
  deriving Repr, DecidableEq

/-- The largest machine word. -/
def wordLimit : Nat := 0xffffffffffffffff

/-- The most bytes that one text can hold. -/
def textLimit : Nat := 0x7fffffffffffffff

inductive DepthChange where
  | keep
  | opens
  | closes
  deriving Repr, DecidableEq

/-- The depth inside a new block. -/
def deeper (depth : Nat) : Except Overflow Nat :=
  if depth < wordLimit then .ok (depth + 1) else .error .depth

/-- The depth outside the current block; at zero there is no block to leave. -/
def shallower (depth : Nat) : Nat :=
  depth - 1

/-- The depth at which a line is rendered and the depth of the next line. -/
def DepthChange.apply (change : DepthChange) (depth : Nat) : Except Overflow (Nat × Nat) :=
  match change with
  | .keep => .ok (depth, depth)
  | .opens => (deeper depth).map fun inner => (depth, inner)
  | .closes => .ok (shallower depth, shallower depth)

/-- The blanks in front of a line: `width` of them for each open block. -/
def indentation (depth width : Nat) : Except Overflow Text :=
  if depth * width ≤ textLimit then .ok (List.replicate (depth * width) ' ')
  else .error .indentation

end Linewise
