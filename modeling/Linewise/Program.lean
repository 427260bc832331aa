/-
# Linewise.Program -- a source becomes a program

The lines of a source that count go through the rules one after the other. The
`Progress` of a pass is the depth of the next line and the listing so far;
`compile` runs a pass over a whole source and also returns the shortages that
were met, in order.
-/
import Linewise.Listing
import Linewise.Rule
import Linewise.SourceLine

namespace Linewise

set_option autoImplicit false

/-- The indentation width of a pass that does not choose its own. -/
def defaultWidth : Nat := 4

structure Progress where
  depth : Nat := 0
  listing : Listing
  deriving Repr, DecidableEq

namespace Progress

def start (width : Nat) : Progress :=
  { listing := { width } }

/-- Take in one trimmed line. -/
def feed (progress : Progress) (line : Text) : Except Overflow (Step × Progress) := do
  let step ← Step.ofLine progress.depth line
  let listing ← progress.listing.add step.renderDepth step.text
  return (step, { depth := step.nextDepth, listing })

/-- Take in lines in order, and collect the shortages. -/
def feedAll (progress : Progress) : List Text → Except Overflow (List Shortage × Progress)
  | [] => .ok ([], progress)
  | line :: rest => do
    let (step, progress) ← progress.feed line
    let (shortages, progress) ← progress.feedAll rest
    return (step.shortage.toList ++ shortages, progress)

end Progress

/-- The program for a source. -/
structure Compilation where
  program : Text
  shortages : List Shortage
  deriving Repr, DecidableEq

/-- Compile a source, with `width` blanks for each open block. -/
def compile (width : Nat) (source : Text) : Except Overflow Compilation := do
  let kept := (SourceLine.ofSource source).map SourceLine.text
  let (shortages, progress) ← (Progress.start width).feedAll kept
  return { program := progress.listing.toText, shortages }

end Linewise
