/-
# Linewise.Listing -- the lines of the program so far

A listing collects rendered lines, each behind its indentation, and remembers
whether one of them calls the entry point. `toText` is the program: every line
ends in a line feed, and the call is added when no line makes it.
-/
import Linewise.Depth
import Linewise.EntryCall

namespace Linewise

set_option autoImplicit false

structure Listing where
  width : Nat
  lines : Array Text := #[]
  callsEntry : Bool := false
  deriving Repr, DecidableEq

namespace Listing

/-- Add a text at a depth. The text is searched for the call on its own, without
the indentation. -/
def add (listing : Listing) (depth : Nat) (text : Text) : Except Overflow Listing :=
  (indentation depth listing.width).map fun blanks =>
    { listing with
      lines := listing.lines.push (blanks ++ text)
      callsEntry := listing.callsEntry || EntryCall.isIn text }

/-- The lines, each with its line feed. -/
def body (listing : Listing) : Text :=
  listing.lines.toList.flatMap fun line => line ++ ['\n']

def toText (listing : Listing) : Text :=
  if listing.callsEntry then listing.body else listing.body ++ EntryCall.addition

end Listing

end Linewise
