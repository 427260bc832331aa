/-
# Linewise.EntryCall -- the call that starts the program

A program has to call its entry point itself. A text calls it when `main ( ) ;`,
with any blanks in between, stands at its start or behind a character that is
neither a word character nor a dot. `ensure` adds the call, after an empty line,
to a text that has none.
-/
import Linewise.Text.Basic

namespace Linewise.EntryCall

open Text

set_option autoImplicit false

/-- What follows the call, when the text starts with one. -/
def rest? (t : Text) : Option Text := do
  let afterName ← dropStart? "main".toList t
  let inside ← dropStart? "(".toList (trimStart afterName)
  let afterClose ← dropStart? ")".toList (trimStart inside)
  dropStart? ";".toList (trimStart afterClose)

/-- Whether a call may follow this character. -/
def mayPrecede (c : Char) : Bool :=
  !isWord c && c != '.'

/-- Whether the text holds a call behind one of its characters. -/
def isInside : Text → Bool
  | [] => false
  | c :: rest => mayPrecede c && (rest? rest).isSome || isInside rest

def isIn (t : Text) : Bool :=
  (rest? t).isSome || isInside t

/-- The lines that are added to a program without a call. -/
def addition : Text :=
  "\nmain();\n".toList

def ensure (t : Text) : Text :=
  if isIn t then t
  else if t.isEmpty || endsWith t ['\n'] then t ++ addition
  else t ++ '\n' :: addition

end Linewise.EntryCall
