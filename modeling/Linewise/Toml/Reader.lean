/-
# Linewise.Toml.Reader -- reading a document from the left

A reader takes what it understands from the front of a text and fails on
anything else; an alternative starts again where the failed one started. Blanks
are spaces and tabs only, lines end in a line feed, with or without a carriage
return before it, and a comment holds no control character but the tab.
-/
import Linewise.Text.Basic

namespace Linewise.Toml

open Text

set_option autoImplicit false

abbrev Reader := StateT Text Option

namespace Reader

def literal (word : Text) : Reader Unit := fun t =>
  (dropStart? word t).map fun rest => ((), rest)

/-- One character of a class. -/
def one (accepts : Char → Bool) : Reader Char
  | c :: rest => if accepts c then some (c, rest) else none
  | [] => none

/-- The longest run of characters of a class. -/
def many (accepts : Char → Bool) : Reader Text := fun t =>
  some (t.takeWhile accepts, t.dropWhile accepts)

/-- The next character, which stays in the text. -/
def peek : Reader (Option Char) := fun t => some (t.head?, t)

/-- Run a reader with a bound that no text of this length exceeds. -/
def bounded {α : Type} (reader : Nat → Reader α) : Reader α := fun t =>
  reader (t.length + 1) t

end Reader

open Reader

def isSpace (c : Char) : Bool :=
  c = ' ' || c = '\t'

/-- The characters that strings and comments may hold as they are. -/
def isPrintable (c : Char) : Bool :=
  c = '\t' || 0x20 ≤ c.toNat && c.toNat ≠ 0x7f

def spaces : Reader Unit := do
  let _ ← many isSpace

def newline : Reader Unit :=
  literal ['\n'] <|> literal ['\r', '\n']

def comment : Reader Unit := do
  literal ['#']
  let _ ← many isPrintable

def endOfText : Reader Unit
  | [] => some ((), [])
  | _ => none

/-- The end of a line: blanks, a comment, and the break or the end of the text. -/
def lineEnd : Reader Unit := do
  spaces
  let _ ← optional comment
  newline <|> endOfText

/-- Skip blanks, line breaks and comments. -/
def skipTrivia (inComment : Bool) : Text → Option Text
  | [] => some []
  | '\n' :: rest => skipTrivia false rest
  | '\r' :: '\n' :: rest => skipTrivia false rest
  | c :: rest =>
    if inComment then if isPrintable c then skipTrivia true rest else none
    else if isSpace c then skipTrivia false rest
    else if c = '#' then skipTrivia true rest
    else some (c :: rest)

def trivia : Reader Unit := fun t =>
  (skipTrivia false t).map fun rest => ((), rest)

end Linewise.Toml
