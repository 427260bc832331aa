/-
# Linewise.PrintCall.Occurrence -- finding a print call in a line

A print call is recognised anywhere in a line:

    x; printf ("%d\n" , a, f(b)); y
    ---        -----    --------
    before     format   arguments

`printf` may not continue a word, the format is a literal without a quote in it,
and after the literal comes either the closing parenthesis or a comma. The
arguments after a comma reach to the last closing parenthesis of their text
line and are not empty: when blanks alone separate the comma from that
parenthesis, the last of them is the argument text, unless it is a line feed.

`at?` reads a call at the start of a text and `find?` takes the leftmost one.
-/
import Linewise.Text.Basic

namespace Linewise.PrintCall

open Text

set_option autoImplicit false

/-- The text between the comma and the closing parenthesis: leading blanks, and
the arguments. -/
structure ArgumentText where
  blanks : Text
  text : Text
  deriving Repr, DecidableEq

/-- One print call in its line. `space` are the blanks after `printf` and `gap`
those after the format. -/
structure Occurrence where
  before : Text
  space : Text
  format : Text
  gap : Text
  arguments : Option ArgumentText
  after : Text
  deriving Repr, DecidableEq

namespace Occurrence

/-- What stands in front of the format inside the call. -/
def opening (o : Occurrence) : Text :=
  "printf".toList ++ o.space ++ "(\"".toList

/-- What stands between the format and the arguments or the end. -/
def middle (o : Occurrence) : Text :=
  '"' :: o.gap ++ match o.arguments with
    | some arguments => ',' :: arguments.blanks
    | none => []

def argumentText (o : Occurrence) : Text :=
  match o.arguments with
  | some arguments => arguments.text
  | none => []

/-- The call itself, up to and including the closing parenthesis. -/
def call (o : Occurrence) : Text :=
  o.opening ++ o.format ++ o.middle ++ o.argumentText ++ [')']

/-- The arguments after a comma, and the text after the closing parenthesis. -/
def arguments? (t : Text) : Option (ArgumentText × Text) :=
  let blanks := t.takeWhile isBlank
  let body := trimStart t
  match splitAtLast? ')' (firstLine body) with
  | none => none
  | some ([], after) =>
    match blanks.getLast? with
    | none => none
    | some last =>
      if last = '\n' then none
      else some (⟨blanks.dropLast, [last]⟩, after ++ afterFirstLine body)
  | some (text, after) => some (⟨blanks, text⟩, after ++ afterFirstLine body)

/-- The call that starts the text. -/
def at? (t : Text) : Option Occurrence := do
  let afterName ← dropStart? "printf".toList t
  let literal ← dropStart? "(\"".toList (trimStart afterName)
  let space := afterName.takeWhile isBlank
  let format := literal.takeWhile (· != '"')
  let afterFormat ← dropStart? "\"".toList (literal.dropWhile (· != '"'))
  let gap := afterFormat.takeWhile isBlank
  match trimStart afterFormat with
  | ')' :: after => some { before := [], space, format, gap, arguments := none, after }
  | ',' :: rest =>
    let (arguments, after) ← arguments? rest
    some { before := [], space, format, gap, arguments := some arguments, after }
  | _ => none

/-- The leftmost call of a text. `boundary` tells that the text does not
continue a word. -/
def findFrom (boundary : Bool) : Text → Option Occurrence
  | [] => none
  | c :: rest =>
    match (if boundary then at? (c :: rest) else none) with
    | some found => some found
    | none => (findFrom (!isWord c) rest).map fun found =>
        { found with before := c :: found.before }

def find? (t : Text) : Option Occurrence :=
  findFrom true t

end Occurrence

end Linewise.PrintCall
