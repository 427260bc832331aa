/-
# Linewise.PrintCall.Template -- a print call as a template literal

A print call becomes a `console.log` of a template literal: the format is the
literal's text and each placeholder (`%d`, `%f`, `%c`, `%s`) an interpolation.

* `stripNewline`: one `\n` escape at the end goes, since `console.log` ends the
  line itself. In `\\n` the backslash is itself escaped, so nothing goes.
* `escape`: a backtick and a `$` before an opening brace get a backslash.
* `substitute`: placeholders take the arguments by position, whatever their
  kind; a placeholder with no argument left becomes `undefined`, and surplus
  arguments are dropped. Argument text is not looked at again.

`shortage?` reports a format that asks for more arguments than there are.
-/
import Linewise.Arguments
import Linewise.PrintCall.Occurrence

namespace Linewise

open Text

set_option autoImplicit false

/-- A format and its arguments. -/
structure PrintCall where
  format : Text
  args : List Text
  deriving Repr, DecidableEq

/-- A print call whose placeholders outnumber its arguments. -/
structure Shortage where
  format : Text
  placeholders : Nat
  arguments : Nat
  deriving Repr, DecidableEq

namespace PrintCall

/-! ## Reading -/

def Occurrence.toCall (o : Occurrence) : PrintCall :=
  { format := o.format
    args := match o.arguments with
      | some arguments => Arguments.split arguments.text
      | none => [] }

/-- The leftmost print call of a line. -/
def parse? (line : Text) : Option PrintCall :=
  (Occurrence.find? line).map Occurrence.toCall

/-! ## Placeholders -/

def isPlaceholderKind (c : Char) : Bool :=
  c = 'd' || c = 'f' || c = 'c' || c = 's'

def countPlaceholders : Text → Nat
  | '%' :: kind :: rest =>
    if isPlaceholderKind kind then countPlaceholders rest + 1 else countPlaceholders (kind :: rest)
  | _ :: rest => countPlaceholders rest
  | [] => 0

def undefined : Text := "undefined".toList

def interpolation (argument : Text) : Text :=
  "$\x7b".toList ++ argument ++ "\x7d".toList

/-- Put the arguments in the place of the placeholders, from the left. -/
def substitute : List Text → Text → Text
  | args, '%' :: kind :: rest =>
    if isPlaceholderKind kind then
      interpolation (args.head?.getD undefined) ++ substitute args.tail rest
    else '%' :: substitute args (kind :: rest)
  | args, c :: rest => c :: substitute args rest
  | _, [] => []

/-! ## The text of the literal -/

/-- Remove one `\n` escape from the end. A backslash in front of it counts as
escaped when the backslashes before it pair up. -/
def stripNewline (format : Text) : Text :=
  match format.reverse with
  | 'n' :: '\\' :: head =>
    if (head.takeWhile (· == '\\')).length % 2 = 0 then head.reverse else format
  | _ => format

/-- Put a backslash before each backtick and each `$` that precedes an opening
brace. -/
def escape : Text → Text
  | '\x60' :: rest => '\\' :: '\x60' :: escape rest
  | '$' :: '{' :: rest => '\\' :: '$' :: '{' :: escape rest
  | c :: rest => c :: escape rest
  | [] => []

def placeholders (p : PrintCall) : Nat :=
  countPlaceholders p.format

/-- The inside of the template literal. -/
def interpolate (p : PrintCall) : Text :=
  substitute p.args (escape (stripNewline p.format))

def consoleLog (p : PrintCall) : Text :=
  "console.log(\x60".toList ++ p.interpolate ++ "\x60);".toList

/-- The warning for a call with too few arguments. -/
def shortage? (p : PrintCall) : Option Shortage :=
  if p.args.length < p.placeholders then
    some { format := p.format, placeholders := p.placeholders, arguments := p.args.length }
  else none

end PrintCall

end Linewise
