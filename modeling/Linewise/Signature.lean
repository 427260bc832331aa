/-
# Linewise.Signature -- the first line of a function

Two shapes of line start a function. The entry point is `main` with nothing but
an optional `void` between its parentheses, and its text is fixed. Any other
signature is a return type, a name and a parameter list:

    unsigned  count ( int a , char  b ) rest
    -------- ------  ----------------- ----
      type    name        params       rest

The parameter list reaches to the last closing parenthesis of its line. A
parameter is reduced to its last word, since the target language has no types,
and a lone `void` stands for no parameter. A line whose type or name is a
control keyword (`else if (x)`, `return f(x)`) is no signature.

A line that ends in a semicolon is a prototype or a call and neither shape
accepts it.
-/
import Linewise.Text.Basic

namespace Linewise

open Text

set_option autoImplicit false

/-! ## Control keywords -/

/-- The words that may stand where a type or a function name would. -/
def controlKeywords : List Text :=
  ["if", "else", "while", "for", "switch", "return", "do", "case", "goto", "sizeof"].map
    String.toList

def isControlKeyword (word : Text) : Bool :=
  controlKeywords.contains word

/-! ## The entry point -/

namespace EntryPoint

/-- Skip one word and the blanks after it; both have to be there. -/
def afterType? (t : Text) : Option Text :=
  let rest := t.dropWhile isWord
  if (t.takeWhile isWord).isEmpty || (rest.takeWhile isBlank).isEmpty then none
  else some (trimStart rest)

/-- Skip the word `void` in any letter case. -/
def afterVoid? (t : Text) : Option Text :=
  if (t.take 4).map Char.toLower = "void".toList then some (t.drop 4) else none

/-- Skip `main`, its parentheses and the `void` they may hold. -/
def afterMain? (t : Text) : Option Text := do
  let afterName ← dropStart? "main".toList t
  let inside ← dropStart? "(".toList (trimStart afterName)
  let inside := trimStart inside
  dropStart? ")".toList (trimStart ((afterVoid? inside).getD inside))

/-- What follows the signature of the entry point, with or without a return
type, when the text starts with one. -/
def rest? (t : Text) : Option Text :=
  match (afterType? t).bind afterMain? with
  | some rest => some rest
  | none => afterMain? t

def accepts (line : Text) : Bool :=
  !endsWith line [';'] && (rest? line).isSome

/-- The entry point always opens its block on the same line. -/
def declaration : Text :=
  "function main() \x7b".toList

end EntryPoint

/-! ## Parameters -/

/-- The last word of a parameter; a lone `void` and an empty parameter have
none. -/
def reduceParameter (parameter : Text) : Option Text :=
  let parts := words parameter
  if parts = ["void".toList] then none else parts.getLast?

def reduceParameters (parameters : Text) : Text :=
  join ", ".toList ((parameters.splitOn ',').filterMap reduceParameter)

/-! ## Any other signature -/

/-- A signature cut into its parts; `gap` are the blanks after the type and
`space` those after the name. -/
structure Signature where
  type : Text
  gap : Text
  name : Text
  space : Text
  params : Text
  rest : Text
  deriving Repr, DecidableEq

namespace Signature

/-- The text up to and including the closing parenthesis. -/
def head (s : Signature) : Text :=
  s.type ++ s.gap ++ s.name ++ s.space ++ '(' :: s.params ++ [')']

/-- Cut a text into the parts of a signature. The words and blanks are maximal,
and the parameter list ends at the last `)` of the text's first line after the
opening parenthesis. -/
def parse? (t : Text) : Option Signature :=
  let afterType := t.dropWhile isWord
  let afterGap := trimStart afterType
  let afterName := afterGap.dropWhile isWord
  let type := t.takeWhile isWord
  let gap := afterType.takeWhile isBlank
  let name := afterGap.takeWhile isWord
  if type.isEmpty || gap.isEmpty || name.isEmpty then none
  else match trimStart afterName with
    | '(' :: body =>
      (splitAtLast? ')' (firstLine body)).map fun (params, after) =>
        { type, gap, name, space := afterName.takeWhile isBlank, params
          rest := after ++ afterFirstLine body }
    | _ => none

def accepts (line : Text) : Bool :=
  !endsWith line [';'] && match parse? line with
    | some s => !isControlKeyword s.type && !isControlKeyword s.name
    | none => false

/-- The function declaration for the signature. -/
def render (s : Signature) : Text :=
  "function ".toList ++ s.name ++ '(' :: reduceParameters s.params ++ ')' :: s.rest

end Signature

end Linewise
