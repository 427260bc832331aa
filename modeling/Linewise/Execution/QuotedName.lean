/-
# Linewise.Execution.QuotedName -- file names in messages

A name stands as it is unless a reader could take part of it for something else.
Then it stands in single quotes; a name with an apostrophe and nothing worse
stands in double quotes. Characters without a shape are written as escapes
between `$'` and an apostrophe, with a backslash and a letter or an octal code.
-/
import Linewise.Text.Latin

namespace Linewise.QuotedName

open Text

set_option autoImplicit false

/-- Characters with a meaning of their own wherever they stand. -/
def special : List Char :=
  " !\"$&'()*;<=>[^|\\?:".toList ++ ['\x60']

/-- The apostrophe, and the characters that mean the same in both kinds of
quotes. -/
def isPlain (c : Char) : Bool :=
  c.isAlphanum || "%+,-./:]_@ '".toList.contains c

def needsQuotes (name : Text) : Bool :=
  name.any (fun c => special.contains c || !Latin.isPrintable c) ||
    match name with
    | [] => true
    | '#' :: _ => true
    | '~' :: _ => true
    | ['\x7b'] => true
    | ['\x7d'] => true
    | _ => false

def octalDigit (n : Nat) : Char :=
  Char.ofNat ('0'.toNat + n % 8)

/-- What follows the backslash for a character without a shape. -/
def escape? (c : Char) : Option Text :=
  match c with
  | '\x07' => some ['a']
  | '\x08' => some ['b']
  | '\x0c' => some ['f']
  | '\n' => some ['n']
  | '\r' => some ['r']
  | '\t' => some ['t']
  | '\x0b' => some ['v']
  | _ =>
    if Latin.isPrintable c then none
    else some [octalDigit (c.toNat / 64), octalDigit (c.toNat / 8), octalDigit c.toNat]

/-- The inside of single quotes; `escaping` says that the last character was an
escape. -/
def inside (escaping : Bool) : Text → Text
  | [] => []
  | c :: rest =>
    match escape? c with
    | some letters =>
      (if escaping then [] else "'$'".toList) ++ '\\' :: letters ++ inside true rest
    | none =>
      if c = '\x27' then "'\\''".toList ++ inside false rest
      else (if escaping then "''".toList else []) ++ c :: inside false rest

/-- A hash or a tilde at the start is plain too, since a quote comes before it. -/
def allPlain : Text → Bool
  | '#' :: rest => rest.all isPlain
  | '~' :: rest => rest.all isPlain
  | name => name.all isPlain

/-- The name as it is written. A name with an apostrophe that ends in an escape
begins as if an escape stood before it. -/
def quotedName (name : Text) : Text :=
  let apostrophe := name.contains '\x27'
  let escaping := apostrophe && ((name.getLast?.bind escape?).isSome)
  if !needsQuotes name then name
  else if apostrophe && allPlain name then '"' :: name ++ ['"']
  else '\x27' :: inside escaping name ++ ['\x27']

end Linewise.QuotedName
