/-
# Linewise.Toml.Quoted -- the four kinds of strings

Basic strings stand between double quotes and know escapes; literal strings
stand between single quotes and know none. Both also come between three quotes
and then span lines: a line break directly after the opening is dropped, every
other is one line feed, and up to two quotes may stand before the closing three.
In a basic string over several lines a backslash at the end of a line removes
the break and all blanks and breaks after it.
-/
import Linewise.Toml.Reader

namespace Linewise.Toml

open Text Reader

set_option autoImplicit false

/-! ## Escapes -/

def hexValue? (digits : Text) : Option Nat :=
  if digits.all (fun c => c.isDigit || 'a' ≤ c && c ≤ 'f' || 'A' ≤ c && c ≤ 'F') then
    some (digits.foldl (fun n c =>
      n * 16 + (if c.isDigit then c.toNat - '0'.toNat else c.toLower.toNat - 'a'.toNat + 10)) 0)
  else none

/-- The character with a hexadecimal code; surrogates are no characters. -/
def scalarOf? (digits : Text) : Option Char :=
  (hexValue? digits).bind fun code => if code.isValidChar then some (Char.ofNat code) else none

/-- The character that a one-letter escape stands for. -/
def simpleEscape? : Char → Option Char
  | 'b' => some '\x08'
  | 't' => some '\t'
  | 'n' => some '\n'
  | 'f' => some '\x0c'
  | 'r' => some '\r'
  | '"' => some '"'
  | '\\' => some '\\'
  | _ => none

/-- Put a character in front of what was read. -/
def consRead (c : Char) (read : Option (Text × Text)) : Option (Text × Text) :=
  read.map fun (text, rest) => (c :: text, rest)

/-! ## On one line -/

/-- The rest of a basic string and the text after it. -/
def basicBody : Text → Option (Text × Text)
  | [] => none
  | '"' :: rest => some ([], rest)
  | '\\' :: 'u' :: a :: b :: c :: d :: rest =>
    (scalarOf? [a, b, c, d]).bind fun char => consRead char (basicBody rest)
  | '\\' :: 'U' :: a :: b :: c :: d :: e :: f :: g :: h :: rest =>
    (scalarOf? [a, b, c, d, e, f, g, h]).bind fun char => consRead char (basicBody rest)
  | '\\' :: letter :: rest =>
    (simpleEscape? letter).bind fun char => consRead char (basicBody rest)
  | c :: rest => if isPrintable c && c ≠ '\\' then consRead c (basicBody rest) else none

/-- The rest of a literal string and the text after it. -/
def literalBody : Text → Option (Text × Text)
  | [] => none
  | '\x27' :: rest => some ([], rest)
  | c :: rest => if isPrintable c then consRead c (literalBody rest) else none

/-! ## Over several lines -/

/-- Whether a line ends here, blanks aside. -/
def endsLine (t : Text) : Bool :=
  match t.dropWhile isSpace with
  | '\n' :: _ => true
  | '\r' :: '\n' :: _ => true
  | _ => false

/-- The rest of a basic string over several lines. With `skipping`, a backslash
has ended the line and blanks and breaks are dropped. -/
def longBasicBody (skipping : Bool) : Text → Option (Text × Text)
  | [] => none
  | '"' :: '"' :: '"' :: '"' :: '"' :: rest => some (['"', '"'], rest)
  | '"' :: '"' :: '"' :: '"' :: rest => some (['"'], rest)
  | '"' :: '"' :: '"' :: rest => some ([], rest)
  | '\r' :: '\n' :: rest =>
    if skipping then longBasicBody true rest else consRead '\n' (longBasicBody false rest)
  | '\n' :: rest =>
    if skipping then longBasicBody true rest else consRead '\n' (longBasicBody false rest)
  | '\\' :: 'u' :: a :: b :: c :: d :: rest =>
    (scalarOf? [a, b, c, d]).bind fun char => consRead char (longBasicBody false rest)
  | '\\' :: 'U' :: a :: b :: c :: d :: e :: f :: g :: h :: rest =>
    (scalarOf? [a, b, c, d, e, f, g, h]).bind fun char => consRead char (longBasicBody false rest)
  | '\\' :: letter :: rest =>
    if endsLine (letter :: rest) then longBasicBody true (letter :: rest)
    else (simpleEscape? letter).bind fun char => consRead char (longBasicBody false rest)
  | c :: rest =>
    if skipping && isSpace c then longBasicBody true rest
    else if isPrintable c && c ≠ '\\' then consRead c (longBasicBody false rest)
    else none

/-- The rest of a literal string over several lines. -/
def longLiteralBody : Text → Option (Text × Text)
  | [] => none
  | '\x27' :: '\x27' :: '\x27' :: '\x27' :: '\x27' :: rest => some (['\x27', '\x27'], rest)
  | '\x27' :: '\x27' :: '\x27' :: '\x27' :: rest => some (['\x27'], rest)
  | '\x27' :: '\x27' :: '\x27' :: rest => some ([], rest)
  | '\r' :: '\n' :: rest => consRead '\n' (longLiteralBody rest)
  | '\n' :: rest => consRead '\n' (longLiteralBody rest)
  | c :: rest => if isPrintable c then consRead c (longLiteralBody rest) else none

/-! ## Strings -/

def quoted (opening : Text) (body : Text → Option (Text × Text)) : Reader String := do
  literal opening
  let text ← (body : Reader Text)
  return String.ofList text

/-- A string on one line; keys are of this kind. -/
def shortString : Reader String :=
  quoted ['"'] basicBody <|> quoted ['\x27'] literalBody

def longString (quote : Char) (body : Text → Option (Text × Text)) : Reader String := do
  literal [quote, quote, quote]
  let _ ← optional newline
  let text ← (body : Reader Text)
  return String.ofList text

def string : Reader String :=
  longString '"' (longBasicBody false) <|> longString '\x27' longLiteralBody <|> shortString

end Linewise.Toml
