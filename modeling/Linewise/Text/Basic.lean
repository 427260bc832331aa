/-
# Linewise.Text.Basic -- cutting text into lines, words and pieces

Text is a list of characters. The operations here are the ones every recogniser
is written with: trimming, cutting into lines and words, splitting at the last
occurrence of a character, and joining with a separator.

* `lines`: a line ends at a line feed, and one carriage return directly before
  it belongs to the break. A final break ends the last line and starts none.
* `words`: the maximal runs of characters that are not blank.
* `splitAtLast?`: the text before and after the last occurrence of a character.
-/
import Linewise.Text.CharClass

namespace Linewise

/-- Text as the recognisers read it. -/
abbrev Text := List Char

namespace Text

set_option autoImplicit false

def trimStart (t : Text) : Text :=
  t.dropWhile isBlank

def trimEnd (t : Text) : Text :=
  (t.reverse.dropWhile isBlank).reverse

/-- The text without the blanks at either end. -/
def trim (t : Text) : Text :=
  trimEnd (trimStart t)

def startsWith (t start : Text) : Bool :=
  start.isPrefixOf t

def endsWith (t finish : Text) : Bool :=
  finish.isSuffixOf t

/-- Put a character in front of the first piece. -/
def consFirst (c : Char) : List Text → List Text
  | [] => [[c]]
  | piece :: rest => (c :: piece) :: rest

def lines : Text → List Text
  | [] => []
  | '\r' :: '\n' :: rest => [] :: lines rest
  | c :: rest => if c = '\n' then [] :: lines rest else consFirst c (lines rest)

def words : Text → List Text
  | [] => []
  | c :: rest =>
    if isBlank c then words rest
    else match rest with
      | [] => [[c]]
      | next :: _ => if isBlank next then [c] :: words rest else consFirst c (words rest)

/-- The text before and after the last occurrence of `mark`. -/
def splitAtLast? {α : Type} [DecidableEq α] (mark : α) : List α → Option (List α × List α)
  | [] => none
  | c :: rest =>
    match splitAtLast? mark rest with
    | some (before, after) => some (c :: before, after)
    | none => if c = mark then some ([], rest) else none

/-- The pieces in order, with `separator` between neighbours. -/
def join (separator : Text) : List Text → Text
  | [] => []
  | [piece] => piece
  | piece :: next :: rest => piece ++ separator ++ join separator (next :: rest)

/-- The part of the text before its first line feed. -/
def firstLine (t : Text) : Text :=
  t.takeWhile (· != '\n')

/-- The rest of the text from its first line feed on. -/
def afterFirstLine (t : Text) : Text :=
  t.dropWhile (· != '\n')

/-- Remove `start` from the front of the text, if it is there. -/
def dropStart? : (start t : Text) → Option Text
  | [], t => some t
  | _ :: _, [] => none
  | c :: start, d :: t => if c = d then dropStart? start t else none

/-- Lines, each with its line feed. -/
def unlines (lines : List String) : String :=
  String.join (lines.map (· ++ "\n"))

/-- Number of bytes of the text in UTF-8. -/
def byteLength : Text → Nat
  | [] => 0
  | c :: rest => c.utf8Size + byteLength rest

end Text

end Linewise
