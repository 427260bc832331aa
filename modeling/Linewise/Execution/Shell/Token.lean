/-
# Linewise.Execution.Shell.Token -- the words and marks of a script

A script is read character by character. Blanks divide words, and the characters
`;`, `&`, `|`, `(`, `)`, `<`, `>` and the end of a line stand for themselves,
alone or in pairs. Single quotes, double quotes and backslashes keep characters
in a word and take away their meaning; a hash at the start of a word begins a
comment. What stands between backquotes counts as nothing. A single digit
directly before `<` or `>` is the number of the channel that is redirected.

Every token has the number of the line on which it ends. The end of a line counts
for the next one and carries the text that follows.
-/
import Linewise.Text.Latin

namespace Linewise.Shell

open Text

set_option autoImplicit false

/-- A part of a word. `seam` is where a quotation stood, so that a word of nothing
but quotes is still a word. -/
inductive Letter where
  | bare (c : Char)
  | kept (c : Char)
  | seam
  | parameter (name : Text) (quoted : Bool)
  deriving Repr, DecidableEq

abbrev Word := List Letter

/-- What a redirection does with its target. -/
inductive Direction where
  | create
  | append
  | input
  | duplicate
  deriving Repr, DecidableEq

inductive Token where
  | word (word : Word)
  | redirection (channel : Nat) (direction : Direction)
  | mark (symbol : String)
  | newline (following : Text)
  | finish
  | unreadable (problem : String)
  deriving Repr, DecidableEq

/-- How the next character is read. -/
inductive Mode where
  | plain
  | single
  | double
  | escape
  | doubleEscape
  | comment
  | substitution (within : Bool)
  deriving Repr, DecidableEq

def isNameStart (c : Char) : Bool :=
  c.isAlpha || c = '_'

def isNameChar (c : Char) : Bool :=
  c.isAlphanum || c = '_'

/-- The name after a dollar sign, and how many characters it takes. -/
def parameterName? (rest : Text) : Option (Text × Nat) :=
  match rest with
  | '\x7b' :: inner =>
    let name := inner.takeWhile isNameChar
    if !name.isEmpty && (inner.drop name.length).head? = some '\x7d' then
      some (name, name.length + 2)
    else if (inner.head?.any ("?#".toList.contains ·)) && (inner.drop 1).head? = some '\x7d' then
      some (inner.take 1, 3)
    else none
  | c :: _ =>
    if isNameStart c then
      let name := rest.takeWhile isNameChar
      some (name, name.length)
    else if c.isDigit || "?#@*!-$".toList.contains c then some ([c], 1)
    else none
  | [] => none

/-- The mark at the start of a text, and how many characters it takes after the
first. -/
def markAt? (c : Char) (rest : Text) : Option (String × Nat) :=
  match c, rest with
  | ';', ';' :: _ => some (";;", 1)
  | '&', '&' :: _ => some ("&&", 1)
  | '|', '|' :: _ => some ("||", 1)
  | ';', _ => some (";", 0)
  | '&', _ => some ("&", 0)
  | '|', _ => some ("|", 0)
  | '(', _ => some ("(", 0)
  | ')', _ => some (")", 0)
  | _, _ => none

/-- The redirection at the start of a text: its usual channel, what it does, and
how many characters it takes after the first. -/
def redirectionAt? (c : Char) (rest : Text) : Option (Nat × Direction × Nat) :=
  match c, rest with
  | '>', '>' :: _ => some (1, .append, 1)
  | '>', '&' :: _ => some (1, .duplicate, 1)
  | '>', '|' :: _ => some (1, .create, 1)
  | '>', _ => some (1, .create, 0)
  | '<', '&' :: _ => some (0, .duplicate, 1)
  | '<', _ => some (0, .input, 0)
  | _, _ => none

/-- The word that ends here, if one was begun. Its letters are in reverse. -/
def endWord (line : Nat) : Option Word → List (Nat × Token)
  | some word => [(line, .word word.reverse)]
  | none => []

/-- The tokens of a script from line `line` on. The letters of the word that has
begun are in reverse, and the next `skip` characters have been read. -/
def tokens (skip : Nat) (mode : Mode) (word : Option Word) (line : Nat) :
    Text → List (Nat × Token)
  | [] =>
    match mode with
    | .single | .double | .doubleEscape =>
      [(line, .unreadable "Unterminated quoted string")]
    | .substitution _ => [(line, .unreadable "EOF in backquote substitution")]
    | .escape => endWord line (some (.bare '\\' :: word.getD [])) ++ [(line, .finish)]
    | _ => endWord line word ++ [(line, .finish)]
  | c :: rest =>
    let add := fun (letter : Letter) => some (letter :: word.getD [])
    let next := if c = '\n' then line + 1 else line
    match skip with
    | skip + 1 => tokens skip mode word next rest
    | 0 =>
      match mode with
      | .comment =>
        if c = '\n' then (next, .newline rest) :: tokens 0 .plain none next rest
        else tokens 0 .comment none line rest
      | .single =>
        if c = '\x27' then tokens 0 .plain word line rest
        else tokens 0 .single (add (.kept c)) next rest
      | .substitution within =>
        if c = '\x60' then tokens 0 (if within then .double else .plain) word line rest
        else tokens 0 mode word next rest
      | .double =>
        if c = '"' then tokens 0 .plain word line rest
        else if c = '\x60' then tokens 0 (.substitution true) word line rest
        else if c = '\\' then tokens 0 .doubleEscape word line rest
        else match (if c = '$' then parameterName? rest else none) with
          | some (name, length) => tokens length .double (add (.parameter name true)) line rest
          | none => tokens 0 .double (add (.kept c)) next rest
      | .doubleEscape =>
        if c = '\n' then tokens 0 .double word next rest
        else if c = '"' || c = '\\' || c = '$' || c = '\x60' then
          tokens 0 .double (add (.kept c)) line rest
        else tokens 0 .double (some (.kept c :: .kept '\\' :: word.getD [])) line rest
      | .escape =>
        if c = '\n' then tokens 0 .plain word next rest
        else tokens 0 .plain (add (.kept c)) line rest
      | .plain =>
        if c = '\x27' then tokens 0 .single (add .seam) line rest
        else if c = '"' then tokens 0 .double (add .seam) line rest
        else if c = '\x60' then
          tokens 0 (.substitution false) (some (word.getD [])) line rest
        else if c = '\\' then tokens 0 .escape word line rest
        else if c = '#' && word.isNone then tokens 0 .comment none line rest
        else if c = ' ' || c = '\t' then endWord line word ++ tokens 0 .plain none line rest
        else if c = '\n' then
          endWord line word ++ (next, .newline rest) :: tokens 0 .plain none next rest
        else match markAt? c rest, redirectionAt? c rest with
          | some (symbol, length), _ =>
            endWord line word ++ (line, .mark symbol) :: tokens length .plain none line rest
          | none, some (channel, direction, length) =>
            let tail := tokens length .plain none line rest
            match word with
            | some [.bare digit] =>
              if digit.isDigit then
                (line, .redirection (digit.toNat - '0'.toNat) direction) :: tail
              else endWord line word ++ (line, .redirection channel direction) :: tail
            | _ => endWord line word ++ (line, .redirection channel direction) :: tail
          | none, none =>
            match (if c = '$' then parameterName? rest else none) with
            | some (name, length) => tokens length .plain (add (.parameter name false)) line rest
            | none => tokens 0 .plain (add (.bare c)) line rest

/-- The tokens of a text that begins on a line. -/
def tokensFrom (line : Nat) (text : Text) : List (Nat × Token) :=
  tokens 0 .plain none line text

/-- The characters of a word without any quotes or parameters. -/
def bareText? : Word → Option Text
  | [] => some []
  | .bare c :: rest => (bareText? rest).map (c :: ·)
  | _ :: _ => none

end Linewise.Shell
