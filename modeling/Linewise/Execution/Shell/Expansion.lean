/-
# Linewise.Execution.Shell.Expansion -- the arguments behind words

Parameters in a word are replaced by their values. An unquoted value is divided at
its blanks, and its wildcards count; a quoted one stays as it is. Words that have
nothing left in them disappear.
-/
import Linewise.Execution.Shell.State
import Linewise.Execution.Shell.Wildcard

namespace Linewise.Shell

open Text

set_option autoImplicit false

/-- The value of a parameter. -/
def parameter (context : Context) (state : State) (name : Text) : Text :=
  match name with
  | ['?'] => (Nat.repr state.status).toList
  | ['#'] => (Nat.repr context.arguments.length).toList
  | ['0'] => context.name
  | ['@'] | ['*'] => join [' '] context.arguments
  | [digit] =>
    if digit.isDigit then context.arguments.getD (digit.toNat - '0'.toNat - 1) []
    else (state.bindings.lookup name).getD []
  | _ => (state.bindings.lookup name).getD []

/-- The letters of a word with values for its parameters, divided where an
unquoted value has blanks. -/
def expand (context : Context) (state : State) : Word → List Word
  | [] => [[]]
  | letter :: rest =>
    let more := expand context state rest
    match letter with
    | .parameter ['@'] true =>
      match context.arguments.map (·.map Letter.kept) with
      | [] => more
      | words => (words.dropLast.map (.seam :: ·)) ++ front (.seam :: words.getLastD []) more
    | .parameter name true => front (.seam :: (parameter context state name).map .kept) more
    | .parameter name false =>
      (parameter context state name).foldr (fun c words =>
        if c = ' ' || c = '\t' || c = '\n' then [] :: words else front [.bare c] words) more
    | letter => front [letter] more
where
  front (letters : Word) : List Word → List Word
    | [] => [letters]
    | word :: words => (letters ++ word) :: words

/-- The arguments that a word stands for. Quotes around no arguments at all are no
word. -/
def arguments (context : Context) (state : State) (word : Word) : List Text :=
  let unfilled := context.arguments.isEmpty && word.contains (.parameter ['@'] true)
  let isWord := fun (letters : Word) =>
    if unfilled then letters.any (· ≠ .seam) else !letters.isEmpty
  ((expand context state word).filter isWord).flatMap (findWords state.files)

/-- A word as one text. -/
def single (context : Context) (state : State) (word : Word) : Text :=
  word.flatMap fun
    | .parameter name _ => parameter context state name
    | letter => letter.char?.toList

/-- An assignment: the name in front of an equals sign, and the word behind it. -/
def assignment? (word : Word) : Option (Text × Word) := do
  let front := word.takeWhile (· ≠ .bare '=')
  let name ← bareText? front
  let first ← name.head?
  if front.length < word.length && isNameStart first && name.all isNameChar then
    return (name, word.drop (front.length + 1))
  else none

/-- Give a variable a value. -/
def bind (state : State) (name value : Text) : State :=
  { state with bindings := (name, value) :: state.bindings.filter (·.1 ≠ name) }

/-- Make the assignments at the front of a command; the rest are its words. -/
def assign (context : Context) (state : State) : List Word → State × List Word
  | [] => (state, [])
  | word :: rest =>
    match assignment? word with
    | none => (state, word :: rest)
    | some (name, value) =>
      assign context (bind state name (single context state value)) rest

/-- The pattern of a branch with values for its parameters. -/
def patternOf (context : Context) (state : State) (word : Word) : List Glob :=
  globOf 0 (word.flatMap fun
    | .parameter name true => (parameter context state name).map .kept
    | .parameter name false => (parameter context state name).map .bare
    | letter => [letter])

end Linewise.Shell
