/-
# Linewise.Execution.Shell.Command -- the commands of a script

A list of commands is divided by `;`, `&` and ends of lines. `&&` and `||` join
commands whose success decides what runs next, `|` joins those whose output is
read by the next, and `!` turns success around. Braces or brackets hold a list as
one command; `if`, `while`, `until`, `for` and `case` decide which lists run, and
how often. A name with an empty pair of brackets defines a function.

The words with such a meaning are recognised only where a command can begin or
where one of them is due. What cannot be read is reported with the token that
stood in the way, and where only one token would have done, with that one.
-/
import Linewise.Execution.Shell.Token

namespace Linewise.Shell

open Text

set_option autoImplicit false

structure Redirection where
  channel : Nat
  direction : Direction
  target : Word
  deriving Repr, DecidableEq

inductive Command where
  | nothing
  | simple (line : Nat) (words : List Word) (redirections : List Redirection)
  | group (line : Nat) (body : Command) (redirections : List Redirection)
  | subshell (line : Nat) (body : Command) (redirections : List Redirection)
  | conditional (test body otherwise : Command)
  | loop (repeats : Bool) (test body : Command)
  | forEach (name : Text) (words : List Word) (body : Command)
  | choice (word : Word) (patterns : List Word) (body otherwise : Command)
  | definition (name : Text) (body : Command)
  | sequence (first second : Command)
  | both (first second : Command)
  | either (first second : Command)
  | pipe (first second : Command)
  | negation (command : Command)
  | background (command : Command)
  deriving Repr

/-- Why a script cannot be read, and on which line. More text could help if its
end stood in the way. -/
structure Problem where
  line : Nat
  text : String
  atEnd : Bool := false
  deriving Repr, DecidableEq

/-! ## Tokens in their place -/

abbrev Tokens := List (Nat × Token)

/-- The words that have a meaning where a command can begin. -/
def reserved : List String :=
  ["!", "\x7b", "\x7d", "case", "do", "done", "elif", "else", "esac", "fi", "for", "if", "in",
    "then", "until", "while"]

/-- The reserved word that a word is. -/
def reserved? (word : Word) : Option String :=
  (bareText? word).bind fun text => reserved.find? fun name => name.toList = text

def quotedMark (symbol : String) : String :=
  "\"" ++ symbol ++ "\""

/-- A token in a message. -/
def describe (commandPosition : Bool) : Token → String
  | .word word =>
    match (if commandPosition then reserved? word else none) with
    | some name => quotedMark name
    | none => "word"
  | .redirection .. => "redirection"
  | .mark symbol => quotedMark symbol
  | .newline _ => "newline"
  | .finish => "end of file"
  | .unreadable problem => problem

def unexpected (commandPosition : Bool) (expected : Option String) (tokens : Tokens) : Problem :=
  match tokens with
  | [] => { line := 0, text := "end of file unexpected", atEnd := true }
  | (line, .unreadable problem) :: _ => { line, text := problem, atEnd := true }
  | (line, token) :: _ =>
    { line
      atEnd := token = .finish
      text := describe commandPosition token ++ " unexpected" ++
        match expected with
        | some symbol =>
          " (expecting " ++ (if symbol = "word" then symbol else quotedMark symbol) ++ ")"
        | none => "" }

def skipNewlines : Tokens → Tokens
  | (_, .newline _) :: rest => skipNewlines rest
  | tokens => tokens

/-- Reading takes tokens from the front. -/
abbrev Reader (α : Type) := Tokens → Except Problem (α × Tokens)

/-! ## Simple commands -/

/-- The target of a redirection. -/
def readTarget (channel : Nat) (direction : Direction) : Reader Redirection
  | (line, .word target) :: rest =>
    match direction, bareText? target with
    | .duplicate, some [c] =>
      if c.isDigit || c = '-' then .ok ({ channel, direction, target }, rest)
      else .error { line, text := "Bad fd number" }
    | .duplicate, some _ => .error { line, text := "Bad fd number" }
    | _, _ => .ok ({ channel, direction, target }, rest)
  | tokens => .error (unexpected false none tokens)

def specialNames : List String :=
  ["break", "continue", "eval", "exec", "exit", "export", "readonly", "return", "set", "shift",
    "times", "trap", "unset"]

/-- A name of letters, digits and underscores. -/
def name? (word : Word) : Option Text := do
  let name ← bareText? word
  let first ← name.head?
  if isNameStart first && name.all isNameChar then return name else none

/-- The name of a function. -/
def functionName? (word : Word) : Option Text :=
  (name? word).filter fun name => !specialNames.any (·.toList = name)

/-- The words up to the next token that is none, at most so many. -/
def readWords : Nat → List Word → Tokens → List Word × Tokens
  | bound + 1, words, (_, .word word) :: rest => readWords bound (words ++ [word]) rest
  | _, words, tokens => (words, tokens)

/-- The words that a `for` runs over; without `in` they are the arguments of the
script. -/
def readRange (tokens : Tokens) : Except Problem (List Word × Tokens) :=
  let isIn := fun (word : Word) => reserved? word = some "in"
  match skipNewlines tokens with
  | (line, .word word) :: rest =>
    if isIn word then
      match readWords rest.length [] rest with
      | (words, (_, .newline _) :: rest) => .ok (words, rest)
      | (words, (_, .mark ";") :: rest) => .ok (words, rest)
      | (_, rest) => .error (unexpected false none rest)
    else .ok ([[.parameter ['@'] true]], (line, .word word) :: rest)
  | (_, .mark ";") :: rest => .ok ([[.parameter ['@'] true]], rest)
  | rest => .ok ([[.parameter ['@'] true]], rest)

/-- The patterns of one branch of a `case`, divided by bars, up to the bracket. -/
def readPatterns : Nat → List Word → Reader (List Word)
  | bound + 1, patterns, (_, .word word) :: (_, .mark "|") :: rest =>
    readPatterns bound (patterns ++ [word]) rest
  | _, patterns, (_, .word word) :: (_, .mark ")") :: rest => .ok (patterns ++ [word], rest)
  | _, _, (_, .word _) :: rest => .error (unexpected false (some ")") rest)
  | _, _, tokens => .error (unexpected false (some ")") tokens.tail)

/-- The words and redirections of a simple command, at most so many. It stops
at a bracket. -/
def readSimple : Nat → List Word → List Redirection → Reader (List Word × List Redirection)
  | bound + 1, words, redirections, (_, .word word) :: rest =>
    readSimple bound (words ++ [word]) redirections rest
  | bound + 1, words, redirections, (_, .redirection channel direction) :: rest => do
    let (redirection, rest) ← readTarget channel direction rest
    readSimple bound words (redirections ++ [redirection]) rest
  | _, words, redirections, tokens => .ok ((words, redirections), tokens)

/-- The redirections after a compound command, at most so many. -/
def readRedirections : Nat → List Redirection → Reader (List Redirection)
  | bound + 1, redirections, (_, .redirection channel direction) :: rest => do
    let (redirection, rest) ← readTarget channel direction rest
    readRedirections bound (redirections ++ [redirection]) rest
  | _, redirections, tokens => .ok (redirections, tokens)

/-! ## Lists -/

/-- Put a command behind those read so far. -/
def Command.andThen : Command → Command → Command
  | .nothing, second => second
  | first, second => .sequence first second

/-- Whether a token ends a list inside a compound command. -/
def endsList : Token → Bool
  | .word word =>
    (reserved? word).any (["\x7d", "do", "done", "elif", "else", "esac", "fi", "then"].contains ·)
  | .mark symbol => symbol = ")" || symbol = ";;"
  | .finish => true
  | _ => false

/-- The token that has to stand here. -/
def expect (symbol : String) (tokens : Tokens) : Except Problem Tokens :=
  match tokens with
  | (_, .mark mark) :: rest =>
    if mark = symbol then .ok rest else .error (unexpected true (some symbol) tokens)
  | (_, .word word) :: rest =>
    if reserved? word = some symbol then .ok rest
    else .error (unexpected true (some symbol) tokens)
  | _ => .error (unexpected true (some symbol) tokens)

mutual

/-- A command and its redirections. -/
def readCommand : Nat → Reader Command
  | 0, tokens => .error (unexpected true none tokens)
  | bound + 1, tokens =>
    match tokens with
    | (line, .mark "(") :: rest => do
      let (body, rest) ← readBody bound .nothing rest
      let rest ← expect ")" rest
      let (redirections, rest) ← readRedirections rest.length [] rest
      return (.subshell line body redirections, rest)
    | (line, .word word) :: rest =>
      match reserved? word with
      | some keyword => do
        let (body, rest) ← match keyword with
          | "\x7b" => do
            let (body, rest) ← readBody bound .nothing rest
            pure (body, ← expect "\x7d" rest)
          | "if" => readBranches bound rest
          | "while" => readLoop true bound rest
          | "until" => readLoop false bound rest
          | "for" => readFor bound rest
          | "case" =>
            match rest with
            | (_, .word subject) :: rest => do
              let rest ← expect "in" (skipNewlines rest)
              readChoices subject bound rest
            | _ => .error (unexpected false (some "word") rest)
          | _ => .error (unexpected true none tokens)
        let (redirections, rest) ← readRedirections rest.length [] rest
        return (.group line body redirections, rest)
      | none => do
        let ((words, redirections), after) ← readSimple tokens.length [] [] tokens
        match words, redirections, after with
        | [name], [], (_, .mark "(") :: (line, .mark ")") :: after =>
          match functionName? name with
          | none => .error { line, text := "Bad function name" }
          | some name => do
            let (body, after) ← readCommand bound (skipNewlines after)
            return (.definition name body, after)
        | [_], [], (_, .mark "(") :: after => .error (unexpected false (some ")") after)
        | _, _, _ => return (.simple line words redirections, after)
    | (line, .redirection ..) :: _ => do
      let ((words, redirections), after) ← readSimple tokens.length [] [] tokens
      return (.simple line words redirections, after)
    | _ => .error (unexpected true none tokens)

/-- A test and its branches, after `if` or `elif`. -/
def readBranches : Nat → Reader Command
  | 0, tokens => .error (unexpected true none tokens)
  | bound + 1, tokens => do
    let (test, rest) ← readBody bound .nothing tokens
    let rest ← expect "then" rest
    let (body, rest) ← readBody bound .nothing rest
    match rest with
    | (_, .word word) :: after =>
      match reserved? word with
      | some "elif" => do
        let (otherwise, rest) ← readBranches bound after
        return (.conditional test body otherwise, rest)
      | some "else" => do
        let (otherwise, rest) ← readBody bound .nothing after
        return (.conditional test body otherwise, ← expect "fi" rest)
      | _ => return (.conditional test body .nothing, ← expect "fi" rest)
    | _ => return (.conditional test body .nothing, ← expect "fi" rest)

/-- A loop, after `while` or `until`. -/
def readLoop (repeats : Bool) : Nat → Reader Command
  | 0, tokens => .error (unexpected true none tokens)
  | bound + 1, tokens => do
    let (test, rest) ← readBody bound .nothing tokens
    let rest ← expect "do" rest
    let (body, rest) ← readBody bound .nothing rest
    return (.loop repeats test body, ← expect "done" rest)

/-- A loop, after `for`. -/
def readFor : Nat → Reader Command
  | 0, tokens => .error (unexpected true none tokens)
  | bound + 1, tokens =>
    match tokens with
    | (line, .word word) :: rest =>
      match name? word with
      | none => .error { line, text := "Bad for loop variable" }
      | some name => do
        let (words, rest) ← readRange rest
        let rest ← expect "do" (skipNewlines rest)
        let (body, rest) ← readBody bound .nothing rest
        return (.forEach name words body, ← expect "done" rest)
    | (line, token) :: _ =>
      .error { line, text := "Bad for loop variable", atEnd := token = .finish }
    | [] => .error (unexpected true none tokens)

/-- The branches of a `case` that are left. -/
def readChoices (subject : Word) : Nat → Reader Command
  | 0, tokens => .error (unexpected true none tokens)
  | bound + 1, tokens =>
    match skipNewlines tokens with
    | (line, .word word) :: rest =>
      if reserved? word = some "esac" then .ok (.nothing, rest)
      else readChoice subject bound ((line, .word word) :: rest)
    | (_, .mark "(") :: rest => readChoice subject bound rest
    | tokens => readChoice subject bound tokens

/-- One branch of a `case` and those after it. -/
def readChoice (subject : Word) : Nat → Reader Command
  | 0, tokens => .error (unexpected true none tokens)
  | bound + 1, tokens => do
    let (patterns, rest) ← readPatterns tokens.length [] tokens
    let (body, rest) ← readBranch bound rest
    match skipNewlines rest with
    | (_, .mark ";;") :: rest => do
      let (otherwise, rest) ← readChoices subject bound rest
      return (.choice subject patterns body otherwise, rest)
    | (line, .word word) :: rest =>
      if reserved? word = some "esac" then return (.choice subject patterns body .nothing, rest)
      else .error (unexpected true (some ";;") ((line, .word word) :: rest))
    | rest => .error (unexpected true (some ";;") rest)

/-- The list of a branch, which may be empty. -/
def readBranch : Nat → Reader Command
  | 0, tokens => .error (unexpected true none tokens)
  | bound + 1, tokens =>
    match skipNewlines tokens with
    | (line, token) :: rest =>
      if endsList token then .ok (.nothing, (line, token) :: rest)
      else readBody bound .nothing ((line, token) :: rest)
    | [] => .ok (.nothing, [])

/-- Commands joined by `|`, after those read so far. -/
def readPipe (first : Option Command) : Nat → Reader Command
  | 0, tokens => .error (unexpected true none tokens)
  | bound + 1, tokens => do
    let (command, rest) ← readCommand bound tokens
    let joined := match first with
      | some first => Command.pipe first command
      | none => command
    match rest with
    | (_, .mark "|") :: rest => readPipe (some joined) bound (skipNewlines rest)
    | _ => return (joined, rest)

/-- A pipeline, perhaps turned around. -/
def readPipeline : Nat → Reader Command
  | 0, tokens => .error (unexpected true none tokens)
  | bound + 1, tokens =>
    match tokens with
    | (_, .word word) :: rest =>
      if reserved? word = some "!" then do
        let (command, rest) ← readPipe none bound rest
        return (.negation command, rest)
      else readPipe none bound tokens
    | _ => readPipe none bound tokens

/-- Pipelines joined by `&&` and `||`, after those read so far. -/
def readJoined (join : Command → Command) : Nat → Reader Command
  | 0, tokens => .error (unexpected true none tokens)
  | bound + 1, tokens => do
    let (command, rest) ← readPipeline bound tokens
    let joined := join command
    match rest with
    | (_, .mark "&&") :: rest => readJoined (Command.both joined) bound (skipNewlines rest)
    | (_, .mark "||") :: rest => readJoined (Command.either joined) bound (skipNewlines rest)
    | _ => return (joined, rest)

/-- The list inside a compound command, after the commands read so far. -/
def readBody : Nat → Command → Reader Command
  | 0, _, tokens => .error (unexpected true none tokens)
  | bound + 1, before, tokens =>
    let begun := match before with
      | .nothing => false
      | _ => true
    match skipNewlines tokens with
    | [] => .ok (before, [])
    | (line, token) :: rest =>
      if endsList token && (begun || token = .finish) then .ok (before, (line, token) :: rest)
      else do
        let (command, rest) ← readJoined id bound ((line, token) :: rest)
        match rest with
        | (_, .mark "&") :: rest => readBody bound (before.andThen (.background command)) rest
        | (_, .mark ";") :: rest => readBody bound (before.andThen command) rest
        | (_, .newline _) :: rest => readBody bound (before.andThen command) rest
        | _ => return (before.andThen command, rest)

end

/-- The commands of one line, at most so many, after those read so far. The tokens
that are left begin with the end of the line or of the text. -/
def readLine (bound : Nat) : Nat → Command → Reader Command
  | 0, _, tokens => .error (unexpected true none tokens)
  | more + 1, before, tokens =>
    match tokens with
    | [] => .ok (before, [])
    | (_, .newline _) :: _ => .ok (before, tokens)
    | (_, .finish) :: _ => .ok (before, tokens)
    | _ => do
      let (command, rest) ← readJoined id bound tokens
      match rest with
      | (_, .mark "&") :: rest => readLine bound more (before.andThen (.background command)) rest
      | (_, .mark ";") :: rest => readLine bound more (before.andThen command) rest
      | (_, .newline _) :: _ => return (before.andThen command, rest)
      | (_, .finish) :: _ => return (before.andThen command, rest)
      | _ => .error (unexpected true none rest)

/-- The commands up to the end of the line, and the tokens from there on. -/
def nextLine (tokens : Tokens) : Except Problem (Command × Tokens) :=
  readLine (8 * tokens.length + 8) (tokens.length + 1) .nothing tokens

end Linewise.Shell
