/-
# Linewise.Execution.Shell.Builtin -- commands by their names

The commands are `echo`, `printf`, `cat`, `exit`, `return`, `break`, `continue`,
`true`, `false` and `:`; any other name is not found. All but `cat` are part of the
shell, and complain with the name of the script and the line.
-/
import Linewise.Execution.Cat
import Linewise.Execution.Printf
import Linewise.Execution.Shell.Redirect

namespace Linewise.Shell

open Text

set_option autoImplicit false

/-- Write the output of a command that is part of the shell. -/
def say (context : Context) (state : State) (line : Nat) (name text : Text) (status : Nat) : State :=
  match state.write? context.channels 1 text with
  | some state => { state with status }
  | none =>
    state.fail context line 1 (name ++ ": ".toList ++ name ++ ": I/O error".toList)

def echo (arguments : List Text) : Text :=
  match arguments with
  | ['-', 'n'] :: texts => (Printf.unescape 0 (join [' '] texts)).1
  | texts => (Printf.unescape 0 (join [' '] texts ++ ['\n'])).1

/-- A number as an argument: neither negative nor too large, with nothing but
blanks around it. -/
def number? (argument : Text) : Option Nat := do
  let (value, rest) ← Numeral.readDecimal? argument
  if 0 ≤ value && value ≤ 0x7fffffff && rest.all Latin.isSpace then return value.toNat else none

/-- What is left to read on a channel, and the file it comes from. -/
def inputOf (state : State) : Channel → Option (Text × Option Location)
  | .inputText number text => some (text.drop ((state.taken.lookup number).getD 0), none)
  | .inputFile number location =>
    let content := match state.files.get? location with
      | some (.file content) => Latin.ofBytes content
      | _ => []
    some (content.drop ((state.taken.lookup number).getD 0), some location)
  | _ => none

/-- Remember that a channel has been read to its end. -/
def State.drain (state : State) (channel : Channel) : State :=
  let left := ((inputOf state channel).map fun (text, _) => text.length).getD 0
  match channel with
  | .inputText number _ | .inputFile number _ =>
    let before := (state.taken.lookup number).getD 0
    { state with taken := (number, before + left) :: state.taken.filter (·.1 ≠ number) }
  | _ => state

/-- Run `cat`, which is not part of the shell. -/
def runCat (context : Context) (state : State) (name : Text) (arguments : List Text) : State :=
  let input := context.channels.lookup 0
  let streams : Cat.Streams :=
    { input := input.bind (inputOf state)
      output := (context.channels.lookup 1).map fun
        | .file location => some location
        | _ => none }
  let outcome := Cat.run name state.files streams arguments
  let drained := match input with
    | some channel => if outcome.readsInput then state.drain channel else state
    | none => state
  let wrote := outcome.chunks.foldl (fun state chunk =>
    match chunk with
    | .output text => state.write context 1 text
    | .complaint text => state.write context 2 text) drained
  { wrote with status := outcome.status }

/-- A name that is no command. -/
def notRun (context : Context) (state : State) (line : Nat) (name : Text) : State :=
  if name.isEmpty then state.fail context line 127 ": Permission denied".toList
  else if name.contains '/' then
    match state.files.resolve (Latin.toByteList name) with
    | .ok _ => state.fail context line 126 (name ++ ": Permission denied".toList)
    | .error e =>
      state.fail context line (if e = .notFound || e = .notADirectory then 127 else 126)
        (name ++ ": ".toList ++ (openReason "not found" e).toList)
  else state.fail context line 127 (name ++ ": not found".toList)

/-- End the script because of an argument. -/
def refuseNumber (context : Context) (state : State) (line : Nat) (name argument : Text) : State :=
  { state.fail context line 2 (name ++ ": Illegal number: ".toList ++ argument) with
    course := .ended }

/-- Leave by a command that takes a status. -/
def leave (context : Context) (state : State) (line : Nat) (name : Text) (course : Course)
    (arguments : List Text) : State :=
  match arguments with
  | [] => { state with course }
  | argument :: _ =>
    match number? argument with
    | some status => { state with status := status % 256, course }
    | none => refuseNumber context state line name argument

/-- Leave loops by a command that takes their number. There may be none. -/
def leaveLoops (context : Context) (state : State) (line : Nat) (name : Text)
    (course : Nat → Course) (arguments : List Text) : State :=
  let go := fun (levels : Nat) =>
    let levels := min levels context.loops
    { state with status := 0, course := if levels = 0 then .running else course levels }
  match arguments with
  | [] => go 1
  | argument :: _ =>
    match number? argument with
    | some (levels + 1) => go (levels + 1)
    | _ => refuseNumber context state line name argument

/-- Run a command by its name. -/
def runNamed (context : Context) (state : State) (line : Nat) (name : Text)
    (arguments : List Text) : State :=
  match String.ofList name with
  | "echo" => say context state line name (echo arguments) 0
  | "printf" =>
    let done := Printf.run arguments
    let reported := done.reports.foldl (fun state report =>
      state.complain context line ("printf: ".toList ++ report)) state
    if done.status = 2 then { reported.write context 1 done.output with status := 2 }
    else say context reported line name done.output done.status
  | "cat" | "/bin/cat" | "/usr/bin/cat" => runCat context state name arguments
  | "exit" => leave context state line name .ended arguments
  | "return" => leave context state line name .returning arguments
  | "break" => leaveLoops context state line name .breaking arguments
  | "continue" => leaveLoops context state line name .continuing arguments
  | "true" | ":" => { state with status := 0 }
  | "false" => { state with status := 1 }
  | _ => notRun context state line name

end Linewise.Shell
