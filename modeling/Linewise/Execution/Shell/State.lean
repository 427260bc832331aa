/-
# Linewise.Execution.Shell.State -- a script that runs

Commands write to channels. Channel 1 is the output and channel 2 the errors until
a redirection says otherwise. The state is what commands leave behind: outputs,
files, variables, functions, a status, and where the script goes next. The context
is what they find: the name of the script, arguments, loops and channels.
-/
import Linewise.Execution.Shell.Command
import Linewise.Files.Tree

namespace Linewise.Shell

open Text

set_option autoImplicit false

/-- Where a channel leads. Something to read has a number of its own, under which
the state knows how much of it has been read. -/
inductive Channel where
  | output
  | errors
  | pipe
  | file (location : Location)
  | inputText (number : Nat) (text : Text)
  | inputFile (number : Nat) (location : Location)
  deriving Repr, DecidableEq

abbrev Channels := List (Nat × Channel)

/-- Where a script goes next: on, out of so many loops, to the next round of a loop
so many levels up, out of a function, or to its end. -/
inductive Course where
  | running
  | breaking (levels : Nat)
  | continuing (levels : Nat)
  | returning
  | ended
  deriving Repr, DecidableEq

/-- What commands leave behind. -/
structure State where
  stdout : Text := []
  stderr : Text := []
  /-- What the next command of a pipeline will read. -/
  piped : Text := []
  files : FileTree
  bindings : List (Text × Text) := []
  /-- How much has been read of each input, by number; the last number given. -/
  taken : List (Nat × Nat) := []
  inputs : Nat := 0
  functions : List (Text × Command) := []
  status : Nat := 0
  course : Course := .running

/-- The name of the script, the arguments of the function that runs, how many loops
are around, and the channels. -/
structure Context where
  name : Text
  arguments : List Text := []
  loops : Nat := 0
  channels : Channels := [(0, .inputText 0 []), (1, .output), (2, .errors)]

namespace State

/-- Write to a channel; nothing can be written to one that is closed. -/
def write? (state : State) (channels : Channels) (channel : Nat) (text : Text) : Option State :=
  match channels.lookup channel with
  | some .output => some { state with stdout := state.stdout ++ text }
  | some .errors => some { state with stderr := state.stderr ++ text }
  | some .pipe => some { state with piped := state.piped ++ text }
  | some (.file location) =>
    match state.files.get? location with
    | some (.file content) =>
      some { state with
        files := state.files.put location (.file (content ++ Latin.toBytes text)) }
    | _ => some state
  | _ => if text.isEmpty then some state else none

def write (state : State) (context : Context) (channel : Nat) (text : Text) : State :=
  (state.write? context.channels channel text).getD state

/-- Report a failure on a line of the script. -/
def complain (state : State) (context : Context) (line : Nat) (text : Text) : State :=
  state.write context 2
    (context.name ++ ": ".toList ++ (Nat.repr line).toList ++ ": ".toList ++ text ++ ['\n'])

def fail (state : State) (context : Context) (line status : Nat) (text : Text) : State :=
  { state.complain context line text with status }

/-- Go on after commands that ran apart: they leave what they wrote and how they
ended. -/
def rejoin (before after : State) : State :=
  { after with
    bindings := before.bindings, functions := before.functions, course := before.course }

end State

end Linewise.Shell
