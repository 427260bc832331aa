/-
# Linewise.Execution.Shell.Run -- running a script

A script runs line by line: a line is read as a whole, then its commands run, and
a line that cannot be read ends the script with status 2. A list in brackets and
every part of a pipeline change neither the variables nor the course of the script
around them.

The text of a script is fetched block by block, each when the last one is used up,
so that a script can still change what comes after.
-/
import Linewise.Execution.Shell.Builtin

namespace Linewise.Shell

open Text

set_option autoImplicit false

/-- How a function is run: the context with its arguments, the state, the body. -/
abbrev Call := Context → State → Command → State

/-- Run a simple command. A redirection that fails takes its place, and takes the
script with it if the command is one of the special ones. -/
def runSimple (call : Call) (context : Context) (state : State) (line : Nat) (words : List Word)
    (redirections : List Redirection) : State :=
  let (assigned, words) := assign context state words
  let texts := words.flatMap (arguments context state)
  match redirectAll context assigned redirections, texts with
  | .error (text, state), _ =>
    let special := texts.head?.any fun name => specialNames.any (·.toList = name)
    let failed := state.fail context line 2 text
    if special then { failed with course := .ended } else failed
  | .ok (_, state), [] => { state with status := 0 }
  | .ok (inner, state), name :: arguments =>
    match state.functions.lookup name with
    | some body =>
      let after := call { inner with arguments, loops := 0 } state body
      if after.course = .returning then { after with course := .running } else after
    | none => runNamed inner state line name arguments

/-! ## Loops and lists -/

/-- What a loop does after a round: its course, and whether another round follows. -/
def Course.afterRound : Course → Course × Bool
  | .running => (.running, true)
  | .breaking levels => (if levels ≤ 1 then .running else .breaking (levels - 1), false)
  | .continuing levels =>
    if levels ≤ 1 then (.running, true) else (.continuing (levels - 1), false)
  | course => (course, false)

/-- More rounds than this no loop makes. -/
def roundLimit : Nat := 100000

/-- Repeat a round while its test says so. -/
def repeatRound (test : State → State) (goesOn : Nat → Bool) (round : State → State) :
    Nat → State → Nat → State
  | 0, state, status => { state with status }
  | bound + 1, state, status =>
    let tested := test state
    let (course, again) := tested.course.afterRound
    if tested.course ≠ .running then
      if again then repeatRound test goesOn round bound { tested with course } status
      else { tested with course }
    else if !goesOn tested.status then { tested with status }
    else
      let after := round tested
      let (course, again) := after.course.afterRound
      if again then repeatRound test goesOn round bound { after with course } after.status
      else { after with course }

/-- One round for each text. -/
def eachRound (round : Text → State → State) : List Text → State → State
  | [], state => state
  | text :: rest, state =>
    let after := round text state
    let (course, again) := after.course.afterRound
    if again then eachRound round rest { after with course } else { after with course }

/-- Run a command; functions are run by `call`. -/
def run (call : Call) (context : Context) (state : State) : Command → State
  | .nothing => state
  | .simple line words redirections => runSimple call context state line words redirections
  | .definition name body =>
    { state with
      functions := (name, body) :: state.functions.filter (·.1 ≠ name), status := 0 }
  | .group line body redirections =>
    match redirectAll context state redirections with
    | .error (text, state) => state.fail context line 2 text
    | .ok (inner, state) => run call inner state body
  | .subshell line body redirections =>
    match redirectAll { context with loops := 0 } state redirections with
    | .error (text, after) => state.rejoin (after.fail context line 2 text)
    | .ok (inner, after) => state.rejoin (run call inner after body)
  | .conditional test body otherwise =>
    let tested := run call context state test
    if tested.course ≠ .running then tested
    else if tested.status = 0 then run call context tested body
    else run call context { tested with status := 0 } otherwise
  | .loop repeats test body =>
    let inner := { context with loops := context.loops + 1 }
    repeatRound (fun state => run call inner state test) (fun status => (status = 0) = repeats)
      (fun state => run call inner state body) roundLimit state 0
  | .forEach name words body =>
    let inner := { context with loops := context.loops + 1 }
    eachRound (fun text state => run call inner (bind state name text) body)
      (words.flatMap (arguments context state)) { state with status := 0 }
  | .choice word patterns body otherwise =>
    let text := single context state word
    if patterns.any fun pattern => matchesName (patternOf context state pattern) text then
      run call context { state with status := 0 } body
    else run call context { state with status := 0 } otherwise
  | .sequence first second =>
    let state := run call context state first
    if state.course ≠ .running then state else run call context state second
  | .both first second =>
    let state := run call context state first
    if state.course ≠ .running || state.status ≠ 0 then state else run call context state second
  | .either first second =>
    let state := run call context state first
    if state.course ≠ .running || state.status = 0 then state else run call context state second
  | .pipe first second =>
    let context := { context with loops := 0 }
    let others := fun (channel : Nat) => context.channels.filter (·.1 ≠ channel)
    let wrote := run call { context with channels := (1, .pipe) :: others 1 }
      { state with piped := [] } first
    let number := wrote.inputs + 1
    let input := { context with channels := (0, .inputText number wrote.piped) :: others 0 }
    let after :=
      run call input { state.rejoin wrote with piped := state.piped, inputs := number } second
    state.rejoin after
  | .negation command =>
    let state := run call context state command
    if state.course ≠ .running then state
    else { state with status := if state.status = 0 then 1 else 0 }
  | .background command =>
    { state.rejoin (run call { context with loops := 0 } state command) with status := 0 }

/-- Run a command whose functions call each other at most so deep. -/
def runDeep : Nat → Call
  | 0, context, state, _ =>
    { state.fail context 0 2 "Maximum function recursion depth (1000) reached".toList with
      course := .ended }
  | depth + 1, context, state, command => run (runDeep depth) context state command

def deepest : Nat := 1001

/-! ## Scripts -/

/-- A script on the way: where its file is, how many bytes of it have been fetched,
and the text from the start of the line on that has not run. -/
structure Reading where
  location : Location
  fetched : Nat := 0
  line : Nat := 1
  text : Text := []

namespace Reading

def blockSize : Nat := 8192

/-- Fetch the next block, if there is one. Zero bytes in it are passed over. -/
def fetch? (reading : Reading) (files : FileTree) : Option Reading :=
  match files.get? reading.location with
  | some (.file content) =>
    let block := content.extract reading.fetched (reading.fetched + blockSize)
    if block.isEmpty then none
    else some { reading with
      fetched := reading.fetched + block.size
      text := reading.text ++ (Latin.ofBytes block).filter (· ≠ '\x00') }
  | _ => none

end Reading

/-- Whether a line was read up to the end of the text. -/
def reachesEnd : Except Problem (Command × Tokens) → Bool
  | .error problem => problem.atEnd
  | .ok (_, (_, .newline _) :: _) => false
  | .ok _ => true

/-- Run the lines of a script, at most so many. `tokens` are those of its text. A
line that reaches the end of the text is read again with the next block. -/
def runLines (context : Context) : Nat → Reading → Tokens → State → State
  | 0, _, _, state => state
  | bound + 1, reading, tokens, state =>
    let line := nextLine tokens
    match (if reachesEnd line then reading.fetch? state.files else none), line with
    | some longer, _ =>
      runLines context bound longer (tokensFrom longer.line longer.text) state
    | none, .error problem =>
      state.fail context problem.line 2 ("Syntax error: " ++ problem.text).toList
    | none, .ok (command, (line, .newline text) :: rest) =>
      let state := runDeep deepest context state command
      if state.course ≠ .running then state
      else runLines context bound { reading with line, text } rest state
    | none, .ok (.nothing, _) => state
    | none, .ok (command, rest) =>
      let state := runDeep deepest context state command
      if state.course ≠ .running then state
      else
        let line := (rest.head?.map Prod.fst).getD reading.line
        runLines context bound { reading with line, text := [] } rest state

/-- More lines than this beyond its bytes no script can have. -/
def lineReserve : Nat := 65536

/-- Run the script at a location that goes by `name`. -/
def runScript (name : Text) (location : Location) (size : Nat) (files : FileTree) : State :=
  runLines { name } (size + lineReserve) { location } [(1, .finish)] { files }

end Linewise.Shell
