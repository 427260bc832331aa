/-
# Linewise.CommandLine.Switch -- reading the arguments of a command line

A command line has switches and at most one plain argument, a path. A switch is
written `--name` or, if it has a letter, `-n`, and takes nothing or one value:
`--name value`, `--name=value`, `-n value`, `-nvalue` or `-n=value`. Letters of
switches that take nothing may be run together. `--` ends the switches, and `-`
alone is no switch.

Arguments are judged from the left. Each switch may be given once and each value
has to suit it. Help and version act where they stand, so they win over
everything to their right, and everything wrong to their left wins over them.
-/
import Linewise.Depth

namespace Linewise.CommandLine

open Text

set_option autoImplicit false

/-- What a switch takes. Paths are not empty and numbers fit in a machine word. -/
inductive Takes where
  | nothing
  | text
  | path
  | number
  | help
  | version
  deriving Repr, DecidableEq

structure Switch where
  name : String
  letter : Option Char := none
  takes : Takes
  deriving Repr, DecidableEq

structure Grammar where
  switches : List Switch
  wantsInput : Bool
  deriving Repr, DecidableEq

/-- The switches that were given, by name and with their values, and the plain
argument. -/
structure Given where
  values : List (String × String) := []
  input : Option String := none
  deriving Repr, DecidableEq

namespace Given

def has (given : Given) (name : String) : Bool :=
  (given.values.lookup name).isSome

def value? (given : Given) (name : String) : Option String :=
  given.values.lookup name

end Given

/-- Why reading stops early. -/
inductive Stop where
  | help
  | version
  | usage
  deriving Repr, DecidableEq

/-! ## Values -/

/-- A number in decimal, with or without a plus sign. -/
def number? (text : String) : Option Nat :=
  let digits := match text.toList with
    | '+' :: rest => rest
    | whole => whole
  if digits.isEmpty || !digits.all Char.isDigit then none
  else
    let value := digits.foldl (fun n c => n * 10 + (c.toNat - '0'.toNat)) 0
    if value ≤ wordLimit then some value else none

def Takes.suits (takes : Takes) (text : String) : Bool :=
  match takes with
  | .path => !text.isEmpty
  | .number => (number? text).isSome
  | _ => true

/-! ## Arguments -/

/-- Reading in progress. `waiting` is a switch whose value comes next, and with
`plainOnly` the switches have ended. -/
structure Reading where
  given : Given := {}
  waiting : Option Switch := none
  plainOnly : Bool := false
  deriving Repr, DecidableEq

namespace Reading

/-- Take note of a switch and its value. -/
def give (reading : Reading) (switch : Switch) (value : String) : Except Stop Reading :=
  if reading.given.has switch.name || !switch.takes.suits value then .error .usage
  else .ok { reading with
    given := { reading.given with values := reading.given.values ++ [(switch.name, value)] }
    waiting := none }

/-- A switch without a value of its own. -/
def plainSwitch (reading : Reading) (switch : Switch) : Except Stop Reading :=
  match switch.takes with
  | .help => .error .help
  | .version => .error .version
  | .nothing => reading.give switch ""
  | _ => if reading.given.has switch.name then .error .usage
    else .ok { reading with waiting := some switch }

/-- A switch by its name, with the text after an equals sign. -/
def named (grammar : Grammar) (reading : Reading) (name : Text) (value : Option Text) :
    Except Stop Reading :=
  match grammar.switches.find? fun switch => switch.name.toList = name, value with
  | none, _ => .error .usage
  | some switch, none => reading.plainSwitch switch
  | some switch, some text =>
    match switch.takes with
    | .nothing | .help | .version => .error .usage
    | _ => reading.give switch (String.ofList text)

/-- The letters behind one dash. The first that takes a value takes the rest. -/
def letters (grammar : Grammar) (reading : Reading) : Text → Except Stop Reading
  | [] => .ok reading
  | letter :: rest =>
    match grammar.switches.find? fun switch => switch.letter = some letter with
    | none => .error .usage
    | some switch =>
      match switch.takes, rest with
      | .nothing, _ | .help, _ | .version, _ => do
        let reading ← reading.plainSwitch switch
        letters grammar reading rest
      | _, [] => reading.plainSwitch switch
      | _, '=' :: value => reading.give switch (String.ofList value)
      | _, value => reading.give switch (String.ofList value)

/-- A plain argument. -/
def plain (grammar : Grammar) (reading : Reading) (text : String) : Except Stop Reading :=
  if !grammar.wantsInput || reading.given.input.isSome || text.isEmpty then .error .usage
  else .ok { reading with given := { reading.given with input := some text } }

/-- One argument. -/
def argument (grammar : Grammar) (reading : Reading) (text : String) : Except Stop Reading :=
  if reading.plainOnly then reading.plain grammar text
  else
    match text.toList, reading.waiting with
    | '-' :: _ :: _, some _ => .error .usage
    | ['-', '-'], none => .ok { reading with plainOnly := true }
    | '-' :: '-' :: name, none =>
      match name.dropWhile (· != '=') with
      | '=' :: value => reading.named grammar (name.takeWhile (· != '=')) (some value)
      | _ => reading.named grammar name none
    | '-' :: letter :: rest, none => reading.letters grammar (letter :: rest)
    | _, some switch => reading.give switch text
    | _, none => reading.plain grammar text

end Reading

/-- Read all arguments. -/
def Grammar.read (grammar : Grammar) (arguments : List String) : Except Stop Given := do
  let reading ← arguments.foldlM (Reading.argument grammar) {}
  if reading.waiting.isSome || (grammar.wantsInput && reading.given.input.isNone) then
    .error .usage
  return reading.given

end Linewise.CommandLine
