/-
# Linewise.Execution.Cat -- the command that copies files

Files are copied one after the other, and options say how their lines are shown:
with numbers, with a mark at the end, without repeated blank lines, or with
characters spelled out. Options and files may come in any order; `--` ends the
options, a dash alone is standard input, and a long option may be cut short as
long as one option remains that it can mean.
-/
import Linewise.Execution.Basic
import Linewise.Execution.QuotedName

namespace Linewise.Cat

open Text

set_option autoImplicit false

/-- How lines are shown. -/
structure Options where
  number : Bool := false
  numberNonblank : Bool := false
  squeeze : Bool := false
  ends : Bool := false
  tabs : Bool := false
  nonprinting : Bool := false
  /-- Only the manual was asked for. -/
  manual : Bool := false
  deriving Repr, DecidableEq

namespace Options

/-- The options by their letters. -/
def addLetter? (options : Options) : Char → Option Options
  | 'A' => some { options with nonprinting := true, ends := true, tabs := true }
  | 'b' => some { options with number := true, numberNonblank := true }
  | 'e' => some { options with nonprinting := true, ends := true }
  | 'E' => some { options with ends := true }
  | 'n' => some { options with number := true }
  | 's' => some { options with squeeze := true }
  | 't' => some { options with nonprinting := true, tabs := true }
  | 'T' => some { options with tabs := true }
  | 'u' => some options
  | 'v' => some { options with nonprinting := true }
  | _ => none

end Options

/-- The long options, with the letters they stand for; two ask for the manual. -/
def longOptions : List (String × Option Char) := [
  ("number-nonblank", some 'b'),
  ("number", some 'n'),
  ("squeeze-blank", some 's'),
  ("show-nonprinting", some 'v'),
  ("show-ends", some 'E'),
  ("show-tabs", some 'T'),
  ("show-all", some 'A'),
  ("help", none),
  ("version", none)]

/-- A run of letters after one dash. -/
def readLetters (options : Options) : Text → Except Text Options
  | [] => .ok options
  | letter :: rest =>
    match options.addLetter? letter with
    | some options => readLetters options rest
    | none => .error ("invalid option -- '".toList ++ [letter, '\x27'])

/-- The long options that a word can mean: the one it names, or all it begins. -/
def candidates (word : Text) : List (String × Option Char) :=
  match longOptions.filter fun option => option.1.toList = word with
  | [] => longOptions.filter fun option => word.isPrefixOf option.1.toList
  | exact => exact

/-- One long option, without its dashes. -/
def readLong (options : Options) (argument : Text) : Except Text Options :=
  let word := argument.takeWhile (· ≠ '=')
  let shown := "'--".toList ++ argument ++ ['\x27']
  match candidates word with
  | [] => .error ("unrecognized option ".toList ++ shown)
  | [(name, letter)] =>
    if argument.contains '=' then
      .error ("option '--".toList ++ name.toList ++ "' doesn't allow an argument".toList)
    else match letter with
      | some letter => .ok ((options.addLetter? letter).getD options)
      | none => .ok { options with manual := true }
  | several =>
    .error ("option ".toList ++ shown ++ " is ambiguous; possibilities:".toList ++
      several.flatMap fun option => " '--".toList ++ option.1.toList ++ ['\x27'])

/-- The options and the files among the arguments. -/
def readArguments (options : Options) (operands : List Text) :
    List Text → Except Text (Options × List Text)
  | [] => .ok (options, operands)
  | argument :: rest =>
    if options.manual then .ok (options, operands)
    else match argument with
      | ['-', '-'] => .ok (options, operands ++ rest)
      | '-' :: '-' :: long => do readArguments (← readLong options long) operands rest
      | '-' :: c :: letters => do
        readArguments (← readLetters options (c :: letters)) operands rest
      | _ => readArguments options (operands ++ [argument]) rest

/-! ## Lines -/

def shift (c : Char) (by' : Int) : Char :=
  Char.ofNat (Int.toNat (c.toNat + by'))

/-- A character below 128, spelled out unless it has a shape. -/
def spellAscii (c : Char) : Text :=
  if c = '\x7f' then ['^', '?'] else if c < ' ' then ['^', shift c 64] else [c]

def showChar (options : Options) (c : Char) : Text :=
  if c = '\t' then (if options.tabs then ['^', 'I'] else [c])
  else if !options.nonprinting then [c]
  else if c.toNat < 128 then spellAscii c
  else ['M', '-'] ++ spellAscii (shift c (-128))

/-- A line before its end; with marked ends a carriage return there is spelled
out. -/
def showLine (options : Options) (ended : Bool) (line : Text) : Text :=
  if options.ends && ended && !options.nonprinting && line.getLast? = some '\r' then
    line.dropLast.flatMap (showChar options) ++ ['^', 'M']
  else line.flatMap (showChar options)

def lineNumber (n : Nat) : Text :=
  let digits := (Nat.repr n).toList
  List.replicate (6 - digits.length) ' ' ++ digits ++ ['\t']

/-- Show the lines that are left. `blank` says that the last line was blank and
`count` is the last number given. -/
def showLines (options : Options) (blank : Bool) (count : Nat) : List Text → Text
  | [] => []
  | [last] =>
    if last.isEmpty then []
    else (if options.number then lineNumber (count + 1) else []) ++ showLine options false last
  | line :: rest =>
    if line.isEmpty && blank && options.squeeze then showLines options true count rest
    else
      let numbered := options.number && !(line.isEmpty && options.numberNonblank)
      (if numbered then lineNumber (count + 1) else []) ++ showLine options true line ++
        (if options.ends then ['$'] else []) ++
        '\n' :: showLines options line.isEmpty (if numbered then count + 1 else count) rest

/-- Show the contents read so far. With marked ends a carriage return waits for
the character after it, unless these are `all` contents. -/
def display (options : Options) (all : Bool) (text : Text) : Text :=
  if options = {} then text
  else if options.ends && !options.nonprinting && !all && text.getLast? = some '\r' then
    showLines options false 0 (text.dropLast.splitOn '\n')
  else showLines options false 0 (text.splitOn '\n')

/-! ## Running -/

/-- A piece of output or a complaint, in the order in which they are written. -/
inductive Chunk where
  | output (text : Text)
  | complaint (text : Text)
  deriving Repr, DecidableEq

namespace Chunk

def output? : Chunk → Option Text
  | .output text => some text
  | .complaint _ => none

def complaint? : Chunk → Option Text
  | .output _ => none
  | .complaint text => some text

end Chunk

structure Outcome where
  status : Nat := 0
  chunks : List Chunk := []
  /-- Standard input has been read to its end. -/
  readsInput : Bool := false

namespace Outcome

def stdout (outcome : Outcome) : Text :=
  (outcome.chunks.filterMap Chunk.output?).flatten

def stderr (outcome : Outcome) : Text :=
  (outcome.chunks.filterMap Chunk.complaint?).flatten

end Outcome

/-- A complaint about a file. -/
def complaint (name operand : Text) (reason : String) : Chunk :=
  .complaint (name ++ ": ".toList ++ QuotedName.quotedName operand ++ ": ".toList ++
    reason.toList ++ ['\n'])

/-- What the command is connected to. The output is closed or leads somewhere,
perhaps to a file; the input is closed or has a text, perhaps that of a file. -/
structure Streams where
  input : Option (Text × Option Location) := some ([], none)
  output : Option (Option Location) := some none

/-- The names of standard input. -/
def isInput (operand : Text) : Bool :=
  operand = ['-'] || operand = "/dev/stdin".toList

/-- Copy a file, unless it is the one that is written and not empty. -/
def copy (name operand : Text) (output : Option Location) (filled : Bool)
    (content : Text) (location : Option Location) : Chunk :=
  if location.isSome && location = output then
    if filled then complaint name operand "input file is output file" else .output []
  else .output content

/-- What becomes of one operand. -/
def fetch (name : Text) (files : FileTree) (streams : Streams) (filled : Bool)
    (operand : Text) : Chunk :=
  let output := streams.output.getD none
  if isInput operand then
    match streams.input with
    | some (text, location) => copy name operand output (filled && !text.isEmpty) text location
    | none => complaint name operand "Bad file descriptor"
  else match files.resolve (Latin.toByteList operand) with
    | .ok (location, .file content) =>
      copy name operand output filled (Latin.ofBytes content) (some location)
    | .ok (_, .sink) => .output []
    | .ok (_, .directory) => complaint name operand FileError.isADirectory.reason
    | .error e => complaint name operand e.reason

/-- The contents of the files, and complaints about those that cannot be read.
Standard input is used up by its first mention. `filled` says that something has
been written to the file that the output leads to. -/
def collect (name : Text) (files : FileTree) (streams : Streams) (filled : Bool) :
    List Text → List Chunk
  | [] => []
  | operand :: rest =>
    let chunk := fetch name files streams filled operand
    let streams := if isInput operand then
        { streams with input := streams.input.map fun (_, location) => ([], location) }
      else streams
    let filled := filled || chunk.output?.any (!·.isEmpty)
    chunk :: collect name files streams filled rest

/-- Show contents as the options say. `before` holds those shown already. -/
def showChunks (options : Options) (before : Text) : List Chunk → List Chunk
  | [] =>
    let shown := (display options false before).length
    [.output ((display options true before).drop shown)]
  | .complaint text :: rest => .complaint text :: showChunks options before rest
  | .output text :: rest =>
    let shown := (display options false before).length
    .output ((display options false (before ++ text)).drop shown) ::
      showChunks options (before ++ text) rest

/-- Whether a location holds a file that is not empty. -/
def isFilled (files : FileTree) (location : Location) : Bool :=
  match files.get? location with
  | some (.file content) => !content.isEmpty
  | _ => false

/-- Run the command under the name it was called by. -/
def run (name : Text) (files : FileTree) (streams : Streams) (arguments : List Text) : Outcome :=
  match readArguments {} [] arguments, streams.output with
  | .error problem, _ =>
    { status := 1
      chunks := [.complaint (name ++ ": ".toList ++ problem ++ "\nTry '".toList ++ name ++
        " --help' for more information.\n".toList)] }
  | .ok (options, operands), output =>
    if options.manual then {}
    else match output with
      | none =>
        { status := 1
          chunks := [.complaint (name ++ ": standard output: Bad file descriptor\n".toList)] }
      | some location =>
        let operands := if operands.isEmpty then [['-']] else operands
        let chunks := collect name files streams (location.any (isFilled files)) operands
        { status := if chunks.any fun chunk => chunk.complaint?.isSome then 1 else 0
          chunks := if options = {} then chunks else showChunks options [] chunks
          readsInput := operands.any isInput }

end Linewise.Cat
