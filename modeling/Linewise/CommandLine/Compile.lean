/-
# Linewise.CommandLine.Compile -- the command that compiles one source

Without switches the program goes to standard output. `--output` writes it to a
file instead and says so, unless told to be quiet. `--run` runs the program, from
that file or from a temporary one, and prints what it prints.
-/
import Linewise.CommandLine.Exit
import Linewise.Execution.Basic
import Linewise.Program

namespace Linewise.CommandLine.Compile

set_option autoImplicit false

def grammar : Grammar where
  switches := [
    { name := "output", letter := some 'o', takes := .path },
    { name := "indent", takes := .number },
    { name := "run", takes := .nothing },
    { name := "runtime", takes := .text },
    { name := "quiet", letter := some 'q', takes := .nothing },
    { name := "verbose", letter := some 'v', takes := .nothing },
    { name := "help", letter := some 'h', takes := .help },
    { name := "version", letter := some 'V', takes := .version }]
  wantsInput := true

def version : String := "c2js 1.0.0\n"

def help : String := Text.unlines [
  "Translate a small C subset to JavaScript",
  "",
  "Usage: c2js [OPTIONS] <INPUT>",
  "",
  "Arguments:",
  "  <INPUT>  C source file",
  "",
  "Options:",
  "  -o, --output <FILE>  Write the generated JavaScript here instead of stdout",
  "      --indent <N>     Spaces per indentation level [default: 4]",
  "      --run            Execute the generated program and print its output",
  "      --runtime <CMD>  JavaScript runtime used by --run [default: node]",
  "  -q, --quiet          Suppress success messages",
  "  -v, --verbose        Enable debug logging",
  "  -h, --help           Print help",
  "  -V, --version        Print version"]

/-- What the arguments ask for. -/
structure Request where
  input : String
  output : Option String
  indentWidth : Nat
  runs : Bool
  runtime : String
  quiet : Bool
  deriving Repr, DecidableEq

def Request.ofGiven (given : Given) : Request where
  input := given.input.getD ""
  output := given.value? "output"
  indentWidth := ((given.value? "indent").bind number?).getD defaultWidth
  runs := given.has "run"
  runtime := (given.value? "runtime").getD "node"
  quiet := given.has "quiet"

/-- Where a program that is run but not kept is put. -/
def temporaryProgram : String := "/tmp/program.js"

/-- Run a program and pass its output on. -/
def runStored (runner : Runner) (runtime : String) (path : Path) (files : FileTree) : Exit :=
  match runProgram runner runtime path files with
  | (.ok stdout, files) => { stdout, files }
  | (.error e, files) => .ofError files e

/-- Do with a program what the request asks for. -/
def deliver (runner : Runner) (files : FileTree) (request : Request) (program : String) : Exit :=
  match request.output, request.runs with
  | some path, runs =>
    match files.write? path program with
    | .error reason => .failure files ("writing '" ++ path ++ "'") (some reason)
    | .ok files =>
      if runs then runStored runner request.runtime path files
      else if request.quiet then { files }
      else { stderr := "✓ JavaScript written to: " ++ path ++ "\n", files }
  | none, true =>
    let location := Path.segments temporaryProgram
    let stored := files.install location (.file program.toUTF8)
    let exit := runStored runner request.runtime temporaryProgram stored
    { exit with files := exit.files.erase location }
  | none, false => { stdout := program, files }

def execute (runner : Runner) (files : FileTree) (request : Request) : Except Overflow Exit :=
  match files.read? request.input with
  | .error reason =>
    .ok (.failure files ("reading '" ++ request.input ++ "'") (some reason))
  | .ok source => do
    let done ← compile request.indentWidth source.toList
    return (deliver runner files request (String.ofList done.program)).withWritten

/-- The whole command. -/
def run (runner : Runner) (files : FileTree) (arguments : List String) : Except Overflow Exit :=
  match grammar.read arguments with
  | .error stop => .ok (.ofStop files help version stop)
  | .ok given => execute runner files (.ofGiven given)

end Linewise.CommandLine.Compile
