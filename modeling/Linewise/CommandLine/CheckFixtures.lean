/-
# Linewise.CommandLine.CheckFixtures -- the command that checks fixtures

Settings come from a document, and switches override them. A banner, the report
on each fixture and a summary go to standard output. The command succeeds
whatever the fixtures do; only settings that cannot be read and a missing
directory are errors.
-/
import Linewise.CommandLine.Exit
import Linewise.Fixture.Run

namespace Linewise.CommandLine.CheckFixtures

set_option autoImplicit false

def grammar : Grammar where
  switches := [
    { name := "config", takes := .path },
    { name := "fixtures", takes := .path },
    { name := "output", takes := .path },
    { name := "runtime", takes := .text },
    { name := "no-color", takes := .nothing },
    { name := "verbose", letter := some 'v', takes := .nothing },
    { name := "help", letter := some 'h', takes := .help },
    { name := "version", letter := some 'V', takes := .version }]
  wantsInput := false

def version : String := "c2js-fixtures 1.0.0\n"

def help : String := Text.unlines [
  "Translate, execute and check the C fixtures",
  "",
  "Usage: c2js-fixtures [OPTIONS]",
  "",
  "Options:",
  "      --config <FILE>   Harness config (default: ./c2js.toml when present)",
  "      --fixtures <DIR>  Directory holding the *.c fixtures",
  "      --output <DIR>    Directory receiving the generated programs",
  "      --runtime <CMD>   JavaScript runtime executing the generated programs",
  "      --no-color        Disable colored output",
  "  -v, --verbose         Enable debug logging",
  "  -h, --help            Print help",
  "  -V, --version         Print version"]

/-- The settings with the values that switches override. -/
def override (given : Given) (settings : Settings) : Settings :=
  { settings with
    fixturesDirectory := ((given.value? "fixtures").map Path.ofString).getD settings.fixturesDirectory
    outputDirectory := ((given.value? "output").map Path.ofString).getD settings.outputDirectory
    runtime := (given.value? "runtime").getD settings.runtime }

/-- The absolute path of the working directory. -/
def workingDirectory (files : FileTree) : Path :=
  Path.slash :: [Path.slash].intercalate files.workingDirectory

/-- Check the fixtures and print everything about them. -/
def report (runner : Runner) (painter : Painter) (files : FileTree) (settings : Settings) :
    Except Overflow Exit := do
  match ← Fixture.runAll runner settings files with
  | .error e => return { Exit.ofError files e with stdout := banner painter }
  | .ok checks =>
    let summary ← checks.summary.text painter
    let reports := String.join (checks.reports.map (Report.text painter))
    return { stdout := banner painter ++ reports ++ summary, files := checks.files }

/-- The whole command; `terminal` tells whether standard output shows colours. -/
def run (runner : Runner) (terminal : Bool) (files : FileTree) (arguments : List String) :
    Except Overflow Exit :=
  match grammar.read arguments with
  | .error stop => .ok (.ofStop files help version stop)
  | .ok given =>
    match Settings.load files ((given.value? "config").map .ofString) (workingDirectory files) with
    | .error e => .ok (.ofError files e)
    | .ok settings =>
      let painter : Painter := { enabled := terminal && !given.has "no-color" }
      report runner painter files (override given settings)

end Linewise.CommandLine.CheckFixtures
