/-
# Linewise.Fixture.Run -- checking fixtures

The fixtures of a directory are its files with the extension `c`, in the order
of their names. Each is compiled, its program written to the output directory
and run, and its output compared with the expected one. Whatever goes wrong with
one fixture becomes the outcome of that fixture, and the next one follows; only a
missing directory stops a check before it begins.

Names of files are bytes, and a report has the name as it is shown. A program is named
after the stem of its fixture as that is shown, too.

Notices are the warnings on the way, in order: the shortages of a compilation,
and a fixture that did not compile or whose program failed.
-/
import Linewise.Execution.Basic
import Linewise.Fixture.Report
import Linewise.Settings

namespace Linewise

set_option autoImplicit false

inductive Notice where
  | shortage (shortage : Shortage)
  | notCompiled (fixture error : String)
  | programFailed (fixture error : String)
  deriving Repr, DecidableEq

namespace Fixture

/-- The fixtures of a directory. -/
def discover (files : FileTree) (directory : Path) : Except Error (List Path) :=
  match files.resolve directory with
  | .ok (location, .directory) =>
    let names := (files.namesBelow location).mergeSort fun a b => decide (a ≤ b)
    let paths := names.map (Path.join directory)
    .ok (paths.filter fun path => files.isFile path && Path.extension? path = some (Path.ofString "c"))
  | _ => .error (.missingFixtureDirectory directory)

/-- The path of the program of a fixture. Its name is made from the stem as that is
shown. -/
def target (settings : Settings) (fixture : Path) : Path :=
  let stem := ((Path.stem? fixture).getD fixture).display
  Path.join settings.outputDirectory (Path.ofString (stem ++ ".js"))

/-- A fixture after its compilation: the path of its program or what kept it from
being written. Directories may have been made in either case. -/
structure Built where
  result : Except Error Path
  shortages : List Shortage
  files : FileTree

/-- Compile a fixture and write its program. -/
def build (settings : Settings) (files : FileTree) (fixture : Path) :
    Except Overflow Built :=
  match files.read? fixture with
  | .error reason =>
    .ok { result := .error (.read fixture reason), shortages := [], files }
  | .ok source => do
    let done ← compile settings.indentWidth source.toList
    let path := target settings fixture
    return match files.makeDirectories settings.outputDirectory with
      | (.error reason, files) =>
        { result := .error (.write settings.outputDirectory reason)
          shortages := done.shortages, files }
      | (.ok (), files) =>
        match files.write? path (String.ofList done.program) with
        | .error reason =>
          { result := .error (.write path reason), shortages := done.shortages, files }
        | .ok files => { result := .ok path, shortages := done.shortages, files }

/-- Compare the output of a fixture with the expected one. -/
def check (settings : Settings) (name actual : String) : Outcome :=
  match settings.expected.lookup name with
  | none => .missingExpected actual
  | some expected => if expected = actual then .passed else .mismatch expected actual

/-- The report on one fixture, the notices on the way and the files after it. -/
structure Checked where
  report : Report
  notices : List Notice
  files : FileTree

/-- Check one fixture. -/
def run (runner : Runner) (settings : Settings) (files : FileTree) (fixture : Path) :
    Except Overflow Checked := do
  let name := ((Path.fileName? fixture).map Path.display).getD ""
  let built ← build settings files fixture
  let shortages := built.shortages.map Notice.shortage
  return match built.result with
    | .error e =>
      { report := { name, generated := none, outcome := .compileError e.message }
        notices := shortages ++ [.notCompiled name e.message], files := built.files }
    | .ok path =>
      match runProgram runner settings.runtime path built.files with
      | (.ok actual, files) =>
        { report := { name, generated := some path, outcome := check settings name actual }
          notices := shortages, files }
      | (.error e, files) =>
        { report := { name, generated := some path, outcome := .runtimeError e.message }
          notices := shortages ++ [.programFailed name e.message], files }

/-- A check of several fixtures: their reports, the count, the notices and the
files at the end. -/
structure Checks where
  reports : List Report := []
  summary : Summary := {}
  notices : List Notice := []
  files : FileTree

/-- Check fixtures one after the other. -/
def runEach (runner : Runner) (settings : Settings) (checks : Checks) :
    List Path → Except Overflow Checks
  | [] => .ok checks
  | fixture :: rest => do
    let checked ← run runner settings checks.files fixture
    let summary ← checks.summary.record checked.report.outcome
    runEach runner settings
      { reports := checks.reports ++ [checked.report], summary
        notices := checks.notices ++ checked.notices, files := checked.files } rest

/-- Check all fixtures of the settings. -/
def runAll (runner : Runner) (settings : Settings) (files : FileTree) :
    Except Overflow (Except Error Checks) :=
  match discover files settings.fixturesDirectory with
  | .error e => .ok (.error e)
  | .ok fixtures => (runEach runner settings { files } fixtures).map .ok

end Fixture

end Linewise
