/-
# Linewise.Proofs.FixtureRun -- what can stop a check of fixtures

A check takes its fixtures in turn. What goes wrong at one of them is its outcome: a file
that cannot be read, a directory that cannot be made, a program that cannot be written or
run. The check then goes on to the next fixture, whatever the command that runs the
programs does, to the files as well (`Turn`, `turns`).

One thing is left that is no outcome. A source whose blocks, at the width of the settings,
need an indentation that no text can hold stops its compilation, and with it the whole
check (`Turn.Compiles`, `exists_run_iff`). `runAll_returns_iff` says that there is nothing
else, and what a check that comes to its end has reported.
-/
import Linewise.Fixture.Run
import Linewise.Proofs.DepthWalk
import Linewise.Proofs.LineByLine

namespace Linewise.Fixture

set_option autoImplicit false

variable {runner : Runner} {settings : Settings}

/-! ## One fixture -/

/-- A fixture with the files as they are when it is checked. -/
structure Turn where
  fixture : Path
  files : FileTree

/-- The source, if there is one to read, can be compiled. -/
def Turn.Compiles (settings : Settings) (turn : Turn) : Prop :=
  ∀ source, turn.files.read? turn.fixture = .ok source →
    WithinBounds settings.indentWidth (changes source.toList)

theorem exists_compile_iff {width : Nat} {source : Text} :
    (∃ compilation, compile width source = .ok compilation) ↔
      WithinBounds width (changes source) := by
  simp only [compile_eq_ok_iff, noOverflow_iff_withinBounds]
  constructor
  · rintro ⟨_, bounds, -⟩
    exact bounds
  · intro bounds
    exact ⟨_, bounds, rfl⟩

/-- Make the output directory and write the program of a compiled fixture. -/
def store (settings : Settings) (files : FileTree) (fixture : Path) (done : Compilation) :
    Built :=
  match files.makeDirectories settings.outputDirectory with
  | (.error reason, files) =>
    { result := .error (.write settings.outputDirectory reason)
      shortages := done.shortages, files }
  | (.ok (), files) =>
    match files.write? (target settings fixture) (String.ofList done.program) with
    | .error reason =>
      { result := .error (.write (target settings fixture) reason)
        shortages := done.shortages, files }
    | .ok files => { result := .ok (target settings fixture), shortages := done.shortages, files }

theorem build_of_unreadable {files : FileTree} {fixture : Path} {reason : FileError}
    (unreadable : files.read? fixture = .error reason) :
    build settings files fixture =
      .ok { result := .error (.read fixture reason), shortages := [], files } := by
  rw [build, unreadable]

theorem build_of_readable {files : FileTree} {fixture : Path} {source : String}
    (readable : files.read? fixture = .ok source) :
    build settings files fixture =
      (compile settings.indentWidth source.toList).map (store settings files fixture) := by
  unfold build
  simp only [readable]
  cases compile settings.indentWidth source.toList with
  | error e => rfl
  | ok done =>
      refine congrArg Except.ok ?_
      unfold store
      obtain ⟨reason | _, made⟩ := files.makeDirectories settings.outputDirectory
      · rfl
      · cases wrote : made.write? (target settings fixture) (String.ofList done.program) with
        | error reason => simp only [wrote]
        | ok after => simp only [wrote]

theorem exists_build_iff {turn : Turn} :
    (∃ built, build settings turn.files turn.fixture = .ok built) ↔ turn.Compiles settings := by
  cases read : turn.files.read? turn.fixture with
  | error reason =>
      rw [build_of_unreadable read]
      simp [Turn.Compiles, read]
  | ok source =>
      have compiles : turn.Compiles settings ↔
          ∃ done, compile settings.indentWidth source.toList = .ok done := by
        rw [exists_compile_iff]
        simp [Turn.Compiles, read]
      rw [build_of_readable read, compiles]
      cases compile settings.indentWidth source.toList <;> simp [Except.map]

/-- Run the program of a built fixture and draw up its report. -/
def finish (runner : Runner) (settings : Settings) (name : String) (built : Built) : Checked :=
  match built.result with
  | .error e =>
    { report := { name, generated := none, outcome := .compileError e.message }
      notices := built.shortages.map Notice.shortage ++ [.notCompiled name e.message]
      files := built.files }
  | .ok path =>
    match runProgram runner settings.runtime path built.files with
    | (.ok actual, files) =>
      { report := { name, generated := some path, outcome := check settings name actual }
        notices := built.shortages.map Notice.shortage, files }
    | (.error e, files) =>
      { report := { name, generated := some path, outcome := .runtimeError e.message }
        notices := built.shortages.map Notice.shortage ++ [.programFailed name e.message], files }

/-- The name of a fixture in its report. -/
def nameOf (fixture : Path) : String :=
  ((Path.fileName? fixture).map Path.display).getD ""

theorem run_eq_map (files : FileTree) (fixture : Path) :
    run runner settings files fixture =
      (build settings files fixture).map (finish runner settings (nameOf fixture)) := by
  unfold run
  cases build settings files fixture <;> rfl

theorem name_finish (name : String) (built : Built) :
    (finish runner settings name built).report.name = name := by
  unfold finish
  split
  · rfl
  · split <;> rfl

/-- Nothing but an overflow keeps a fixture from its report. -/
theorem exists_run_iff (runner : Runner) {turn : Turn} :
    (∃ checked, run runner settings turn.files turn.fixture = .ok checked) ↔
      turn.Compiles settings := by
  rw [← exists_build_iff, run_eq_map]
  cases build settings turn.files turn.fixture <;> simp [Except.map]

theorem compiles_of_isOk {turn : Turn}
    (ok : (run runner settings turn.files turn.fixture).isOk = true) : turn.Compiles settings := by
  refine (exists_run_iff runner).1 ?_
  cases ran : run runner settings turn.files turn.fixture with
  | error e => simp [ran, Except.isOk, Except.toBool] at ok
  | ok checked => exact ⟨checked, rfl⟩

/-- A fixture that gets its report was unreadable or has been compiled. -/
theorem of_run {files : FileTree} {fixture : Path} {checked : Checked}
    (ran : run runner settings files fixture = .ok checked) :
    (∃ reason, files.read? fixture = .error reason ∧
        checked = finish runner settings (nameOf fixture)
          { result := .error (.read fixture reason), shortages := [], files }) ∨
      ∃ source done, files.read? fixture = .ok source ∧
        compile settings.indentWidth source.toList = .ok done ∧
        checked = finish runner settings (nameOf fixture) (store settings files fixture done) := by
  rw [run_eq_map] at ran
  cases read : files.read? fixture with
  | error reason =>
      rw [build_of_unreadable read] at ran
      exact .inl ⟨reason, rfl, (Except.ok.inj ran).symm⟩
  | ok source =>
      rw [build_of_readable read] at ran
      cases compiled : compile settings.indentWidth source.toList with
      | error e =>
          rw [compiled] at ran
          cases ran
      | ok done =>
          rw [compiled] at ran
          exact .inr ⟨source, done, rfl, compiled, (Except.ok.inj ran).symm⟩

theorem name_of_run {files : FileTree} {fixture : Path} {checked : Checked}
    (ran : run runner settings files fixture = .ok checked) :
    checked.report.name = nameOf fixture := by
  rcases of_run ran with ⟨_, -, rfl⟩ | ⟨_, _, -, -, rfl⟩ <;> exact name_finish _ _

/-! ## Fixtures in turn -/

/-- The fixtures that get their turn, each with the files that the one before it, and the
run of its program, have left. -/
def turns (runner : Runner) (settings : Settings) : FileTree → List Path → List Turn
  | _, [] => []
  | files, fixture :: rest =>
    ⟨fixture, files⟩ :: match run runner settings files fixture with
      | .ok checked => turns runner settings checked.files rest
      | .error _ => []

/-- The reports belong to the turns, one each and in order. -/
def ReportsOf (runner : Runner) (settings : Settings) : List Turn → List Report → Prop :=
  List.Forall₂ fun turn report =>
    ∃ checked, run runner settings turn.files turn.fixture = .ok checked ∧ checked.report = report

/-- A count that can be shown: no more have passed than there are. -/
structure Counted (s : Summary) : Prop where
  passed : s.passed ≤ s.total
  total : s.total ≤ wordLimit

/-- The count with one more outcome. -/
def counting (s : Summary) (outcome : Outcome) : Summary where
  passed := s.passed + if outcome.isPass then 1 else 0
  total := s.total + 1

theorem record_eq_ok_iff {s after : Summary} {outcome : Outcome} (counted : Counted s) :
    s.record outcome = .ok after ↔ s.total < wordLimit ∧ after = counting s outcome := by
  obtain ⟨passed, -⟩ := counted
  unfold Summary.record counting
  by_cases full : wordLimit ≤ s.total
  · rw [if_pos full]
    simp only [reduceCtorEq, false_iff, not_and]
    omega
  · have room : s.total < wordLimit := by omega
    cases pass : outcome.isPass with
    | false => simp [full, room, eq_comm]
    | true =>
        have notFull : ¬ wordLimit ≤ s.passed := by omega
        simp [full, notFull, room, eq_comm]

theorem Counted.counting {s : Summary} (counted : Counted s) (room : s.total < wordLimit)
    (outcome : Outcome) : Counted (counting s outcome) := by
  obtain ⟨passed, -⟩ := counted
  refine ⟨?_, room⟩
  unfold Fixture.counting
  split
  · exact Nat.succ_le_succ passed
  · exact Nat.le_succ_of_le passed

/-- A check with one more fixture in it. -/
def Checks.adding (checks : Checks) (checked : Checked) : Checks where
  reports := checks.reports ++ [checked.report]
  summary := counting checks.summary checked.report.outcome
  notices := checks.notices ++ checked.notices
  files := checked.files

/-- One step of a check: the fixture gets its report, there is room in the count, and the
rest follows. -/
theorem runEach_cons_eq_ok_iff {checks result : Checks} {fixture : Path} {rest : List Path}
    (counted : Counted checks.summary) :
    runEach runner settings checks (fixture :: rest) = .ok result ↔
      ∃ checked, run runner settings checks.files fixture = .ok checked ∧
        checks.summary.total < wordLimit ∧
          runEach runner settings (checks.adding checked) rest = .ok result := by
  have unfolded : runEach runner settings checks (fixture :: rest) =
      run runner settings checks.files fixture >>= fun checked =>
        checks.summary.record checked.report.outcome >>= fun summary =>
          runEach runner settings
            { reports := checks.reports ++ [checked.report], summary
              notices := checks.notices ++ checked.notices, files := checked.files } rest := rfl
  rw [unfolded, bind_eq_ok_iff]
  simp only [bind_eq_ok_iff, record_eq_ok_iff counted]
  constructor
  · rintro ⟨checked, ran, _, ⟨room, rfl⟩, others⟩
    exact ⟨checked, ran, room, others⟩
  · rintro ⟨checked, ran, room, others⟩
    exact ⟨checked, ran, _, ⟨room, rfl⟩, others⟩

theorem turns_cons {files : FileTree} {fixture : Path} {checked : Checked}
    (ran : run runner settings files fixture = .ok checked) (rest : List Path) :
    turns runner settings files (fixture :: rest) =
      ⟨fixture, files⟩ :: turns runner settings checked.files rest := by
  rw [turns, ran]

/-- A check comes to its end exactly when every source that is read at its turn can be
compiled, and the fixtures can be counted. -/
theorem exists_runEach_iff {checks : Checks} (fixtures : List Path)
    (counted : Counted checks.summary) :
    (∃ result, runEach runner settings checks fixtures = .ok result) ↔
      checks.summary.total + fixtures.length ≤ wordLimit ∧
        ∀ turn ∈ turns runner settings checks.files fixtures, turn.Compiles settings := by
  induction fixtures generalizing checks with
  | nil =>
      have total := counted.total
      simpa [runEach, turns] using total
  | cons fixture rest ih =>
      cases ran : run runner settings checks.files fixture with
      | error e =>
          have stuck : ¬ Turn.Compiles settings ⟨fixture, checks.files⟩ := by
            rw [← exists_run_iff runner, ran]
            simp
          simp [runEach_cons_eq_ok_iff counted, turns, ran, stuck]
      | ok checked =>
          have compiles : Turn.Compiles settings ⟨fixture, checks.files⟩ :=
            (exists_run_iff runner).1 ⟨checked, ran⟩
          have next : (checks.adding checked).summary.total = checks.summary.total + 1 := rfl
          rw [turns_cons ran, List.forall_mem_cons, List.length_cons]
          constructor
          · rintro ⟨result, ended⟩
            obtain ⟨again, ranAgain, room, others⟩ := (runEach_cons_eq_ok_iff counted).1 ended
            obtain rfl := Except.ok.inj (ran.symm.trans ranAgain)
            obtain ⟨bound, compile⟩ := (ih (counted.counting room _)).1 ⟨result, others⟩
            exact ⟨by omega, compiles, compile⟩
          · rintro ⟨bound, -, compile⟩
            have room : checks.summary.total < wordLimit := by omega
            have still : Counted (checks.adding checked).summary := counted.counting room _
            obtain ⟨result, others⟩ := (ih still).2 ⟨by omega, compile⟩
            exact ⟨result, (runEach_cons_eq_ok_iff counted).2 ⟨checked, ran, room, others⟩⟩

/-- What a check that came to its end has added to the reports and the count. -/
structure Adds (runner : Runner) (settings : Settings) (checks result : Checks)
    (fixtures : List Path) (reports : List Report) : Prop where
  reported : result.reports = checks.reports ++ reports
  each : ReportsOf runner settings (turns runner settings checks.files fixtures) reports
  all : (turns runner settings checks.files fixtures).map Turn.fixture = fixtures
  total : result.summary.total = checks.summary.total + reports.length
  passed : result.summary.passed =
    checks.summary.passed + reports.countP (·.outcome.isPass)

theorem exists_adds {checks result : Checks} {fixtures : List Path}
    (counted : Counted checks.summary)
    (ended : runEach runner settings checks fixtures = .ok result) :
    ∃ reports, Adds runner settings checks result fixtures reports := by
  induction fixtures generalizing checks with
  | nil =>
      obtain rfl := Except.ok.inj ended
      exact ⟨[], by simp, .nil, rfl, rfl, rfl⟩
  | cons fixture rest ih =>
      obtain ⟨checked, ran, room, others⟩ := (runEach_cons_eq_ok_iff counted).1 ended
      obtain ⟨reports, adds⟩ := ih (counted.counting room _) others
      have reported := adds.reported
      have total := adds.total
      have passed := adds.passed
      simp only [Checks.adding, counting] at reported total passed
      refine ⟨checked.report :: reports, by simp [reported], ?_, ?_, ?_, ?_⟩
      · rw [turns_cons ran]
        exact .cons ⟨checked, ran, rfl⟩ adds.each
      · rw [turns_cons ran, List.map_cons]
        exact congrArg (fixture :: ·) adds.all
      · rw [total, List.length_cons]
        omega
      · rw [passed, List.countP_cons]
        omega

theorem map_name_of_reportsOf {turns : List Turn} {reports : List Report}
    (each : ReportsOf runner settings turns reports) :
    reports.map Report.name = (turns.map Turn.fixture).map nameOf := by
  induction each with
  | nil => rfl
  | cons first others ih =>
      obtain ⟨checked, ran, rfl⟩ := first
      rw [List.map_cons, name_of_run ran, ih]
      rfl

/-! ## The whole check -/

theorem counted_zero : Counted {} :=
  ⟨Nat.zero_le _, Nat.zero_le _⟩

theorem runAll_of_discovered {files : FileTree} {fixtures : List Path}
    (discovered : discover files settings.fixturesDirectory = .ok fixtures) :
    runAll runner settings files = (runEach runner settings { files } fixtures).map .ok := by
  rw [runAll, discovered]

theorem runAll_eq_ok_iff {files : FileTree} {fixtures : List Path} {checks : Checks}
    (discovered : discover files settings.fixturesDirectory = .ok fixtures) :
    runAll runner settings files = .ok (.ok checks) ↔
      runEach runner settings { files } fixtures = .ok checks := by
  rw [runAll_of_discovered discovered]
  cases runEach runner settings { files } fixtures <;> simp [Except.map]

theorem runAll_ne_error {files : FileTree} {fixtures : List Path}
    (discovered : discover files settings.fixturesDirectory = .ok fixtures) (e : Error) :
    runAll runner settings files ≠ .ok (.error e) := by
  rw [runAll_of_discovered discovered]
  cases runEach runner settings { files } fixtures <;> simp [Except.map]

/-- **What can stop a check.** Once its fixtures are listed, a check ends in no error. It
comes to its end, with one report for each fixture in order, exactly when every source
that is read at its turn stays within the bounds of its indentation and the fixtures can
be counted; a file that cannot be read, and whatever the command does, stops nothing. -/
theorem runAll_returns_iff {files : FileTree} {fixtures : List Path}
    (discovered : discover files settings.fixturesDirectory = .ok fixtures) :
    ((∃ checks, runAll runner settings files = .ok (.ok checks)) ↔
      fixtures.length ≤ wordLimit ∧
        ∀ turn ∈ turns runner settings files fixtures, turn.Compiles settings) ∧
    (∀ checks, runAll runner settings files = .ok (.ok checks) →
      (turns runner settings files fixtures).map Turn.fixture = fixtures ∧
        ReportsOf runner settings (turns runner settings files fixtures) checks.reports ∧
        checks.reports.map Report.name = fixtures.map nameOf) ∧
    ∀ e, runAll runner settings files ≠ .ok (.error e) := by
  refine ⟨?_, fun checks ended => ?_, runAll_ne_error discovered⟩
  · simp only [runAll_eq_ok_iff discovered]
    rw [exists_runEach_iff fixtures counted_zero]
    simp
  · obtain ⟨reports, adds⟩ := exists_adds counted_zero ((runAll_eq_ok_iff discovered).1 ended)
    have all : checks.reports = reports := by simpa using adds.reported
    have names : checks.reports.map Report.name = fixtures.map nameOf := by
      rw [all, map_name_of_reportsOf adds.each, adds.all]
    exact ⟨adds.all, all ▸ adds.each, names⟩

/-- Names that are listed in order stay in it. -/
theorem discover_of_sorted {files : FileTree} {directory : Path} {location : Location}
    (found : files.resolve directory = .ok (location, .directory))
    (sorted : (files.namesBelow location).Pairwise fun a b => decide (a ≤ b) = true) :
    discover files directory =
      .ok (((files.namesBelow location).map (Path.join directory)).filter fun path =>
        files.isFile path && Path.extension? path = some (Path.ofString "c")) := by
  rw [discover, found]
  simp only [List.mergeSort_of_pairwise sorted]

/-- A fixture that is no text and two that are. -/
def troubledFiles : FileTree where
  entries := [
    (["fx"], .directory),
    (["fx", "a.c"], .file ⟨#[255]⟩),
    (["fx", "b.c"], .file "\x7b\nx;\n\x7d".toUTF8),
    (["fx", "c.c"], .file "y;".toUTF8)]
  distinct := by decide

/-- A command that fails to start and leaves no file behind. -/
def wiping : Runner := fun _ _ _ =>
  (.error .permissionDenied, { entries := [], distinct := List.nodup_nil })

/-- The first fixture cannot be read, the second loses all files, its own program too, so
that the third is missing at its turn: there are three reports. -/
theorem runAll_returns_from_troubledFiles :
    discover troubledFiles "fx" = .ok ["fx/a.c", "fx/b.c", "fx/c.c"] ∧
      ∃ checks, runAll wiping { fixturesDirectory := "fx" } troubledFiles = .ok (.ok checks) ∧
        checks.reports.map Report.name = ["a.c", "b.c", "c.c"] := by
  have listed : discover troubledFiles "fx" = .ok ["fx/a.c", "fx/b.c", "fx/c.c"] :=
    (discover_of_sorted rfl (by decide)).trans (by decide)
  have reported : ∀ turn ∈ turns wiping { fixturesDirectory := "fx" } troubledFiles
      ["fx/a.c", "fx/b.c", "fx/c.c"],
      (run wiping { fixturesDirectory := "fx" } turn.files turn.fixture).isOk = true := by
    decide +kernel
  obtain ⟨checks, ended⟩ : ∃ checks,
      runAll wiping { fixturesDirectory := "fx" } troubledFiles = .ok (.ok checks) :=
    (runAll_returns_iff listed).1.2
      ⟨by decide, fun turn mem => compiles_of_isOk (reported turn mem)⟩
  have names := ((runAll_returns_iff listed).2.1 checks ended).2.2
  exact ⟨listed, checks, ended, names.trans (by decide)⟩

/-- A line in a block. -/
def blockFiles : FileTree where
  entries := [(["fx"], .directory), (["fx", "a.c"], .file "\x7b\nx;\n\x7d".toUTF8)]
  distinct := by decide

/-- At the greatest width, a single line in a block stops the check: there is no report. -/
theorem runAll_stops_at_greatest_width :
    discover blockFiles "fx" = .ok ["fx/a.c"] ∧
      ∀ runner, runAll runner { fixturesDirectory := "fx", indentWidth := wordLimit } blockFiles =
        .error .indentation := by
  have listed : discover blockFiles "fx" = .ok ["fx/a.c"] :=
    (discover_of_sorted rfl (by decide)).trans (by decide)
  have readable : blockFiles.read? "fx/a.c" = .ok "\x7b\nx;\n\x7d" := by
    decide +kernel
  have stops : compile wordLimit "\x7b\nx;\n\x7d".toList = .error .indentation := by
    decide
  refine ⟨listed, fun runner => ?_⟩
  rw [runAll_of_discovered listed, runEach, run_eq_map, build_of_readable readable, stops]
  rfl

end Linewise.Fixture
