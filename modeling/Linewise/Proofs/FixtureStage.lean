/-
# Linewise.Proofs.FixtureStage -- the files at the turn of a fixture

The fixtures of a check share their output directory, and that directory may hold the
fixtures too. `Stage` says what the files can be at the turn of a fixture: all entries of the
start are there, but for programs that were written anew, and the output directory is made,
or fails to be made, as at the start. One fixture keeps that up (`Stage.after_run`).

From it follow the report of the fixture, which is the one it gets alone (`Stage.agrees`),
and its program, which holds what the source was compiled to (`Stage.holds`).

There is one way to learn of an earlier fixture. When the output directory cannot be made,
directories above it may have been made all the same, and the next attempt fails for another
reason (`StopsHalfway`).
-/
import Linewise.Proofs.FixtureListing
import Linewise.Proofs.FixtureRun
import Linewise.Proofs.ShownNames

namespace Linewise.Fixture

open FileTree

set_option autoImplicit false

/-- A command whose result depends on the bytes of the program only and that changes no
file. -/
structure Isolated (runner : Runner) : Prop where
  unchanged : ∀ command program files, (runner command program files).2 = files
  determined : ∀ command program {first second : FileTree},
    first.readBytes program = second.readBytes program →
      (runner command program first).1 = (runner command program second).1

/-! ## Sources and programs -/

/-- The stem of a fixture as it is shown. -/
def shownStem (fixture : Path) : String :=
  ((Path.stem? fixture).getD fixture).display

/-- The name of the program of a fixture. -/
def programOf (fixture : Path) : Path :=
  Path.ofString (shownStem fixture ++ ".js")

/-- The location of a program. -/
def IsProgram (l : Location) : Prop :=
  ∃ stem : Path, l.getLast? = some (stem ++ ".js")

/-- A source that is there at the start, and whose program has a name. -/
structure Sourced (files : FileTree) (fixture : Path) : Prop where
  source : ∃ (above : Location) (stem : Path) (content : ByteArray),
    files.resolve fixture = .ok (above ++ [stem ++ ".c"], .file content)
  isName : Path.IsName (programOf fixture)

theorem target_eq_join (settings : Settings) (fixture : Path) :
    target settings fixture = Path.join settings.outputDirectory (programOf fixture) :=
  rfl

theorem programOf_eq_append (fixture : Path) :
    programOf fixture = Path.ofString (shownStem fixture) ++ ".js" :=
  Path.ofString_append _ _

/-- Fixtures whose stems are shown alike have one program. -/
theorem programOf_inj {first second : Path} :
    programOf first = programOf second ↔ shownStem first = shownStem second := by
  rw [programOf, programOf, Path.ofString_inj, String.append_left_inj]

theorem isProgram_of_getLast? {fixture : Path} {l : Location}
    (last : l.getLast? = some (programOf fixture)) : IsProgram l :=
  ⟨_, last.trans (congrArg some (programOf_eq_append fixture))⟩

theorem getLast?_program (stem : Path) : (stem ++ Path.ofString ".js").getLast? = some 0x73 := by
  rw [List.getLast?_append_of_ne_nil _ (by decide)]
  rfl

theorem not_isProgram_source (above : Location) (stem : Path) :
    ¬ IsProgram (above ++ [stem ++ ".c"]) := by
  rintro ⟨other, last⟩
  rw [List.getLast?_concat, Option.some.injEq] at last
  have ends := getLast?_program other
  rw [← last, List.getLast?_append_of_ne_nil _ (by decide)] at ends
  exact absurd ends (by decide)

/-- The name of a program has no slash and no zero, since the name of its source has none. -/
theorem isName_program {stem : Path} (isName : Path.IsName (stem ++ ".c")) :
    Path.IsName (Path.ofString (stem.display ++ ".js")) := by
  have absent : ∀ {byte : UInt8}, byte.toNat < 0x80 → byte ∉ Path.ofString ".js" →
      byte ∉ stem ++ Path.ofString ".c" → byte ∉ Path.ofString (stem.display ++ ".js") := by
    intro byte ascii inEnding inSource member
    rw [Path.ofString_append, List.mem_append] at member
    rcases member with shown | ending
    · exact inSource (List.mem_append_left _ (Path.mem_of_mem_ofString_display ascii shown))
    · exact inEnding ending
  have ends := getLast?_program (Path.ofString stem.display)
  rw [← Path.ofString_append] at ends
  refine ⟨?_, absent (by decide) (by decide) isName.slash,
    absent (by decide) (by decide) isName.zero, ?_, ?_⟩
  all_goals
    intro eq
    rw [eq] at ends
    exact absurd ends (by decide)

theorem shownStem_join {directory stem : Path} (isName : Path.IsName (stem ++ ".c"))
    (nonempty : stem ≠ []) : shownStem (Path.join directory (stem ++ ".c")) = stem.display := by
  have cut : Path.splitName (stem ++ ".c") = (stem, some (Path.ofString "c")) :=
    (Path.splitName_eq_iff isName.above).2 ⟨nonempty, by decide, rfl⟩
  rw [shownStem, Path.stem?, Path.fileName?_join isName, Option.map_some, cut]
  rfl

/-! ## The files at a turn -/

/-- Making the output directory fails when some directories above it are made already. -/
def StopsHalfway (settings : Settings) (files : FileTree) : Prop :=
  ∃ e left, files.makeDirectories settings.outputDirectory = (.error e, left) ∧ left ≠ files

/-- What the files can be at the turn of a fixture, when they were `files` at the start. -/
structure Stage (settings : Settings) (files tree : FileTree) : Prop where
  keeps : Keeps IsProgram files tree
  made : ∀ {ready}, files.makeDirectories settings.outputDirectory = (.ok (), ready) →
    ∃ now, tree.makeDirectories settings.outputDirectory = (.ok (), now) ∧
      Overlaid IsProgram ready now
  failed : ∀ {e left}, files.makeDirectories settings.outputDirectory = (.error e, left) →
    (∃ again later, tree.makeDirectories settings.outputDirectory = (.error again, later)) ∧
      (left = files → tree = files)

variable {runner : Runner} {settings : Settings} {files tree : FileTree} {fixture : Path}

theorem Stage.start (settings : Settings) (files : FileTree) : Stage settings files files where
  keeps := .refl IsProgram files
  made ready := ⟨_, ready, .refl IsProgram _⟩
  failed stuck := ⟨⟨_, _, stuck⟩, fun _ => rfl⟩

/-- A source is read as at the start. -/
theorem Stage.read? (stage : Stage settings files tree) (sourced : Sourced files fixture) :
    tree.read? fixture = files.read? fixture := by
  obtain ⟨above, stem, content, found⟩ := sourced.source
  exact stage.keeps.read? found (not_isProgram_source above stem)

theorem store_of_failed {e : FileError} {left : FileTree} (done : Compilation)
    (failed : tree.makeDirectories settings.outputDirectory = (.error e, left)) :
    store settings tree fixture done =
      { result := .error (.write settings.outputDirectory e)
        shortages := done.shortages, files := left } := by
  rw [store, failed]

theorem store_of_unwritable {now : FileTree} {e : FileError} {done : Compilation}
    (made : tree.makeDirectories settings.outputDirectory = (.ok (), now))
    (failed : now.write? (target settings fixture) (String.ofList done.program) = .error e) :
    store settings tree fixture done =
      { result := .error (.write (target settings fixture) e)
        shortages := done.shortages, files := now } := by
  rw [store, made]
  simp only [failed]

theorem store_of_written {now after : FileTree} {done : Compilation}
    (made : tree.makeDirectories settings.outputDirectory = (.ok (), now))
    (wrote : now.write? (target settings fixture) (String.ofList done.program) = .ok after) :
    store settings tree fixture done =
      { result := .ok (target settings fixture), shortages := done.shortages, files := after } := by
  rw [store, made]
  simp only [wrote]

/-! ## Writing a program -/

/-- The program of a fixture was written: it is the only change to the files. -/
structure Written (settings : Settings) (fixture : Path) (text : String) (now after : FileTree)
    (l : Location) : Prop where
  leads : now.LeadsTo settings.outputDirectory l
  checked : checkPath (Path.join settings.outputDirectory (programOf fixture)) = .ok ()
  fits : nameFits (programOf fixture) = true
  plain : (now.get? (l ++ [programOf fixture])).any Entry.isDirectory = false
  noSink : now.get? (l ++ [programOf fixture]) ≠ some .sink
  eq : after = now.put (l ++ [programOf fixture]) (.file text.toUTF8)

section Written

variable {now after : FileTree} {text : String} {l : Location}

theorem Written.overlaid (wrote : Written settings fixture text now after l) :
    Overlaid (fun l => l.getLast? = some (programOf fixture)) now after := by
  rw [wrote.eq]
  exact overlaid_put List.getLast?_concat wrote.plain wrote.noSink _

theorem Written.resolve (wrote : Written settings fixture text now after l)
    (isName : Path.IsName (programOf fixture)) :
    after.resolve (target settings fixture) =
      .ok (l ++ [programOf fixture], .file text.toUTF8) := by
  rw [target_eq_join]
  refine (resolve_join_eq_ok_iff isName (wrote.overlaid.keeps.leadsTo wrote.leads)).2
    ⟨wrote.checked, wrote.fits, rfl, ?_⟩
  rw [wrote.eq, get?_put, if_pos rfl]

variable (sound : files.Sound) (keeps : Keeps IsProgram files tree)
  (made : tree.makeDirectories settings.outputDirectory = (.ok (), now))

include sound keeps made

/-- The output directory that was made is found. -/
theorem exists_leadsTo : ∃ l, now.LeadsTo settings.outputDirectory l := by
  have later := keeps.trans (keeps_makeLevels IsProgram made)
  refine leadsTo_of_ready ?_ (ready_of_makeLevels made)
  rw [later.start]
  exact later.directory sound.home

theorem exists_written (sourced : Sourced files fixture)
    (wrote : now.write? (target settings fixture) text = .ok after) :
    ∃ l, Written settings fixture text now after l := by
  rw [target_eq_join] at wrote
  obtain ⟨l, leads⟩ := exists_leadsTo sound keeps made
  have later := keeps.trans (keeps_makeLevels IsProgram made)
  have noSink : now.get? (l ++ [programOf fixture]) ≠ some .sink := by
    rw [programOf_eq_append]
    exact fun sink => sound.plain l _ (later.sink sink)
  obtain ⟨checked, fits, plain, eq⟩ := of_write?_join sourced.isName leads noSink wrote
  exact ⟨l, leads, checked, fits, plain, noSink, eq⟩

end Written

/-! ## One fixture -/

section Step

variable (sound : files.Sound) (stage : Stage settings files tree)
  (sourced : Sourced files fixture)

include sound stage sourced

/-- A fixture writes nothing but its program, and nothing at all if it has none. -/
theorem Stage.keeps_store (done : Compilation) :
    Keeps (fun l => (store settings tree fixture done).result.isOk ∧
        l.getLast? = some (programOf fixture)) tree
      (store settings tree fixture done).files := by
  cases directories : tree.makeDirectories settings.outputDirectory with
  | mk result now =>
      cases result with
      | error e =>
          rw [store_of_failed done directories]
          exact keeps_makeLevels _ directories
      | ok _ =>
          cases wrote : now.write? (target settings fixture) (String.ofList done.program) with
          | error e =>
              rw [store_of_unwritable directories wrote]
              exact keeps_makeLevels _ directories
          | ok after =>
              obtain ⟨l, written⟩ := exists_written sound stage.keeps directories sourced wrote
              rw [store_of_written directories wrote]
              refine (keeps_makeLevels _ directories).trans ?_
              exact written.overlaid.keeps.mono fun l last => ⟨rfl, last⟩

theorem Stage.after_store (done : Compilation) :
    Stage settings files (store settings tree fixture done).files := by
  have later := (stage.keeps_store sound sourced done).mono
    fun l writes => isProgram_of_getLast? writes.2
  refine ⟨stage.keeps.trans later, ?_, ?_⟩
  · intro ready start
    obtain ⟨now, made, overlaid⟩ := stage.made start
    -- the directory is there, so that making it again changes nothing
    have again : ∀ {after}, Overlaid IsProgram now after →
        ∃ later, after.makeDirectories settings.outputDirectory = (.ok (), later) ∧
          Overlaid IsProgram ready later := fun {after} more =>
      ⟨after, makeLevels_of_ready _ (more.keeps.ready (ready_of_makeLevels made)),
        overlaid.trans more⟩
    cases wrote : now.write? (target settings fixture) (String.ofList done.program) with
    | error e =>
        rw [store_of_unwritable made wrote]
        exact again (.refl IsProgram now)
    | ok after =>
        obtain ⟨l, written⟩ := exists_written sound stage.keeps made sourced wrote
        rw [store_of_written made wrote]
        exact again (written.overlaid.mono fun l last => isProgram_of_getLast? last)
  · intro e left start
    obtain ⟨⟨again, later, stuck⟩, same⟩ := stage.failed start
    rw [store_of_failed done stuck]
    refine ⟨makeLevels_fails_again (Nat.lt_succ_self _) stuck, fun unchanged => ?_⟩
    rw [same unchanged, start] at stuck
    rw [← unchanged]
    exact (Prod.mk.inj stuck).2.symm

/-- Two results of a compilation lead to the same report. -/
structure SameBuilt (first second : Built) : Prop where
  result : second.result = first.result
  program : ∀ path, first.result = .ok path →
    second.files.readBytes path = first.files.readBytes path

theorem Stage.sameBuilt {ready : FileTree}
    (start : files.makeDirectories settings.outputDirectory = (.ok (), ready))
    (done : Compilation) :
    SameBuilt (store settings files fixture done)
      (store settings tree fixture done) := by
  obtain ⟨now, made, overlaid⟩ := stage.made start
  have beginning := (Stage.start settings files).keeps
  obtain ⟨l, leads⟩ := exists_leadsTo sound beginning start
  have either := overlaid.write?_join sourced.isName leads (String.ofList done.program)
  rw [← target_eq_join] at either
  rcases either with ⟨e, first, second⟩ | ⟨one, two, first, second⟩
  · rw [store_of_unwritable start first, store_of_unwritable made second]
    exact ⟨rfl, fun path ok => nomatch ok⟩
  · rw [store_of_written start first, store_of_written made second]
    refine ⟨rfl, fun path ok => ?_⟩
    obtain rfl := Except.ok.inj ok
    obtain ⟨_, one⟩ := exists_written sound beginning start sourced first
    obtain ⟨_, two⟩ := exists_written sound stage.keeps made sourced second
    rw [FileTree.readBytes, FileTree.readBytes, one.resolve sourced.isName,
      two.resolve sourced.isName]
    rfl

end Step

/-! ## The report -/

/-- The outcome of a fixture whose program was run. -/
def outcomeOf (settings : Settings) (name : String) : Except Error String → Outcome
  | .ok actual => check settings name actual
  | .error e => .runtimeError e.message

theorem finish_of_ok {built : Built} {path : Path} (name : String)
    (ok : built.result = .ok path) :
    (finish runner settings name built).report =
        { name, generated := some path
          outcome := outcomeOf settings name
            (runProgram runner settings.runtime path built.files).1 } ∧
      (finish runner settings name built).files =
        (runProgram runner settings.runtime path built.files).2 := by
  rw [finish, ok]
  simp only
  split
  · next ran => simp [ran, outcomeOf]
  · next ran => simp [ran, outcomeOf]

theorem finish_of_error {built : Built} {e : Error} (name : String)
    (failed : built.result = .error e) :
    (finish runner settings name built).report =
        { name, generated := none, outcome := .compileError e.message } ∧
      (finish runner settings name built).files = built.files := by
  rw [finish, failed]
  exact ⟨rfl, rfl⟩

section Isolated

variable (isolated : Isolated runner)

include isolated

theorem files_finish (name : String) (built : Built) :
    (finish runner settings name built).files = built.files := by
  cases result : built.result with
  | error e => exact (finish_of_error name result).2
  | ok path =>
      rw [(finish_of_ok name result).2]
      exact isolated.unchanged _ _ _

theorem SameBuilt.report {first second : Built} (same : SameBuilt first second) (name : String) :
    (finish runner settings name second).report = (finish runner settings name first).report := by
  cases result : first.result with
  | error e =>
      rw [(finish_of_error name result).1, (finish_of_error name (same.result.trans result)).1]
  | ok path =>
      have output : (runProgram runner settings.runtime path second.files).1 =
          (runProgram runner settings.runtime path first.files).1 :=
        congrArg (Execution.output settings.runtime)
          (isolated.determined _ _ (same.program path result))
      rw [(finish_of_ok name result).1, (finish_of_ok name (same.result.trans result)).1, output]

end Isolated

/-- The report says that the output directory could not be made. -/
def BlamesDirectory (settings : Settings) (report : Report) : Prop :=
  report.generated = none ∧
    ∃ reason, report.outcome = .compileError (Error.write settings.outputDirectory reason).message

/-- The report of a fixture in its turn against the one it gets `alone`: they are the same,
or the output directory stopped both halfway. -/
def Agrees (settings : Settings) (files : FileTree) (alone report : Report) : Prop :=
  report = alone ∨
    StopsHalfway settings files ∧ BlamesDirectory settings alone ∧ BlamesDirectory settings report

/-- The program at a path is what the source of the fixture was compiled to. -/
def Holds (settings : Settings) (files : FileTree) (fixture : Path) (tree : FileTree)
    (path : Path) : Prop :=
  path = target settings fixture ∧
    ∃ source done l, files.read? fixture = .ok source ∧
      compile settings.indentWidth source.toList = .ok done ∧
      tree.resolve path = .ok (l ++ [programOf fixture], .file (String.ofList done.program).toUTF8)

/-- The locations that a fixture with that report may have written to. -/
def Writes (fixture : Path) (report : Report) (l : Location) : Prop :=
  report.generated.isSome ∧ l.getLast? = some (programOf fixture)

section Run

variable (isolated : Isolated runner) (sound : files.Sound) (stage : Stage settings files tree)
  (sourced : Sourced files fixture) {checked : Checked}
  (ran : run runner settings tree fixture = .ok checked)

include isolated sound stage sourced ran

/-- One fixture leaves the files at a stage again. -/
theorem Stage.after_run : Stage settings files checked.files := by
  rcases of_run ran with ⟨reason, -, rfl⟩ | ⟨source, done, -, -, rfl⟩
  · rw [files_finish isolated]
    exact stage
  · rw [files_finish isolated]
    exact stage.after_store sound sourced done

theorem Stage.keeps_run : Keeps (Writes fixture checked.report) tree checked.files := by
  rcases of_run ran with ⟨reason, -, rfl⟩ | ⟨source, done, -, -, rfl⟩
  · rw [files_finish isolated]
    exact .refl _ tree
  · rw [files_finish isolated]
    refine (stage.keeps_store sound sourced done).mono ?_
    rintro l ⟨ok, last⟩
    refine ⟨?_, last⟩
    cases result : (store settings tree fixture done).result with
    | error e => simp [result, Except.isOk, Except.toBool] at ok
    | ok path => simp [(finish_of_ok _ result).1]

/-- A fixture is reported in its turn as it is alone. -/
theorem Stage.agrees {alone : Checked} (first : run runner settings files fixture = .ok alone) :
    Agrees settings files alone.report checked.report := by
  have same := stage.read? sourced
  rcases of_run ran with ⟨reason, read, rfl⟩ | ⟨source, done, read, compiled, rfl⟩ <;>
    rcases of_run first with ⟨reason', read', rfl⟩ | ⟨source', done', read', compiled', rfl⟩ <;>
    rw [same, read'] at read <;> cases read
  · exact .inl rfl
  · obtain rfl := Except.ok.inj (compiled.symm.trans compiled')
    cases start : files.makeDirectories settings.outputDirectory with
    | mk result left =>
        cases result with
        | ok _ =>
            exact .inl ((stage.sameBuilt sound sourced start done).report isolated _)
        | error e =>
            obtain ⟨⟨again, later, stuck⟩, unchanged⟩ := stage.failed start
            by_cases halfway : left = files
            · rw [unchanged halfway]
              exact .inl rfl
            · refine .inr ⟨⟨e, left, start, halfway⟩, ?_, ?_⟩
              · rw [store_of_failed done start]
                exact ⟨rfl, e, rfl⟩
              · rw [store_of_failed done stuck]
                exact ⟨rfl, again, rfl⟩

/-- The program of a fixture is what it was compiled to. -/
theorem Stage.holds {path : Path} (generated : checked.report.generated = some path) :
    Holds settings files fixture checked.files path := by
  rcases of_run ran with ⟨reason, -, rfl⟩ | ⟨source, done, read, compiled, rfl⟩
  · cases generated
  · rw [files_finish isolated]
    cases directories : tree.makeDirectories settings.outputDirectory with
    | mk result now =>
        cases result with
        | error e =>
            rw [store_of_failed done directories] at generated
            cases generated
        | ok _ =>
            cases wrote : now.write? (target settings fixture) (String.ofList done.program) with
            | error e =>
                rw [store_of_unwritable directories wrote] at generated
                cases generated
            | ok after =>
                obtain ⟨l, written⟩ := exists_written sound stage.keeps directories sourced wrote
                rw [store_of_written directories wrote] at generated ⊢
                rw [(finish_of_ok _ rfl).1] at generated
                obtain rfl := Option.some.inj generated
                exact ⟨rfl, source, done, l, (stage.read? sourced).symm.trans read, compiled,
                  written.resolve sourced.isName⟩

end Run

theorem Holds.keep {path : Path} {final : FileTree} {written : Location → Prop}
    (holds : Holds settings files fixture tree path) (keeps : Keeps written tree final)
    (other : ∀ l, ¬ written (l ++ [programOf fixture])) :
    Holds settings files fixture final path := by
  obtain ⟨eq, source, done, l, read, compiled, resolved⟩ := holds
  exact ⟨eq, source, done, l, read, compiled, keeps.resolve resolved (other l)⟩

theorem Holds.read? {path : Path} (holds : Holds settings files fixture tree path) :
    ∃ source done, files.read? fixture = .ok source ∧
      compile settings.indentWidth source.toList = .ok done ∧
      tree.read? path = .ok (String.ofList done.program) := by
  obtain ⟨-, source, done, l, read, compiled, resolved⟩ := holds
  refine ⟨source, done, read, compiled, read?_of_readBytes ?_⟩
  rw [readBytes, resolved]
  rfl

end Linewise.Fixture
