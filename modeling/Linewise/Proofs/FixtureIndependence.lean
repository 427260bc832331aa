/-
# Linewise.Proofs.FixtureIndependence -- how far fixtures do not disturb each other

What the files can be at the turn of one fixture holds at every turn, so that each fixture
is reported as if it were alone. A program is left as it is until one of the same name is
written, and that name is made from the stem of the fixture as it is shown. Fixtures whose
stems are shown alike share a path, and at the end it holds the program of the last of them
(`exists_outcomes`). Stems that are texts are never shown alike (`stemsDistinct_of_texts`).

`runAll_independent` puts this together with the list of the fixtures and the count.
-/
import Linewise.Proofs.FixtureStage

namespace Linewise.Fixture

open FileTree

set_option autoImplicit false

variable {runner : Runner} {settings : Settings} {files tree : FileTree} {location : Location}
  {name other path : Path} {names : List Path} {reports : List Report}

/-! ## The path of a fixture -/

/-- What the path of a fixture says about its name. -/
structure Listed (settings : Settings) (files : FileTree) (name : Path) : Prop where
  sourced : Sourced files (Path.join settings.fixturesDirectory name)
  shown : nameOf (Path.join settings.fixturesDirectory name) = name.display
  stem : shownStem (Path.join settings.fixturesDirectory name) = shownStem name

section Found

variable (sound : files.Sound)
  (found : files.resolve settings.fixturesDirectory = .ok (location, .directory))
  (isFixture : IsFixture files settings.fixturesDirectory location name)

include sound isFixture

theorem shownStem_of_isFixture {stem : Path} (nonempty : stem ≠ []) (eq : name = stem ++ ".c") :
    shownStem name = stem.display := by
  obtain ⟨content, file⟩ := isFixture.file
  subst eq
  have alone : Path.join [] (stem ++ ".c") = stem ++ Path.ofString ".c" := by simp [Path.join]
  rw [← alone]
  exact shownStem_join (sound.named (mem_entries_of_get? file)).1 nonempty

/-- A name is shown as its stem and the extension. -/
theorem display_of_isFixture : name.display = shownStem name ++ ".c" := by
  obtain ⟨stem, nonempty, eq⟩ := isFixture.extension
  rw [shownStem_of_isFixture sound isFixture nonempty eq, eq]
  exact Path.display_append_cons stem (by decide) (Path.ofString "c")

include found

theorem listed_of_isFixture : Listed settings files name := by
  obtain ⟨content, file⟩ := isFixture.file
  obtain ⟨isName, fits⟩ := sound.named (mem_entries_of_get? file)
  have resolved := (resolve_join_iff found isName fits).2 ⟨isFixture.short, rfl, file⟩
  obtain ⟨stem, nonempty, eq⟩ := isFixture.extension
  have own := shownStem_of_isFixture sound isFixture nonempty eq
  subst eq
  have joined : shownStem (Path.join settings.fixturesDirectory (stem ++ ".c")) = stem.display :=
    shownStem_join isName nonempty
  refine ⟨⟨⟨location, stem, content, resolved⟩, ?_⟩, ?_, joined.trans own.symm⟩
  · rw [programOf, joined]
    exact isName_program isName
  · rw [nameOf, Path.fileName?_join isName]
    rfl

end Found

theorem shownStem_ofString (sound : files.Sound) {stem : String}
    (isFixture : IsFixture files settings.fixturesDirectory location
      (Path.ofString (stem ++ ".c"))) : shownStem (Path.ofString (stem ++ ".c")) = stem := by
  obtain ⟨bytes, nonempty, eq⟩ := isFixture.extension
  rw [shownStem_of_isFixture sound isFixture nonempty eq]
  rw [Path.ofString_append, List.append_left_inj] at eq
  rw [← eq, Path.display_ofString]

/-! ## Fixtures in turn -/

/-- The report on a fixture shows its name, is the one that the fixture gets alone, and names
the program after the stem as it is shown. -/
structure Faithful (runner : Runner) (settings : Settings) (files : FileTree) (name : Path)
    (report : Report) : Prop where
  shown : report.name = name.display
  alone : ∃ checked,
    run runner settings files (Path.join settings.fixturesDirectory name) = .ok checked ∧
      Agrees settings files checked.report report
  generated : ∀ path, report.generated = some path →
    path = Path.join settings.outputDirectory (Path.ofString (shownStem name ++ ".js"))

/-- Among fixtures and their reports, one of that name has a program at the path. -/
def Generates (turns : List (Path × Report)) (name path : Path) : Prop :=
  ∃ report, (name, report) ∈ turns ∧ report.generated = some path

theorem Generates.cons {turns : List (Path × Report)} (generates : Generates turns name path)
    (turn : Path × Report) : Generates (turn :: turns) name path := by
  obtain ⟨report, member, generated⟩ := generates
  exact ⟨report, List.mem_cons_of_mem _ member, generated⟩

/-- What comes of fixtures that are checked in turn. -/
structure Outcomes (runner : Runner) (settings : Settings) (files start final : FileTree)
    (names : List Path) (reports : List Report) : Prop where
  each : List.Forall₂ (Faithful runner settings files) names reports
  keeps : Keeps (fun l => ∃ turn ∈ names.zip reports,
    Writes (Path.join settings.fixturesDirectory turn.1) turn.2 l) start final
  last : ∀ {name path}, Generates (names.zip reports) name path →
    (∀ other path, Generates (names.zip reports) other path →
      shownStem other = shownStem name → ¬ name < other) →
    Holds settings files (Path.join settings.fixturesDirectory name) final path

section Each

variable (isolated : Isolated runner) (sound : files.Sound)
  (each : ∀ name ∈ names, Listed settings files name ∧
    Turn.Compiles settings ⟨Path.join settings.fixturesDirectory name, files⟩)

include isolated sound each

theorem compiles_turns (stage : Stage settings files tree) :
    ∀ turn ∈ turns runner settings tree (names.map (Path.join settings.fixturesDirectory)),
      turn.Compiles settings := by
  induction names generalizing tree with
  | nil => simp [turns]
  | cons name rest ih =>
      obtain ⟨⟨listed, compiles⟩, others⟩ := List.forall_mem_cons.1 each
      have here : Turn.Compiles settings ⟨Path.join settings.fixturesDirectory name, tree⟩ :=
        fun source read => compiles source ((stage.read? listed.sourced).symm.trans read)
      obtain ⟨checked, ran⟩ := (exists_run_iff runner).2 here
      rw [List.map_cons, turns_cons ran]
      exact List.forall_mem_cons.2
        ⟨here, ih others (stage.after_run isolated sound listed.sourced ran)⟩

theorem exists_outcomes {checks result : Checks} (counted : Counted checks.summary)
    (stage : Stage settings files checks.files) (increasing : names.Pairwise (· < ·))
    (ended : runEach runner settings checks (names.map (Path.join settings.fixturesDirectory)) =
      .ok result) :
    ∃ reports, result.reports = checks.reports ++ reports ∧
      Outcomes runner settings files checks.files result.files names reports := by
  induction names generalizing checks with
  | nil =>
      obtain rfl := Except.ok.inj ended
      refine ⟨[], by simp, .nil, .refl _ _, ?_⟩
      rintro name path ⟨report, member, -⟩
      cases member
  | cons name rest ih =>
      obtain ⟨⟨listed, compiles⟩, others⟩ := List.forall_mem_cons.1 each
      obtain ⟨before, increasing⟩ := List.pairwise_cons.1 increasing
      obtain ⟨checked, ran, room, after⟩ := (runEach_cons_eq_ok_iff counted).1 ended
      have next : Stage settings files (checks.adding checked).files :=
        stage.after_run isolated sound listed.sourced ran
      obtain ⟨reports, added, outcomes⟩ :=
        ih others (counted.counting room _) next increasing after
      refine ⟨checked.report :: reports, by simp [added, Checks.adding], ?_, ?_, ?_⟩
      · obtain ⟨alone, first⟩ := (exists_run_iff runner).2 compiles
        refine .cons ⟨(name_of_run ran).trans listed.shown, ⟨alone, first,
          stage.agrees isolated sound listed.sourced ran first⟩, fun path generated => ?_⟩
          outcomes.each
        rw [(stage.holds isolated sound listed.sourced ran generated).1, target_eq_join, programOf,
          listed.stem]
      · refine ((stage.keeps_run isolated sound listed.sourced ran).mono ?_).trans
          (outcomes.keeps.mono ?_)
        · intro l writes
          exact ⟨(name, checked.report), List.mem_cons_self, writes⟩
        · rintro l ⟨turn, member, writes⟩
          exact ⟨turn, List.mem_cons_of_mem _ member, writes⟩
      · rintro one path ⟨report, member, generated⟩ final
        rcases List.mem_cons.1 member with here | behind
        · obtain ⟨rfl, rfl⟩ := Prod.mk.inj here
          -- a later program of the same name would be one of a later fixture
          refine (stage.holds isolated sound listed.sourced ran generated).keep outcomes.keeps ?_
          rintro l ⟨⟨other, report⟩, member, wrote, last⟩
          rw [List.getLast?_concat, Option.some.injEq, programOf_inj, listed.stem] at last
          have inRest := (List.of_mem_zip member).1
          rw [(others other inRest).1.stem] at last
          obtain ⟨path, generated⟩ := Option.isSome_iff_exists.1 wrote
          exact final other path ⟨report, List.mem_cons_of_mem _ member, generated⟩ last.symm
            (before other inRest)
        · exact outcomes.last ⟨report, behind, generated⟩ fun other path generates =>
            final other path (generates.cons _)

end Each

/-! ## The whole check -/

/-- The path leads to what the source of the fixture was compiled to. -/
def Translated (settings : Settings) (files final : FileTree) (name path : Path) : Prop :=
  ∃ source done, files.read? (Path.join settings.fixturesDirectory name) = .ok source ∧
    compile settings.indentWidth source.toList = .ok done ∧
    final.read? path = .ok (String.ofList done.program)

/-- No two names have stems that are shown alike. -/
def StemsDistinct (names : List Path) : Prop :=
  ∀ name ∈ names, ∀ other ∈ names, shownStem name = shownStem other → name = other

/-- How far the fixtures of a check did not disturb each other; `names` are their names. -/
structure Independent (runner : Runner) (settings : Settings) (files : FileTree)
    (location : Location) (names : List Path) (checks : Checks) : Prop where
  /-- The names are those of the fixtures, each once and in order. -/
  complete : ∀ name, name ∈ names ↔ IsFixture files settings.fixturesDirectory location name
  increasing : names.Pairwise (· < ·)
  each : List.Forall₂ (Faithful runner settings files) names checks.reports
  /-- Two fixtures share a path exactly if their stems are shown alike … -/
  shared : ∀ {name other path otherPath}, Generates (names.zip checks.reports) name path →
    Generates (names.zip checks.reports) other otherPath →
      (path = otherPath ↔ shownStem name = shownStem other)
  /-- … and then the program is that of the last of them. -/
  last : ∀ {name path}, Generates (names.zip checks.reports) name path →
    ∃ last, Generates (names.zip checks.reports) last path ∧
      (∀ other, Generates (names.zip checks.reports) other path → ¬ last < other) ∧
      Translated settings files checks.files last path
  distinct : StemsDistinct names →
    (checks.reports.filterMap Report.generated).Nodup ∧
      ∀ name path, Generates (names.zip checks.reports) name path →
        Translated settings files checks.files name path
  /-- Names that are texts are reported as these, in order, and `stem.c` has its program in
  `stem.js`. -/
  texts : ∀ texts : List String, names = texts.map Path.ofString →
    checks.reports.map Report.name = texts ∧ texts.Pairwise (· < ·) ∧ StemsDistinct names ∧
      ∀ stem path,
        Generates (names.zip checks.reports) (Path.ofString (stem ++ ".c")) path →
          path = Path.join settings.outputDirectory (Path.ofString (stem ++ ".js"))
  total : checks.summary.total = checks.reports.length
  passed : checks.summary.passed = checks.reports.countP (·.outcome.isPass)
  failed : checks.summary.failed = .ok (checks.reports.countP (!·.outcome.isPass))

theorem failed_eq_countP {s : Summary} {reports : List Report} (total : s.total = reports.length)
    (passed : s.passed = reports.countP (·.outcome.isPass)) :
    s.failed = .ok (reports.countP (!·.outcome.isPass)) := by
  have parts : reports.length =
      reports.countP (·.outcome.isPass) + reports.countP (!·.outcome.isPass) := by
    simpa using List.length_eq_countP_add_countP (fun report : Report => report.outcome.isPass)
      (l := reports)
  rw [Summary.failed, if_pos (by omega)]
  exact congrArg Except.ok (by omega)

/-- Of the fixtures that share a path there is a last one. -/
theorem exists_last_of_generates {turns : List (Path × Report)}
    (increasing : turns.Pairwise fun first second => first.1 < second.1)
    (present : Generates turns name path) :
    ∃ last, Generates turns last path ∧ ∀ other, Generates turns other path → ¬ last < other := by
  induction turns generalizing name with
  | nil =>
      obtain ⟨report, member, -⟩ := present
      cases member
  | cons turn rest ih =>
      obtain ⟨before, increasing⟩ := List.pairwise_cons.1 increasing
      by_cases later : ∃ other, Generates rest other path
      · obtain ⟨other, behind⟩ := later
        obtain ⟨last, generates, final⟩ := ih increasing behind
        refine ⟨last, generates.cons turn, ?_⟩
        rintro other ⟨report, member, generated⟩
        rcases List.mem_cons.1 member with rfl | behind
        · obtain ⟨lastReport, inRest, -⟩ := generates
          exact List.lt_asymm (before (last, lastReport) inRest)
        · exact final other ⟨report, behind, generated⟩
      · have here : ∀ other, Generates (turn :: rest) other path → other = turn.1 := by
          rintro other ⟨report, member, generated⟩
          rcases List.mem_cons.1 member with rfl | behind
          · rfl
          · exact absurd ⟨other, report, behind, generated⟩ later
        refine ⟨name, present, fun other same => ?_⟩
        rw [here name present, here other same]
        exact Std.lt_irrefl

theorem pairwise_zip (increasing : names.Pairwise (· < ·)) (same : names.length = reports.length) :
    (names.zip reports).Pairwise fun first second => first.1 < second.1 := by
  rw [← List.pairwise_map (f := Prod.fst), List.map_fst_zip (Nat.le_of_eq same)]
  exact increasing

theorem map_name_of_faithful (each : List.Forall₂ (Faithful runner settings files) names reports) :
    reports.map Report.name = names.map Path.display := by
  induction each with
  | nil => rfl
  | cons first _ ih => rw [List.map_cons, List.map_cons, first.shown, ih]

theorem map_display_map_ofString (texts : List String) :
    (texts.map Path.ofString).map Path.display = texts := by
  rw [List.map_map]
  exact (List.map_congr_left fun text _ => Path.display_ofString text).trans (List.map_id texts)

theorem Generates.mem (generates : Generates (names.zip reports) name path) : name ∈ names := by
  obtain ⟨report, member, -⟩ := generates
  exact (List.of_mem_zip member).1

theorem Generates.path_eq (each : List.Forall₂ (Faithful runner settings files) names reports)
    (generates : Generates (names.zip reports) name path) :
    path = Path.join settings.outputDirectory (Path.ofString (shownStem name ++ ".js")) := by
  obtain ⟨report, member, generated⟩ := generates
  exact (List.forall₂_zip each member).generated path generated

/-- The last of the fixtures that share a path has its program there. -/
theorem Outcomes.translated {start final : FileTree}
    (outcomes : Outcomes runner settings files start final names reports)
    (generates : Generates (names.zip reports) name path)
    (noLater : ∀ other, Generates (names.zip reports) other path → ¬ name < other) :
    Translated settings files final name path := by
  refine (outcomes.last generates fun other otherPath later same => noLater other ?_).read?
  rw [generates.path_eq outcomes.each, ← same, ← later.path_eq outcomes.each]
  exact later

theorem Outcomes.exists_last {start final : FileTree}
    (outcomes : Outcomes runner settings files start final names reports)
    (increasing : names.Pairwise (· < ·)) (generates : Generates (names.zip reports) name path) :
    ∃ last, Generates (names.zip reports) last path ∧
      (∀ other, Generates (names.zip reports) other path → ¬ last < other) ∧
      Translated settings files final last path := by
  obtain ⟨last, generates, noLater⟩ :=
    exists_last_of_generates (pairwise_zip increasing outcomes.each.length_eq) generates
  exact ⟨last, generates, noLater, outcomes.translated generates noLater⟩

/-- Programs of different names are at different paths. -/
theorem nodup_generated (increasing : names.Pairwise (· < ·))
    (same : names.length = reports.length)
    (apart : ∀ {name other path}, Generates (names.zip reports) name path →
      Generates (names.zip reports) other path → name = other) :
    (reports.filterMap Report.generated).Nodup := by
  rw [← List.map_snd_zip (Nat.le_of_eq same.symm), List.filterMap_map, List.Nodup,
    List.pairwise_filterMap]
  refine (pairwise_zip increasing same).imp_of_mem ?_
  rintro ⟨first, _⟩ ⟨second, _⟩ inFirst inSecond less path one _ two rfl
  have equal : first = second := apart ⟨_, inFirst, one⟩ ⟨_, inSecond, two⟩
  exact Std.ne_of_lt less equal

section Whole

variable (sound : files.Sound)
  (found : files.resolve settings.fixturesDirectory = .ok (location, .directory))

include sound

/-- Texts are not shown alike. -/
theorem stemsDistinct_of_texts {texts : List String}
    (each : ∀ name ∈ texts.map Path.ofString,
      IsFixture files settings.fixturesDirectory location name) :
    StemsDistinct (texts.map Path.ofString) := by
  intro name inNames other inOthers same
  have shown : name.display = other.display := by
    rw [display_of_isFixture sound (each name inNames),
      display_of_isFixture sound (each other inOthers), same]
  obtain ⟨text, -, rfl⟩ := List.mem_map.1 inNames
  obtain ⟨text', -, rfl⟩ := List.mem_map.1 inOthers
  rw [Path.display_ofString, Path.display_ofString] at shown
  rw [shown]

theorem of_texts (each : List.Forall₂ (Faithful runner settings files) names reports)
    (increasing : names.Pairwise (· < ·))
    (fixtures : ∀ name ∈ names, IsFixture files settings.fixturesDirectory location name)
    (texts : List String) (eq : names = texts.map Path.ofString) :
    reports.map Report.name = texts ∧ texts.Pairwise (· < ·) ∧ StemsDistinct names ∧
      ∀ stem path, Generates (names.zip reports) (Path.ofString (stem ++ ".c")) path →
        path = Path.join settings.outputDirectory (Path.ofString (stem ++ ".js")) := by
  subst eq
  refine ⟨?_, ?_, stemsDistinct_of_texts sound fixtures, fun stem path generates => ?_⟩
  · rw [map_name_of_faithful each, map_display_map_ofString]
  · exact (List.pairwise_map.1 increasing).imp Path.lt_of_ofString_lt
  · rw [generates.path_eq each, shownStem_ofString sound (fixtures _ generates.mem)]

include found

theorem shared_iff (each : List.Forall₂ (Faithful runner settings files) names reports)
    (fixtures : ∀ name ∈ names, IsFixture files settings.fixturesDirectory location name)
    {otherPath : Path} (one : Generates (names.zip reports) name path)
    (two : Generates (names.zip reports) other otherPath) :
    path = otherPath ↔ shownStem name = shownStem other := by
  have isName : ∀ {name path}, Generates (names.zip reports) name path →
      Path.IsName (Path.ofString (shownStem name ++ ".js")) := by
    intro name path generates
    have listed := listed_of_isFixture sound found (fixtures name generates.mem)
    rw [← listed.stem]
    exact listed.sourced.isName
  rw [one.path_eq each, two.path_eq each]
  constructor
  · intro same
    have names := congrArg Path.fileName? same
    rw [Path.fileName?_join (isName one), Path.fileName?_join (isName two), Option.some.injEq,
      Path.ofString_inj, String.append_left_inj] at names
    exact names
  · intro same
    rw [same]

theorem own_of_stemsDistinct {start final : FileTree}
    (outcomes : Outcomes runner settings files start final names reports)
    (increasing : names.Pairwise (· < ·))
    (fixtures : ∀ name ∈ names, IsFixture files settings.fixturesDirectory location name)
    (distinct : StemsDistinct names) :
    (reports.filterMap Report.generated).Nodup ∧
      ∀ name path, Generates (names.zip reports) name path →
        Translated settings files final name path := by
  have apart : ∀ {name other path}, Generates (names.zip reports) name path →
      Generates (names.zip reports) other path → name = other := fun one two =>
    distinct _ one.mem _ two.mem ((shared_iff sound found outcomes.each fixtures one two).1 rfl)
  refine ⟨nodup_generated increasing outcomes.each.length_eq apart, fun name path generates => ?_⟩
  refine outcomes.translated generates fun other shared => ?_
  rw [apart generates shared]
  exact Std.lt_irrefl

variable (isolated : Isolated runner)
  (compiles : ∀ name, IsFixture files settings.fixturesDirectory location name →
    Turn.Compiles settings ⟨Path.join settings.fixturesDirectory name, files⟩)

include isolated compiles

/-- The check comes to its end. -/
theorem exists_runEach_outcomes :
    ∃ checks, runEach runner settings { files }
        (fixturePaths files settings.fixturesDirectory location) = .ok checks ∧
      Outcomes runner settings files files checks.files
        (fixtureNames files settings.fixturesDirectory location) checks.reports := by
  have each : ∀ name ∈ fixtureNames files settings.fixturesDirectory location,
      Listed settings files name ∧
        Turn.Compiles settings ⟨Path.join settings.fixturesDirectory name, files⟩ := by
    intro name member
    have isFixture := (mem_fixtureNames_iff found sound).1 member
    exact ⟨listed_of_isFixture sound found isFixture, compiles name isFixture⟩
  have start : Stage settings files ({ files : Checks }).files := .start settings files
  have few := (length_fixturePaths_le files settings.fixturesDirectory location).trans sound.finite
  obtain ⟨checks, ended⟩ : ∃ checks, runEach runner settings { files }
      (fixturePaths files settings.fixturesDirectory location) = .ok checks :=
    (exists_runEach_iff _ counted_zero).2
      ⟨by simpa using few, compiles_turns isolated sound each start⟩
  obtain ⟨reports, added, outcomes⟩ :=
    exists_outcomes isolated sound each counted_zero start fixtureNames_increasing ended
  rw [List.nil_append] at added
  exact ⟨checks, ended, added ▸ outcomes⟩

end Whole

/-- **Fixtures do not disturb each other, unless they are shown alike.** If the command
depends on nothing but the program and changes no file, and every source can be compiled,
then a check reports the fixtures of the directory, each once and in the order of the names,
each as it is reported alone, and the count is right. Two fixtures have programs at one path
exactly if their stems are shown alike, and then the program of the last one is there at the
end. Where no stems are shown alike, as none are that are texts, every program is at a path of
its own and holds at the end what was compiled. Only an output directory that cannot be
made, after directories above it were made, is blamed for different reasons alone and in
turn. All this is about files without links, through which writing one program could change
another file or a source. -/
theorem runAll_independent (isolated : Isolated runner) (sound : files.Sound)
    (found : files.resolve settings.fixturesDirectory = .ok (location, .directory))
    (compiles : ∀ name, IsFixture files settings.fixturesDirectory location name →
      Turn.Compiles settings ⟨Path.join settings.fixturesDirectory name, files⟩) :
    ∃ names checks, runAll runner settings files = .ok (.ok checks) ∧
      Independent runner settings files location names checks := by
  obtain ⟨checks, ended, outcomes⟩ := exists_runEach_outcomes sound found isolated compiles
  obtain ⟨reports, adds⟩ := exists_adds counted_zero ended
  obtain rfl : checks.reports = reports := by simpa using adds.reported
  have total : checks.summary.total = checks.reports.length := by simpa using adds.total
  have passed : checks.summary.passed = checks.reports.countP (·.outcome.isPass) := by
    simpa using adds.passed
  have complete : ∀ name, name ∈ fixtureNames files settings.fixturesDirectory location ↔
      IsFixture files settings.fixturesDirectory location name :=
    fun name => mem_fixtureNames_iff found sound
  have fixtures := fun name => (complete name).1
  refine ⟨_, checks, (runAll_eq_ok_iff (discover_eq_ok found)).2 ended, complete,
    fixtureNames_increasing, outcomes.each, shared_iff sound found outcomes.each fixtures,
    outcomes.exists_last fixtureNames_increasing,
    own_of_stemsDistinct sound found outcomes fixtureNames_increasing fixtures,
    of_texts sound outcomes.each fixtureNames_increasing fixtures, total, passed,
    failed_eq_countP total passed⟩

/-- A command that prints the program. -/
def printing : Runner := fun _ program files =>
  ((files.readBytes program).map fun bytes => { stdout := bytes }, files)

theorem isolated_printing : Isolated printing where
  unchanged _ _ _ := rfl
  determined _ _ _ _ same := congrArg (Except.map _) same

/-- Fixtures in a directory that is the output directory as well, listed backwards, with an
old program, a name that is all extension and one that is no text. -/
def sharedFiles : FileTree where
  entries := [
    (["fx"], .directory),
    (["fx", [0xff, 0x2e, 0x63]], .file "w;".toUTF8),
    (["fx", "b.c"], .file "y;".toUTF8),
    (["fx", "a.js"], .file "old".toUTF8),
    (["fx", "a.c"], .file "x;".toUTF8),
    (["fx", ".c"], .file "z;".toUTF8)]
  distinct := by decide

def sharedSettings : Settings where
  fixturesDirectory := "fx"
  outputDirectory := "fx"

theorem sound_of_entries {files : FileTree} (home : files.workingDirectory = [])
    (finite : files.entries.length ≤ wordLimit)
    (noSink : ∀ entry ∈ files.entries, entry.2 ≠ .sink)
    (named : ∀ l ∈ files.entries.map Prod.fst, ∀ name ∈ l.getLast?,
      (name ≠ [] ∧ Path.slash ∉ name ∧ 0 ∉ name ∧ name ≠ "." ∧ name ≠ "..") ∧
        nameFits name = true) : files.Sound where
  named {above name e} member := by
    obtain ⟨⟨nonempty, slash, zero, here, up⟩, fits⟩ :=
      named _ (List.mem_map_of_mem member) name (by simp)
    exact ⟨⟨nonempty, slash, zero, here, up⟩, fits⟩
  home := by
    rw [home]
    rfl
  plain above stem sink := noSink _ (mem_entries_of_get? sink) rfl
  finite := finite

theorem runAll_independent_sharedFiles :
    IsFixture sharedFiles "fx" ["fx"] "a.c" ∧ IsFixture sharedFiles "fx" ["fx"] "b.c" ∧
      IsFixture sharedFiles "fx" ["fx"] [0xff, 0x2e, 0x63] ∧
      ∃ names checks, runAll printing sharedSettings sharedFiles = .ok (.ok checks) ∧
        Independent printing sharedSettings sharedFiles ["fx"] names checks := by
  have sound : sharedFiles.Sound := by
    refine sound_of_entries rfl (by decide) ?_ (by decide)
    simp [sharedFiles]
  refine ⟨⟨⟨_, rfl⟩, ⟨"a", by decide, rfl⟩, by decide⟩,
    ⟨⟨_, rfl⟩, ⟨"b", by decide, rfl⟩, by decide⟩,
    ⟨⟨_, rfl⟩, ⟨[0xff], by decide, rfl⟩, by decide⟩,
    runAll_independent isolated_printing sound rfl ?_⟩
  intro name isFixture
  obtain ⟨content, file⟩ := isFixture.file
  have listed : [Path.ofString "fx", name] ∈ sharedFiles.entries.map Prod.fst :=
    List.mem_map_of_mem (mem_entries_of_get? file)
  have reported : ∀ l ∈ sharedFiles.entries.map Prod.fst, ∀ name ∈ l.getLast?,
      (run printing sharedSettings sharedFiles (Path.join "fx" name)).isOk = true := by
    decide +kernel
  exact compiles_of_isOk (reported _ listed name rfl)

theorem exists_of_toOption_map {ε α β : Type} {e : Except ε α} {f : α → β} {b : β}
    (result : e.toOption.map f = some b) : ∃ a, e = .ok a ∧ f a = b := by
  cases e with
  | error _ => cases result
  | ok a => exact ⟨a, rfl, Option.some.inj result⟩

/-- Two names that are no texts: a byte that begins no character, and `.c`. -/
def alikeFiles : FileTree where
  entries := [
    (["fx"], .directory),
    (["fx", [0xfe, 0x2e, 0x63]], .file "x;".toUTF8),
    (["fx", [0xff, 0x2e, 0x63]], .file "y;".toUTF8)]
  distinct := by decide

/-- The output directory is to be made below a file, behind a directory that is missing. -/
def halfwayFiles : FileTree where
  entries := [
    (["fx"], .directory),
    (["fx", "a.c"], .file "x;".toUTF8),
    (["fx", "b.c"], .file "y;".toUTF8),
    (["f.c"], .file "z".toUTF8)]
  distinct := by decide

def halfwaySettings : Settings where
  fixturesDirectory := "fx"
  outputDirectory := "n1/./../f.c/q"

/-- The path of the directory is short enough, and that of its file is not. -/
def farFiles : FileTree where
  entries := [(["fx"], .directory), (["fx", "a.c"], .file "x;".toUTF8)]
  distinct := by decide

def farSettings : Settings where
  fixturesDirectory := (List.replicate 2045 (Path.ofString "./")).flatten ++ "fx"

/-- Fixtures with names that are shown alike lose the program of the first. A fixture is told
another reason than alone, since the one before it has made the missing directory. And a file
is passed over whose path is too long. -/
theorem runAll_interferes :
    (∃ checks, runAll printing { fixturesDirectory := "fx" } alikeFiles = .ok (.ok checks) ∧
      checks.reports.map Report.name = ["\ufffd.c", "\ufffd.c"] ∧
      checks.reports.map Report.generated =
        [some (Path.ofString "output/\ufffd.js"), some (Path.ofString "output/\ufffd.js")] ∧
      checks.files.read? "output/\ufffd.js" = .ok "y;\n\nmain();\n") ∧
    (∃ checks alone, runAll printing halfwaySettings halfwayFiles = .ok (.ok checks) ∧
      run printing halfwaySettings halfwayFiles "fx/b.c" = .ok alone ∧
      alone.report.outcome =
        .compileError "writing 'n1/./../f.c/q': File exists (os error 17)" ∧
      checks.reports.map Report.outcome = [
        .compileError "writing 'n1/./../f.c/q': File exists (os error 17)",
        .compileError "writing 'n1/./../f.c/q': Not a directory (os error 20)"]) ∧
    ∃ checks, runAll printing farSettings farFiles = .ok (.ok checks) ∧ checks.reports = [] := by
  refine ⟨?_, ?_, ?_⟩
  · have listed : discover alikeFiles "fx" =
        .ok [Path.join "fx" [0xfe, 0x2e, 0x63], Path.join "fx" [0xff, 0x2e, 0x63]] :=
      (discover_of_sorted rfl (by decide)).trans (by decide)
    have result : (runEach printing { fixturesDirectory := "fx" } { files := alikeFiles }
        [Path.join "fx" [0xfe, 0x2e, 0x63], Path.join "fx" [0xff, 0x2e, 0x63]]).toOption.map
          (fun checks => (checks.reports.map Report.name, checks.reports.map Report.generated,
            checks.files.read? "output/\ufffd.js")) =
        some (["\ufffd.c", "\ufffd.c"],
          [some (Path.ofString "output/\ufffd.js"), some (Path.ofString "output/\ufffd.js")],
          .ok "y;\n\nmain();\n") := by
      decide +kernel
    obtain ⟨checks, ended, shown⟩ := exists_of_toOption_map result
    simp only [Prod.mk.injEq] at shown
    exact ⟨checks, (runAll_eq_ok_iff listed).2 ended, shown⟩
  · have listed : discover halfwayFiles "fx" = .ok ["fx/a.c", "fx/b.c"] :=
      (discover_of_sorted rfl (by decide)).trans (by decide)
    have reports : (runEach printing halfwaySettings { files := halfwayFiles }
        ["fx/a.c", "fx/b.c"]).toOption.map (·.reports.map Report.outcome) = some [
          .compileError "writing 'n1/./../f.c/q': File exists (os error 17)",
          .compileError "writing 'n1/./../f.c/q': Not a directory (os error 20)"] := by
      decide +kernel
    have report :
        (run printing halfwaySettings halfwayFiles "fx/b.c").toOption.map (·.report.outcome) =
          some (.compileError "writing 'n1/./../f.c/q': File exists (os error 17)") := by
      decide +kernel
    obtain ⟨checks, ended, outcomes⟩ := exists_of_toOption_map reports
    obtain ⟨alone, ran, outcome⟩ := exists_of_toOption_map report
    exact ⟨checks, alone, (runAll_eq_ok_iff listed).2 ended, ran, outcome, outcomes⟩
  · have found : farFiles.resolve farSettings.fixturesDirectory = .ok (["fx"], .directory) :=
      resolve_eq_ok_iff.2 ⟨by decide +kernel, by decide +kernel, rfl, .inl rfl⟩
    have listed : discover farFiles farSettings.fixturesDirectory = .ok [] :=
      (discover_of_sorted found (by decide)).trans (by decide +kernel)
    exact ⟨{ files := farFiles }, (runAll_eq_ok_iff listed).2 rfl, rfl⟩

end Linewise.Fixture
