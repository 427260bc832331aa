/-
# Linewise.Proofs.PrintLanguage -- which lines are print calls, and what is read from them

A print call may stand anywhere in a line, so one line may be read as a print call in
several ways. A `Reading` is one of them: the line is cut into parts of the right form,
and nothing says that a part is as long as it can be.

A line is a print call exactly when it has a reading, and the one that is used has the
shortest text in front of the call (`print_lines_iff`):

* `Reading.exists_at?_call`: the recogniser reads the call of any reading, and takes the
  text up to the last parenthesis of the line for its arguments;
* `Occurrence.exists_findFrom`: the search stops no later than at a call that can be read;
* `Reading.eq_of_before_eq`: the text in front of the call determines the reading.
-/
import Linewise.Proofs.PrintReading
import Linewise.Proofs.PrintSurroundings

namespace Linewise.PrintCall

open Text

set_option autoImplicit false

/-! ## The search for a call -/

namespace Occurrence

theorem getLast?_cons_or (c : Char) (before : Text) (previous : Option Char) :
    (c :: before).getLast?.or previous = before.getLast?.or (some c) := by
  rw [List.getLast?_cons]
  cases before.getLast? <;> rfl

theorem boundary_of_here? {previous : Option Char} {t : Text} {o : Occurrence}
    (read : here? previous t = some o) : previous.any isWord = false := by
  unfold here? at read
  split at read
  · cases read
  · rename_i boundary
    exact Bool.eq_false_iff.2 boundary

/-- The call that is found does not continue a word. -/
theorem boundary_of_findFrom {previous : Option Char} {t : Text} {o : Occurrence}
    (found : findFrom (!previous.any isWord) t = some o) :
    (o.before.getLast?.or previous).any isWord = false := by
  induction t generalizing previous o with
  | nil => cases found
  | cons c rest ih =>
      rw [findFrom_cons, Option.or_eq_some_iff] at found
      rcases found with here | ⟨-, later⟩
      · rw [before_of_here? here]
        exact boundary_of_here? here
      · obtain ⟨behind, read, rfl⟩ := Option.map_eq_some_iff.1 later
        rw [getLast?_cons_or]
        exact ih read

/-- A call is found no later than at any place where one can be read. -/
theorem exists_findFrom {previous : Option Char} {before call : Text}
    (boundary : (before.getLast?.or previous).any isWord = false)
    (read : (at? call).isSome = true) :
    ∃ o, findFrom (!previous.any isWord) (before ++ call) = some o ∧
      o.before.length ≤ before.length := by
  induction before generalizing previous with
  | nil =>
      have start : previous.any isWord = false := boundary
      obtain ⟨o, eq⟩ := Option.isSome_iff_exists.1 read
      have here : here? previous call = some o := by rw [here?, start, if_neg (by simp), eq]
      cases call with
      | nil => cases eq
      | cons c rest =>
          refine ⟨o, ?_, ?_⟩
          · rw [List.nil_append, findFrom_cons, here, Option.some_or]
          · rw [before_of_here? here]
  | cons c before ih =>
      rw [getLast?_cons_or] at boundary
      rw [List.cons_append, findFrom_cons]
      cases here : here? previous (c :: (before ++ call)) with
      | some o =>
          refine ⟨o, Option.some_or, ?_⟩
          rw [before_of_here? here]
          exact Nat.zero_le _
      | none =>
          obtain ⟨o, found, le⟩ := ih boundary
          have later : findFrom (!isWord c) (before ++ call) = some o := found
          rw [later]
          exact ⟨{ o with before := c :: o.before }, rfl, Nat.succ_le_succ le⟩

end Occurrence

/-! ## Readings of a line -/

/-- What may follow the format and its blanks: a closing parenthesis, or a comma and
something in front of one. -/
def IsEnding (t : Text) : Prop :=
  (∃ rest, t = ')' :: rest) ∨ ∃ list rest, list ≠ [] ∧ t = ',' :: (list ++ ')' :: rest)

/-- A line read as a print call: the text in front of it, its parts, and all that follows
them. -/
structure Reading where
  before : Text
  space : Text
  format : Text
  gap : Text
  ending : Text
  boundary : ∀ c ∈ before.getLast?, isWord c = false
  spaceBlank : Blanks space
  noQuote : '"' ∉ format
  gapBlank : Blanks gap
  isEnding : IsEnding ending

namespace Reading

/-- The line from the call on. -/
def call (r : Reading) : Text :=
  "printf".toList ++ (r.space ++ ("(\"".toList ++ (r.format ++ '"' :: (r.gap ++ r.ending))))

def line (r : Reading) : Text :=
  r.before ++ r.call

/-- What a reading gives: its format, and the arguments between the comma and the last
closing parenthesis of the line, if there is a comma. -/
structure Gives (r : Reading) (call : PrintCall) : Prop where
  format : call.format = r.format
  none : ∀ rest, r.ending = ')' :: rest → call.args = []
  list : ∀ list rest, r.ending = ',' :: (list ++ ')' :: rest) → ')' ∉ rest →
    call.args = Arguments.split list

/-- No reading of the line has a shorter text in front of the call. -/
def IsShortest (r : Reading) (line : Text) : Prop :=
  r.line = line ∧ ∀ other : Reading, other.line = line → r.before.length ≤ other.before.length

/-- The call of the reading, when it ends with these arguments and this text behind it. -/
def occurrence (r : Reading) (arguments : Option ArgumentText) (after : Text) : Occurrence where
  before := []
  space := r.space
  format := r.format
  gap := r.gap
  arguments
  after

theorem at?_call_eq (r : Reading) {arguments : Option ArgumentText} {after : Text}
    (ends : r.ending = (r.occurrence arguments after).ending)
    (wf : ∀ a ∈ arguments, a.WellFormed ∧ ')' ∉ firstLine after) :
    Occurrence.at? r.call = some (r.occurrence arguments after) := by
  have spelled : (r.occurrence arguments after).spelling = r.call := by
    unfold call
    rw [ends]
    rfl
  rw [← spelled]
  exact Occurrence.at?_complete rfl ⟨r.spaceBlank, r.noQuote, r.gapBlank, wf⟩

theorem exists_at?_of_close (r : Reading) {rest : Text} (ends : r.ending = ')' :: rest) :
    ∃ o, Occurrence.at? r.call = some o ∧ r.Gives o.toCall := by
  have noneEnds : r.ending = (r.occurrence none rest).ending := ends
  refine ⟨_, r.at?_call_eq noneEnds (by simp), rfl, fun _ _ => rfl, ?_⟩
  intro list behind comma
  rw [ends] at comma
  cases comma

theorem exists_at?_of_list (r : Reading) (oneLine : '\n' ∉ r.line) {list rest : Text}
    (ne : list ≠ []) (ends : r.ending = ',' :: (list ++ ')' :: rest)) (last : ')' ∉ rest) :
    ∃ o, Occurrence.at? r.call = some o ∧ r.Gives o.toCall := by
  have listLine : '\n' ∉ list := by
    intro broken
    apply oneLine
    unfold line call
    rw [ends]
    simp [broken]
  have lineLast : ')' ∉ firstLine rest := not_mem_firstLine last
  obtain ⟨a, read, args⟩ := arguments?_list ne listLine lineLast
  obtain ⟨spelledList, aWf, -⟩ := Occurrence.arguments?_sound read
  have aEnds : r.ending = (r.occurrence (some a) rest).ending := by
    rw [ends, spelledList]
    rfl
  refine ⟨_, r.at?_call_eq aEnds (by simpa using ⟨aWf, lineLast⟩), rfl, ?_, ?_⟩
  · intro behind close
    rw [ends] at close
    cases close
  · intro other behind comma otherLast
    rw [ends] at comma
    have cut := splitAtLast?_append list last
    rw [(List.cons.inj comma).2, splitAtLast?_append other otherLast] at cut
    obtain ⟨rfl, -⟩ := Prod.mk.inj (Option.some.inj cut)
    exact args

/-- The call of a reading is read with what the reading gives. -/
theorem exists_at?_call (r : Reading) (oneLine : '\n' ∉ r.line) :
    ∃ o, Occurrence.at? r.call = some o ∧ r.Gives o.toCall := by
  rcases r.isEnding with ⟨rest, ends⟩ | ⟨list, rest, ne, ends⟩
  · exact r.exists_at?_of_close ends
  · -- the recogniser goes on to the last parenthesis, wherever the reading ends
    obtain ⟨longest, after, cut, last⟩ : ∃ longest after,
        list ++ ')' :: rest = longest ++ ')' :: after ∧ ')' ∉ after :=
      exists_last_mark (by simp)
    have longestNe : longest ≠ [] := by
      rintro rfl
      obtain ⟨c, list, rfl⟩ := List.exists_cons_of_ne_nil ne
      obtain ⟨-, rfl⟩ := List.cons.inj cut
      exact last (by simp)
    rw [cut] at ends
    exact r.exists_at?_of_list oneLine longestNe ends last

theorem isEnding_of_wellFormed {o : Occurrence} (wf : o.WellFormed) : IsEnding o.ending := by
  cases arguments : o.arguments with
  | none =>
      refine .inl ⟨o.after, ?_⟩
      simp only [Occurrence.ending, arguments]
  | some a =>
      obtain ⟨aWf, -⟩ := wf.arguments a arguments
      refine .inr ⟨a.blanks ++ a.text, o.after, fun empty => ?_, ?_⟩
      · rcases aWf.text with ⟨ne, -⟩ | ⟨c, eq, -⟩
        · exact ne (List.append_eq_nil_iff.1 empty).2
        · simp [eq] at empty
      · simp only [Occurrence.ending, arguments, List.append_assoc]

/-- The call that is found is a reading of the line. -/
theorem exists_of_find? {t : Text} {o : Occurrence} (found : Occurrence.find? t = some o) :
    ∃ r : Reading, r.line = t ∧ r.before = o.before ∧
      Occurrence.at? r.call = some { o with before := [] } := by
  obtain ⟨spelled, wf⟩ := Occurrence.spelling_of_find? found
  have start : Occurrence.findFrom (!(none : Option Char).any isWord) t = some o := found
  have boundary := Occurrence.boundary_of_findFrom start
  rw [Option.or_none] at boundary
  let r : Reading :=
    { before := o.before, space := o.space, format := o.format, gap := o.gap, ending := o.ending
      boundary := fun c last => by rwa [last, Option.any_some] at boundary
      spaceBlank := wf.space, noQuote := wf.format, gapBlank := wf.gap
      isEnding := isEnding_of_wellFormed wf }
  have startWf : Occurrence.WellFormed { o with before := [] } :=
    ⟨wf.space, wf.format, wf.gap, wf.arguments⟩
  exact ⟨r, spelled.symm, rfl, Occurrence.at?_complete rfl startWf⟩

theorem stops_isBlank_ending (r : Reading) : Stops isBlank r.ending := by
  rcases r.isEnding with ⟨rest, ends⟩ | ⟨list, rest, -, ends⟩
  all_goals
    rw [ends]
    exact stops_cons.2 (by decide)

/-- A reading is determined by the text in front of its call. -/
theorem eq_of_before_eq {r other : Reading} (same : r.line = other.line)
    (before : r.before = other.before) : r = other := by
  have calls : r.call = other.call := by
    unfold line at same
    rw [before] at same
    exact List.append_cancel_left same
  have paren : ∀ t, Stops isBlank ("(\"".toList ++ t) := fun t => stops_cons.2 (by decide)
  unfold call at calls
  obtain ⟨space, literals⟩ := run_unique (List.append_cancel_left calls) r.spaceBlank
    other.spaceBlank (paren _) (paren _)
  have literal := List.append_cancel_left literals
  obtain ⟨taken, dropped⟩ := Occurrence.format_eq_iff.2 ⟨rfl, r.noQuote⟩
  obtain ⟨otherTaken, otherDropped⟩ := Occurrence.format_eq_iff.2 ⟨literal, other.noQuote⟩
  have format := taken.symm.trans otherTaken
  have behind := (List.cons.inj (dropped.symm.trans otherDropped)).2
  obtain ⟨gap, ending⟩ := run_unique behind r.gapBlank other.gapBlank r.stops_isBlank_ending
    other.stops_isBlank_ending
  cases r
  cases other
  simp only at before space format gap ending
  subst before space format gap ending
  rfl

theorem IsShortest.unique {r other : Reading} {line : Text} (h : r.IsShortest line)
    (otherShortest : other.IsShortest line) : other = r := by
  obtain ⟨rfl, shortest⟩ := h
  obtain ⟨same, least⟩ := otherShortest
  have length : other.before.length = r.before.length :=
    Nat.le_antisymm (least r rfl) (shortest other same)
  exact eq_of_before_eq same (List.append_inj_left same length)

/-- A line with a reading has a call, which is found in front of the reading's or there. -/
theorem exists_find? (r : Reading) (oneLine : '\n' ∉ r.line) :
    ∃ o, Occurrence.find? r.line = some o ∧ o.before.length ≤ r.before.length := by
  obtain ⟨o, read, -⟩ := r.exists_at?_call oneLine
  have boundary : (r.before.getLast?.or none).any isWord = false := by
    rw [Option.or_none, Option.any_eq_false]
    simpa using r.boundary
  exact Occurrence.exists_findFrom boundary (Option.isSome_iff_exists.2 ⟨o, read⟩)

theorem isShortest_of_find? {r : Reading} {o : Occurrence} (oneLine : '\n' ∉ r.line)
    (found : Occurrence.find? r.line = some o) (before : r.before = o.before) :
    r.IsShortest r.line := by
  refine ⟨rfl, fun other same => ?_⟩
  obtain ⟨first, read, le⟩ := other.exists_find? (same ▸ oneLine)
  rw [same, found] at read
  cases read
  rwa [before]

end Reading

theorem accepts_iff_find? (line : Text) :
    Rule.printCall.accepts line = true ↔ ∃ o, Occurrence.find? line = some o := by
  simp [Rule.printCall, parse?, Option.isSome_iff_exists]

/-- **Which lines are print calls, and what is read from them.** A line is a print call
exactly when it can be read as one. There is then one reading with the shortest text in
front of the call, and its format and arguments are those of the call: none if a
parenthesis follows the format, and otherwise the text between the comma and the last
parenthesis of the line, split. -/
theorem print_lines_iff {line : Text} (oneLine : '\n' ∉ line) :
    (Rule.printCall.accepts line = true ↔ ∃ r : Reading, r.line = line) ∧
      (Rule.printCall.accepts line = true → ∃ r : Reading, r.IsShortest line ∧
        (∀ other : Reading, other.IsShortest line → other = r) ∧
        ∃ call, parse? line = some call ∧ r.Gives call) := by
  rw [accepts_iff_find?]
  refine ⟨⟨?_, ?_⟩, ?_⟩
  · rintro ⟨o, found⟩
    obtain ⟨r, spelled, -⟩ := Reading.exists_of_find? found
    exact ⟨r, spelled⟩
  · rintro ⟨r, rfl⟩
    obtain ⟨o, found, -⟩ := r.exists_find? oneLine
    exact ⟨o, found⟩
  · rintro ⟨o, found⟩
    obtain ⟨r, rfl, before, start⟩ := Reading.exists_of_find? found
    have shortest := Reading.isShortest_of_find? oneLine found before
    obtain ⟨same, read, gives⟩ := r.exists_at?_call oneLine
    rw [start] at read
    cases read
    refine ⟨r, shortest, fun other => shortest.unique, o.toCall, ?_, gives⟩
    rw [parse?, found, Option.map_some]

/-- A line with two print calls, behind a call of another function. -/
def crowdedLine : Text :=
  "sprintf(\"a\"); printf (\"%d\" , f(a), b); printf(\"c\")".toList

theorem print_lines_iff_crowdedLine :
    '\n' ∉ crowdedLine ∧ Rule.printCall.accepts crowdedLine = true ∧
      ∃ r : Reading, r.IsShortest crowdedLine ∧
        r.Gives { format := "%d".toList, args := ["f(a)".toList, "b); printf(\"c\"".toList] } := by
  have oneLine : '\n' ∉ crowdedLine := by decide
  have accepted : Rule.printCall.accepts crowdedLine = true := by decide
  obtain ⟨r, shortest, -, call, read, gives⟩ := (print_lines_iff oneLine).2 accepted
  have parsed : parse? crowdedLine = some
      { format := "%d".toList, args := ["f(a)".toList, "b); printf(\"c\"".toList] } := by decide
  rw [parsed] at read
  cases read
  exact ⟨oneLine, accepted, r, shortest, gives⟩

end Linewise.PrintCall
