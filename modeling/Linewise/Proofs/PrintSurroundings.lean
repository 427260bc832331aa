/-
# Linewise.Proofs.PrintSurroundings -- what stands around a print call

A print call may have text in front of it and behind it on its line: a condition, a
comment marker, a second statement. The call should be replaced where it stands
(`Occurrence.spliced`).

The rule for print calls puts the `console.log` statement in the place of the whole
line, so it keeps a line exactly when there is nothing but the call and its semicolon
(`keeps_surroundings_iff`). The call is the first match of its pattern, and its ends
are counted in bytes (`Occurrence.IsFirstIn`).
-/
import Linewise.Pattern
import Linewise.Proofs.PrintShape
import Linewise.Proofs.RulePriority

namespace Linewise.PrintCall

open Text

set_option autoImplicit false

namespace Occurrence

/-! ## The call in its line -/

theorem spelling_eq_call (o : Occurrence) : o.spelling = o.before ++ (o.call ++ o.after) := by
  obtain ⟨before, space, format, gap, arguments, after⟩ := o
  unfold spelling call opening
  cases arguments with
  | none => simp [ending, middle, argumentText]
  | some a => simp [ending, middle, argumentText]

/-- The text is cut at the ends of the call, and the call is the first match of its
pattern there. -/
structure IsFirstIn (o : Occurrence) (t : Text) : Prop where
  cut : t = o.before ++ (o.call ++ o.after)
  found : ∃ parts, (Pattern.printCall.allMatches t).head? = some (
    some { start := byteLength o.before, stop := byteLength o.before + byteLength o.call
           text := o.call } :: parts)

/-- The call that may start here, behind a given character. -/
def here? (previous : Option Char) (t : Text) : Option Occurrence :=
  if previous.any isWord then none else at? t

theorem before_of_here? {previous : Option Char} {t : Text} {o : Occurrence}
    (read : here? previous t = some o) : o.before = [] := by
  unfold here? at read
  split at read
  · cases read
  · exact (at?_sound read).1

theorem matchAt_eq (previous : Option Char) (t : Text) :
    Pattern.printCall.matchAt previous t = (here? previous t).map Match.ofPrintCall := by
  unfold here?
  simp only [Pattern.matchAt]
  split <;> rfl

theorem findFrom_cons (previous : Option Char) (c : Char) (rest : Text) :
    findFrom (!previous.any isWord) (c :: rest) =
      (here? previous (c :: rest)).or ((findFrom (!isWord c) rest).map fun o =>
        { o with before := c :: o.before }) := by
  rw [findFrom, here?]
  cases previous.any isWord with
  | true => rfl
  | false =>
      simp only [Bool.not_false, if_true, Bool.false_eq_true, if_false]
      cases at? (c :: rest) <;> rfl

/-- The matches of the pattern start with the leftmost call. -/
theorem head?_matchesFrom (offset : Nat) (previous : Option Char) (t : Text) :
    (Pattern.printCall.matchesFrom offset previous 0 t).head? =
      (findFrom (!previous.any isWord) t).map fun o =>
        (Match.ofPrintCall o).spans (offset + byteLength o.before) := by
  induction t generalizing offset previous with
  | nil => rfl
  | cons c rest ih =>
      rw [Pattern.matchesFrom, matchAt_eq, findFrom_cons]
      cases read : here? previous (c :: rest) with
      | some o =>
          simp [before_of_here? read, byteLength]
      | none =>
          have later := ih (offset + c.utf8Size) (some c)
          simp only [Option.map_none, Option.none_or, Option.map_map]
          rw [later]
          simp [Function.comp_def, byteLength, Nat.add_assoc]
          rfl

theorem isFirstIn_of_find? {t : Text} {o : Occurrence} (found : find? t = some o) :
    o.IsFirstIn t := by
  constructor
  · rw [(spelling_of_find? found).1, spelling_eq_call]
  · have first := head?_matchesFrom 0 none t
    have start : findFrom (!(none : Option Char).any isWord) t = some o := found
    rw [start, Option.map_some, Nat.zero_add] at first
    exact ⟨_, first⟩

/-! ## The line with the call replaced -/

/-- What stands behind the call, less one semicolon. -/
def remainder (o : Occurrence) : Text :=
  match o.after with
  | ';' :: rest => rest
  | rest => rest

/-- The line with the `console.log` statement in the place of the call. -/
def spliced (o : Occurrence) : Text :=
  o.before ++ (o.toCall.consoleLog ++ o.remainder)

theorem remainder_eq_nil_iff (o : Occurrence) :
    o.remainder = [] ↔ o.after = [] ∨ o.after = [';'] := by
  unfold remainder
  split
  · rename_i rest eq
    simp [eq]
  · rename_i other
    constructor
    · exact .inl
    · rintro (empty | semicolon)
      · exact empty
      · exact absurd semicolon (other [])

theorem consoleLog_eq_spliced_iff (o : Occurrence) :
    o.toCall.consoleLog = o.spliced ↔ o.before = [] ∧ o.remainder = [] := by
  constructor
  · intro same
    have length := congrArg List.length same
    simp only [spliced, List.length_append] at length
    exact ⟨List.length_eq_zero_iff.1 (by omega), List.length_eq_zero_iff.1 (by omega)⟩
  · rintro ⟨before, after⟩
    rw [spliced, before, after, List.nil_append, List.append_nil]

end Occurrence

open Occurrence

/-- **When a print call keeps the rest of its line.** A line that is read as a print call
becomes the statement for its first call and nothing else. That is the line with the
call replaced where it stands exactly when nothing stands in front of the call and at
most a semicolon behind it. -/
theorem keeps_surroundings_iff {line : Text} (print : LineKind.ofLine line = .printCall)
    (depth : Nat) :
    ∃ o : Occurrence, o.IsFirstIn line ∧ parse? line = some o.toCall ∧
      Step.ofLine depth line =
        .ok { kind := .printCall, text := o.toCall.consoleLog, renderDepth := depth
              nextDepth := depth, shortage := o.toCall.shortage? } ∧
      (o.toCall.consoleLog = o.spliced ↔ o.before = [] ∧ (o.after = [] ∨ o.after = [';'])) := by
  obtain ⟨call, read, rendering⟩ := Rendering.of_printCall print
  obtain ⟨o, found, rfl⟩ := Option.map_eq_some_iff.1 read
  refine ⟨o, isFirstIn_of_find? found, read, Step.ofLine_eq_ok_iff.2 ⟨by simp [rendering], ?_⟩, ?_⟩
  · simp only [Step.unbounded, print, rendering]
    rfl
  · rw [consoleLog_eq_spliced_iff, remainder_eq_nil_iff]

/-- A call behind a condition, with a comment behind it. -/
def guardedCall : Text :=
  "if (n > 0) printf(\"%d\", n); // sign".toList

theorem keeps_surroundings_iff_guardedCall :
    LineKind.ofLine guardedCall = .printCall ∧
      ∃ o : Occurrence, o.IsFirstIn guardedCall ∧ byteLength o.before = 11 ∧
        o.toCall.consoleLog ≠ o.spliced := by
  have print : LineKind.ofLine guardedCall = .printCall := by decide
  obtain ⟨o, first, -, -, kept⟩ := keeps_surroundings_iff print 0
  obtain ⟨parts, found⟩ := first.found
  have start : byteLength o.before = 11 := by
    have spans : (Pattern.printCall.allMatches guardedCall).head?.bind List.head? =
        some (some ⟨11, 26, "printf(\"%d\", n)".toList⟩) := by decide
    rw [found, Option.bind_some, List.head?_cons] at spans
    exact congrArg Span.start (Option.some.inj (Option.some.inj spans))
  refine ⟨print, o, first, start, fun same => ?_⟩
  rw [(kept.1 same).1] at start
  cases start

/-- The condition and the comment are lost. -/
theorem guardedCall_loses_surroundings :
    ∃ o : Occurrence, o.IsFirstIn guardedCall ∧
      o.spliced = "if (n > 0) console.log(\x60$\x7bn\x7d\x60); // sign".toList ∧
      Step.ofLine 0 guardedCall =
        .ok { kind := .printCall, text := "console.log(\x60$\x7bn\x7d\x60);".toList
              renderDepth := 0, nextDepth := 0, shortage := none } := by
  let o : Occurrence :=
    { before := "if (n > 0) ".toList, space := [], format := "%d".toList, gap := []
      arguments := some ⟨[' '], ['n']⟩, after := "; // sign".toList }
  have found : find? guardedCall = some o := by decide
  exact ⟨o, isFirstIn_of_find? found, by decide, rfl⟩

end Linewise.PrintCall
