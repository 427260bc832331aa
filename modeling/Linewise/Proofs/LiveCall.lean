/-
# Linewise.Proofs.LiveCall -- programs that run, and programs that only mention it

A program runs its entry point when one of its lines makes the call. A line that is a
comment, or the output of a print call, can hold the text of a call without making
it. A listing does not tell the two apart: it looks for the text of a call in every
line alike, and adds the call when it finds none.

Where a line makes the call, or no line holds its text, the program has a live call.
Where some lines hold the text and all of them are decoys, no call is made and none is
added. `hasLiveCall_iff` says this of every source, by what its lines are:

* a print call is a decoy when the inside of its literal holds the text of a call
  (`isIn_consoleLog`);
* a comment is kept as it is written, unless there is a print call in it, and no other
  line becomes one (`isComment_rendering_iff`).
-/
import Linewise.Proofs.EntryDetection
import Linewise.Proofs.LineByLine
import Linewise.Proofs.RulePriority

namespace Linewise

open Text

set_option autoImplicit false

/-! ## Comments -/

/-- Two slashes begin the line, blanks apart. -/
def isComment (line : Text) : Bool :=
  startsWith (trimStart line) "//".toList

theorem isComment_iff {line : Text} :
    isComment line = true ↔ ∃ rest, trimStart line = '/' :: '/' :: rest := by
  rw [isComment, startsWith, List.isPrefixOf_iff_prefix]
  constructor
  · rintro ⟨rest, eq⟩
    exact ⟨rest, eq.symm⟩
  · rintro ⟨rest, eq⟩
    exact ⟨rest, eq.symm⟩

theorem isComment_line (width : Nat) (p : Placed) :
    isComment (p.line width) = isComment p.text := by
  have blank : ∀ c ∈ List.replicate (p.depth * width) ' ', isBlank c = true := by
    intro c member
    rw [List.eq_of_mem_replicate member]
    decide
  rw [isComment, isComment, Placed.line, trimStart, List.dropWhile_append_of_pos blank, trimStart]

/-- A text that starts with neither a blank nor a slash is no comment. -/
theorem isComment_cons {c : Char} (notBlank : isBlank c = false) (notSlash : c ≠ '/') (t : Text) :
    isComment (c :: t) = false := by
  have whole : trimStart (c :: t) = c :: t := trimStart_append blanks_nil (stops_cons.2 notBlank)
  refine Bool.eq_false_iff.2 fun h => ?_
  obtain ⟨rest, eq⟩ := isComment_iff.1 h
  rw [whole] at eq
  exact notSlash (List.cons.inj eq).1

/-! ## What becomes of a comment -/

/-- A rule that accepts what it can read puts the rendering in the place of the line. -/
theorem Rule.replacing_of_isSome {α : Type} {parse? : Text → Option α} {f : α → Text} {line : Text}
    (read : (parse? line).isSome = true) : ∃ r, (replacing parse? f line).text = f r := by
  obtain ⟨r, eq⟩ := Option.isSome_iff_exists.1 read
  exact ⟨r, by rw [replacing, eq]; rfl⟩

theorem Opening.mark_of_isComment {line : Text} (comment : isComment line = true) :
    (ofLine line).mark = some '/' := by
  obtain ⟨rest, slashes⟩ := isComment_iff.1 comment
  have noWord : line.dropWhile isWord = line := by
    cases line with
    | nil => rfl
    | cons c line =>
        refine List.dropWhile_cons_of_neg fun word => ?_
        have notBlank := isBlank_eq_false_of_isWord word
        rw [trimStart, List.dropWhile_cons_of_neg (by simp [notBlank])] at slashes
        rw [(List.cons.inj slashes).1] at word
        exact absurd word (by decide)
  have behind : trimStart (line.dropWhile isWord) = '/' :: '/' :: rest := by rw [noWord, slashes]
  simp only [ofLine, behind]
  rfl

theorem LineKind.ofLine_of_isComment {line : Text} (comment : isComment line = true) :
    ofLine line ∈ unshaped := by
  have begins := Rule.begins_of_accepts (Rule.accepts_ofKind line)
  have mark := Opening.mark_of_isComment comment
  generalize ofLine line = kind at begins
  cases kind <;> simp_all [Begins, unshaped]

/-- The kinds whose lines are kept as they are written. -/
def LineKind.keeps (kind : LineKind) : Bool :=
  kind = .statement || kind = .passthrough

theorem LineKind.keeps_of_isComment {line : Text} (comment : isComment line = true)
    (notPrint : ofLine line ≠ .printCall) : (ofLine line).keeps = true := by
  have unshaped := ofLine_of_isComment comment
  generalize ofLine line = kind at notPrint unshaped
  cases kind <;> simp_all [LineKind.unshaped, keeps]

theorem Rule.render_of_keeps {kind : LineKind} (keeps : kind.keeps = true) (line : Text) :
    ((ofKind kind).render line).text = line := by
  cases kind <;> first | rfl | cases keeps

/-- No rule that rewrites its line makes a comment of it. -/
theorem Rule.isComment_render {kind : LineKind} {line : Text} (rewrites : kind.keeps = false)
    (accepted : (ofKind kind).accepts line = true) :
    isComment ((ofKind kind).render line).text = false := by
  cases kind with
  | entryPoint => exact isComment_cons (by decide) (by decide) _
  | functionSignature =>
      obtain ⟨s, text⟩ := replacing_of_isSome (f := Signature.render)
        (Signature.isSome_parse?_of_accepts accepted)
      exact text ▸ isComment_cons (by decide) (by decide) _
  | blockOpen => exact isComment_cons (by decide) (by decide) _
  | initDeclaration =>
      obtain ⟨d, text⟩ := replacing_of_isSome (f := InitDeclaration.render) accepted
      exact text ▸ isComment_cons (by decide) (by decide) _
  | plainDeclaration =>
      obtain ⟨d, text⟩ := replacing_of_isSome (f := PlainDeclaration.render) accepted
      exact text ▸ isComment_cons (by decide) (by decide) _
  | printCall =>
      obtain ⟨call, read⟩ := Option.isSome_iff_exists.1 accepted
      have text : ((ofKind .printCall).render line).text = call.consoleLog := by
        simp only [ofKind, printCall, read]
      exact text ▸ isComment_cons (by decide) (by decide) _
  | blockClose => exact isComment_cons (by decide) (by decide) _
  | loopHeader =>
      obtain ⟨h, text⟩ := replacing_of_isSome (f := LoopHeader.render) accepted
      exact text ▸ isComment_cons (by decide) (by decide) _
  | statement => cases rewrites
  | passthrough => cases rewrites

/-- A comment stays one, as it is written, unless a print call stands in it; and no other
line becomes a comment. -/
theorem isComment_rendering_iff (line : Text) :
    isComment (Rendering.ofLine line).text = true ↔
      isComment line = true ∧ LineKind.ofLine line ≠ .printCall := by
  rw [Rendering.ofLine_eq_render]
  cases keeps : (LineKind.ofLine line).keeps with
  | true =>
      rw [Rule.render_of_keeps keeps]
      refine ⟨fun comment => ⟨comment, fun print => ?_⟩, And.left⟩
      rw [print] at keeps
      cases keeps
  | false =>
      rw [Rule.isComment_render keeps (Rule.accepts_ofKind line)]
      refine ⟨fun h => absurd h (by decide), fun ⟨comment, notPrint⟩ => ?_⟩
      rw [LineKind.keeps_of_isComment comment notPrint] at keeps
      cases keeps

/-! ## What is printed -/

namespace EntryCall

theorem IsCall.not_mem {call : Text} (isCall : IsCall call) {c : Char}
    (notBlank : isBlank c = false) (other : c ∉ "main();".toList) : c ∉ call := by
  obtain ⟨space, inner, trail, rfl, spaceBlank, innerBlank, trailBlank⟩ := isCall
  have outside : ∀ {gap : Text}, Blanks gap → c ∉ gap := by
    intro gap blank member
    rw [blank c member] at notBlank
    cases notBlank
  simp only [String.reduceToList, List.mem_cons, List.not_mem_nil, or_false, not_or] at other
  simp only [String.reduceToList, List.mem_append, List.mem_cons, List.not_mem_nil, or_false,
    not_or]
  obtain ⟨m, a, i, n, opening, closing, semicolon⟩ := other
  exact ⟨⟨m, a, i, n⟩, outside spaceBlank, opening, outside innerBlank, closing,
    outside trailBlank, semicolon⟩

/-- A call does not reach beyond a backtick. -/
theorem isIn_of_isIn_append_tick {t behind : Text} (calls : isIn (t ++ '\x60' :: behind) = true)
    (noName : 'm' ∉ behind) : isIn t = true := by
  obtain ⟨lead, call, rest, eq, boundary, isCall⟩ := isIn_iff.1 calls
  obtain ⟨more, head⟩ := isCall.head
  have noTick : '\x60' ∉ call := isCall.not_mem (by decide) (by decide)
  rw [← List.append_assoc] at eq
  rcases List.append_eq_append_iff.1 eq with ⟨w, whole, tail⟩ | ⟨w, rfl, -⟩
  · -- the text ends inside `lead ++ call`, so the backtick is in one of the two
    cases w with
    | nil =>
        rw [List.append_nil] at whole
        exact isIn_iff.2 ⟨lead, call, [], by simp [whole], boundary, isCall⟩
    | cons c w =>
        obtain ⟨rfl, rfl⟩ := List.cons.inj tail
        rcases List.append_eq_append_iff.1 whole with ⟨v, rfl, inCall⟩ | ⟨v, rfl, later⟩
        · exact absurd (inCall ▸ by simp : '\x60' ∈ call) noTick
        · cases v with
          | nil =>
              rw [head] at later
              exact absurd (List.cons.inj later).1 (by decide)
          | cons d v =>
              obtain ⟨-, rfl⟩ := List.cons.inj later
              exact absurd (by simp [head]) noName
  · exact isIn_iff.2 ⟨lead, call, w, by simp, boundary, isCall⟩

theorem isIn_consoleLog (p : PrintCall) : isIn p.consoleLog = isIn p.interpolate := by
  have parts : p.consoleLog = "console.log(\x60".toList ++ (p.interpolate ++ "\x60);".toList) := by
    unfold PrintCall.consoleLog
    exact List.append_assoc _ _ _
  have ends : Boundary "console.log(\x60".toList := by
    simp only [Boundary, String.reduceToList, List.getLast?_cons_cons, List.getLast?_singleton,
      Option.mem_def, Option.some.injEq]
    rintro c rfl
    decide
  rw [parts, isIn_append_left ends (by decide), Bool.eq_iff_iff]
  constructor
  · exact fun calls => isIn_of_isIn_append_tick calls (by decide)
  · intro calls
    have start : Boundary [] := by simp [Boundary]
    exact isIn_between start calls _

end EntryCall

/-! ## The lines of a source -/

/-- The texts of the lines that count. -/
def keptLines (source : Text) : List Text :=
  (SourceLine.ofSource source).map SourceLine.text

/-- The line becomes one that calls the entry point. -/
def MakesCall (line : Text) : Prop :=
  EntryCall.isIn (Rendering.ofLine line).text = true ∧ LineKind.ofLine line ≠ .printCall ∧
    isComment line = false

instance (line : Text) : Decidable (MakesCall line) :=
  inferInstanceAs (Decidable (_ ∧ _ ∧ _))

/-- The line holds the text of a call that is only printed, or left in a comment. -/
def IsDecoy (line : Text) : Prop :=
  (LineKind.ofLine line = .printCall ∧
      ∃ call, PrintCall.parse? line = some call ∧ EntryCall.isIn call.interpolate = true) ∨
    (LineKind.ofLine line ≠ .printCall ∧ isComment line = true ∧ EntryCall.isIn line = true)

theorem rendering_of_comment {line : Text} (comment : isComment line = true)
    (notPrint : LineKind.ofLine line ≠ .printCall) : (Rendering.ofLine line).text = line := by
  have keeps := LineKind.keeps_of_isComment comment notPrint
  rw [Rendering.ofLine_eq_render, Rule.render_of_keeps keeps]

/-- Every text of a call is one that makes it, or a decoy. -/
theorem isIn_rendering_iff (line : Text) :
    EntryCall.isIn (Rendering.ofLine line).text = true ↔ MakesCall line ∨ IsDecoy line := by
  unfold MakesCall IsDecoy
  by_cases print : LineKind.ofLine line = .printCall
  · obtain ⟨call, read, text⟩ := Rendering.of_printCall print
    simp [print, read, text, EntryCall.isIn_consoleLog]
  · cases comment : isComment line with
    | true => simp [print, rendering_of_comment comment print]
    | false => simp [print]

/-! ## The lines of a program -/

/-- Some line of the program holds a call, is no comment, and does not come from a print
call of the source. -/
def HasLiveCall (source program : Text) : Prop :=
  ∃ (i : Nat) (line : Text), (program.splitOn '\n')[i]? = some line ∧ EntryCall.isIn line = true ∧
    isComment line = false ∧ (keptLines source)[i]?.map LineKind.ofLine ≠ some .printCall

section Compiled

variable (width : Nat) {source : Text}

/-- What is found in a line whatever its indentation is found in the rendering of the line
that it comes from. -/
theorem map_lines {α : Type} (source : Text) (f : Text → α)
    (ignores : ∀ p : Placed, f (p.line width) = f p.text) :
    ((place 0 (renderings source)).map (Placed.line width)).map f =
      (keptLines source).map fun line => f (Rendering.ofLine line).text := by
  have texts := congrArg (List.map f) (map_text_place 0 (renderings source))
  rw [List.map_map, List.map_map] at texts
  rw [List.map_map]
  calc (place 0 (renderings source)).map (f ∘ Placed.line width)
      = (place 0 (renderings source)).map (f ∘ Placed.text) := by
        exact List.map_congr_left fun p _ => ignores p
    _ = (renderings source).map (f ∘ Rendering.text) := texts
    _ = (keptLines source).map fun line => f (Rendering.ofLine line).text := by
        rw [renderings, List.map_map]
        rfl

theorem any_isIn_iff :
    (place 0 (renderings source)).any (EntryCall.isIn ·.text) = true ↔
      ∃ line ∈ keptLines source, MakesCall line ∨ IsDecoy line := by
  rw [any_place]
  simp [renderings, keptLines, isIn_rendering_iff]

/-- Line `i` of the program holds what the rendering of line `i` of the source holds. -/
theorem getElem?_programLines {i : Nat} {line : Text} (kept : (keptLines source)[i]? = some line) :
    ∃ rendered, (programLines width (place 0 (renderings source)))[i]? = some rendered ∧
      EntryCall.isIn rendered = EntryCall.isIn (Rendering.ofLine line).text ∧
      isComment rendered = isComment (Rendering.ofLine line).text := by
  have facts := congrArg (·[i]?) (map_lines width source (fun t => (EntryCall.isIn t, isComment t))
    fun p => by rw [EntryCall.isIn_line, isComment_line])
  simp only [List.getElem?_map, kept, Option.map_some] at facts
  obtain ⟨p, placed, same⟩ := Option.map_eq_some_iff.1 facts
  obtain ⟨calls, comment⟩ := Prod.mk.inj same
  obtain ⟨rendered, found, rfl⟩ := Option.map_eq_some_iff.1 placed
  refine ⟨_, ?_, calls, comment⟩
  rw [programLines, List.getElem?_append_left]
  · rw [List.getElem?_map, found]
    rfl
  · have inside := (List.getElem?_eq_some_iff.1 found).1
    simpa using inside

theorem length_place : (place 0 (renderings source)).length = (keptLines source).length := by
  have := congrArg List.length (map_text_place 0 (renderings source))
  simpa [renderings, keptLines] using this

theorem hasLiveCall_of_makesCall {line : Text} (member : line ∈ keptLines source)
    (makes : MakesCall line) :
    HasLiveCall source (programText width (place 0 (renderings source))) := by
  obtain ⟨calls, notPrint, notComment⟩ := makes
  obtain ⟨i, kept⟩ := List.getElem?_of_mem member
  obtain ⟨rendered, found, same, comment⟩ := getElem?_programLines width kept
  refine ⟨i, rendered, ?_, same.trans calls, ?_, by simpa [kept] using notPrint⟩
  · rw [splitOn_programText]
    exact List.getElem?_append_left (List.getElem?_eq_some_iff.1 found).1 |>.trans found
  · rw [comment]
    refine Bool.eq_false_iff.2 fun h => ?_
    rw [((isComment_rendering_iff line).1 h).1] at notComment
    cases notComment

theorem hasLiveCall_of_added
    (callFree : (place 0 (renderings source)).any (EntryCall.isIn ·.text) = false) :
    HasLiveCall source (programText width (place 0 (renderings source))) := by
  refine ⟨(keptLines source).length + 1, "main();".toList, ?_, by decide, by decide, by simp⟩
  rw [splitOn_programText, programLines, callFree]
  simp [← length_place]

theorem makesCall_or_added_of_hasLiveCall
    (live : HasLiveCall source (programText width (place 0 (renderings source)))) :
    (∃ line ∈ keptLines source, MakesCall line) ∨
      (place 0 (renderings source)).any (EntryCall.isIn ·.text) = false := by
  obtain ⟨i, rendered, found, calls, notComment, notPrint⟩ := live
  rw [splitOn_programText] at found
  cases kept : (keptLines source)[i]? with
  | some line =>
      obtain ⟨same, atSame, sameCalls, sameComment⟩ := getElem?_programLines width kept
      have inside := (List.getElem?_eq_some_iff.1 atSame).1
      rw [List.getElem?_append_left inside, atSame] at found
      obtain rfl := Option.some.inj found
      refine .inl ⟨line, List.mem_of_getElem? kept, sameCalls.symm.trans calls, ?_, ?_⟩
      · simpa [kept] using notPrint
      · refine Bool.eq_false_iff.2 fun comment => ?_
        have := (isComment_rendering_iff line).2 ⟨comment, by simpa [kept] using notPrint⟩
        rw [← sameComment, notComment] at this
        cases this
  | none =>
      -- the line comes behind those of the source, where only an added one holds a call
      refine .inr (Bool.eq_false_iff.2 fun any => ?_)
      have beyond : (keptLines source).length ≤ i := List.getElem?_eq_none_iff.1 kept
      rw [programLines, any, if_pos rfl, List.append_nil, List.getElem?_append_right
        (by simpa [length_place] using beyond)] at found
      have empty : rendered = [] := by
        have := List.mem_of_getElem? found
        simpa using this
      rw [empty] at calls
      cases calls

/-- **When a program runs its entry point.** Every program has a live call, unless some
line of its source is a decoy and no line makes the call; and then nothing is added to
the lines of the source. -/
theorem hasLiveCall_iff {compilation : Compilation}
    (compiled : compile width source = .ok compilation) :
    (HasLiveCall source compilation.program ↔
      (∃ line ∈ keptLines source, MakesCall line) ∨ ∀ line ∈ keptLines source, ¬ IsDecoy line) ∧
    (¬ HasLiveCall source compilation.program →
      compilation.program.count '\n' = (keptLines source).length) := by
  obtain ⟨-, rfl⟩ := compile_eq_ok_iff.1 compiled
  constructor
  · constructor
    · intro live
      rcases makesCall_or_added_of_hasLiveCall width live with makes | silent
      · exact .inl makes
      · refine .inr fun line member decoy => ?_
        rw [any_isIn_iff.2 ⟨line, member, .inr decoy⟩] at silent
        cases silent
    · rintro (⟨line, member, makes⟩ | noDecoy)
      · exact hasLiveCall_of_makesCall width member makes
      · by_cases any : (place 0 (renderings source)).any (EntryCall.isIn ·.text) = true
        · obtain ⟨line, member, makes | decoy⟩ := any_isIn_iff.1 any
          · exact hasLiveCall_of_makesCall width member makes
          · exact absurd decoy (noDecoy line member)
        · exact hasLiveCall_of_added width (Bool.eq_false_iff.2 any)
  · intro dead
    have any : (place 0 (renderings source)).any (EntryCall.isIn ·.text) = true :=
      eq_true_of_ne_false fun callFree => dead (hasLiveCall_of_added width callFree)
    have oneLine : ∀ p ∈ place 0 (renderings source), '\n' ∉ p.text :=
      fun p => oneLine_of_mem_place
    rw [count_programText width oneLine, any, if_pos rfl, length_place, Nat.add_zero]

/-- An entry point with a comment that mentions its call. -/
def commentedCall : Text :=
  "int main() \x7b\n// main();\n\x7d".toList

/-- Behind the comment a line makes the call. -/
theorem hasLiveCall_behind_commentedCall :
    ∃ compilation, compile 4 (commentedCall ++ "\nmain ();".toList) = .ok compilation ∧
      HasLiveCall (commentedCall ++ "\nmain ();".toList) compilation.program := by
  refine ⟨⟨"function main() \x7b\n    // main();\n\x7d\nmain ();\n".toList, []⟩, by decide, ?_⟩
  refine (hasLiveCall_iff 4 (by decide)).1.2 (.inl ⟨"main ();".toList, ?_, ?_⟩)
  · decide
  · decide

/-- The source has an entry point, and its program has no call but in the comment. -/
theorem no_live_call_of_commentedCall :
    LineKind.entryPoint ∈ (keptLines commentedCall).map LineKind.ofLine ∧
      compile 4 commentedCall =
        .ok { program := "function main() \x7b\n    // main();\n\x7d\n".toList, shortages := [] } ∧
      ¬ HasLiveCall commentedCall "function main() \x7b\n    // main();\n\x7d\n".toList := by
  refine ⟨by decide, by decide, fun live => ?_⟩
  have program : "function main() \x7b\n    // main();\n\x7d\n".toList =
      programText 4 (place 0 (renderings commentedCall)) := by
    decide
  rw [program] at live
  rcases makesCall_or_added_of_hasLiveCall 4 live with makes | silent
  · revert makes
    decide
  · revert silent
    decide

end Compiled

end Linewise
