/-
# Linewise.Proofs.LineByLine -- a program line by line

The structure of every program, whether or not the braces of its source
balance. Line `i` of the source that counts becomes line `i` of the program: the
text that the first accepting rule gives it, behind an indentation that the
reflected walk of the depth determines (`closedForm`).

That lines stay lines is the first half. A rule rearranges the characters of
its line and adds some of its own, and none of those is a line feed
(`Rule.oneLine_render`); so a line of the program ends where the pass ends it,
and the line feeds of a program count its lines (`count_closedForm`).
-/
import Linewise.Proofs.DepthWalk
import Linewise.Proofs.EntryDetection
import Linewise.Proofs.Placeholders
import Linewise.Proofs.PrintShape
import Linewise.Proofs.Words

namespace Linewise

open Text

set_option autoImplicit false

/-! ## Pieces hold nothing new -/

theorem mem_of_mem_reduceParameters {parameters : Text} {c : Char}
    (h : c ∈ reduceParameters parameters) : c ∈ ", ".toList ∨ c ∈ parameters := by
  rcases mem_of_mem_join h with inSeparator | ⟨name, member, inName⟩
  · exact .inl inSeparator
  · obtain ⟨parameter, inList, reduced⟩ := List.mem_filterMap.1 member
    unfold reduceParameter at reduced
    simp only at reduced
    split at reduced
    · cases reduced
    · exact .inr (mem_of_mem_splitOn inList
        (mem_of_mem_words (List.mem_of_getLast? reduced) inName))

theorem Arguments.mem_of_mem_split {t argument : Text} {c : Char}
    (member : argument ∈ Arguments.split t) (h : c ∈ argument) : c ∈ t := by
  unfold Arguments.split at member
  simp only at member
  split at member
  · cases member
  · obtain ⟨piece, inPieces, rfl⟩ := List.mem_map.1 member
    have := mem_join_of_mem [','] inPieces (mem_of_mem_trim h)
    rwa [Arguments.join_pieces] at this

/-! ## Rules keep lines -/

namespace PrintCall

theorem mem_of_mem_stripNewline {format : Text} {c : Char} (h : c ∈ stripNewline format) :
    c ∈ format := by
  rcases stripNewline_cases format with same | newline
  · rwa [same] at h
  · rw [newline]
    exact List.mem_append_left _ h

theorem oneLine_escape {t : Text} (oneLine : '\n' ∉ t) : '\n' ∉ escape t := by
  induction t with
  | nil => exact List.not_mem_nil
  | cons c rest ih =>
      rw [List.mem_cons, not_or] at oneLine
      have inMark : '\n' ∉ mark c rest.head? := by
        unfold mark
        split <;> decide
      rw [escape_cons, List.mem_append, List.mem_cons, not_or, not_or]
      exact ⟨inMark, oneLine.1, ih oneLine.2⟩

theorem oneLine_interpolation {argument : Text} (oneLine : '\n' ∉ argument) :
    '\n' ∉ interpolation argument := by
  simp [interpolation, oneLine]

theorem oneLine_substitute {args : List Text} {t : Text} (oneLine : '\n' ∉ t)
    (argsOneLine : ∀ a ∈ args, '\n' ∉ a) : '\n' ∉ substitute args t := by
  have head : ∀ args : List Text, (∀ a ∈ args, '\n' ∉ a) → '\n' ∉ args.head?.getD undefined := by
    intro args all
    cases args with
    | nil => decide
    | cons a args => exact all a (by simp)
  fun_induction substitute args t with
  | case1 args kind rest isKind ih =>
      rw [List.mem_append, not_or]
      refine ⟨oneLine_interpolation (head args argsOneLine), ih ?_ ?_⟩
      · exact fun h => oneLine (by simp [h])
      · exact fun a h => argsOneLine a (List.mem_of_mem_tail h)
  | case2 args kind rest isKind ih =>
      have := ih (fun h => oneLine (List.mem_cons_of_mem _ h)) argsOneLine
      simpa using this
  | case3 args c rest _ ih =>
      rw [List.mem_cons, not_or] at oneLine ⊢
      exact ⟨oneLine.1, ih oneLine.2 argsOneLine⟩
  | case4 => simp

theorem oneLine_consoleLog {call : PrintCall} (format : '\n' ∉ call.format)
    (args : ∀ a ∈ call.args, '\n' ∉ a) : '\n' ∉ call.consoleLog := by
  have inside : '\n' ∉ call.interpolate :=
    oneLine_substitute (oneLine_escape fun h => format (mem_of_mem_stripNewline h)) args
  unfold consoleLog
  simp only [List.mem_append, not_or]
  exact ⟨⟨by decide, inside⟩, by decide⟩

theorem oneLine_of_parse? {line : Text} {call : PrintCall} (oneLine : '\n' ∉ line)
    (read : parse? line = some call) :
    '\n' ∉ call.format ∧ ∀ a ∈ call.args, '\n' ∉ a := by
  obtain ⟨o, found, rfl⟩ := Option.map_eq_some_iff.1 read
  obtain ⟨rfl, wf⟩ := Occurrence.spelling_of_find? found
  simp only [Occurrence.spelling, List.mem_append, not_or] at oneLine
  refine ⟨oneLine.2.2.2.2.1, ?_⟩
  unfold Occurrence.toCall
  cases arguments : o.arguments with
  | none => simp
  | some a =>
      intro argument member h
      exact (wf.arguments a arguments).1.oneLine (Arguments.mem_of_mem_split member h)

end PrintCall

namespace Rule

theorem oneLine_replacing {α : Type} {parse? : Text → Option α} {f : α → Text} {line : Text}
    (oneLine : '\n' ∉ line) (keeps : ∀ r, parse? line = some r → '\n' ∉ f r) :
    '\n' ∉ (replacing parse? f line).text := by
  unfold replacing
  cases read : parse? line with
  | none => exact oneLine
  | some r => exact keeps r read

/-- No rule breaks a line. -/
theorem oneLine_render {rule : Rule} (member : rule ∈ all) {line : Text} (oneLine : '\n' ∉ line) :
    '\n' ∉ (rule.render line).text := by
  simp only [all, List.mem_cons, List.not_mem_nil, or_false] at member
  rcases member with rfl | rfl | rfl | rfl | rfl | rfl | rfl | rfl | rfl | rfl
  · simp only [entryPoint]
    decide
  · refine oneLine_replacing oneLine fun s read => ?_
    obtain ⟨rfl, wf⟩ := Signature.parse?_eq_some_iff.1 read
    have reduced : '\n' ∉ reduceParameters s.params := fun h =>
      wf.params ((mem_of_mem_reduceParameters h).resolve_left (by decide))
    simp only [Signature.spelling, List.mem_append, List.mem_cons, not_or] at oneLine
    obtain ⟨-, -, name, -, -, -, -, rest⟩ := oneLine
    unfold Signature.render
    simp only [List.mem_append, List.mem_cons, not_or]
    exact ⟨⟨⟨by decide, name⟩, by decide, reduced⟩, by decide, rest⟩
  · simp only [blockOpen]
    decide
  · refine oneLine_replacing oneLine fun d read => ?_
    obtain ⟨rfl, wf⟩ := InitDeclaration.parse?_eq_some_iff.1 read
    simp only [InitDeclaration.spelling, List.mem_append, List.mem_cons, not_or] at oneLine
    obtain ⟨-, name, space, -, value, -⟩ := oneLine
    simp only [InitDeclaration.render, InitDeclaration.binding, List.mem_append, List.mem_cons,
      not_or]
    exact ⟨by decide, by decide, ⟨name, space⟩, by decide, value⟩
  · refine oneLine_replacing oneLine fun d read => ?_
    obtain ⟨rfl, wf⟩ := PlainDeclaration.parse?_eq_some_iff.1 read
    simp only [PlainDeclaration.spelling, List.mem_append, List.mem_cons, not_or] at oneLine
    obtain ⟨-, name, -, rest⟩ := oneLine
    simp only [PlainDeclaration.render, List.mem_append, List.mem_cons, not_or]
    exact ⟨⟨by decide, by decide, name⟩, by decide, rest⟩
  · simp only [printCall]
    split
    · rename_i call read
      obtain ⟨format, args⟩ := PrintCall.oneLine_of_parse? oneLine read
      exact PrintCall.oneLine_consoleLog format args
    · exact oneLine
  · simp only [blockClose]
    decide
  · exact oneLine
  · refine oneLine_replacing oneLine fun h read => ?_
    obtain ⟨rfl, wf⟩ := LoopHeader.parse?_eq_some_iff.1 read
    simp only [LoopHeader.spelling, List.mem_append, List.mem_cons, not_or] at oneLine
    obtain ⟨loop, space, -, inner, ⟨-, gap⟩, rest⟩ := oneLine
    simp only [LoopHeader.render, LoopHeader.opening, List.mem_append, List.mem_cons, not_or]
    exact ⟨⟨⟨⟨⟨loop, space⟩, by decide, inner⟩, by decide⟩, gap⟩, rest⟩
  · exact oneLine

end Rule

theorem oneLine_of_mem_renderings {source : Text} {r : Rendering}
    (member : r ∈ renderings source) : '\n' ∉ r.text := by
  obtain ⟨line, kept, rfl⟩ := List.mem_map.1 member
  exact Rule.oneLine_render (Rule.select_mem line) (SourceLine.not_mem_of_mem_ofSource kept)

/-! ## The closed form -/

/-- The program of a sequence of renderings, from the reflected walk. -/
def closedForm (width : Nat) (rs : List Rendering) : Text :=
  (rs.mapIdx fun i r =>
    List.replicate ((lineDepth (rs.map Rendering.change) i).toNat * width) ' ' ++ r.text ++
      ['\n']).flatten ++
    if rs.any (EntryCall.isIn ·.text) then [] else "\nmain();\n".toList

/-- What the lines of a source that count do to the depth. -/
def changes (source : Text) : List DepthChange :=
  (renderings source).map Rendering.change

theorem map_text_place (depth : Nat) (rs : List Rendering) :
    (place depth rs).map Placed.text = rs.map Rendering.text := by
  induction rs generalizing depth with
  | nil => rfl
  | cons r rest ih => rw [place, List.map_cons, List.map_cons, ih]

theorem any_place (depth : Nat) (rs : List Rendering) (p : Text → Bool) :
    (place depth rs).any (fun placed => p placed.text) = rs.any (fun r => p r.text) := by
  have := congrArg (List.any · p) (map_text_place depth rs)
  simpa [List.any_map, Function.comp_def] using this

theorem programText_place (width : Nat) (rs : List Rendering) :
    programText width (place 0 rs) = closedForm width rs := by
  unfold programText closedForm
  rw [any_place, place_eq_mapIdx, List.flatMap_def, List.mapIdx_eq_zipIdx_map,
    List.mapIdx_eq_zipIdx_map, List.map_map]
  rfl

/-! ## The lines of a program -/

theorem splitOn_joined {lines : List Text} (oneLine : ∀ line ∈ lines, '\n' ∉ line) :
    (EntryCall.joined lines).splitOn '\n' = lines ++ [[]] := by
  induction lines with
  | nil => rfl
  | cons line rest ih =>
      rw [List.forall_mem_cons] at oneLine
      rw [EntryCall.joined_cons, List.splitOn_append_cons_self_of_not_mem oneLine.1,
        ih oneLine.2, List.cons_append]

/-- The lines of the program of placed texts, with the two that may be added. -/
def programLines (width : Nat) (texts : List Placed) : List Text :=
  texts.map (Placed.line width) ++
    if texts.any (EntryCall.isIn ·.text) then [] else [[], "main();".toList]

theorem programText_eq_joined (width : Nat) (texts : List Placed) :
    programText width texts = EntryCall.joined (programLines width texts) := by
  rw [programText, programLines, EntryCall.joined_append, EntryCall.joined, List.flatMap_map]
  congr 1
  split <;> rfl

theorem oneLine_of_mem_place {source : Text} {p : Placed}
    (placed : p ∈ place 0 (renderings source)) : '\n' ∉ p.text := by
  have inTexts : p.text ∈ (renderings source).map Rendering.text :=
    map_text_place 0 (renderings source) ▸ List.mem_map_of_mem placed
  obtain ⟨r, rendered, same⟩ := List.mem_map.1 inTexts
  exact same ▸ oneLine_of_mem_renderings rendered

theorem oneLine_programLines (width : Nat) {source : Text} :
    ∀ line ∈ programLines width (place 0 (renderings source)), '\n' ∉ line := by
  intro line member
  rcases List.mem_append.1 member with inTexts | added
  · obtain ⟨p, placed, rfl⟩ := List.mem_map.1 inTexts
    rw [Placed.line, List.mem_append, not_or]
    exact ⟨by simp [List.mem_replicate], oneLine_of_mem_place placed⟩
  · split at added
    · cases added
    · have oneLine : ∀ line ∈ [[], "main();".toList], '\n' ∉ line := by decide
      exact oneLine line added

/-- The program of a source has its lines, and nothing behind the last line feed. -/
theorem splitOn_programText (width : Nat) (source : Text) :
    (programText width (place 0 (renderings source))).splitOn '\n' =
      programLines width (place 0 (renderings source)) ++ [[]] := by
  rw [programText_eq_joined, splitOn_joined (oneLine_programLines width)]

/-- Every line of a program ends in the only line feed it has. -/
theorem count_programText (width : Nat) {texts : List Placed}
    (oneLine : ∀ p ∈ texts, '\n' ∉ p.text) :
    (programText width texts).count '\n' =
      texts.length + if texts.any (EntryCall.isIn ·.text) then 0 else 2 := by
  have lines : (texts.flatMap fun p => p.line width ++ ['\n']).count '\n' = texts.length := by
    induction texts with
    | nil => rfl
    | cons p rest ih =>
        have one : (p.line width).count '\n' = 0 := by
          rw [List.count_eq_zero, Placed.line, List.mem_append, not_or]
          exact ⟨by simp [List.mem_replicate], oneLine p (by simp)⟩
        have others := ih fun q member => oneLine q (List.mem_cons_of_mem _ member)
        rw [List.flatMap_cons, List.count_append, List.count_append, one, others,
          List.count_singleton_self, List.length_cons]
        omega
  unfold programText
  rw [List.count_append, lines]
  split
  · rfl
  · rfl

theorem count_closedForm (width : Nat) {rs : List Rendering} (oneLine : ∀ r ∈ rs, '\n' ∉ r.text) :
    (closedForm width rs).count '\n' =
      rs.length + if rs.any (EntryCall.isIn ·.text) then 0 else 2 := by
  have texts := map_text_place 0 rs
  have length : (place 0 rs).length = rs.length := by
    simpa using congrArg List.length texts
  rw [← programText_place, count_programText, any_place, length]
  intro p member
  have inTexts : p.text ∈ rs.map Rendering.text := texts ▸ List.mem_map_of_mem member
  obtain ⟨r, inRs, eq⟩ := List.mem_map.1 inTexts
  exact eq ▸ oneLine r inRs

/-- **The program of any source, line by line.** A source compiles exactly when
the reflected walk of its depth stays within the bounds, and then to its closed
form. No text of a line holds a line feed, so the program has as many lines as
the source has lines that count, or two more; and the pass ends at the height of
the walk above its lowest point, which is zero when the braces balance. -/
theorem compile_line_by_line (width : Nat) (source : Text) :
    (∀ compilation, compile width source = .ok compilation ↔
      WithinBounds width (changes source) ∧
        compilation = { program := closedForm width (renderings source)
                        shortages := (renderings source).filterMap Rendering.shortage }) ∧
    (∀ r ∈ renderings source, '\n' ∉ r.text) ∧
    (closedForm width (renderings source)).count '\n' = (renderings source).length +
      (if (renderings source).any (EntryCall.isIn ·.text) then 0 else 2) ∧
    (WithinBounds width (changes source) → ∃ shortages progress,
      (Progress.start width).feedAll ((SourceLine.ofSource source).map SourceLine.text) =
          .ok (shortages, progress) ∧
        (progress.depth : ℤ) = reflected (changes source) (changes source).length) ∧
    (Balanced (changes source) → reflected (changes source) (changes source).length = 0) := by
  have oneLine : ∀ r ∈ renderings source, '\n' ∉ r.text := fun r => oneLine_of_mem_renderings
  refine ⟨fun compilation => ?_, oneLine, count_closedForm width oneLine, fun bounds => ?_,
    reflected_of_balanced⟩
  · rw [compile_eq_ok_iff, noOverflow_iff_withinBounds, programText_place]
    rfl
  · refine ⟨_, _, Progress.feedAll_eq_ok_iff.2 ⟨noOverflow_iff_withinBounds.2 bounds, rfl⟩, ?_⟩
    have walk := depthAfter_take (changes source) (changes source).length
    rw [List.take_length] at walk
    exact walk

end Linewise
