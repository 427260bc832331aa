/-
# Linewise.Proofs.SignatureRest -- what stands behind a parameter list

A signature may have text behind its parameter list: an opening brace, a body on the
same line, a comment. Its parameters should be reduced and that text kept as it is
written (`Heading.target`).

The recogniser takes the last closing parenthesis of the line for the end of the
list. So text without one is kept, and any other runs into the list up to there:
`Heading.keeps_rest_iff` gives the exact condition, and `inlineBody_loses_rest` a
function whose body loses its first half.
-/
import Linewise.Proofs.Parameters
import Linewise.Proofs.RulePriority

namespace Linewise.Signature

open Text

set_option autoImplicit false

/-- A signature as it is written, with any text behind its parameter list. -/
structure Heading where
  type : Text
  gap : Gap
  name : Text
  space : Text
  params : List Parameter
  rest : Text
  isType : IsName type
  isName : IsName name
  typeFree : isControlKeyword type = false
  nameFree : isControlKeyword name = false
  notMain : name ≠ "main".toList
  spaceBlank : Blanks space
  oneLine : '\n' ∉ rest

namespace Heading

/-- The line from its opening parenthesis on. -/
def body (h : Heading) : Text :=
  listText h.params ++ ')' :: h.rest

def line (h : Heading) : Text :=
  h.type ++ (h.gap.text ++ (h.name ++ (h.space ++ '(' :: h.body)))

/-- The function declaration, with the text behind the list as it is written. -/
def target (h : Heading) : Text :=
  "function ".toList ++ h.name ++ '(' :: join ", ".toList (names h.params) ++ ')' :: h.rest

theorem noClose_listText (params : List Parameter) : ')' ∉ listText params := by
  intro close
  rcases mem_of_mem_join close with comma | ⟨piece, member, inPiece⟩
  · exact absurd comma (by decide)
  · obtain ⟨p, -, rfl⟩ := List.mem_map.1 member
    exact p.not_mem_text (by decide) Token.noClose inPiece

/-! ## Reading the line -/

/-- What is read when `params` reaches to the last parenthesis. -/
def parsed (h : Heading) (params rest : Text) : Signature where
  type := h.type
  gap := h.gap.text
  name := h.name
  space := h.space
  params := params
  rest := rest

theorem parse?_line (h : Heading) (oneLine : '\n' ∉ listText h.params) {params rest : Text}
    (cut : h.body = params ++ ')' :: rest) (last : ')' ∉ rest) :
    parse? h.line = some (h.parsed params rest) := by
  have whole : '\n' ∉ h.body := by simp [body, oneLine, h.oneLine]
  rw [cut, List.mem_append, not_or] at whole
  refine parse?_eq_some_iff.2 ⟨?_, h.isType, ⟨h.gap.nonempty, h.gap.blank⟩, h.isName,
    h.spaceBlank, whole.1, not_mem_firstLine last⟩
  simp only [line, spelling, parsed, cut]

/-- Two words and the blanks behind each do not reach beyond a parenthesis. -/
theorem behind_words {first gap second space body : Text} (isFirst : IsName first)
    (gapBlank : gap ≠ [] ∧ Blanks gap) (isSecond : IsName second) (spaceBlank : Blanks space) :
    trimStart ((trimStart ((first ++ (gap ++ (second ++ (space ++ '(' :: body)))).dropWhile
      isWord)).dropWhile isWord) = '(' :: body := by
  have paren : Stops isBlank ('(' :: body) := stops_cons.2 (by decide)
  have secondEnds : Stops isWord (space ++ '(' :: body) :=
    stops_isWord_append spaceBlank (stops_cons.2 (by decide))
  have gapEnds : Stops isBlank (second ++ (space ++ '(' :: body)) := isSecond.stops_isBlank
  have firstEnds : Stops isWord (gap ++ (second ++ (space ++ '(' :: body))) :=
    stops_isWord_of_blanks gapBlank.1 gapBlank.2
  rw [dropWhile_append_of_stops isFirst.2 firstEnds, trimStart_append gapBlank.2 gapEnds,
    dropWhile_append_of_stops isSecond.2 secondEnds, trimStart_append spaceBlank paren]

/-- A parameter list that is broken over lines is not read. -/
theorem oneLine_of_parse?_line (h : Heading) {s : Signature} (read : parse? h.line = some s) :
    '\n' ∉ listText h.params := by
  obtain ⟨spelled, wf⟩ := parse?_eq_some_iff.1 read
  have behind := congrArg (fun t => trimStart ((trimStart (t.dropWhile isWord)).dropWhile isWord))
    spelled
  simp only [line, spelling, behind_words h.isType ⟨h.gap.nonempty, h.gap.blank⟩ h.isName
    h.spaceBlank, behind_words wf.type wf.gap wf.name wf.space, List.cons.injEq, true_and] at behind
  rcases List.append_eq_append_iff.1 behind with ⟨more, longer, -⟩ | ⟨more, shorter, cut⟩
  · intro broken
    exact wf.params (longer ▸ List.mem_append_left _ broken)
  · -- the list ends at its first parenthesis at the latest, which is its own
    cases more with
    | nil =>
        rw [shorter, List.append_nil]
        exact wf.params
    | cons c more =>
        obtain ⟨rfl, -⟩ := List.cons.inj cut
        exact absurd (shorter ▸ by simp) (noClose_listText h.params)

/-! ## The rule of the line -/

theorem opening_line (h : Heading) : Opening.ofLine h.line = ⟨h.type, h.name, some '('⟩ :=
  Opening.ofLine_words h.isType ⟨h.gap.nonempty, h.gap.blank⟩ h.isName h.spaceBlank (by decide)

theorem not_entryPoint (h : Heading) : EntryPoint.accepts h.line = false := by
  refine Bool.eq_false_iff.2 fun accepted => ?_
  have begins := EntryPoint.begins accepted
  rw [h.opening_line] at begins
  rcases begins.1 with main | ⟨-, nameless⟩
  · exact h.notMain main
  · exact h.isName.1 nameless

section Read

variable (h : Heading) (ends : endsWith h.line [';'] = false)
  (oneLine : '\n' ∉ listText h.params) {params rest : Text} (cut : h.body = params ++ ')' :: rest)
  (last : ')' ∉ rest)

include ends oneLine cut last

theorem select_line : Rule.select Rule.all h.line = Rule.functionSignature := by
  have accepted : Signature.accepts h.line = true := by
    simp [accepts, ends, h.parse?_line oneLine cut last, parsed, h.typeFree, h.nameFree]
  exact Rule.select_eq [Rule.entryPoint] rfl (List.forall_mem_singleton.2 h.not_entryPoint) accepted

/-- The parameter list reaches to the last parenthesis. -/
theorem rendering_line :
    Rendering.ofLine h.line =
      { text := "function ".toList ++ h.name ++ '(' :: reduceParameters params ++ ')' :: rest
        change := .keep } := by
  rw [Rendering.ofLine, h.select_line ends oneLine cut last]
  simp only [Rule.functionSignature, Rule.replacing, h.parse?_line oneLine cut last]
  rfl

theorem step_line (depth : Nat) :
    Step.ofLine depth h.line =
      .ok { kind := .functionSignature
            text := "function ".toList ++ h.name ++ '(' :: reduceParameters params ++ ')' :: rest
            renderDepth := depth, nextDepth := depth, shortage := none } := by
  have rendering := h.rendering_line ends oneLine cut last
  refine Step.ofLine_eq_ok_iff.2 ⟨by simp [rendering], ?_⟩
  simp only [Step.unbounded, LineKind.ofLine, h.select_line ends oneLine cut last, rendering]
  rfl

end Read

/-! ## The text behind the list -/

/-- The text behind the list has a parenthesis, and comes out all the same: what stands
in front of the last one is reduced already, and the list leaves no gap before it. -/
def Survives (h : Heading) : Prop :=
  Seamless h.params ∧
    ∃ added after, h.rest = added ++ ')' :: after ∧ ')' ∉ after ∧ IsReduced added

theorem survives_iff {h : Heading} {added after : Text} (split : h.rest = added ++ ')' :: after)
    (last : ')' ∉ after) : h.Survives ↔ Seamless h.params ∧ IsReduced added := by
  refine and_congr_right fun _ => ⟨?_, fun reduced => ⟨added, after, split, last, reduced⟩⟩
  rintro ⟨other, behind, same, otherLast, reduced⟩
  have first := splitAtLast?_append added last
  rw [← split, same, splitAtLast?_append other otherLast] at first
  obtain ⟨rfl, rfl⟩ := Prod.mk.inj (Option.some.inj first)
  exact reduced

/-- The text that the last parenthesis leaves is the one that is meant exactly when
nothing runs into the list, or what does survives it. -/
theorem text_eq_target_iff {h : Heading} {params rest : Text} (cut : h.body = params ++ ')' :: rest)
    (last : ')' ∉ rest) :
    "function ".toList ++ h.name ++ '(' :: reduceParameters params ++ ')' :: rest = h.target ↔
      ')' ∉ h.rest ∨ h.Survives := by
  cases found : splitAtLast? ')' h.rest with
  | none =>
      have absent := splitAtLast?_eq_none_iff.1 found
      have own := splitAtLast?_append (listText h.params) absent
      rw [← body, cut, splitAtLast?_append params last] at own
      obtain ⟨rfl, rfl⟩ := Prod.mk.inj (Option.some.inj own)
      rw [reduceParameters_listText]
      exact iff_of_true rfl (.inl absent)
  | some parts =>
      obtain ⟨added, after⟩ := parts
      obtain ⟨split, lastInRest⟩ := splitAtLast?_eq_some_iff.1 found
      have whole : h.body = (listText h.params ++ ')' :: added) ++ ')' :: after := by
        simp [body, split]
      have first := splitAtLast?_append (listText h.params ++ ')' :: added) lastInRest
      rw [← whole, cut, splitAtLast?_append params last] at first
      obtain ⟨rfl, rfl⟩ := Prod.mk.inj (Option.some.inj first)
      have present : ')' ∈ h.rest := by simp [split]
      have regroup : h.target = "function ".toList ++ h.name ++
          '(' :: (join ", ".toList (names h.params) ++ ')' :: added) ++ ')' :: rest := by
        unfold target
        simp only [split, List.append_assoc, List.cons_append]
      rw [or_iff_right (not_not_intro present), survives_iff split last,
        ← reduceParameters_append_eq_iff, regroup, List.append_cancel_right_eq,
        List.append_cancel_left_eq, List.cons.injEq]
      exact and_iff_right rfl

/-- **When the text behind a parameter list is kept.** A heading whose list stands on
one line is read as a signature that keeps the depth, whatever follows the list. The
text behind the list comes out as it is written exactly when it has no closing
parenthesis, or what stands in front of its last one is reduced already. -/
theorem keeps_rest_iff (h : Heading) (depth : Nat) (ends : endsWith h.line [';'] = false) :
    (LineKind.ofLine h.line = .functionSignature ↔ '\n' ∉ listText h.params) ∧
      ('\n' ∉ listText h.params → ∃ text,
        Step.ofLine depth h.line =
          .ok { kind := .functionSignature, text, renderDepth := depth, nextDepth := depth
                shortage := none } ∧
        (text = h.target ↔ ')' ∉ h.rest ∨ h.Survives)) := by
  obtain ⟨⟨params, rest⟩, found⟩ : ∃ parts, splitAtLast? ')' h.body = some parts := by
    refine Option.ne_none_iff_exists'.1 fun uncut => ?_
    exact splitAtLast?_eq_none_iff.1 uncut (by simp [body])
  obtain ⟨cut, last⟩ := splitAtLast?_eq_some_iff.1 found
  refine ⟨⟨?_, ?_⟩, ?_⟩
  · intro signature
    have accepted := Rule.accepts_ofKind h.line
    rw [signature] at accepted
    obtain ⟨s, read⟩ := Option.isSome_iff_exists.1 (isSome_parse?_of_accepts accepted)
    exact h.oneLine_of_parse?_line read
  · intro oneLine
    rw [LineKind.ofLine, h.select_line ends oneLine cut last]
    rfl
  · intro oneLine
    exact ⟨_, h.step_line ends oneLine cut last depth, text_eq_target_iff cut last⟩

/-! ## Headings with a brace and with a body -/

/-- A parameter of two tokens with a blank between them. -/
def typedParameter (lead : Text) (type name : Token) (trail : Text) (leadBlank : Blanks lead)
    (trailBlank : Blanks trail) : Parameter :=
  { lead, front := [(type, .space)], last := name, trail, leadBlank, trailBlank }

def intToken : Token := ⟨"int".toList, by decide, by decide, by decide, by decide⟩

/-- `int area(int w ,int h ) {`, with an opening brace behind the list. -/
def bracedArea : Heading where
  type := "int".toList
  gap := .space
  name := "area".toList
  space := []
  params := [
    typedParameter [] intToken ⟨['w'], by decide, by decide, by decide, by decide⟩ [' ']
      blanks_nil blanks_space,
    typedParameter [] intToken ⟨['h'], by decide, by decide, by decide, by decide⟩ [' ']
      blanks_nil blanks_space]
  rest := " \x7b".toList
  isType := isName_spelling .int
  isName := by decide
  typeFree := by decide
  nameFree := by decide
  notMain := by decide
  spaceBlank := blanks_nil
  oneLine := by decide

theorem keeps_rest_iff_bracedArea :
    endsWith bracedArea.line [';'] = false ∧
      bracedArea.line = "int area(int w ,int h ) \x7b".toList ∧
      Step.ofLine 3 bracedArea.line =
        .ok { kind := .functionSignature, text := "function area(w, h) \x7b".toList
              renderDepth := 3, nextDepth := 3, shortage := none } := by
  have ends : endsWith bracedArea.line [';'] = false := by decide
  obtain ⟨text, step, kept⟩ := (keeps_rest_iff bracedArea 3 ends).2 (by decide)
  refine ⟨ends, by decide, ?_⟩
  rw [step, kept.2 (.inl (by decide))]
  rfl

/-- `int twice(int a) { return mul(a, 2); }`, with its body on the same line. -/
def inlineBody : Heading where
  type := "int".toList
  gap := .space
  name := "twice".toList
  space := []
  params := [typedParameter [] intToken ⟨['a'], by decide, by decide, by decide, by decide⟩ []
    blanks_nil blanks_nil]
  rest := " \x7b return mul(a, 2); \x7d".toList
  isType := isName_spelling .int
  isName := by decide
  typeFree := by decide
  nameFree := by decide
  notMain := by decide
  spaceBlank := blanks_nil
  oneLine := by decide

/-- The parameter list reaches into the body, and the body's arguments stand in the place
of the parameters. -/
theorem inlineBody_loses_rest :
    inlineBody.line = "int twice(int a) \x7b return mul(a, 2); \x7d".toList ∧
      trim inlineBody.line = inlineBody.line ∧ endsWith inlineBody.line [';'] = false ∧
      inlineBody.target = "function twice(a) \x7b return mul(a, 2); \x7d".toList ∧
      Step.ofLine 0 inlineBody.line =
        .ok { kind := .functionSignature, text := "function twice(mul(a, 2); \x7d".toList
              renderDepth := 0, nextDepth := 0, shortage := none } := by
  refine ⟨by decide, by decide, by decide, by decide, ?_⟩
  rfl

end Heading

end Linewise.Signature
