/-
# Linewise.Proofs.DeclarationLanguage -- declarations change only their type keyword

Three rules put `let` in the place of a scalar type: those for declarations, with and
without a value, and the one for loop headers. A `Reading` of a line is one way to write
it in the form that the rule asks for. Its parts may be chosen at will: nothing says that
blanks or words are as long as they can be, and what stands behind the form is arbitrary.

The form decides the kind of the line, and the new text is the reading with its type
replaced (`declaration_lines`). Declarations are told apart from all rules in front of
theirs by the character behind the first two words, so nothing in the value can make the
line something else. A loop header comes behind two rules that look elsewhere in the line;
it must not hold a print call, nor end in a semicolon (`LineKind.ofLine_eq_iff`).
-/
import Linewise.Proofs.PrintLanguage
import Linewise.Proofs.RulePriority

namespace Linewise

open Text

set_option autoImplicit false

/-! ## The kind of a shaped line -/

/-- A line is of a shaped kind when its rule accepts the line and no unshaped rule in front
of it does. The entry point and the signature apart, no other shaped rule can. -/
theorem LineKind.ofLine_eq_iff {kind : LineKind} (inShaped : kind ∈ shaped)
    (alone : kind ≠ .entryPoint ∧ kind ≠ .functionSignature) {line : Text} :
    ofLine line = kind ↔ (Rule.ofKind kind).accepts line = true ∧
      ∀ other ∈ unshaped, Rule.rank Rule.all other < Rule.rank Rule.all kind →
        (Rule.ofKind other).accepts line = false := by
  constructor
  · rintro rfl
    refine ⟨Rule.accepts_ofKind line, fun other _ before => ?_⟩
    refine Bool.eq_false_iff.2 fun accepted => ?_
    have first := rank_ofLine_le accepted
    omega
  · rintro ⟨accepted, rejected⟩
    have selected := Rule.accepts_ofKind line
    have first := rank_ofLine_le accepted
    rcases (ofLine line).mem_shaped_or_mem_unshaped with otherShaped | otherUnshaped
    · rcases Rule.eq_of_accepts inShaped otherShaped accepted selected with
        same | ⟨entry, -⟩ | ⟨signature, -⟩
      · exact same.symm
      · exact absurd entry alone.1
      · exact absurd signature alone.2
    · -- an unshaped rule that accepts the line stands behind the rule of the kind
      have notBefore : ¬ Rule.rank Rule.all (ofLine line) < Rule.rank Rule.all kind := by
        intro before
        rw [rejected _ otherUnshaped before] at selected
        cases selected
      have member : Rule.select Rule.all line ∈ Rule.all := Rule.select_mem line
      exact Rule.rank_inj member (by
        show Rule.rank Rule.all (ofLine line) = Rule.rank Rule.all kind
        omega)

/-- A shaped rule in front of all unshaped ones decides the lines that it accepts. -/
theorem LineKind.ofLine_eq_of_accepts {kind : LineKind} (inShaped : kind ∈ shaped)
    (alone : kind ≠ .entryPoint ∧ kind ≠ .functionSignature)
    (front : ∀ other ∈ unshaped, Rule.rank Rule.all kind < Rule.rank Rule.all other) {line : Text}
    (accepted : (Rule.ofKind kind).accepts line = true) : ofLine line = kind := by
  refine (ofLine_eq_iff inShaped alone).2 ⟨accepted, fun other member before => ?_⟩
  have behind := front other member
  omega

/-- The step of a line that keeps the depth and gives no warning. -/
def Step.kept (kind : LineKind) (depth : Nat) (text : Text) : Step :=
  { kind, text, renderDepth := depth, nextDepth := depth, shortage := none }

theorem Step.ofLine_eq_kept {line text : Text} {kind : LineKind} (depth : Nat)
    (isKind : LineKind.ofLine line = kind)
    (rendered : (Rule.ofKind kind).render line = { text, change := .keep }) :
    Step.ofLine depth line = .ok (kept kind depth text) := by
  have rendering : Rendering.ofLine line = { text, change := .keep } := by
    rw [Rendering.ofLine_eq_render, isKind, rendered]
  refine Step.ofLine_eq_ok_iff.2 ⟨by simp [rendering], ?_⟩
  simp only [Step.unbounded, isKind, rendering, DepthChange.renderDepth, DepthChange.nextDepth, kept]

theorem Rule.replacing_of_eq_some {α : Type} {parse? : Text → Option α} {line : Text} {r : α}
    (read : parse? line = some r) (f : α → Text) :
    replacing parse? f line = { text := f r, change := .keep } := by
  rw [replacing, read]
  rfl

theorem bindingKeyword_blank (t : Text) : bindingKeyword ++ ' ' :: t = "let ".toList ++ t := by
  have keyword : "let ".toList = bindingKeyword ++ [' '] := by decide
  simp only [keyword, List.append_assoc, List.singleton_append]

/-! ## Declarations with a value -/

namespace InitDeclaration

/-- A line read as a declaration with a value, which is everything behind the equals
sign. -/
structure Reading where
  type : ScalarType
  gap : Text
  name : Text
  space : Text
  value : Text
  gapNe : gap ≠ []
  gapBlank : Blanks gap
  isName : IsName name
  spaceBlank : Blanks space

namespace Reading

/-- The line from the name on. -/
def binding (r : Reading) : Text :=
  r.name ++ (r.space ++ '=' :: r.value)

def line (r : Reading) : Text :=
  r.type.spelling ++ (r.gap ++ r.binding)

def target (r : Reading) : Text :=
  "let ".toList ++ r.binding

theorem exists_parse?_line (r : Reading) (oneLine : '\n' ∉ r.line) :
    ∃ d, parse? r.line = some d ∧ d.render = r.target := by
  have valueLine : '\n' ∉ r.value := by
    intro broken
    apply oneLine
    simp [line, binding, broken]
  refine ⟨⟨r.type, r.gap, r.name, r.space, r.value, []⟩, parse?_eq_some_iff.2 ⟨?_, ?_⟩, ?_⟩
  · simp [line, binding, InitDeclaration.spelling]
  · exact ⟨⟨r.gapNe, r.gapBlank⟩, r.isName, r.spaceBlank, valueLine, stops_nil _⟩
  · rw [InitDeclaration.render, bindingKeyword_blank, target]
    simp only [InitDeclaration.binding, binding, List.append_assoc]

theorem exists_of_parse? {t : Text} {d : InitDeclaration} (read : parse? t = some d) :
    ∃ r : Reading, r.line = t := by
  obtain ⟨rfl, wf⟩ := parse?_eq_some_iff.1 read
  refine ⟨⟨d.type, d.gap, d.name, d.space, d.value ++ d.rest, wf.gap.1, wf.gap.2, wf.name,
    wf.space⟩, ?_⟩
  simp [line, binding, InitDeclaration.spelling]

theorem step_line (r : Reading) (oneLine : '\n' ∉ r.line) (depth : Nat) :
    Step.ofLine depth r.line = .ok (.kept .initDeclaration depth r.target) := by
  obtain ⟨d, read, text⟩ := r.exists_parse?_line oneLine
  have isKind : LineKind.ofLine r.line = .initDeclaration := by
    apply LineKind.ofLine_eq_of_accepts (by decide) (by decide) (by decide)
    exact Option.isSome_iff_exists.2 ⟨d, read⟩
  refine Step.ofLine_eq_kept depth isKind ?_
  rw [← text]
  exact Rule.replacing_of_eq_some read InitDeclaration.render

end Reading

end InitDeclaration

/-! ## Declarations of a name alone -/

namespace PlainDeclaration

/-- A line read as a declaration of a name, with anything behind the semicolon. -/
structure Reading where
  type : ScalarType
  gap : Text
  name : Text
  rest : Text
  gapNe : gap ≠ []
  gapBlank : Blanks gap
  isName : IsName name

namespace Reading

/-- The line from the name on. -/
def binding (r : Reading) : Text :=
  r.name ++ ';' :: r.rest

def line (r : Reading) : Text :=
  r.type.spelling ++ (r.gap ++ r.binding)

def target (r : Reading) : Text :=
  "let ".toList ++ r.binding

/-- The parts of the reading are what the rule reads from its line. -/
def declaration (r : Reading) : PlainDeclaration :=
  ⟨r.type, r.gap, r.name, r.rest⟩

theorem parse?_line (r : Reading) : parse? r.line = some r.declaration := by
  refine parse?_eq_some_iff.2 ⟨?_, ⟨r.gapNe, r.gapBlank⟩, r.isName⟩
  simp [line, binding, declaration, spelling]

theorem exists_of_parse? {t : Text} {d : PlainDeclaration} (read : parse? t = some d) :
    ∃ r : Reading, r.line = t := by
  obtain ⟨rfl, wf⟩ := parse?_eq_some_iff.1 read
  refine ⟨⟨d.type, d.gap, d.name, d.rest, wf.gap.1, wf.gap.2, wf.name⟩, ?_⟩
  simp [line, binding, spelling]

theorem step_line (r : Reading) (depth : Nat) :
    Step.ofLine depth r.line = .ok (.kept .plainDeclaration depth r.target) := by
  have isKind : LineKind.ofLine r.line = .plainDeclaration := by
    apply LineKind.ofLine_eq_of_accepts (by decide) (by decide) (by decide)
    exact Option.isSome_iff_exists.2 ⟨_, r.parse?_line⟩
  refine Step.ofLine_eq_kept depth isKind ?_
  have text : r.declaration.render = r.target := by
    rw [render, List.append_assoc, List.cons_append, bindingKeyword_blank]
    rfl
  rw [← text]
  exact Rule.replacing_of_eq_some r.parse?_line render

end Reading

end PlainDeclaration

/-! ## Loop headers -/

/-- A line can be read as a print call exactly when the rule for print calls accepts it. -/
theorem PrintCall.exists_reading_iff {line : Text} (oneLine : '\n' ∉ line) :
    (∃ p : PrintCall.Reading, p.line = line) ↔ Rule.printCall.accepts line = true := by
  rw [PrintCall.accepts_iff_find?]
  constructor
  · rintro ⟨p, rfl⟩
    obtain ⟨o, found, -⟩ := p.exists_find? oneLine
    exact ⟨o, found⟩
  · rintro ⟨o, found⟩
    obtain ⟨p, spelled, -⟩ := PrintCall.Reading.exists_of_find? found
    exact ⟨p, spelled⟩

namespace LoopHeader

/-- A line read as the start of a loop that declares its counter. The rest may start with
blanks, so the blanks behind the type need not be all that are there. -/
structure Reading where
  space : Text
  inner : Text
  type : ScalarType
  gap : Text
  rest : Text
  spaceBlank : Blanks space
  innerBlank : Blanks inner
  gapNe : gap ≠ []
  gapBlank : Blanks gap

namespace Reading

/-- The line with a keyword in the place of the type. -/
def withKeyword (r : Reading) (keyword : Text) : Text :=
  "for".toList ++ (r.space ++ '(' :: (r.inner ++ (keyword ++ (r.gap ++ r.rest))))

def line (r : Reading) : Text :=
  r.withKeyword r.type.spelling

def target (r : Reading) : Text :=
  r.withKeyword "let".toList

/-- The parts that the rule reads: all the blanks behind the type are in the gap. -/
def header (r : Reading) : LoopHeader where
  space := r.space
  inner := r.inner
  type := r.type
  gap := r.gap ++ r.rest.takeWhile isBlank
  rest := trimStart r.rest

theorem gap_append_rest (r : Reading) : r.header.gap ++ r.header.rest = r.gap ++ r.rest := by
  simp only [header, List.append_assoc, takeWhile_append_trimStart]

theorem parse?_line (r : Reading) : parse? r.line = some r.header := by
  refine parse?_eq_some_iff.2 ⟨?_, r.spaceBlank, r.innerBlank, ⟨?_, ?_⟩, stops_trimStart r.rest⟩
  · rw [line, withKeyword, spelling, ← r.gap_append_rest, List.append_assoc]
    rfl
  · exact List.append_ne_nil_of_left_ne_nil r.gapNe _
  · exact blanks_append.2 ⟨r.gapBlank, blanks_takeWhile r.rest⟩

theorem render_header (r : Reading) : r.header.render = r.target := by
  unfold target withKeyword
  simp only [render, opening, List.append_assoc, List.cons_append, r.gap_append_rest]
  rfl

theorem exists_of_parse? {t : Text} {h : LoopHeader} (read : parse? t = some h) :
    ∃ r : Reading, r.line = t := by
  obtain ⟨rfl, wf⟩ := parse?_eq_some_iff.1 read
  refine ⟨⟨h.space, h.inner, h.type, h.gap, h.rest, wf.space, wf.inner, wf.gap.1, wf.gap.2⟩, ?_⟩
  simp [line, withKeyword, spelling]

end Reading

/-- The rules in front of the one for loop headers that may accept such a line. -/
theorem ofLine_eq_loopHeader_iff {line : Text} (oneLine : '\n' ∉ line) :
    LineKind.ofLine line = .loopHeader ↔
      (∃ r : Reading, r.line = line) ∧ (∀ p : PrintCall.Reading, p.line ≠ line) ∧
        endsWith line [';'] = false := by
  have read : (Rule.ofKind .loopHeader).accepts line = true ↔ ∃ r : Reading, r.line = line := by
    constructor
    · intro accepted
      obtain ⟨h, read⟩ := Option.isSome_iff_exists.1 accepted
      exact Reading.exists_of_parse? read
    · rintro ⟨r, rfl⟩
      exact Option.isSome_iff_exists.2 ⟨_, r.parse?_line⟩
  have print : (∀ p : PrintCall.Reading, p.line ≠ line) ↔ Rule.printCall.accepts line = false := by
    rw [← Bool.not_eq_true, ← PrintCall.exists_reading_iff oneLine, not_exists]
  rw [LineKind.ofLine_eq_iff (by decide) (by decide), read, print]
  refine and_congr_right fun _ => ?_
  constructor
  · intro rejected
    exact ⟨rejected .printCall (by decide) (by decide), rejected .statement (by decide) (by decide)⟩
  · rintro ⟨noPrint, noEnd⟩ other member before
    simp only [LineKind.unshaped, List.mem_cons, List.not_mem_nil, or_false] at member
    rcases member with rfl | rfl | rfl
    · exact noPrint
    · exact noEnd
    · exact absurd before (by decide)

theorem Reading.step_line (r : Reading) (isKind : LineKind.ofLine r.line = .loopHeader)
    (depth : Nat) : Step.ofLine depth r.line = .ok (.kept .loopHeader depth r.target) := by
  refine Step.ofLine_eq_kept depth isKind ?_
  rw [← r.render_header]
  exact Rule.replacing_of_eq_some r.parse?_line render

end LoopHeader

/-! ## All three -/

/-- **Declarations and typed loop headers change only the type keyword.** A line that can
be read as a declaration, with or without a value, is one, and its text is `let`, a blank
and the line from the name on. A line that can be read as a loop header with a type, that
holds no print call and does not end in a semicolon, is a loop header, and `let` stands in
the place of the type. All of them keep the depth, and no other line is of these kinds. -/
theorem declaration_lines {line : Text} (oneLine : '\n' ∉ line) (depth : Nat) :
    (∀ r : InitDeclaration.Reading, r.line = line →
      Step.ofLine depth line = .ok (.kept .initDeclaration depth r.target)) ∧
    (∀ r : PlainDeclaration.Reading, r.line = line →
      Step.ofLine depth line = .ok (.kept .plainDeclaration depth r.target)) ∧
    (∀ r : LoopHeader.Reading, r.line = line → (∀ p : PrintCall.Reading, p.line ≠ line) →
      endsWith line [';'] = false →
        Step.ofLine depth line = .ok (.kept .loopHeader depth r.target)) ∧
    ∀ step, Step.ofLine depth line = .ok step →
      (step.kind = .initDeclaration → ∃ r : InitDeclaration.Reading, r.line = line) ∧
      (step.kind = .plainDeclaration → ∃ r : PlainDeclaration.Reading, r.line = line) ∧
      (step.kind = .loopHeader → (∃ r : LoopHeader.Reading, r.line = line) ∧
        (∀ p : PrintCall.Reading, p.line ≠ line) ∧ endsWith line [';'] = false) := by
  refine ⟨?_, ?_, ?_, ?_⟩
  · rintro r rfl
    exact r.step_line oneLine depth
  · rintro r rfl
    exact r.step_line depth
  · rintro r rfl noPrint noEnd
    exact r.step_line ((LoopHeader.ofLine_eq_loopHeader_iff oneLine).2 ⟨⟨r, rfl⟩, noPrint, noEnd⟩)
      depth
  · intro step taken
    obtain ⟨-, rfl⟩ := Step.ofLine_eq_ok_iff.1 taken
    have accepted := Rule.accepts_ofKind line
    refine ⟨fun isKind => ?_, fun isKind => ?_, fun isKind => ?_⟩
    · rw [show LineKind.ofLine line = .initDeclaration from isKind] at accepted
      obtain ⟨d, read⟩ := Option.isSome_iff_exists.1 accepted
      exact InitDeclaration.Reading.exists_of_parse? read
    · rw [show LineKind.ofLine line = .plainDeclaration from isKind] at accepted
      obtain ⟨d, read⟩ := Option.isSome_iff_exists.1 accepted
      exact PlainDeclaration.Reading.exists_of_parse? read
    · exact (LoopHeader.ofLine_eq_loopHeader_iff oneLine).1 isKind

/-- A print call in a value, a comment behind a name, and a loop. -/
theorem declaration_lines_mixed :
    Step.ofLine 3 "double \tn== printf(\"x\");".toList =
        .ok (.kept .initDeclaration 3 "let n== printf(\"x\");".toList) ∧
      Step.ofLine 0 "char c; // c = 1".toList =
        .ok (.kept .plainDeclaration 0 "let c; // c = 1".toList) ∧
      Step.ofLine 1 "for( int  i = 0; i < n; i++) \x7b".toList =
        .ok (.kept .loopHeader 1 "for( let  i = 0; i < n; i++) \x7b".toList) := by
  let init : InitDeclaration.Reading :=
    ⟨.double, " \t".toList, ['n'], [], "= printf(\"x\");".toList, by decide, by decide, by decide,
      by decide⟩
  let plain : PlainDeclaration.Reading :=
    ⟨.char, [' '], ['c'], " // c = 1".toList, by decide, by decide, by decide⟩
  let loop : LoopHeader.Reading :=
    ⟨[], [' '], .int, [' '], " i = 0; i < n; i++) \x7b".toList, by decide, by decide, by decide,
      by decide⟩
  have loopLine : '\n' ∉ loop.line := by decide
  have noPrint : ∀ p : PrintCall.Reading, p.line ≠ loop.line := by
    intro p same
    have accepted := (PrintCall.exists_reading_iff loopLine).1 ⟨p, same⟩
    have rejected : Rule.printCall.accepts loop.line = false := by decide
    rw [rejected] at accepted
    cases accepted
  exact ⟨(declaration_lines (by decide) 3).1 init rfl, (declaration_lines (by decide) 0).2.1 plain rfl,
    (declaration_lines loopLine 1).2.2.1 loop rfl noPrint (by decide)⟩

end Linewise
