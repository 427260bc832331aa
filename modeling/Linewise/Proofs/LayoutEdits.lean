/-
# Linewise.Proofs.LayoutEdits -- layout does not matter

A source can be laid out anew without touching its code: line breaks get a
carriage return, lines are indented or padded, blank lines and include directives
come and go, the last line break is there or not. `Edit` lists these edits and
`Relaid` is any number of them, forwards and backwards.

Of a source only the trimmed lines that count are read, so everything rests on how
these are cut, and that is said by one equation: a line break separates what stands
before it from what stands behind it (`texts_append_break`). Each edit then changes
nothing, and conversely any two sources with the same lines that count are layouts of
one another (`relaid_iff_texts_eq`), since both can be laid out with one bare line for
each of them.
-/
import Linewise.Proofs.EntryDetection
import Linewise.Proofs.Subset
import Mathlib.Logic.Relation

namespace Linewise

open Text
open EntryCall (joined joined_append)
open Subset (IsMargin IsSkipped)

set_option autoImplicit false

/-! ## Texts line by line -/

/-- A text is a last line, or a line with its break in front of a text. -/
@[elab_as_elim]
theorem Text.lineRec {motive : Text → Prop} (last : ∀ line, '\n' ∉ line → motive line)
    (step : ∀ line rest, '\n' ∉ line → motive rest → motive (line ++ '\n' :: rest)) (t : Text) :
    motive t := by
  induction size : t.length using Nat.strong_induction_on generalizing t with
  | h n ih =>
      by_cases oneLine : '\n' ∈ t
      · obtain ⟨line, rest, rfl, first⟩ := List.eq_append_cons_of_mem oneLine
        refine step line rest first (ih rest.length ?_ rest rfl)
        simp only [List.length_append, List.length_cons] at size
        omega
      · exact last t oneLine

namespace SourceLine

/-- The trimmed lines of a source that count. -/
def texts (source : Text) : List Text :=
  (ofSource source).map SourceLine.text

theorem texts_oneLine {line : Text} (oneLine : '\n' ∉ line) :
    texts line = [trim line].filter counts := by
  rw [texts, ofSource_texts]
  by_cases empty : line = []
  · rw [empty]
    rfl
  · rw [lines_of_oneLine empty oneLine, List.map_singleton]

theorem texts_line_append {line : Text} (oneLine : '\n' ∉ line) (rest : Text) :
    texts (line ++ '\n' :: rest) = texts line ++ texts rest := by
  obtain ⟨cut, same, split⟩ := lines_append_break oneLine rest
  rw [texts_oneLine oneLine, texts, ofSource_texts, texts, ofSource_texts, split, List.map_cons,
    trim_of_break same, ← List.filter_append, List.singleton_append]

/-- A line break separates the lines in front of it from those behind it. -/
theorem texts_append_break (before after : Text) :
    texts (before ++ '\n' :: after) = texts before ++ texts after := by
  induction before using Text.lineRec with
  | last line oneLine => exact texts_line_append oneLine after
  | step line rest oneLine ih =>
      rw [List.append_assoc, List.cons_append, texts_line_append oneLine, ih,
        texts_line_append oneLine, List.append_assoc]

theorem texts_margins {lead line trail : Text} (isLead : IsMargin lead) (isTrail : IsMargin trail)
    (oneLine : '\n' ∉ line) : texts (lead ++ line ++ trail) = texts line := by
  have whole : '\n' ∉ lead ++ line ++ trail := by simp [isLead.2, oneLine, isTrail.2]
  rw [texts_oneLine whole, texts_oneLine oneLine, trim_append isLead.1 isTrail.1]

theorem margin_nil : IsMargin [] := by
  decide

theorem texts_margin_append {margin : Text} (isMargin : IsMargin margin) (t : Text) :
    texts (margin ++ t) = texts t := by
  induction t using Text.lineRec with
  | last line oneLine => simpa using texts_margins isMargin margin_nil oneLine
  | step line rest oneLine _ =>
      have front : texts (margin ++ line) = texts line := by
        simpa using texts_margins isMargin margin_nil oneLine
      rw [← List.append_assoc, texts_append_break, texts_append_break, front]

theorem texts_append_margin {margin : Text} (isMargin : IsMargin margin) (t : Text) :
    texts (t ++ margin) = texts t := by
  induction t using Text.lineRec with
  | last line oneLine => simpa using texts_margins margin_nil isMargin oneLine
  | step line rest oneLine ih =>
      rw [List.append_assoc, List.cons_append, texts_append_break, texts_append_break, ih]

theorem texts_skipped {line : Text} (skipped : IsSkipped line) : texts line = [] := by
  rw [texts_oneLine skipped.oneLine, List.filter_cons_of_neg (by simp [skipped.not_counts]),
    List.filter_nil]

end SourceLine

open SourceLine

/-! ## Edits -/

/-- A line starts behind this text. -/
def LineStart (before : Text) : Prop :=
  before = [] ∨ ∃ front, before = front ++ ['\n']

/-- A line ends in front of this text. A carriage return in front of a line feed is
a blank of the line. -/
def LineEnd (after : Text) : Prop :=
  after = [] ∨ ∃ rest, after = '\n' :: rest

/-- One edit of the layout. -/
inductive Edit : Text → Text → Prop
  | carriageReturn (before after : Text) :
      Edit (before ++ '\n' :: after) (before ++ '\r' :: '\n' :: after)
  | indent {before margin after : Text} : LineStart before → IsMargin margin →
      Edit (before ++ after) (before ++ margin ++ after)
  | pad {before margin after : Text} : LineEnd after → IsMargin margin →
      Edit (before ++ after) (before ++ margin ++ after)
  | insertLine {before line after : Text} : LineStart before → IsSkipped line →
      Edit (before ++ after) (before ++ line ++ '\n' :: after)
  | finalBreak (t : Text) : Edit t (t ++ ['\n'])

/-- Any number of edits, each made or undone. -/
def Relaid : Text → Text → Prop :=
  Relation.EqvGen Edit

/-- What stands behind the start of a line can be cut off there. -/
theorem texts_lineStart {before : Text} (starts : LineStart before) (after : Text) :
    texts (before ++ after) = texts before ++ texts after := by
  rcases starts with rfl | ⟨front, rfl⟩
  · rfl
  · have whole : texts (front ++ ['\n']) = texts front := by
      rw [texts_append_break]
      exact List.append_nil _
    rw [List.append_assoc, List.singleton_append, texts_append_break, whole]

theorem texts_of_edit {source target : Text} (edit : Edit source target) :
    texts target = texts source := by
  cases edit with
  | carriageReturn before after =>
      have isMargin : IsMargin ['\r'] := by decide
      have whole : before ++ '\r' :: '\n' :: after = before ++ ['\r'] ++ '\n' :: after := by simp
      rw [whole, texts_append_break, texts_append_break, texts_append_margin isMargin]
  | indent starts isMargin =>
      rw [List.append_assoc, texts_lineStart starts, texts_lineStart starts,
        texts_margin_append isMargin]
  | @pad before margin after ends isMargin =>
      rcases ends with rfl | ⟨rest, rfl⟩
      · simpa using texts_append_margin isMargin before
      · rw [texts_append_break, texts_append_break, texts_append_margin isMargin]
  | insertLine starts skipped =>
      rw [List.append_assoc, texts_lineStart starts, texts_lineStart starts, texts_append_break,
        texts_skipped skipped, List.nil_append]
  | finalBreak =>
      rw [texts_append_break]
      exact List.append_nil _

theorem texts_of_relaid {source target : Text} (relaid : Relaid source target) :
    texts source = texts target := by
  induction relaid with
  | rel _ _ edit => exact (texts_of_edit edit).symm
  | refl _ => rfl
  | symm _ _ _ ih => exact ih.symm
  | trans _ _ _ _ _ first second => exact first.trans second

/-! ## Every layout is reached -/

theorem Edit.behind {source target : Text} (line : Text) (edit : Edit source target) :
    Edit (line ++ '\n' :: source) (line ++ '\n' :: target) := by
  have starts : ∀ {before}, LineStart before → LineStart (line ++ '\n' :: before) := by
    rintro before (rfl | ⟨front, rfl⟩)
    · exact .inr ⟨line, rfl⟩
    · exact .inr ⟨line ++ '\n' :: front, by simp⟩
  cases edit with
  | carriageReturn before after =>
      simpa using Edit.carriageReturn (line ++ '\n' :: before) after
  | @indent before margin after start isMargin =>
      simpa using @Edit.indent (line ++ '\n' :: before) margin after (starts start) isMargin
  | @pad before margin after ends isMargin =>
      simpa using @Edit.pad (line ++ '\n' :: before) margin after ends isMargin
  | @insertLine before other after start skipped =>
      simpa using @Edit.insertLine (line ++ '\n' :: before) other after (starts start) skipped
  | finalBreak =>
      simpa using Edit.finalBreak (line ++ '\n' :: source)

theorem Relaid.behind {source target : Text} (line : Text) (relaid : Relaid source target) :
    Relaid (line ++ '\n' :: source) (line ++ '\n' :: target) := by
  induction relaid with
  | rel _ _ edit => exact .rel _ _ (edit.behind line)
  | refl _ => exact .refl _
  | symm _ _ _ ih => exact .symm _ _ ih
  | trans _ _ _ _ _ first second => exact .trans _ _ _ first second

theorem isSkipped_of_not_counts {line : Text} (oneLine : '\n' ∉ line)
    (skips : counts (trim line) = false) : IsSkipped line := by
  obtain ⟨lead, trail, whole, leadBlank, trailBlank⟩ := exists_margins line
  refine ⟨oneLine, ?_⟩
  rw [counts, Bool.and_eq_false_iff, Bool.not_eq_false', Bool.not_eq_false'] at skips
  rcases skips with empty | directive
  · left
    rw [whole, List.isEmpty_iff.1 empty]
    exact blanks_append.2 ⟨leadBlank, trailBlank⟩
  · right
    obtain ⟨rest, eq⟩ := List.isPrefixOf_iff_prefix.1 directive
    refine ⟨lead, rest ++ trail, ?_, leadBlank⟩
    rw [← List.append_assoc _ rest, eq]
    exact whole

/-- A line can be laid out bare, or left out when it does not count. -/
theorem relaid_line {line : Text} (oneLine : '\n' ∉ line) (rest : Text) :
    Relaid (line ++ '\n' :: rest) (joined (texts line) ++ rest) := by
  cases keeps : counts (trim line) with
  | false =>
      have skipped := isSkipped_of_not_counts oneLine keeps
      rw [texts_skipped skipped]
      exact .symm _ _ (.rel _ _ (@Edit.insertLine [] line rest (.inl rfl) skipped))
  | true =>
      obtain ⟨lead, trail, whole, leadBlank, trailBlank⟩ := exists_margins line
      have oneLineParts := oneLine
      rw [whole, List.mem_append, List.mem_append, not_or, not_or] at oneLineParts
      have padded : Edit (trim line ++ '\n' :: rest) (trim line ++ trail ++ '\n' :: rest) :=
        .pad (.inr ⟨rest, rfl⟩) ⟨trailBlank, oneLineParts.2.2⟩
      have indented : Edit (trim line ++ trail ++ '\n' :: rest) (line ++ '\n' :: rest) := by
        have split : line ++ '\n' :: rest = lead ++ (trim line ++ trail ++ '\n' :: rest) := by
          simpa using congrArg (· ++ '\n' :: rest) whole
        rw [split]
        exact @Edit.indent [] lead _ (.inl rfl) ⟨leadBlank, oneLineParts.1⟩
      have bare : joined (texts line) ++ rest = trim line ++ '\n' :: rest := by
        rw [texts_oneLine oneLine, List.filter_cons_of_pos keeps]
        simp [joined]
      rw [bare]
      exact .symm _ _ (.trans _ _ _ (.rel _ _ padded) (.rel _ _ indented))

/-- Every source can be laid out with one bare line for each line that counts. -/
theorem relaid_joined (source : Text) : Relaid source (joined (texts source)) := by
  induction source using Text.lineRec with
  | last line oneLine =>
      have broken := relaid_line oneLine []
      rw [List.append_nil] at broken
      exact .trans _ _ _ (.rel _ _ (.finalBreak line)) broken
  | step line rest oneLine ih =>
      rw [texts_append_break, joined_append]
      exact .trans _ _ _ (ih.behind line) (relaid_line oneLine _)

theorem relaid_iff_texts_eq {source target : Text} :
    Relaid source target ↔ texts source = texts target := by
  refine ⟨texts_of_relaid, fun same => ?_⟩
  have back := relaid_joined target
  rw [← same] at back
  exact .trans _ _ _ (relaid_joined source) (.symm _ _ back)

/-- **Layout does not matter.** Two layouts of one source compile to the same program
with the same warnings, or both leave the same bound, whatever the width. -/
theorem compile_eq_of_relaid {source target : Text} (relaid : Relaid source target) (width : Nat) :
    compile width target = compile width source := by
  have same : (ofSource source).map SourceLine.text = (ofSource target).map SourceLine.text :=
    relaid_iff_texts_eq.1 relaid
  unfold compile
  rw [same]

/-- An include directive, blank lines, margins, carriage returns and a missing last
line break. -/
theorem compile_eq_of_relaid_ragged :
    Relaid "int main() \x7b\nx = 1;\n\x7d\n".toList
        "#include <stdio.h>\r\n\n  int main() \x7b\t\r\n \n\tx = 1; \n \x7d".toList ∧
      compile 4 "#include <stdio.h>\r\n\n  int main() \x7b\t\r\n \n\tx = 1; \n \x7d".toList =
        compile 4 "int main() \x7b\nx = 1;\n\x7d\n".toList := by
  have relaid : Relaid "int main() \x7b\nx = 1;\n\x7d\n".toList
      "#include <stdio.h>\r\n\n  int main() \x7b\t\r\n \n\tx = 1; \n \x7d".toList :=
    relaid_iff_texts_eq.2 (by decide)
  exact ⟨relaid, compile_eq_of_relaid relaid 4⟩

end Linewise
