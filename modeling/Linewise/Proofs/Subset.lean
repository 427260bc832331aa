/-
# Linewise.Proofs.Subset -- programs of the subset are translated as trees

A program of the subset is a tree: statements, and blocks behind what stands in
front of them, to any depth (`Code`). It has the lines it is written as
(`Code.source`) and a translation that follows the tree, where every line stands
at the depth of its block (`Code.print`).

The translator knows nothing of the tree. It takes in one line after the other
and counts braces. For every program of the subset, however it is laid out, it
gives the translation of the tree (`compile_layout`): over the lines of a block
the count comes back to where it was, which is what lets the induction follow the
tree (`place_source`).
-/
import Linewise.Proofs.SubsetLine

namespace Linewise.Subset

open Text

set_option autoImplicit false

/-! ## Programs -/

/-- A sequence of statements and blocks. -/
inductive Code where
  | done
  | line (leaf : Leaf) (rest : Code)
  | block (head : Head) (body rest : Code)

namespace Code

/-- The lines of the program, without indentation. -/
def source : Code → List Text
  | done => []
  | line leaf rest => leaf.source :: rest.source
  | block head body rest => head.source ++ (body.source ++ ['}'] :: rest.source)

/-- The lines of the translation, each at the depth of its block. -/
def print (depth : Nat) : Code → List Placed
  | done => []
  | line leaf rest => ⟨depth, leaf.target⟩ :: rest.print depth
  | block head body rest =>
      head.target.map (Placed.mk depth) ++ (body.print (depth + 1) ++ ⟨depth, ['}']⟩ ::
        rest.print depth)

/-- The warnings, in order. -/
def shortages : Code → List Shortage
  | done => []
  | line leaf rest => leaf.shortage.toList ++ rest.shortages
  | block _ body rest => body.shortages ++ rest.shortages

/-- How deep the blocks are nested. -/
def height : Code → Nat
  | done => 0
  | line _ rest => rest.height
  | block _ body rest => max (body.height + 1) rest.height

/-- The depth of the blocks and the indentations stay within the bounds. -/
structure Fits (width : Nat) (code : Code) : Prop where
  depths : code.height ≤ wordLimit
  indentations : ∀ p ∈ code.print 0, p.Fits width

theorem isLine_source (code : Code) : ∀ line ∈ code.source, IsLine line := by
  induction code with
  | done => simp [source]
  | line leaf rest ih => exact List.forall_mem_cons.2 ⟨leaf.isLine_source, ih⟩
  | block head body rest ihBody ih =>
      exact List.forall_mem_append.2 ⟨head.isLine_source, List.forall_mem_append.2
        ⟨ihBody, List.forall_mem_cons.2 ⟨isLine_brace (.inr rfl), ih⟩⟩⟩

/-! ## The pass over the lines of a program -/

/-- The lines of a program are rendered as its translation says, and leave the
depth as it was. -/
theorem place_source (code : Code) (depth : Nat) (rest : List Rendering) :
    place depth (code.source.map Rendering.ofLine ++ rest) =
      code.print depth ++ place depth rest := by
  induction code generalizing depth rest with
  | done => rfl
  | line leaf others ih =>
      simp only [source, List.map_cons, List.cons_append, leaf.ofLine_source, place, print]
      exact congrArg _ (ih depth rest)
  | block head body others ihBody ih =>
      simp only [source, List.map_append, List.map_cons, head.ofLine_source, ofLine_close,
        List.append_assoc, List.cons_append, head.place_renderings, ihBody, place, print]
      exact congrArg _ (congrArg _ (congrArg _ (ih depth rest)))

theorem print_eq_place (code : Code) (depth : Nat) :
    place depth (code.source.map Rendering.ofLine) = code.print depth := by
  simpa [place] using code.place_source depth []

theorem depthsBounded_source (code : Code) {depth : Nat} (h : depth ≤ wordLimit)
    (rest : List Rendering) :
    DepthsBounded depth ((code.source.map Rendering.ofLine ++ rest).map Rendering.change) ↔
      depth + code.height ≤ wordLimit ∧ DepthsBounded depth (rest.map Rendering.change) := by
  induction code generalizing depth rest with
  | done => simp [source, height, h]
  | line leaf others ih =>
      simp only [source, List.map_cons, List.cons_append, leaf.ofLine_source, DepthsBounded,
        DepthChange.nextDepth, height]
      simpa using ih h rest
  | block head body others ihBody ih =>
      have split : (block head body others).source.map Rendering.ofLine ++ rest =
          head.renderings ++ (body.source.map Rendering.ofLine ++
            { text := ['}'], change := .closes } :: (others.source.map Rendering.ofLine ++ rest)) := by
        simp [source, head.ofLine_source, ofLine_close]
      rw [split, head.depthsBounded_renderings, height]
      constructor
      · rintro ⟨deeper, inside⟩
        obtain ⟨bodyFits, close⟩ := (ihBody deeper _).1 inside
        obtain ⟨othersFit, bounded⟩ := (ih h rest).1 close.2
        exact ⟨by omega, bounded⟩
      · rintro ⟨fits, bounded⟩
        have deeper : depth < wordLimit := by omega
        refine ⟨deeper, (ihBody deeper _).2 ⟨by omega, ?_⟩⟩
        exact ⟨by simp, (ih h rest).2 ⟨by omega, bounded⟩⟩

theorem shortages_source (code : Code) :
    (code.source.map Rendering.ofLine).filterMap Rendering.shortage = code.shortages := by
  induction code with
  | done => rfl
  | line leaf rest ih =>
      cases h : leaf.shortage <;> simp [source, shortages, leaf.ofLine_source, h, ih]
  | block head body rest ihBody ih =>
      simp [source, shortages, head.ofLine_source, head.shortages_renderings, ofLine_close, ihBody, ih]

theorem noOverflow_source (width : Nat) (code : Code) :
    NoOverflow width 0 (code.source.map Rendering.ofLine) ↔ code.Fits width := by
  have placed := code.print_eq_place 0
  have bounded : DepthsBounded 0 ((code.source.map Rendering.ofLine).map Rendering.change) ↔
      code.height ≤ wordLimit := by
    simpa [DepthsBounded] using code.depthsBounded_source (Nat.zero_le wordLimit) []
  constructor
  · rintro ⟨depths, indentations⟩
    exact ⟨bounded.1 depths, placed ▸ indentations⟩
  · rintro ⟨depths, indentations⟩
    exact ⟨bounded.2 depths, placed ▸ indentations⟩

end Code

/-! ## Layouts -/

/-- A raw line that is skipped: blank, or an include directive. -/
structure IsSkipped (raw : Text) : Prop where
  oneLine : '\n' ∉ raw
  shape : Blanks raw ∨ ∃ lead rest, raw = lead ++ ("#include".toList ++ rest) ∧ Blanks lead

/-- Blanks in front of a line or behind it. -/
def IsMargin (t : Text) : Prop :=
  Blanks t ∧ '\n' ∉ t

instance : DecidablePred IsMargin := fun _ => inferInstanceAs (Decidable (_ ∧ _))

/-- The sources that hold these lines in this order: each line has margins, lines
that are skipped stand anywhere, and the last line may lack its line feed. A
carriage return in front of a line feed belongs to the margin. -/
inductive Layout : List Text → Text → Prop
  | finish {raw : Text} : IsSkipped raw → Layout [] raw
  | finishLine {lead line trail : Text} :
      IsMargin lead → IsMargin trail → Layout [line] (lead ++ line ++ trail)
  | skip {raw source : Text} {lines : List Text} :
      IsSkipped raw → Layout lines source → Layout lines (raw ++ '\n' :: source)
  | line {lead line trail source : Text} {lines : List Text} :
      IsMargin lead → IsMargin trail → Layout lines source →
        Layout (line :: lines) (lead ++ line ++ trail ++ '\n' :: source)

theorem IsSkipped.not_counts {raw : Text} (h : IsSkipped raw) :
    SourceLine.counts (trim raw) = false := by
  rcases h.shape with blank | ⟨lead, rest, rfl, blank⟩
  · have empty : trim raw = trim [] := by simpa using trim_append (t := []) blank blanks_nil
    rw [empty]
    rfl
  · have front : trimStart (lead ++ ("#include".toList ++ rest)) = "#include".toList ++ rest :=
      trimStart_append blank (stops_cons.2 (by decide))
    have last : Stops isBlank "#include".toList.reverse := stops_cons.2 (by decide)
    have directive : startsWith (trim (lead ++ ("#include".toList ++ rest))) "#include".toList =
        true := by
      rw [trim, front, trimEnd_append_of_stops last]
      exact List.isPrefixOf_iff_prefix.2 (List.prefix_append ..)
    rw [SourceLine.counts, directive, Bool.not_true, Bool.and_false]

theorem IsLine.counts {line : Text} (h : IsLine line) : SourceLine.counts line = true := by
  have nonempty := h.nonempty
  rw [SourceLine.counts, h.notInclude]
  simpa using nonempty

/-- A line between its margins. -/
theorem IsLine.trim_margins {lead line trail : Text} (h : IsLine line) (hl : IsMargin lead)
    (ht : IsMargin trail) : trim (lead ++ line ++ trail) = line := by
  rw [trim_append hl.1 ht.1, h.trimmed]

theorem IsLine.oneLine_margins {lead line trail : Text} (h : IsLine line) (hl : IsMargin lead)
    (ht : IsMargin trail) : '\n' ∉ lead ++ line ++ trail := by
  simp [hl.2, h.oneLine, ht.2]

/-- The kept lines of a layout are its lines. -/
theorem Layout.kept_texts {lines : List Text} {source : Text} (layout : Layout lines source)
    (isLine : ∀ line ∈ lines, IsLine line) :
    (SourceLine.ofSource source).map SourceLine.text = lines := by
  rw [SourceLine.ofSource_texts]
  induction layout with
  | @finish raw skipped =>
      by_cases empty : raw = []
      · simp [empty, Text.lines]
      · simp [lines_of_oneLine empty skipped.oneLine, skipped.not_counts]
  | @finishLine lead line trail hl ht =>
      have h := isLine line (by simp)
      have nonempty : lead ++ line ++ trail ≠ [] := by simp [h.nonempty]
      rw [lines_of_oneLine nonempty (h.oneLine_margins hl ht), List.map_singleton,
        h.trim_margins hl ht, List.filter_cons_of_pos h.counts, List.filter_nil]
  | @skip raw source lines skipped _ ih =>
      obtain ⟨first, same, split⟩ := lines_append_break skipped.oneLine source
      rw [split, List.map_cons, trim_of_break same,
        List.filter_cons_of_neg (by simp [skipped.not_counts]), ih isLine]
  | @line lead line trail source lines hl ht _ ih =>
      have h := isLine line (by simp)
      obtain ⟨first, same, split⟩ := lines_append_break (h.oneLine_margins hl ht) source
      rw [split, List.map_cons, trim_of_break same, h.trim_margins hl ht,
        List.filter_cons_of_pos h.counts,
        ih fun other member => isLine other (List.mem_cons_of_mem _ member)]

/-! ## The translation of a program -/

/-- Every layout of a program of the subset is compiled to the translation of its
tree, unless the blocks are too deep or an indentation is too long. -/
theorem compile_layout {width : Nat} {code : Code} {source : Text} {compilation : Compilation}
    (layout : Layout code.source source) :
    compile width source = .ok compilation ↔
      code.Fits width ∧
        compilation = { program := programText width (code.print 0), shortages := code.shortages } := by
  have renderings : renderings source = code.source.map Rendering.ofLine := by
    rw [Linewise.renderings, layout.kept_texts code.isLine_source]
  rw [compile_eq_ok_iff, renderings, code.print_eq_place, code.noOverflow_source,
    code.shortages_source]

/-- A call with a comma between its parentheses, as an argument. -/
def nestedCall : Arguments.Argument where
  text := "f(i, 1)".toList
  nonempty := by decide
  trimmed := by decide
  balanced := by
    have inside : Arguments.Balanced true "i, 1".toList :=
      .char (by decide) (.char (by decide) (.char (by decide) (.char (by decide) .nil)))
    exact .char (by decide) (.group (by decide) (by decide) inside .nil)
  oneLine := by decide

/-- An entry point with a loop that prints. -/
def printingLoop : Code :=
  .block (.entry ⟨⟨"int".toList, by decide⟩, true⟩)
    (.block
      (.loop
        { type := .int
          rest := "i = 0; i < 3; i++)".toList
          oneLine := by decide
          ends := ⟨"i = 0; i < 3; i++".toList, ')', by decide, by decide, by decide⟩
          noPrint := by decide })
      (.line (.print ⟨"%d\\n".toList, [nestedCall], by decide, by decide⟩) .done) .done)
    .done

/-- A layout of it, with an include directive in front, ragged margins and no line
feed at the end. -/
def raggedSource : Text :=
  "#include <stdio.h>".toList ++ '\n' ::
    (" ".toList ++ "int main(void) \x7b".toList ++ [] ++ '\n' ::
      ([] ++ "for (int i = 0; i < 3; i++)".toList ++ "\r".toList ++ '\n' ::
        ("\t".toList ++ "\x7b".toList ++ [] ++ '\n' ::
          ([] ++ "printf(\"%d\\n\", f(i, 1));".toList ++ " ".toList ++ '\n' ::
            ("  ".toList ++ "\x7d".toList ++ [] ++ '\n' ::
              ([] ++ "\x7d".toList ++ " ".toList))))))

theorem layout_raggedSource : Layout printingLoop.source raggedSource := by
  refine .skip ⟨by decide, .inr ⟨[], " <stdio.h>".toList, by decide, by decide⟩⟩ ?_
  refine .line (by decide) (by decide) (.line (by decide) (by decide) (.line (by decide) (by decide)
    (.line (by decide) (by decide) (.line (by decide) (by decide)
      (.finishLine (by decide) (by decide))))))

theorem compile_layout_raggedSource :
    Layout printingLoop.source raggedSource ∧
      compile 2 raggedSource =
        .ok { program := ("function main() \x7b\n  for (let i = 0; i < 3; i++)\n  \x7b\n" ++
                "    console.log(\x60$\x7bf(i, 1)\x7d\x60);\n  \x7d\n\x7d\n\nmain();\n").toList
              shortages := [] } := by
  have fits : printingLoop.Fits 2 := ⟨by decide, by decide⟩
  exact ⟨layout_raggedSource, (compile_layout layout_raggedSource).2 ⟨fits, by decide⟩⟩

end Linewise.Subset
