/-
# Linewise.Proofs.PrintReading -- what is read from a line that is a print call

A line `printf("..."...);` is read from its start: the format ends at the first quote
behind the opening one, and what stands between that quote and the closing parenthesis
decides about the arguments (`argumentsBehind?`, `map_toCall_at?`).

So a call is read back as it was written if its format has no quote
(`Written.reads_back`). A literal may have one behind a backslash, and the backslash is
not looked at: the literal is read back exactly when there is none, and otherwise the
text behind its first quote is taken for arguments or for no call at all
(`literal_reads_back_iff`).
-/
import Linewise.Proofs.NestedArguments
import Linewise.Proofs.PrintShape
import Linewise.Proofs.RulePriority
import Mathlib.Data.List.Basic

namespace Linewise

open Text

set_option autoImplicit false

/-! ## Which rule decides -/

theorem Opening.ofLine_printf (t : Text) :
    Opening.ofLine ("printf(".toList ++ t) = ⟨"printf".toList, [], some '('⟩ := by
  have isName : IsName "printf".toList := by decide
  exact ofLine_word isName blanks_nil (by decide)

/-- A line that starts with `printf(` is none of the lines that begin in a certain way. -/
theorem LineKind.unshaped_of_printf (t : Text) :
    LineKind.ofLine ("printf(".toList ++ t) ∈ LineKind.unshaped := by
  refine (LineKind.mem_shaped_or_mem_unshaped _).resolve_left fun inShaped => ?_
  have begins := Rule.begins_of_accepts (Rule.accepts_ofKind ("printf(".toList ++ t))
  rw [Opening.ofLine_printf] at begins
  revert inShaped begins
  generalize LineKind.ofLine ("printf(".toList ++ t) = kind
  intro inShaped begins
  cases kind <;> simp_all [LineKind.shaped, LineKind.Begins]

namespace PrintCall

/-- It is a print call if it is read as one, and a statement otherwise. -/
theorem ofLine_printf (t : Text) :
    LineKind.ofLine ("printf(".toList ++ (t ++ [';'])) =
      if (parse? ("printf(".toList ++ (t ++ [';']))).isSome then .printCall else .statement := by
  have accepted := Rule.accepts_ofKind ("printf(".toList ++ (t ++ [';']))
  have unshaped := LineKind.unshaped_of_printf (t ++ [';'])
  have ends : (Rule.ofKind .statement).accepts ("printf(".toList ++ (t ++ [';'])) = true :=
    endsWith_concat ("printf(".toList ++ t) ';' ';'
  have inFront := LineKind.rank_ofLine_le ends
  simp only [LineKind.unshaped, List.mem_cons, List.not_mem_nil, or_false] at unshaped
  rcases unshaped with print | statement | passthrough
  · rw [print] at accepted ⊢
    exact (if_pos accepted).symm
  · have unread : ¬ (parse? ("printf(".toList ++ (t ++ [';']))).isSome = true := by
      intro read
      have printed : (Rule.ofKind .printCall).accepts ("printf(".toList ++ (t ++ [';'])) = true :=
        read
      have inFront := LineKind.rank_ofLine_le printed
      rw [statement] at inFront
      exact absurd inFront (by decide)
    rw [statement, if_neg unread]
  · rw [passthrough] at inFront
    exact absurd inFront (by decide)

/-! ## A call that starts its line -/

/-- The arguments of a call, by the text between the quote that ends its format and its
closing parenthesis: none if there are only blanks or if the call ends in front of that
parenthesis already, and a list behind a comma. Any other text makes it no call. -/
def argumentsBehind? (t : Text) : Option (List Text) :=
  match trimStart t with
  | [] => some []
  | ')' :: _ => some []
  | [','] => none
  | ',' :: list => some (Arguments.split list)
  | _ => none

/-- Whatever stands between the comma and the last parenthesis of the line is taken for
the arguments, less its leading blanks. -/
theorem arguments?_list {list after : Text} (ne : list ≠ []) (oneLine : '\n' ∉ list)
    (last : ')' ∉ firstLine after) :
    ∃ a, Occurrence.arguments? (list ++ ')' :: after) = some (a, after) ∧
      Arguments.split a.text = Arguments.split list := by
  by_cases blank : Blanks list
  · -- the last of the blanks is the argument text
    obtain ⟨front, c, rfl⟩ := (List.eq_nil_or_concat' list).resolve_left ne
    obtain ⟨frontBlank, lastBlank⟩ := blanks_append.1 blank
    have wf : ArgumentText.WellFormed ⟨front, [c]⟩ := by
      refine ⟨frontBlank, ?_, .inr ⟨c, rfl, by simpa using lastBlank⟩⟩
      exact fun member => oneLine (List.mem_append_right front member)
    refine ⟨⟨front, [c]⟩, ?_, (Arguments.split_blanks_append frontBlank [c]).symm⟩
    rw [List.append_assoc]
    exact Occurrence.arguments?_complete wf last
  · have wf : ArgumentText.WellFormed ⟨list.takeWhile isBlank, trimStart list⟩ := by
      refine ⟨blanks_takeWhile list, ?_, .inl ⟨?_, stops_trimStart list⟩⟩
      · exact fun member => oneLine (mem_of_mem_trimStart member)
      · exact fun empty => blank (trimStart_eq_nil_iff.1 empty)
    refine ⟨⟨list.takeWhile isBlank, trimStart list⟩, ?_, Arguments.split_trimStart list⟩
    have read := Occurrence.arguments?_complete wf last
    rwa [← List.append_assoc, takeWhile_append_trimStart] at read

theorem map_toCall_at? {format t : Text} (noQuote : '"' ∉ format) (oneLine : '\n' ∉ t) :
    (Occurrence.at? ("printf(\"".toList ++ (format ++ '"' :: (t ++ ");".toList)))).map
        Occurrence.toCall =
      (argumentsBehind? t).map (PrintCall.mk format) := by
  have name : "printf(\"".toList = "printf".toList ++ "(\"".toList := rfl
  have opened : ∀ r, trimStart ("(\"".toList ++ r) = "(\"".toList ++ r := fun r =>
    trimStart_append blanks_nil (stops_cons.2 (by decide))
  have quote : ∀ r, dropStart? "\"".toList ('"' :: r) = some r := dropStart?_append ['"']
  obtain ⟨taken, dropped⟩ := Occurrence.format_eq_iff.2
    ⟨(rfl : format ++ '"' :: (t ++ ");".toList) = _), noQuote⟩
  have behind : trimStart (t ++ ");".toList) = trimStart t ++ ");".toList :=
    trimStart_append_of_stops t (stops_cons.2 (by decide))
  have oneLineBody : '\n' ∉ trimStart t :=
    fun member => oneLine (mem_of_mem_trimStart member)
  simp only [Occurrence.at?, argumentsBehind?, name, List.append_assoc, dropStart?_append,
    Option.bind_eq_bind, Option.bind_some, opened, taken, dropped, quote, behind]
  cases body : trimStart t with
  | nil => rfl
  | cons c rest =>
      rw [body] at oneLineBody
      by_cases ends : c = ')'
      · subst ends
        rfl
      by_cases comma : c = ','
      · subst comma
        cases rest with
        | nil => rfl
        | cons d rest =>
            obtain ⟨a, read, args⟩ : ∃ a, Occurrence.arguments? (d :: rest ++ ");".toList) =
                some (a, [';']) ∧ Arguments.split a.text = Arguments.split (d :: rest) :=
              arguments?_list (List.cons_ne_nil d rest)
                (fun member => oneLineBody (List.mem_cons_of_mem _ member)) (by decide)
            rw [List.cons_append]
            simp only [read, Option.bind_some, Option.map_some, Occurrence.toCall, args]
      · simp [ends, comma]

/-! ## A call as it is written -/

open Arguments

/-- A print statement as it is written: the format, the blanks behind its literal, and the
arguments, each with the blanks around it. -/
structure Written where
  format : Text
  gap : Margin
  args : List Spaced
  noQuote : '"' ∉ format
  oneLine : '\n' ∉ format

namespace Written

def literal (w : Written) : Text :=
  '"' :: w.format ++ '"' :: w.gap.text

def line (w : Written) : Text :=
  "printf(".toList ++ (join [','] (w.literal :: w.args.map Spaced.text) ++ ");".toList)

/-- What stands between the literal and the closing parenthesis. -/
def tail (w : Written) : Text :=
  match w.args with
  | [] => w.gap.text
  | args => w.gap.text ++ ',' :: join [','] (args.map Spaced.text)

theorem line_eq (w : Written) :
    w.line = "printf(\"".toList ++ (w.format ++ '"' :: (w.tail ++ ");".toList)) := by
  have opening : "printf(\"".toList = "printf(".toList ++ ['"'] := rfl
  obtain ⟨format, gap, args, noQuote, oneLine⟩ := w
  unfold line literal tail
  rw [opening]
  cases args with
  | nil => simp only [List.map_nil, join, List.append_assoc, List.cons_append, List.nil_append]
  | cons first later =>
      simp only [List.map_cons, join, List.append_assoc, List.cons_append, List.nil_append]

theorem oneLine_tail (w : Written) : '\n' ∉ w.tail := by
  have inList : '\n' ∉ join [','] (w.args.map Spaced.text) := by
    intro member
    rcases mem_of_mem_join member with comma | ⟨piece, inArgs, member⟩
    · exact absurd comma (by decide)
    · obtain ⟨arg, -, rfl⟩ := List.mem_map.1 inArgs
      exact arg.oneLine member
  unfold tail
  split
  · exact w.gap.oneLine
  · simpa using ⟨w.gap.oneLine, inList⟩

theorem argumentsBehind?_tail (w : Written) :
    argumentsBehind? w.tail = some (w.args.map (·.argument.text)) := by
  obtain ⟨format, gap, args, noQuote, oneLine⟩ := w
  cases args with
  | nil => simp [argumentsBehind?, tail, trimStart_eq_nil_iff.2 gap.blank]
  | cons first later =>
      have behind : trimStart (gap.text ++ ',' :: join [','] ((first :: later).map Spaced.text)) =
          ',' :: join [','] ((first :: later).map Spaced.text) :=
        trimStart_append gap.blank (stops_cons.2 (by decide))
      have split := split_join (first :: later)
      have filled : join [','] ((first :: later).map Spaced.text) ≠ [] := by
        intro empty
        rw [empty] at split
        cases split
      obtain ⟨c, list, eq⟩ := List.exists_cons_of_ne_nil filled
      simp only [tail, argumentsBehind?, behind]
      rw [eq] at split ⊢
      exact congrArg some split

theorem parse?_line (w : Written) :
    parse? w.line = some { format := w.format, args := w.args.map (·.argument.text) } := by
  have start := map_toCall_at? w.noQuote w.oneLine_tail
  rw [← w.line_eq, w.argumentsBehind?_tail, Option.map_some] at start
  obtain ⟨o, read, call⟩ := Option.map_eq_some_iff.1 start
  rw [parse?, Occurrence.find?_of_at? read, Option.map_some, call]

theorem ofLine_line (w : Written) : LineKind.ofLine w.line = .printCall := by
  have kind := ofLine_printf (join [','] (w.literal :: w.args.map Spaced.text) ++ [')'])
  have shape : "printf(".toList ++
      (join [','] (w.literal :: w.args.map Spaced.text) ++ [')'] ++ [';']) = w.line := by
    unfold line
    rw [List.append_assoc (join _ _)]
    rfl
  rwa [shape, w.parse?_line, Option.isSome_some, if_pos rfl] at kind

/-- **A print call is read back as it was written**, with its format and its arguments in
order, whatever stands inside them and whatever blanks are around them. -/
theorem reads_back (w : Written) :
    LineKind.ofLine w.line = .printCall ∧
      parse? w.line = some { format := w.format, args := w.args.map (·.argument.text) } :=
  ⟨w.ofLine_line, w.parse?_line⟩

/-- An argument with a comma and a parenthesis inside brackets and quotes. -/
def quotedArgument : Argument where
  text := "f(\")\", i)".toList
  nonempty := by decide
  trimmed := by decide
  balanced := by
    have inside : Arguments.Balanced true "\")\", i".toList := by
      have quoted : Quoted '"' [')'] := .char (by decide) (by decide) .nil
      have behind : Arguments.Balanced true ", i".toList :=
        .char (by decide) (.char (by decide) (.char (by decide) .nil))
      exact .literal (by decide) quoted behind
    exact .char (by decide) (.group (by decide) (by decide) inside .nil)
  oneLine := by decide

/-- `printf("%s %d" , s,f(")", i) );`. -/
def spacedCall : Written where
  format := "%s %d".toList
  gap := .space
  args :=
    let s : Argument :=
      ⟨['s'], by decide, by decide, .char (by decide) .nil, by decide⟩
    [⟨.space, s, .none⟩, ⟨.none, quotedArgument, .space⟩]
  noQuote := by decide
  oneLine := by decide

theorem reads_back_spacedCall :
    spacedCall.line = "printf(\"%s %d\" , s,f(\")\", i) );".toList ∧
      LineKind.ofLine spacedCall.line = .printCall ∧
      parse? spacedCall.line =
        some { format := "%s %d".toList, args := ["s".toList, "f(\")\", i)".toList] } :=
  ⟨by decide, spacedCall.reads_back⟩

end Written

/-! ## A literal with quotes in it -/

/-- A statement that prints one literal. -/
def literalLine (inside : Text) : Text :=
  "printf(\"".toList ++ (inside ++ "\");".toList)

/-- Only the quote that ends a literal may stand behind another character than a
backslash. -/
theorem getLast?_of_quoted {inside tail front rest : Text} (quoted : Quoted '"' inside)
    (cut : inside ++ '"' :: tail = front ++ '"' :: rest) (last : '"' ∉ tail) (more : '"' ∈ rest) :
    front.getLast? = some '\\' := by
  induction quoted generalizing front with
  | nil =>
      cases front with
      | nil => exact absurd ((List.cons.inj cut).2 ▸ more) last
      | cons c front => exact absurd ((List.cons.inj cut).2 ▸ by simp) last
  | char plain notQuote _ ih =>
      cases front with
      | nil => exact absurd (List.cons.inj cut).1 notQuote
      | cons c front =>
          have behind := ih (List.cons.inj cut).2
          rw [List.getLast?_cons, behind, Option.getD_some]
  | @escaped c inside _ ih =>
      rcases front with _ | ⟨first, _ | ⟨second, front⟩⟩
      · exact absurd (List.cons.inj cut).1 (by decide)
      · rw [← (List.cons.inj cut).1]
        rfl
      · have behind := ih (List.cons.inj (List.cons.inj cut).2).2
        rw [List.getLast?_cons, List.getLast?_cons, behind, Option.getD_some, Option.getD_some]

section Literal

variable {inside : Text} (quoted : Quoted '"' inside)

include quoted

/-- No call is found inside the literal, as its opening quote would stand behind a
parenthesis. -/
theorem before_of_find?_literalLine {o : Occurrence}
    (found : Occurrence.find? (literalLine inside) = some o) : o.before = [] := by
  obtain ⟨spelled, -⟩ := Occurrence.spelling_of_find? found
  have cut : "printf(".toList ++ '"' :: (inside ++ '"' :: ");".toList) =
      (o.before ++ "printf".toList ++ o.space ++ ['(']) ++
        '"' :: (o.format ++ '"' :: (o.gap ++ o.ending)) := by
    simp only [List.append_assoc]
    exact spelled
  have fits : ∀ {t : Text}, o.before ++ "printf".toList ++ o.space ++ ['('] ++ t =
      "printf(".toList → o.before = [] := by
    intro t eq
    have length := congrArg List.length eq
    have name : "printf".toList.length = 6 := rfl
    have opening : "printf(".toList.length = 7 := rfl
    simp only [List.length_append, List.length_singleton, name, opening] at length
    exact List.length_eq_zero_iff.1 (by omega)
  -- The opening quote of the call is the first quote of the line or a later one. It
  -- cannot be later: it would stand behind a parenthesis, with another quote to come.
  rcases List.append_eq_append_iff.1 cut with ⟨between, opening, behind⟩ | ⟨between, opening, -⟩
  · cases between with
    | nil =>
        rw [List.append_nil] at opening
        exact fits ((List.append_nil _).trans opening)
    | cons c between =>
        have front := getLast?_of_quoted quoted (List.cons.inj behind).2 (by decide) (by simp)
        have same := congrArg List.getLast? opening
        rw [List.getLast?_concat, List.getLast?_append, List.getLast?_cons, front] at same
        cases same
  · exact fits opening.symm

theorem parse?_literalLine :
    parse? (literalLine inside) = (Occurrence.at? (literalLine inside)).map Occurrence.toCall := by
  unfold parse?
  cases found : Occurrence.find? (literalLine inside) with
  | none =>
      cases read : Occurrence.at? (literalLine inside) with
      | none => rfl
      | some o =>
          rw [Occurrence.find?_of_at? read] at found
          cases found
  | some o =>
      obtain ⟨spelled, wf⟩ := Occurrence.spelling_of_find? found
      have start := before_of_find?_literalLine quoted found
      rw [spelled, Occurrence.at?_complete start wf]

/-- The literal is cut at its first quote, and what stands behind is taken for the end of
the call. -/
theorem parse?_of_quote {front rest : Text} (eq : inside = front ++ '"' :: rest)
    (first : '"' ∉ front) (oneLine : '\n' ∉ inside) :
    parse? (literalLine inside) = (argumentsBehind? (rest ++ ['"'])).map (PrintCall.mk front) := by
  have oneLineRest : '\n' ∉ rest ++ ['"'] := by
    intro member
    rw [List.mem_append, List.mem_singleton] at member
    rcases member with inRest | quote
    · exact oneLine (eq ▸ by simp [inRest])
    · cases quote
  have shape : literalLine inside =
      "printf(\"".toList ++ (front ++ '"' :: (rest ++ ['"'] ++ ");".toList)) := by
    unfold literalLine
    rw [eq, List.append_assoc, List.cons_append, List.append_assoc rest]
    rfl
  rw [parse?_literalLine quoted, shape, map_toCall_at? first oneLineRest]

theorem parse?_of_noQuote (noQuote : '"' ∉ inside) :
    parse? (literalLine inside) = some { format := inside, args := [] } := by
  rw [parse?_literalLine quoted]
  exact map_toCall_at? noQuote (List.not_mem_nil)

end Literal

theorem ofLine_literalLine (inside : Text) :
    LineKind.ofLine (literalLine inside) =
      if (parse? (literalLine inside)).isSome then .printCall else .statement := by
  have shape : "printf(".toList ++ ('"' :: inside ++ "\")".toList ++ [';']) =
      literalLine inside := by
    rw [List.append_assoc]
    rfl
  rw [← shape]
  exact ofLine_printf _

/-- **When a literal is read back.** A statement that prints one literal is a print call
with that literal for its format exactly when the literal has no quote in it, not even
behind a backslash. Otherwise its format ends at the first quote, and what stands behind
that makes up its arguments or makes it no print call. -/
theorem literal_reads_back_iff {inside : Text} (quoted : Quoted '"' inside)
    (oneLine : '\n' ∉ inside) :
    ((LineKind.ofLine (literalLine inside) = .printCall ∧
        parse? (literalLine inside) = some { format := inside, args := [] }) ↔ '"' ∉ inside) ∧
      ∀ front rest, inside = front ++ '"' :: rest → '"' ∉ front →
        parse? (literalLine inside) =
          (argumentsBehind? (rest ++ ['"'])).map (PrintCall.mk front) ∧
        LineKind.ofLine (literalLine inside) =
          if (argumentsBehind? (rest ++ ['"'])).isSome then .printCall else .statement := by
  have kind := ofLine_literalLine inside
  refine ⟨⟨?_, ?_⟩, ?_⟩
  · rintro ⟨-, read⟩ member
    obtain ⟨front, rest, eq, first⟩ := List.eq_append_cons_of_mem member
    rw [parse?_of_quote quoted eq first oneLine] at read
    obtain ⟨args, -, call⟩ := Option.map_eq_some_iff.1 read
    have length := congrArg List.length ((PrintCall.mk.inj call).1.trans eq)
    simp at length
  · intro noQuote
    have read := parse?_of_noQuote quoted noQuote
    rw [read] at kind
    exact ⟨kind, read⟩
  · intro front rest eq first
    have read := parse?_of_quote quoted eq first oneLine
    rw [read, Option.isSome_map] at kind
    exact ⟨read, kind⟩

/-- `a\",b`, where the quote belongs to the literal. -/
def commaLiteral : Text :=
  "a\\\",b".toList

theorem quoted_commaLiteral : Quoted '"' commaLiteral :=
  .char (by decide) (by decide)
    (.escaped (.char (by decide) (by decide) (.char (by decide) (by decide) .nil)))

theorem literal_reads_back_iff_commaLiteral :
    Quoted '"' commaLiteral ∧ '\n' ∉ commaLiteral ∧
      LineKind.ofLine (literalLine commaLiteral) = .printCall ∧
      parse? (literalLine commaLiteral) =
        some { format := "a\\".toList, args := ["b\"".toList] } := by
  have oneLine : '\n' ∉ commaLiteral := by decide
  obtain ⟨read, kind⟩ := (literal_reads_back_iff quoted_commaLiteral oneLine).2
    "a\\".toList ",b".toList rfl (by decide)
  exact ⟨quoted_commaLiteral, oneLine, kind, read⟩

/-- Without the comma it is not read at all. -/
theorem not_read_of_escaped_quote :
    Quoted '"' "a\\\"b".toList ∧ '\n' ∉ "a\\\"b".toList ∧
      literalLine "a\\\"b".toList = "printf(\"a\\\"b\");".toList ∧
      LineKind.ofLine (literalLine "a\\\"b".toList) = .statement ∧
      parse? (literalLine "a\\\"b".toList) = none := by
  have quoted : Quoted '"' "a\\\"b".toList :=
    .char (by decide) (by decide) (.escaped (.char (by decide) (by decide) .nil))
  exact ⟨quoted, by decide, by decide, by decide, by decide⟩

end PrintCall

end Linewise
