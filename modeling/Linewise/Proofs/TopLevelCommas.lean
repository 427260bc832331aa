/-
# Linewise.Proofs.TopLevelCommas -- an argument list is cut at its top-level commas

The scanner of an argument list is flat: it has one counter for both kinds of brackets
and remembers the quote of the literal it is in. Here a list has the structure that is
meant: plain characters, literals, and groups that hold such a text again (`Nested`).
The structure tells for each character whether it lies inside a group or a literal
(`Nested.enclosed`).

Between any two neighbouring pieces the scanner took away one comma (`IsBreak`), and
nothing else (`join_pieces`). In a nested text these are the commas that are not
enclosed: `Nested.marksBreaks`, by induction over the structure. A group or a literal
is passed as a whole, since the scanner comes back from it to where it was
(`Balanced.pieces_append`).
-/
import Linewise.Proofs.NestedArguments

namespace Linewise.Arguments

open Text

set_option autoImplicit false

/-! ## Breaks between pieces -/

/-- When the pieces are joined by commas, the comma at place `i` is not from a piece but
stands between two of them. -/
def IsBreak (pieces : List Text) (i : Nat) : Prop :=
  ∃ front back, pieces = front ++ back ∧ front ≠ [] ∧ back ≠ [] ∧ i = (join [','] front).length

theorem not_isBreak_singleton (piece : Text) (i : Nat) : ¬ IsBreak [piece] i := by
  rintro ⟨front, back, eq, frontNe, backNe, -⟩
  have length := congrArg List.length eq
  have frontPos := List.length_pos_iff.2 frontNe
  have backPos := List.length_pos_iff.2 backNe
  simp only [List.length_singleton, List.length_append] at length
  omega

theorem isBreak_nil_cons {pieces : List Text} (ne : pieces ≠ []) (i : Nat) :
    IsBreak ([] :: pieces) i ↔ i = 0 ∨ ∃ j, i = j + 1 ∧ IsBreak pieces j := by
  constructor
  · rintro ⟨front, back, eq, frontNe, backNe, rfl⟩
    obtain ⟨first, front, rfl⟩ := List.exists_cons_of_ne_nil frontNe
    obtain ⟨rfl, rfl⟩ := List.cons.inj eq
    by_cases more : front = []
    · subst more
      exact .inl rfl
    · rw [join_nil_cons _ more, List.singleton_append, List.length_cons]
      exact .inr ⟨_, rfl, front, back, rfl, more, backNe, rfl⟩
  · rintro (rfl | ⟨j, rfl, front, back, rfl, frontNe, backNe, rfl⟩)
    · exact ⟨[[]], pieces, rfl, by simp, ne, rfl⟩
    · refine ⟨[] :: front, back, rfl, by simp, backNe, ?_⟩
      rw [join_nil_cons _ frontNe, List.singleton_append, List.length_cons]

theorem isBreak_cons_cons (c : Char) (first : Text) (later : List Text) (i : Nat) :
    IsBreak ((c :: first) :: later) i ↔ ∃ j, i = j + 1 ∧ IsBreak (first :: later) j := by
  have joined : ∀ front, (join [','] ((c :: first) :: front)).length =
      (join [','] (first :: front)).length + 1 := by
    intro front
    have eq := join_consFirst [','] c (List.cons_ne_nil first front)
    rw [consFirst] at eq
    rw [eq, List.length_cons]
  constructor
  · rintro ⟨front, back, eq, frontNe, backNe, rfl⟩
    obtain ⟨head, front, rfl⟩ := List.exists_cons_of_ne_nil frontNe
    obtain ⟨rfl, rfl⟩ := List.cons.inj eq
    exact ⟨_, joined front, first :: front, back, rfl, by simp, backNe, rfl⟩
  · rintro ⟨j, rfl, front, back, eq, frontNe, backNe, rfl⟩
    obtain ⟨head, front, rfl⟩ := List.exists_cons_of_ne_nil frontNe
    obtain ⟨rfl, rfl⟩ := List.cons.inj eq
    exact ⟨(c :: first) :: front, back, rfl, by simp, backNe, (joined front).symm⟩

/-- The breaks between the pieces are the commas of the text that are not covered. -/
def MarksBreaks (pieces : List Text) (t : Text) (covered : List Bool) : Prop :=
  ∀ i, IsBreak pieces i ↔ t[i]? = some ',' ∧ covered[i]? = some false

namespace MarksBreaks

variable {first t : Text} {later : List Text} {covered : List Bool}

theorem nil : MarksBreaks [[]] [] [] := by
  intro i
  simp [not_isBreak_singleton]

theorem comma (h : MarksBreaks (first :: later) t covered) :
    MarksBreaks ([] :: first :: later) (',' :: t) (false :: covered) := by
  intro i
  rw [isBreak_nil_cons (List.cons_ne_nil _ _)]
  cases i with
  | zero => simp
  | succ i => simpa using h i

theorem char (h : MarksBreaks (first :: later) t covered) {c : Char} {cover : Bool}
    (hidden : c = ',' → cover = true) :
    MarksBreaks ((c :: first) :: later) (c :: t) (cover :: covered) := by
  intro i
  rw [isBreak_cons_cons]
  cases i with
  | zero =>
      simp only [List.getElem?_cons_zero, Option.some.injEq]
      constructor
      · rintro ⟨j, impossible, -⟩
        omega
      · rintro ⟨isComma, uncovered⟩
        rw [hidden isComma] at uncovered
        cases uncovered
  | succ i => simpa using h i

theorem append (h : MarksBreaks (first :: later) t covered) (u : Text) :
    MarksBreaks ((u ++ first) :: later) (u ++ t) (List.replicate u.length true ++ covered) := by
  induction u with
  | nil => exact h
  | cons c u ih => exact ih.char fun _ => rfl

end MarksBreaks

/-! ## Nested texts -/

inductive Bracket where
  | round
  | square
  deriving Repr, DecidableEq

namespace Bracket

def opening : Bracket → Char
  | round => '('
  | square => '['

def closing : Bracket → Char
  | round => ')'
  | square => ']'

theorem isOpening (b : Bracket) : IsOpening b.opening := by
  cases b
  · exact .inl rfl
  · exact .inr rfl

theorem isClosing (b : Bracket) : IsClosing b.closing := by
  cases b
  · exact .inl rfl
  · exact .inr rfl

end Bracket

/-- A text with its structure, from the left: characters that are neither quotes nor
brackets, literals between two quotes of one kind, and groups between two brackets of one
kind. -/
inductive Nested where
  | nil
  | plain (c : Char) (ordinary : IsOrdinary true c) (rest : Nested)
  | literal (quote : Char) (inside : Text) (isQuote : IsQuote quote) (quoted : Quoted quote inside)
      (rest : Nested)
  | group (bracket : Bracket) (inside rest : Nested)

namespace Nested

/-- A text between two delimiters. -/
def delimited (opening : Char) (inside : Text) (closing : Char) : Text :=
  opening :: (inside ++ [closing])

def text : Nested → Text
  | nil => []
  | plain c _ rest => c :: rest.text
  | literal quote inside _ _ rest => delimited quote inside quote ++ rest.text
  | group bracket inside rest =>
    delimited bracket.opening inside.text bracket.closing ++ rest.text

/-- For each character of the text, whether it belongs to a group or a literal. -/
def enclosed : Nested → List Bool
  | nil => []
  | plain _ _ rest => false :: rest.enclosed
  | literal quote inside _ _ rest =>
    List.replicate (delimited quote inside quote).length true ++ rest.enclosed
  | group bracket inside rest =>
    List.replicate (delimited bracket.opening inside.text bracket.closing).length true ++
      rest.enclosed

theorem balanced_literal {commas : Bool} {quote : Char} {inside : Text} (isQuote : IsQuote quote)
    (quoted : Quoted quote inside) : Balanced commas (delimited quote inside quote) :=
  .literal isQuote quoted .nil

theorem balanced_group {commas : Bool} (bracket : Bracket) {inside : Text}
    (balanced : Balanced true inside) :
    Balanced commas (delimited bracket.opening inside bracket.closing) :=
  .group bracket.isOpening bracket.isClosing balanced .nil

theorem balanced (n : Nested) : Balanced true n.text := by
  induction n with
  | nil => exact .nil
  | plain c ordinary rest ih => exact .char ordinary ih
  | literal quote inside isQuote quoted rest ih =>
      exact (balanced_literal isQuote quoted).append ih
  | group bracket inside rest ihInside ih => exact (balanced_group bracket ihInside).append ih

/-- What is balanced without a comma of its own becomes part of the first piece, and no
break falls into it. -/
theorem marksBreaks_append {u t : Text} {covered : List Bool} (balanced : Balanced false u)
    (h : MarksBreaks (pieces .start t) t covered) :
    MarksBreaks (pieces .start (u ++ t)) (u ++ t) (List.replicate u.length true ++ covered) := by
  obtain ⟨first, later, eq⟩ := List.exists_cons_of_ne_nil (pieces_ne_nil .start t)
  have scanned : pieces .start (u ++ t) = (u ++ first) :: later := by
    rw [Scan.start] at eq ⊢
    rw [balanced.pieces_append 0 (by simp), eq, prepend_cons]
  rw [eq] at h
  rw [scanned]
  exact h.append u

theorem marksBreaks_plain {c : Char} {t : Text} {covered : List Bool} (ordinary : IsOrdinary true c)
    (h : MarksBreaks (pieces .start t) t covered) :
    MarksBreaks (pieces .start (c :: t)) (c :: t) (false :: covered) := by
  obtain ⟨first, later, eq⟩ := List.exists_cons_of_ne_nil (pieces_ne_nil .start t)
  rw [eq] at h
  by_cases isComma : c = ','
  · subst isComma
    have scanned : pieces .start (',' :: t) = [] :: pieces .start t := rfl
    rw [scanned, eq]
    exact h.comma
  · have noCut : Scan.start.cuts c = false := by simp [Scan.cuts, isComma]
    have stays : Scan.start.next c = .start := Scan.next_ordinary ordinary 0
    rw [pieces_cons noCut, stays, eq]
    exact h.char fun comma => absurd comma isComma

/-- The scanner breaks a nested text at the commas that are not enclosed. -/
theorem marksBreaks (n : Nested) : MarksBreaks (pieces .start n.text) n.text n.enclosed := by
  induction n with
  | nil => exact .nil
  | plain c ordinary rest ih => exact marksBreaks_plain ordinary ih
  | literal quote inside isQuote quoted rest ih =>
      exact marksBreaks_append (balanced_literal isQuote quoted) ih
  | group bracket inside rest _ ih =>
      -- no break falls into a group, so that its inside need only be balanced
      exact marksBreaks_append (balanced_group bracket inside.balanced) ih

end Nested

/-! ## Cutting any text -/

theorem map_trim_pieces_iff (t : Text) : (pieces .start t).map trim = [[]] ↔ Blanks t := by
  constructor
  · intro empty
    obtain ⟨piece, eq, blank⟩ := List.map_eq_singleton_iff.1 empty
    have whole := join_pieces .start t
    rw [eq, join] at whole
    rw [← whole]
    exact trim_eq_nil_iff.1 blank
  · intro blank
    rw [(balanced_blanks blank).pieces_eq, List.map_singleton, trim_eq_nil_iff.2 blank]

theorem split_eq (t : Text) : split t = if Blanks t then [] else (pieces .start t).map trim := by
  simp only [split, map_trim_pieces_iff]

/-- **An argument list is cut at its top-level commas, and nothing is lost.** The
arguments are the trimmed pieces of the list, which give the list again when they are
joined by commas; a blank list has none. If the list is a nested text, the commas that
the cuts take away are exactly those outside its groups and literals. -/
theorem split_at_top_level_commas (t : Text) :
    ∃ raw : List Text, raw ≠ [] ∧ join [','] raw = t ∧
      split t = (if Blanks t then [] else raw.map trim) ∧
      ∀ n : Nested, n.text = t →
        ∀ i, IsBreak raw i ↔ t[i]? = some ',' ∧ n.enclosed[i]? = some false := by
  refine ⟨pieces .start t, pieces_ne_nil .start t, join_pieces .start t, split_eq t, ?_⟩
  rintro n rfl
  exact n.marksBreaks

/-- `f([a,b]),",\""`, with one comma outside, one in a group and one in a literal. -/
def nestedList : Nested :=
  .plain 'f' (by decide) <|
    .group .round
      (.group .square
        (.plain 'a' (by decide) (.plain ',' (by decide) (.plain 'b' (by decide) .nil))) .nil) <|
    .plain ',' (by decide) <|
    .literal '"' ",\\\"".toList (.inl rfl)
      (.char (by decide) (by decide) (.escaped .nil)) .nil

theorem split_at_top_level_commas_nestedList :
    nestedList.text = "f([a,b]),\",\\\"\"".toList ∧ ¬ Blanks nestedList.text ∧
      ∃ raw : List Text, join [','] raw = nestedList.text ∧
        split nestedList.text = raw.map trim ∧
        IsBreak raw 8 ∧ ¬ IsBreak raw 4 ∧ ¬ IsBreak raw 10 := by
  have filled : ¬ Blanks nestedList.text := by decide
  obtain ⟨raw, -, joined, trimmed, breaks⟩ := split_at_top_level_commas nestedList.text
  rw [if_neg filled] at trimmed
  have marks := breaks nestedList rfl
  refine ⟨by decide, filled, raw, joined, trimmed, ?_, ?_, ?_⟩
  · exact (marks 8).2 (by decide)
  · exact mt (marks 4).1 (by decide)
  · exact mt (marks 10).1 (by decide)

end Linewise.Arguments
