/-
# Linewise.Proofs.PositionalArguments -- the i-th placeholder gets the i-th argument

A format has one way to be cut at its placeholders: into pieces in which no placeholder
is left (`Segments`). `cut` finds it (`Segments.cut_text`), and since it determines the
placeholders too, the cut is unique (`Segments.text_inj`).

The warning about missing arguments counts the placeholders of the format as it is
written, while the arguments are put into the text that is left when its last newline is
gone and it has been escaped. The two agree: `interpolates_by_position`.
-/
import Linewise.Proofs.Placeholders

namespace Linewise.PrintCall

open Text

set_option autoImplicit false

/-! ## Texts without a placeholder -/

def Plain (t : Text) : Prop :=
  ∀ kind, isPlaceholderKind kind = true → ¬ ['%', kind] <:+: t

theorem plain_nil : Plain [] := by
  intro kind _ inside
  simpa using List.infix_nil.1 inside

theorem plain_cons_iff {c : Char} {t : Text} :
    Plain (c :: t) ↔
      (c = '%' → ∀ kind ∈ t.head?, isPlaceholderKind kind = false) ∧ Plain t := by
  constructor
  · intro plain
    refine ⟨?_, fun kind isKind inside => plain kind isKind (List.infix_cons inside)⟩
    rintro rfl kind next
    obtain ⟨rest, rfl⟩ := List.head?_eq_some_iff.1 next
    exact Bool.eq_false_iff.2 fun isKind => plain kind isKind ⟨[], rest, rfl⟩
  · rintro ⟨start, plain⟩ kind isKind inside
    rcases List.infix_cons_iff.1 inside with ⟨rest, eq⟩ | later
    · obtain ⟨rfl, rfl⟩ := List.cons.inj eq
      rw [start rfl kind rfl] at isKind
      cases isKind
    · exact plain kind isKind later

/-- A text without a placeholder belongs to the first piece, unless its last character
makes one with what follows. -/
theorem cut_append_of_plain {u t : Text} (plain : Plain u)
    (apart : ∀ kind ∈ t.head?, isPlaceholderKind kind = false) :
    cut (u ++ t) = prepend u (cut t) := by
  induction u with
  | nil => rfl
  | cons c u ih =>
      obtain ⟨start, plain⟩ := plain_cons_iff.1 plain
      have starts : c = '%' → ∀ kind ∈ (u ++ t).head?, isPlaceholderKind kind = false := by
        intro percent
        cases u with
        | nil => exact apart
        | cons d u => exact start percent
      rw [List.cons_append, cut_cons starts, ih plain]
      rfl

/-! ## A text cut at its placeholders -/

/-- A placeholder and the piece behind it. -/
structure Segment where
  kind : Char
  piece : Text
  isKind : isPlaceholderKind kind = true
  plain : Plain piece

/-- The piece in front of the first placeholder, and each placeholder with the piece
behind it. -/
structure Segments where
  first : Text
  plain : Plain first
  later : List Segment

namespace Segments

def laterText (later : List Segment) : Text :=
  later.flatMap fun part => '%' :: part.kind :: part.piece

def text (s : Segments) : Text :=
  s.first ++ laterText s.later

def pieces (s : Segments) : List Text :=
  s.first :: s.later.map Segment.piece

theorem cut_append_laterText {first : Text} (plain : Plain first) (later : List Segment) :
    cut (first ++ laterText later) = first :: later.map Segment.piece := by
  induction later generalizing first with
  | nil =>
      have noText : laterText [] = [] := rfl
      rw [noText, cut_append_of_plain plain (by simp), cut, prepend_cons, List.append_nil]
      rfl
  | cons part later ih =>
      have behind : laterText (part :: later) =
          '%' :: part.kind :: (part.piece ++ laterText later) := rfl
      rw [behind, cut_append_of_plain plain (by simp [isPlaceholderKind]),
        cut_placeholder part.isKind, prepend_cons, List.append_nil, ih part.plain]
      rfl

theorem cut_text (s : Segments) : cut s.text = s.pieces :=
  cut_append_laterText s.plain s.later

theorem laterText_inj {later other : List Segment} (text : laterText later = laterText other)
    (pieces : later.map Segment.piece = other.map Segment.piece) : later = other := by
  induction later generalizing other with
  | nil => exact (List.map_eq_nil_iff.1 pieces.symm).symm
  | cons part later ih =>
      obtain ⟨same, rest, rfl, samePiece, restPieces⟩ := List.map_eq_cons_iff.1 pieces.symm
      obtain ⟨kind, piece, isKind, plain⟩ := part
      obtain ⟨otherKind, otherPiece, otherIsKind, otherPlain⟩ := same
      simp only at samePiece
      subst samePiece
      simp only [laterText, List.flatMap_cons, List.cons_append, List.cons.injEq, true_and,
        List.append_cancel_left_eq] at text
      obtain ⟨rfl, text⟩ := text
      rw [ih text restPieces.symm]

/-- A text can be cut at its placeholders in one way only. -/
theorem text_inj {s other : Segments} (h : s.text = other.text) : s = other := by
  have pieces : s.pieces = other.pieces := by rw [← s.cut_text, h, other.cut_text]
  obtain ⟨first, plain, later⟩ := s
  obtain ⟨otherFirst, otherPlain, otherLater⟩ := other
  obtain ⟨rfl, pieces⟩ := List.cons.inj pieces
  have text : laterText later = laterText otherLater := List.append_cancel_left h
  rw [laterText_inj text pieces]

/-- A character that starts no placeholder goes to the first piece. -/
theorem exists_text_cons (s : Segments) {c : Char}
    (start : c = '%' → ∀ kind ∈ s.text.head?, isPlaceholderKind kind = false) :
    ∃ longer : Segments, longer.text = c :: s.text := by
  have plain : Plain (c :: s.first) := by
    refine plain_cons_iff.2 ⟨fun percent kind next => start percent kind ?_, s.plain⟩
    obtain ⟨rest, eq⟩ := List.head?_eq_some_iff.1 next
    rw [text, eq]
    rfl
  exact ⟨⟨c :: s.first, plain, s.later⟩, rfl⟩

theorem exists_text_eq (t : Text) : ∃ s : Segments, s.text = t := by
  fun_induction cut t with
  | case1 kind rest isKind ih =>
      obtain ⟨s, rfl⟩ := ih
      exact ⟨⟨[], plain_nil, ⟨kind, s.first, isKind, s.plain⟩ :: s.later⟩, rfl⟩
  | case2 kind rest other ih =>
      obtain ⟨s, eq⟩ := ih
      have start : ∀ d ∈ s.text.head?, isPlaceholderKind d = false := by
        rintro d next
        rw [eq] at next
        cases next
        exact Bool.eq_false_iff.2 other
      rw [← eq]
      exact s.exists_text_cons fun _ => start
  | case3 c rest other ih =>
      obtain ⟨s, rfl⟩ := ih
      refine s.exists_text_cons fun percent kind next => ?_
      obtain ⟨tail, eq⟩ := List.head?_eq_some_iff.1 next
      exact (other kind tail percent eq).elim
  | case4 => exact ⟨⟨[], plain_nil, []⟩, rfl⟩

theorem countPlaceholders_text (s : Segments) : countPlaceholders s.text = s.later.length := by
  have count := countPlaceholders_add_one s.text
  rw [s.cut_text, pieces, List.length_cons, List.length_map] at count
  omega

end Segments

/-! ## The newline at the end -/

theorem countPlaceholders_cons {c : Char} {t : Text}
    (start : c = '%' → ∀ kind ∈ t.head?, isPlaceholderKind kind = false) :
    countPlaceholders (c :: t) = countPlaceholders t := by
  have longer := countPlaceholders_add_one (c :: t)
  have shorter := countPlaceholders_add_one t
  obtain ⟨first, later, eq⟩ := List.exists_cons_of_ne_nil (cut_ne_nil t)
  rw [cut_cons start, eq, consFirst, List.length_cons] at longer
  rw [eq, List.length_cons] at shorter
  omega

/-- Placeholders are counted on either side of a place where none can straddle. -/
theorem countPlaceholders_append (t : Text) {u : Text}
    (apart : ∀ kind ∈ u.head?, isPlaceholderKind kind = false) :
    countPlaceholders (t ++ u) = countPlaceholders t + countPlaceholders u := by
  fun_induction countPlaceholders t with
  | case1 kind rest isKind ih =>
      rw [List.cons_append, List.cons_append, countPlaceholders, if_pos isKind, ih]
      omega
  | case2 kind rest other ih =>
      rw [List.cons_append, List.cons_append, countPlaceholders, if_neg other]
      exact ih
  | case3 c rest other ih =>
      -- a `%` here is the last character of the text, so it meets the first of `u`
      have start : c = '%' → ∀ kind ∈ (rest ++ u).head?, isPlaceholderKind kind = false := by
        intro percent
        cases rest with
        | nil => exact apart
        | cons d rest => exact (other d rest percent rfl).elim
      rw [List.cons_append, countPlaceholders_cons start, ih]
  | case4 => rw [List.nil_append, Nat.zero_add]

theorem countPlaceholders_stripNewline (format : Text) :
    countPlaceholders (stripNewline format) = countPlaceholders format := by
  rcases stripNewline_cases format with same | ends
  · rw [same]
  · conv => rhs; rw [ends, countPlaceholders_append _ (by simp [isPlaceholderKind])]
    rfl

/-! ## Substitution by position -/

theorem shortage?_isSome_iff (p : PrintCall) :
    p.shortage?.isSome = true ↔ ∃ i < p.placeholders, p.args[i]? = none := by
  simp only [shortage?, List.getElem?_eq_none_iff]
  split
  · rename_i fewer
    simp only [Option.isSome_some, true_iff]
    exact ⟨p.args.length, fewer, le_refl _⟩
  · rename_i enough
    simp only [Option.isSome_none, Bool.false_eq_true, false_iff]
    rintro ⟨i, inFormat, missing⟩
    omega

/-- **Placeholders take the arguments by position, and the warning tells whether one is
missing.** The format without its last newline is cut at its placeholders in exactly one
way. There are as many of them as are counted in the whole format. The inside of the
literal is made of the pieces, each escaped by itself, with the argument of that position
between two of them, or `undefined` where there is none. The warning is given exactly
when there is such a position. -/
theorem interpolates_by_position (p : PrintCall) :
    ∃ s : Segments, s.text = stripNewline p.format ∧
      (∀ other : Segments, other.text = stripNewline p.format → other = s) ∧
      s.later.length = p.placeholders ∧
      p.interpolate = weave p.args (s.pieces.map escape) ∧
      (p.shortage?.isSome = true ↔ ∃ i < s.later.length, p.args[i]? = none) := by
  obtain ⟨s, text⟩ := Segments.exists_text_eq (stripNewline p.format)
  have count : s.later.length = p.placeholders := by
    rw [← s.countPlaceholders_text, text, countPlaceholders_stripNewline, placeholders]
  refine ⟨s, text, fun other same => ?_, count, ?_, ?_⟩
  · exact Segments.text_inj (same.trans text.symm)
  · rw [interpolate, substitute_eq_weave, cut_escape, ← text, s.cut_text]
  · rw [count, shortage?_isSome_iff]

/-- A placeholder of each kind and two arguments, one of which holds a placeholder. -/
def shortCall : PrintCall where
  format := "%d of %f: \x60%s%c\\n".toList
  args := ["a".toList, "b[%d]".toList]

theorem interpolates_by_position_shortCall :
    ∃ s : Segments, s.text = "%d of %f: \x60%s%c".toList ∧
      s.pieces = [[], " of ".toList, ": \x60".toList, [], []] ∧ s.later.length = 4 ∧
      shortCall.interpolate = weave shortCall.args (s.pieces.map escape) ∧
      shortCall.interpolate =
        "$\x7ba\x7d of $\x7bb[%d]\x7d: \\\x60$\x7bundefined\x7d$\x7bundefined\x7d".toList ∧
      shortCall.shortage?.isSome = true := by
  obtain ⟨s, text, -, count, woven, warns⟩ := interpolates_by_position shortCall
  have stripped : stripNewline shortCall.format = "%d of %f: \x60%s%c".toList := by decide
  rw [stripped] at text
  have pieces : s.pieces = [[], " of ".toList, ": \x60".toList, [], []] := by
    rw [← s.cut_text, text]
    decide
  have four : shortCall.placeholders = 4 := by decide
  rw [four] at count
  refine ⟨s, text, pieces, count, woven, by decide, warns.2 ⟨2, ?_, by decide⟩⟩
  rw [count]
  decide

end Linewise.PrintCall
