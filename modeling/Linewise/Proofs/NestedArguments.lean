/-
# Linewise.Proofs.NestedArguments -- argument lists read back

The scanner of an argument list counts brackets and skips literals. This module
gives the texts on which that is right: those in which brackets and quotes are
balanced (`Balanced`). Over such a text the scanner comes back to where it was,
and without a comma outside brackets and literals it makes no cut
(`Balanced.pieces_append`). So a list of arguments, each trimmed, not empty and
balanced, is split into the same arguments again, whatever blanks stand around the
commas (`split_join`).
-/
import Linewise.Proofs.Runs

namespace Linewise.Arguments

open Text

set_option autoImplicit false

/-! ## Balanced text -/

def IsQuote (c : Char) : Prop := c = '"' ∨ c = '\x27'

def IsOpening (c : Char) : Prop := c = '(' ∨ c = '['

def IsClosing (c : Char) : Prop := c = ')' ∨ c = ']'

instance : DecidablePred IsQuote := fun _ => inferInstanceAs (Decidable (_ ∨ _))

instance : DecidablePred IsOpening := fun _ => inferInstanceAs (Decidable (_ ∨ _))

instance : DecidablePred IsClosing := fun _ => inferInstanceAs (Decidable (_ ∨ _))

/-- A character that the scanner passes over; `commas` tells whether a comma is
one. -/
structure IsOrdinary (commas : Bool) (c : Char) : Prop where
  quote : ¬ IsQuote c
  opening : ¬ IsOpening c
  closing : ¬ IsClosing c
  comma : c = ',' → commas = true

instance (commas : Bool) : DecidablePred (IsOrdinary commas) := fun c =>
  decidable_of_iff (¬ IsQuote c ∧ ¬ IsOpening c ∧ ¬ IsClosing c ∧ (c = ',' → commas = true))
    ⟨fun h => ⟨h.1, h.2.1, h.2.2.1, h.2.2.2⟩, fun h => ⟨h.quote, h.opening, h.closing, h.comma⟩⟩

/-- The inside of a literal between `quote`s: no quote and no backslash, unless
behind a backslash. -/
inductive Quoted (quote : Char) : Text → Prop
  | nil : Quoted quote []
  | char {c : Char} {t : Text} : c ≠ '\\' → c ≠ quote → Quoted quote t → Quoted quote (c :: t)
  | escaped {c : Char} {t : Text} : Quoted quote t → Quoted quote ('\\' :: c :: t)

/-- A text whose brackets and quotes are balanced; `commas` tells whether commas
may stand outside its brackets and literals. -/
inductive Balanced : (commas : Bool) → Text → Prop
  | nil {commas : Bool} : Balanced commas []
  | char {commas : Bool} {c : Char} {t : Text} :
      IsOrdinary commas c → Balanced commas t → Balanced commas (c :: t)
  | literal {commas : Bool} {quote : Char} {inside t : Text} :
      IsQuote quote → Quoted quote inside → Balanced commas t →
        Balanced commas (quote :: (inside ++ quote :: t))
  | group {commas : Bool} {opening closing : Char} {inside t : Text} :
      IsOpening opening → IsClosing closing → Balanced true inside → Balanced commas t →
        Balanced commas (opening :: (inside ++ closing :: t))

/-! ## The scanner over a balanced text -/

namespace Scan

theorem next_ordinary {commas : Bool} {c : Char} (h : IsOrdinary commas c) (depth : Nat) :
    (code depth).next c = code depth := by
  obtain ⟨quote, opening, closing, -⟩ := h
  rw [IsQuote, not_or] at quote
  rw [IsOpening, not_or] at opening
  rw [IsClosing, not_or] at closing
  simp [next, quote, opening, closing]

theorem next_quote {quote : Char} (h : IsQuote quote) (depth : Nat) :
    (code depth).next quote = quoted quote depth := by
  rcases h with rfl | rfl <;> rfl

theorem next_opening {c : Char} (h : IsOpening c) (depth : Nat) :
    (code depth).next c = code (depth + 1) := by
  rcases h with rfl | rfl <;> rfl

theorem next_closing {c : Char} (h : IsClosing c) (depth : Nat) :
    (code depth).next c = code (depth - 1) := by
  rcases h with rfl | rfl <;> rfl

end Scan

theorem pieces_cons {state : Scan} {c : Char} (h : state.cuts c = false) (t : Text) :
    pieces state (c :: t) = consFirst c (pieces (state.next c) t) := by
  rw [pieces, if_neg (by simp [h])]

theorem Quoted.pieces_append {quote : Char} {inside : Text} (h : Quoted quote inside) (depth : Nat)
    (notBackslash : quote ≠ '\\') (t : Text) :
    pieces (.quoted quote depth) (inside ++ quote :: t) =
      prepend inside (consFirst quote (pieces (.code depth) t)) := by
  induction h with
  | nil =>
      have ends : (Scan.quoted quote depth).next quote = .code depth := by
        simp [Scan.next, notBackslash]
      rw [List.nil_append, pieces_cons (by simp [Scan.cuts]), ends]
      rfl
  | @char c inside plain notQuote _ ih =>
      have stays : (Scan.quoted quote depth).next c = .quoted quote depth := by
        simp [Scan.next, plain, notQuote]
      rw [List.cons_append, pieces_cons (by simp [Scan.cuts]), stays, ih]
      rfl
  | @escaped c inside _ ih =>
      have skips : ((Scan.quoted quote depth).next '\\').next c = .quoted quote depth := rfl
      rw [List.cons_append, List.cons_append, pieces_cons (by simp [Scan.cuts]),
        pieces_cons (by simp [Scan.cuts, Scan.next]), skips, ih]
      rfl

/-- The scanner makes no cut in a balanced text and comes back to its depth. -/
theorem Balanced.pieces_append {commas : Bool} {t : Text} (h : Balanced commas t) (depth : Nat)
    (inGroup : commas = true → 0 < depth) (rest : Text) :
    pieces (.code depth) (t ++ rest) = prepend t (pieces (.code depth) rest) := by
  induction h generalizing depth rest with
  | nil => rfl
  | @char commas c t ordinary _ ih =>
      have noCut : (Scan.code depth).cuts c = false := by
        by_cases isComma : c = ','
        · have deep : depth ≠ 0 := Nat.pos_iff_ne_zero.1 (inGroup (ordinary.comma isComma))
          simp [Scan.cuts, deep]
        · simp [Scan.cuts, isComma]
      rw [List.cons_append, pieces_cons noCut, Scan.next_ordinary ordinary, ih _ inGroup]
      rfl
  | @literal commas quote inside t isQuote quoted _ ih =>
      have noCut : (Scan.code depth).cuts quote = false := by
        rcases isQuote with rfl | rfl <;> rfl
      have notBackslash : quote ≠ '\\' := by
        rcases isQuote with rfl | rfl <;> decide
      rw [List.cons_append, pieces_cons noCut, Scan.next_quote isQuote, List.append_assoc,
        List.cons_append, quoted.pieces_append depth notBackslash, ih _ inGroup]
      exact congrArg (consFirst quote) (prepend_append inside (quote :: t) _).symm
  | @group commas opening closing inside t isOpening isClosing _ _ ihInside ih =>
      have openCut : (Scan.code depth).cuts opening = false := by
        rcases isOpening with rfl | rfl <;> rfl
      have closeCut : (Scan.code (depth + 1)).cuts closing = false := by
        rcases isClosing with rfl | rfl <;> rfl
      rw [List.cons_append, pieces_cons openCut, Scan.next_opening isOpening, List.append_assoc,
        List.cons_append, ihInside _ (fun _ => Nat.succ_pos depth), pieces_cons closeCut,
        Scan.next_closing isClosing, Nat.add_sub_cancel, ih _ inGroup]
      exact congrArg (consFirst opening) (prepend_append inside (closing :: t) _).symm

/-! ## Texts between commas -/

theorem Balanced.append {commas : Bool} {t u : Text} (front : Balanced commas t)
    (back : Balanced commas u) : Balanced commas (t ++ u) := by
  induction front with
  | nil => exact back
  | char ordinary _ ih => exact .char ordinary (ih back)
  | literal isQuote quoted _ ih => simpa using .literal isQuote quoted (ih back)
  | group isOpening isClosing inside _ _ ih =>
      simpa using .group isOpening isClosing inside (ih back)

theorem Balanced.pieces_eq {t : Text} (h : Balanced false t) : pieces .start t = [t] := by
  have scanned := h.pieces_append 0 (by simp) []
  rw [List.append_nil] at scanned
  rw [Scan.start, scanned, pieces, prepend_cons, List.append_nil]

theorem Balanced.pieces_append_comma {t : Text} (h : Balanced false t) (rest : Text) :
    pieces .start (t ++ ',' :: rest) = t :: pieces .start rest := by
  have comma : pieces .start (',' :: rest) = [] :: pieces .start rest := rfl
  rw [Scan.start] at comma ⊢
  rw [h.pieces_append 0 (by simp), comma, prepend_cons, List.append_nil]

theorem pieces_join {first : Text} {later : List Text}
    (balanced : ∀ t ∈ first :: later, Balanced false t) :
    pieces .start (join [','] (first :: later)) = first :: later := by
  induction later generalizing first with
  | nil => exact (balanced first (by simp)).pieces_eq
  | cons next later ih =>
      obtain ⟨here, others⟩ := List.forall_mem_cons.1 balanced
      rw [join, List.append_assoc, List.singleton_append, here.pieces_append_comma, ih others]

theorem isOrdinary_of_isBlank {c : Char} (blank : isBlank c = true) : IsOrdinary false c := by
  have ne : ∀ d, isBlank d = false → c ≠ d := by
    rintro d notBlank rfl
    rw [notBlank] at blank
    cases blank
  refine ⟨?_, ?_, ?_, fun comma => absurd comma (ne _ (by decide))⟩
  · exact not_or.2 ⟨ne _ (by decide), ne _ (by decide)⟩
  · exact not_or.2 ⟨ne _ (by decide), ne _ (by decide)⟩
  · exact not_or.2 ⟨ne _ (by decide), ne _ (by decide)⟩

theorem balanced_blanks {gap : Text} (blank : Blanks gap) : Balanced false gap := by
  induction gap with
  | nil => exact .nil
  | cons c gap ih =>
      obtain ⟨first, others⟩ := blanks_cons.1 blank
      exact .char (isOrdinary_of_isBlank first) (ih others)

/-! ## Argument lists -/

/-- One argument as it is written. -/
structure Argument where
  text : Text
  nonempty : text ≠ []
  trimmed : trim text = text
  balanced : Balanced false text
  oneLine : '\n' ∉ text

/-- Blanks on one line, possibly none. -/
structure Margin where
  text : Text
  blank : Blanks text
  oneLine : '\n' ∉ text

def Margin.none : Margin where
  text := []
  blank := blanks_nil
  oneLine := by decide

def Margin.space : Margin where
  text := [' ']
  blank := blanks_space
  oneLine := by decide

/-- An argument with the blanks around it. -/
structure Spaced where
  lead : Margin
  argument : Argument
  trail : Margin

namespace Spaced

def text (s : Spaced) : Text :=
  s.lead.text ++ s.argument.text ++ s.trail.text

theorem balanced (s : Spaced) : Balanced false s.text :=
  ((balanced_blanks s.lead.blank).append s.argument.balanced).append (balanced_blanks s.trail.blank)

theorem trim_text (s : Spaced) : trim s.text = s.argument.text := by
  rw [text, trim_append s.lead.blank s.trail.blank, s.argument.trimmed]

theorem oneLine (s : Spaced) : '\n' ∉ s.text := by
  simp [text, s.lead.oneLine, s.argument.oneLine, s.trail.oneLine]

end Spaced

/-- An argument list is split into the arguments it was written from. -/
theorem split_join (args : List Spaced) :
    split (join [','] (args.map Spaced.text)) = args.map (·.argument.text) := by
  cases args with
  | nil => rfl
  | cons first later =>
      have balanced : ∀ t ∈ (first :: later).map Spaced.text, Balanced false t :=
        List.forall_mem_map.2 fun s _ => s.balanced
      have trimmed : ((first :: later).map Spaced.text).map trim =
          (first :: later).map (·.argument.text) := by
        rw [List.map_map]
        exact List.map_congr_left fun s _ => s.trim_text
      unfold split
      simp only
      rw [List.map_cons, pieces_join balanced, ← List.map_cons, trimmed, if_neg]
      intro blank
      exact first.argument.nonempty (List.cons.inj blank).1

theorem split_blanks_append {gap : Text} (blank : Blanks gap) (t : Text) :
    split (gap ++ t) = split t := by
  obtain ⟨first, later, eq⟩ := List.exists_cons_of_ne_nil (pieces_ne_nil .start t)
  have scanned : pieces .start (gap ++ t) = (gap ++ first) :: later := by
    rw [Scan.start] at eq ⊢
    rw [(balanced_blanks blank).pieces_append 0 (by simp), eq, prepend_cons]
  have trimmed : trim (gap ++ first) = trim first := by
    simpa using trim_append (t := first) blank blanks_nil
  unfold split
  simp only [scanned, eq, List.map_cons, trimmed]

theorem split_trimStart (t : Text) : split (trimStart t) = split t := by
  rw [← split_blanks_append (blanks_takeWhile t) (trimStart t), takeWhile_append_trimStart]

end Linewise.Arguments
