/-
# Linewise.Proofs.Rejoining -- the arguments of a list, written out again

Every text is split into arguments, also one with a quote that nothing closes, with
brackets that do not match, or with a backslash at its end. Written out again with a comma
and a blank between them, the arguments are split as before (`split_join_split`).

What makes this true is where the scanner stands at the ends of the pieces (`CutFrom`).
It makes no cut inside a piece, and it is back at its start behind every piece but the
last, which may end anywhere. That characterizes the pieces of a text
(`pieces_eq_iff`). Trimming a piece changes nothing of it (`Uncut.trim`,
`after_trim_eq_start`): the scanner passes over blanks, and behind a blank it stands in
code only if it stood there before, since a blank neither closes a literal nor is taken
for its quote.
-/
import Linewise.Proofs.TopLevelCommas
import Linewise.Proofs.Words

namespace Linewise.Arguments

open Text

set_option autoImplicit false

/-! ## Where the scanner stands -/

namespace Scan

/-- Where the scanner stands behind a text. -/
def after (state : Scan) (t : Text) : Scan :=
  t.foldl next state

theorem after_append (state : Scan) (u v : Text) :
    state.after (u ++ v) = (state.after u).after v :=
  List.foldl_append

/-- What the scanner remembers as the quote of a literal is a quote. -/
def Sound : Scan → Prop
  | code _ => True
  | quoted quote _ => IsQuote quote
  | escaped quote _ => IsQuote quote

theorem Sound.next {state : Scan} (sound : state.Sound) (c : Char) : (state.next c).Sound := by
  cases state with
  | code depth =>
      by_cases quote : IsQuote c
      · rw [next_quote quote]
        exact quote
      · rw [IsQuote, not_or] at quote
        simp only [Scan.next, quote, decide_false, Bool.or_self, Bool.false_eq_true, if_false]
        split
        · trivial
        · split <;> trivial
  | quoted quote depth =>
      simp only [Scan.next]
      split
      · exact sound
      · split
        · trivial
        · exact sound
  | escaped quote depth => exact sound

theorem Sound.after {state : Scan} (sound : state.Sound) (t : Text) : (state.after t).Sound := by
  induction t generalizing state with
  | nil => exact sound
  | cons c t ih => exact ih (sound.next c)

/-- Behind a blank the scanner is outside literals only if it was there before. -/
theorem eq_code_of_next_blank {state : Scan} (sound : state.Sound) {c : Char}
    (blank : isBlank c = true) {depth : Nat} (outside : state.next c = code depth) :
    state = code depth := by
  have ordinary := isOrdinary_of_isBlank blank
  cases state with
  | code before =>
      rw [next_ordinary ordinary] at outside
      exact outside
  | quoted quote before =>
      have notBackslash : c ≠ '\\' := by
        rintro rfl
        cases blank
      have notQuote : c ≠ quote := by
        rintro rfl
        exact ordinary.quote sound
      simp [next, notBackslash, notQuote] at outside
  | escaped quote before => cases outside

theorem eq_code_of_after_blanks {state : Scan} (sound : state.Sound) {gap : Text}
    (blank : Blanks gap) {depth : Nat} (outside : state.after gap = code depth) :
    state = code depth := by
  induction gap generalizing state with
  | nil => exact outside
  | cons c gap ih =>
      obtain ⟨first, others⟩ := blanks_cons.1 blank
      exact eq_code_of_next_blank sound first (ih (sound.next c) others outside)

theorem after_blanks (depth : Nat) {gap : Text} (blank : Blanks gap) :
    (code depth).after gap = code depth := by
  induction gap with
  | nil => rfl
  | cons c gap ih =>
      obtain ⟨first, others⟩ := blanks_cons.1 blank
      show ((code depth).next c).after gap = code depth
      rw [next_ordinary (isOrdinary_of_isBlank first), ih others]

end Scan

/-! ## Texts without a cut -/

/-- The scanner makes no cut in the text. -/
def Uncut (state : Scan) (t : Text) : Prop :=
  pieces state t = [t]

theorem uncut_nil (state : Scan) : Uncut state [] := rfl

theorem uncut_cons {state : Scan} {c : Char} {t : Text} :
    Uncut state (c :: t) ↔ state.cuts c = false ∧ Uncut (state.next c) t := by
  unfold Uncut
  cases cut : state.cuts c with
  | true =>
      rw [pieces, if_pos cut]
      simp
  | false =>
      rw [pieces_cons cut]
      obtain ⟨first, later, eq⟩ := List.exists_cons_of_ne_nil (pieces_ne_nil (state.next c) t)
      simp [eq, consFirst]

theorem uncut_append {state : Scan} {u v : Text} :
    Uncut state (u ++ v) ↔ Uncut state u ∧ Uncut (state.after u) v := by
  induction u generalizing state with
  | nil => exact (and_iff_right (uncut_nil state)).symm
  | cons c u ih =>
      rw [List.cons_append, uncut_cons, uncut_cons, ih, and_assoc]
      rfl

/-- A text without a cut belongs to the first piece. -/
theorem Uncut.pieces_append {state : Scan} {u : Text} (uncut : Uncut state u) (t : Text) :
    pieces state (u ++ t) = prepend u (pieces (state.after u) t) := by
  induction u generalizing state with
  | nil => rfl
  | cons c u ih =>
      obtain ⟨noCut, rest⟩ := uncut_cons.1 uncut
      rw [List.cons_append, pieces_cons noCut, ih rest]
      rfl

theorem Uncut.trim {t : Text} (uncut : Uncut .start t) : Uncut .start (trim t) := by
  obtain ⟨lead, trail, whole, leadBlank, -⟩ := exists_margins t
  rw [whole, uncut_append, Scan.start, Scan.after_blanks 0 leadBlank, uncut_append] at uncut
  exact uncut.2.1

theorem after_trim_eq_start {t : Text} (back : Scan.start.after t = .start) :
    Scan.start.after (Text.trim t) = .start := by
  obtain ⟨lead, trail, whole, leadBlank, trailBlank⟩ := exists_margins t
  have started : Scan.start.Sound := trivial
  rw [whole, Scan.after_append, Scan.start, Scan.after_blanks 0 leadBlank, Scan.after_append]
    at back
  exact Scan.eq_code_of_after_blanks (started.after _) trailBlank back

/-! ## Where the cuts are -/

/-- Pieces as the scanner leaves them: none of them has a cut inside, and behind each but
the last the scanner is back at its start. -/
inductive CutFrom : Scan → List Text → Prop
  | last {state : Scan} {t : Text} : Uncut state t → CutFrom state [t]
  | comma {state : Scan} {t : Text} {later : List Text} :
      Uncut state t → state.after t = .start → CutFrom .start later → CutFrom state (t :: later)

namespace CutFrom

theorem ne_nil {state : Scan} {ts : List Text} (h : CutFrom state ts) : ts ≠ [] := by
  cases h <;> exact List.cons_ne_nil _ _

theorem consFirst {state : Scan} {c : Char} {ts : List Text} (noCut : state.cuts c = false)
    (h : CutFrom (state.next c) ts) : CutFrom state (consFirst c ts) := by
  cases h with
  | last uncut => exact .last (uncut_cons.2 ⟨noCut, uncut⟩)
  | comma uncut back later => exact .comma (uncut_cons.2 ⟨noCut, uncut⟩) back later

/-- Pieces stay pieces when each is changed in a way that the scanner does not notice. -/
theorem map {ts : List Text} (h : CutFrom .start ts) {f : Text → Text}
    (uncut : ∀ t, Uncut .start t → Uncut .start (f t))
    (back : ∀ t, Scan.start.after t = .start → Scan.start.after (f t) = .start) :
    CutFrom .start (ts.map f) := by
  generalize starts : Scan.start = state at h
  induction h with
  | last here =>
      subst starts
      exact .last (uncut _ here)
  | comma here returns _ ih =>
      subst starts
      exact .comma (uncut _ here) (back _ returns) (ih rfl)

end CutFrom

theorem cutFrom_pieces (state : Scan) (t : Text) : CutFrom state (pieces state t) := by
  induction t generalizing state with
  | nil => exact .last (uncut_nil state)
  | cons c rest ih =>
      cases cut : state.cuts c with
      | true =>
          obtain ⟨-, start⟩ : c = ',' ∧ state = .start := by
            simpa [Scan.cuts, Scan.start] using cut
          rw [pieces, if_pos cut, start]
          exact .comma (uncut_nil .start) rfl (ih .start)
      | false =>
          rw [pieces_cons cut]
          exact (ih (state.next c)).consFirst cut

theorem CutFrom.pieces_join {state : Scan} {ts : List Text} (h : CutFrom state ts) :
    pieces state (join [','] ts) = ts := by
  induction h with
  | last uncut => exact uncut
  | @comma state t later uncut back more ih =>
      have joined : join [','] (t :: later) = t ++ ',' :: join [','] later := by
        obtain ⟨next, rest, rfl⟩ := List.exists_cons_of_ne_nil more.ne_nil
        rw [join, List.append_assoc, List.singleton_append]
      have comma : pieces .start (',' :: join [','] later) =
          [] :: pieces .start (join [','] later) := rfl
      rw [joined, uncut.pieces_append, back, comma, ih, prepend_cons, List.append_nil]

/-- The pieces of a text are the texts that give it when they are joined by commas, and
that the scanner leaves as they are. -/
theorem pieces_eq_iff {state : Scan} {t : Text} {ts : List Text} :
    pieces state t = ts ↔ join [','] ts = t ∧ CutFrom state ts := by
  constructor
  · rintro rfl
    exact ⟨join_pieces state t, cutFrom_pieces state t⟩
  · rintro ⟨rfl, cut⟩
    exact cut.pieces_join

/-! ## Joining again -/

/-- An argument behind the blank that separates it from the comma. -/
def spaced (t : Text) : Text :=
  ' ' :: trim t

theorem trim_spaced (t : Text) : trim (spaced t) = trim t := by
  have blank : trim ([' '] ++ trim t ++ []) = trim (trim t) := trim_append blanks_space blanks_nil
  rw [List.append_nil] at blank
  exact blank.trans (trim_trim t)

theorem uncut_spaced {t : Text} (uncut : Uncut .start t) : Uncut .start (spaced t) :=
  uncut_cons.2 ⟨rfl, uncut.trim⟩

theorem after_spaced_eq_start {t : Text} (back : Scan.start.after t = .start) :
    Scan.start.after (spaced t) = .start :=
  after_trim_eq_start back

theorem pieces_spaced (t : Text) :
    pieces .start (join [','] ((pieces .start t).map spaced)) = (pieces .start t).map spaced := by
  have cut := cutFrom_pieces .start t
  exact pieces_eq_iff.2 ⟨rfl, cut.map (fun _ => uncut_spaced) (fun _ => after_spaced_eq_start)⟩

theorem cons_join_trim {ts : List Text} (ne : ts ≠ []) :
    ' ' :: join ", ".toList (ts.map trim) = join [','] (ts.map spaced) := by
  obtain ⟨first, later, rfl⟩ := List.exists_cons_of_ne_nil ne
  rw [List.map_cons, join_comma_blank, ← join_cons_cons, List.map_map]
  rfl

/-- **Splitting is stable under joining.** The arguments of any text, joined by a comma and
a blank, are split into the same arguments again; and a text never has one empty argument
alone. -/
theorem split_join_split (t : Text) :
    split (join ", ".toList (split t)) = split t ∧ split t ≠ [[]] := by
  by_cases blank : Blanks t
  · have noArguments : split t = [] := by rw [split_eq, if_pos blank]
    rw [noArguments]
    exact ⟨rfl, by simp⟩
  · have filled : (pieces .start t).map trim ≠ [[]] := mt (map_trim_pieces_iff t).1 blank
    have arguments : split t = (pieces .start t).map trim := by rw [split_eq, if_neg blank]
    have again : ((pieces .start t).map spaced).map trim = (pieces .start t).map trim := by
      rw [List.map_map]
      exact List.map_congr_left fun piece _ => trim_spaced piece
    rw [arguments]
    refine ⟨?_, filled⟩
    calc split (join ", ".toList ((pieces .start t).map trim))
        = split (' ' :: join ", ".toList ((pieces .start t).map trim)) :=
          (split_blanks_append blanks_space _).symm
      _ = split (join [','] ((pieces .start t).map spaced)) := by
          rw [cons_join_trim (pieces_ne_nil .start t)]
      _ = (pieces .start t).map trim := by
          simp only [split, pieces_spaced, again, if_neg filled]

/- A bracket that closes nothing, and a literal that ends behind a backslash: trimming takes
the blank that the backslash escapes. -/
example : split "x), 'a, b\\ ".toList = ["x)".toList, "'a, b\\".toList] := by decide

end Linewise.Arguments
