/-
# Linewise.Text.Lemmas -- what the cutting operations say about the text

One statement for each operation, so that a recogniser's proof need not unfold
it:

* `dropStart?_eq_some_iff`: what is removed and what is left make up the text;
* `splitAtLast?_eq_some_iff`: the mark between the two parts is the last one;
* `not_mem_of_mem_lines`: no line holds a line feed;
* `firstLine_append_afterFirstLine`: nothing is lost at the first line feed;
* `join_pieces`: the raw pieces of an argument list, joined by commas, are the
  list.
-/
import Linewise.Arguments

namespace Linewise

set_option autoImplicit false

namespace Text

theorem dropStart?_eq_some_iff {start t rest : Text} :
    dropStart? start t = some rest ↔ t = start ++ rest := by
  induction start generalizing t with
  | nil => simp [dropStart?]
  | cons c start ih =>
    cases t with
    | nil => simp [dropStart?]
    | cons d t =>
      by_cases h : c = d
      · simp [dropStart?, h, ih]
      · have h' : ¬ d = c := fun eq => h eq.symm
        simp [dropStart?, h, h']

/-! ## The last mark -/

section SplitAtLast

variable {α : Type} [DecidableEq α] {mark : α}

theorem splitAtLast?_eq_none_iff {t : List α} :
    splitAtLast? mark t = none ↔ mark ∉ t := by
  induction t with
  | nil => simp [splitAtLast?]
  | cons c rest ih =>
    rw [splitAtLast?]
    cases found : splitAtLast? mark rest with
    | some cut =>
      have : mark ∈ rest := Classical.byContradiction fun absent => by
        rw [ih.2 absent] at found
        cases found
      simp [this]
    | none =>
      by_cases h : c = mark
      · simp [h]
      · have h' : ¬ mark = c := fun eq => h eq.symm
        simp [h, h', ih.1 found]

theorem splitAtLast?_append (before : List α) {after : List α} (h : mark ∉ after) :
    splitAtLast? mark (before ++ mark :: after) = some (before, after) := by
  induction before with
  | nil => simp [splitAtLast?, splitAtLast?_eq_none_iff.2 h]
  | cons c before ih => rw [List.cons_append, splitAtLast?, ih]

theorem splitAtLast?_eq_some_iff {t before after : List α} :
    splitAtLast? mark t = some (before, after) ↔ t = before ++ mark :: after ∧ mark ∉ after := by
  constructor
  · intro h
    induction t generalizing before with
    | nil => cases h
    | cons c rest ih =>
      rw [splitAtLast?] at h
      cases found : splitAtLast? mark rest with
      | some cut =>
        rw [found] at h
        cases h
        obtain ⟨eq, last⟩ := ih found
        exact ⟨by rw [eq, List.cons_append], last⟩
      | none =>
        rw [found] at h
        by_cases hc : c = mark
        · simp only [hc, if_true] at h
          cases h
          exact ⟨by rw [hc, List.nil_append], splitAtLast?_eq_none_iff.1 found⟩
        · simp [hc] at h
  · rintro ⟨rfl, last⟩
    exact splitAtLast?_append before last

theorem exists_last_mark {t : List α} (h : mark ∈ t) :
    ∃ before after, t = before ++ mark :: after ∧ mark ∉ after := by
  cases found : splitAtLast? mark t with
  | none => exact absurd h (splitAtLast?_eq_none_iff.1 found)
  | some cut => exact ⟨cut.1, cut.2, splitAtLast?_eq_some_iff.1 found⟩

end SplitAtLast

/-! ## Lines -/

theorem mem_consFirst {c : Char} {pieces : List Text} {piece : Text}
    (h : piece ∈ consFirst c pieces) :
    (∃ first, piece = c :: first ∧ (first ∈ pieces ∨ first = [])) ∨ piece ∈ pieces := by
  cases pieces with
  | nil =>
    rw [consFirst, List.mem_singleton] at h
    exact .inl ⟨[], h, .inr rfl⟩
  | cons first rest =>
    rcases List.mem_cons.1 h with eq | mem
    · exact .inl ⟨first, eq, .inl (List.mem_cons_self ..)⟩
    · exact .inr (List.mem_cons_of_mem _ mem)

theorem not_mem_of_mem_lines {t line : Text} (h : line ∈ lines t) : '\n' ∉ line := by
  fun_induction lines t generalizing line with
  | case1 => cases h
  | case2 rest ih =>
    rcases List.mem_cons.1 h with rfl | h
    · exact List.not_mem_nil
    · exact ih h
  | case3 rest _ ih =>
    rcases List.mem_cons.1 h with rfl | h
    · exact List.not_mem_nil
    · exact ih h
  | case4 c rest _ notBreak ih =>
    rcases mem_consFirst h with ⟨first, rfl, mem | rfl⟩ | mem
    · exact List.not_mem_cons_of_ne_of_not_mem (fun eq => notBreak eq.symm) (ih mem)
    · exact List.not_mem_cons_of_ne_of_not_mem (fun eq => notBreak eq.symm) List.not_mem_nil
    · exact ih mem

theorem firstLine_append_afterFirstLine (t : Text) : firstLine t ++ afterFirstLine t = t :=
  List.takeWhile_append_dropWhile

/-! ## Pieces -/

theorem join_consFirst (separator : Text) (c : Char) {pieces : List Text} (h : pieces ≠ []) :
    join separator (consFirst c pieces) = c :: join separator pieces := by
  cases pieces with
  | nil => exact absurd rfl h
  | cons first rest => cases rest <;> simp [consFirst, join]

theorem join_nil_cons (separator : Text) {pieces : List Text} (h : pieces ≠ []) :
    join separator ([] :: pieces) = separator ++ join separator pieces := by
  cases pieces with
  | nil => exact absurd rfl h
  | cons first rest => rfl

end Text

namespace Arguments

open Text

theorem pieces_ne_nil (state : Scan) (t : Text) : pieces state t ≠ [] := by
  cases t with
  | nil => exact List.cons_ne_nil _ _
  | cons c rest =>
    rw [pieces]
    split
    · exact List.cons_ne_nil _ _
    · cases pieces (state.next c) rest <;> exact List.cons_ne_nil _ _

theorem join_pieces (state : Scan) (t : Text) : join [','] (pieces state t) = t := by
  induction t generalizing state with
  | nil => rfl
  | cons c rest ih =>
    rw [pieces]
    split
    · next cut =>
      have comma : c = ',' := by
        simp only [Scan.cuts, Bool.and_eq_true, decide_eq_true_eq] at cut
        exact cut.1
      rw [join_nil_cons _ (pieces_ne_nil _ _), ih, comma, List.singleton_append]
    · rw [join_consFirst _ _ (pieces_ne_nil _ _), ih]

end Arguments

end Linewise
