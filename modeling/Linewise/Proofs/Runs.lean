/-
# Linewise.Proofs.Runs -- runs of characters, trimmed text and lines

Every recogniser cuts a text into maximal runs. A run of `p` is determined by
two facts, that all its characters satisfy `p` and that what follows does not
start with one (`Stops`), so a cut can be read off an equation between texts
(`run_eq_iff`) and the recognisers need no induction of their own.

The second half is about layout. Blanks around a text do not survive `trim`
(`trim_append`), nor does the carriage return that a line break may carry, so
that the trimmed lines of a source come one by one (`lines_append_break`,
`trim_of_break`). The lines that count are the trimmed lines that are neither
empty nor an include directive (`ofSource_texts`).
-/
import Linewise.SourceLine
import Linewise.Text.Lemmas
import Mathlib.Data.List.TakeWhile

namespace Linewise

set_option autoImplicit false

namespace Text

/-! ## Runs -/

/-- The text does not start with a character that satisfies `p`. -/
def Stops (p : Char → Bool) (t : Text) : Prop :=
  ∀ c ∈ t.head?, p c = false

@[simp] theorem stops_nil (p : Char → Bool) : Stops p [] := by
  simp [Stops]

@[simp] theorem stops_cons {p : Char → Bool} {c : Char} {t : Text} :
    Stops p (c :: t) ↔ p c = false := by
  simp [Stops]

theorem stops_dropWhile (p : Char → Bool) (t : Text) : Stops p (t.dropWhile p) := by
  induction t with
  | nil => simp
  | cons c t ih =>
      rw [List.dropWhile_cons]
      split
      · exact ih
      · rename_i h; simpa using h

theorem takeWhile_append_of_stops {p : Char → Bool} {u v : Text}
    (all : ∀ c ∈ u, p c = true) (stops : Stops p v) : (u ++ v).takeWhile p = u := by
  rw [List.takeWhile_append_of_pos all]
  cases v with
  | nil => simp
  | cons c v => rw [List.takeWhile_cons_of_neg (by simpa using stops), List.append_nil]

theorem dropWhile_append_of_stops {p : Char → Bool} {u v : Text}
    (all : ∀ c ∈ u, p c = true) (stops : Stops p v) : (u ++ v).dropWhile p = v := by
  rw [List.dropWhile_append_of_pos all]
  cases v with
  | nil => rfl
  | cons c v => rw [List.dropWhile_cons_of_neg (by simpa using stops)]

theorem run_eq_iff {p : Char → Bool} {t u v : Text} :
    (t.takeWhile p = u ∧ t.dropWhile p = v) ↔
      t = u ++ v ∧ (∀ c ∈ u, p c = true) ∧ Stops p v := by
  constructor
  · rintro ⟨rfl, rfl⟩
    exact ⟨List.takeWhile_append_dropWhile.symm, fun c h => List.mem_takeWhile_imp h,
      stops_dropWhile p t⟩
  · rintro ⟨rfl, all, stops⟩
    exact ⟨takeWhile_append_of_stops all stops, dropWhile_append_of_stops all stops⟩

/-- A text has one run of `p` at its start. -/
theorem run_unique {p : Char → Bool} {u v u' v' : Text} (same : u ++ v = u' ++ v')
    (all : ∀ c ∈ u, p c = true) (all' : ∀ c ∈ u', p c = true) (stops : Stops p v)
    (stops' : Stops p v') : u = u' ∧ v = v' := by
  obtain ⟨taken, dropped⟩ := run_eq_iff.2 ⟨rfl, all, stops⟩
  obtain ⟨taken', dropped'⟩ := run_eq_iff.2 ⟨same, all', stops'⟩
  exact ⟨taken.symm.trans taken', dropped.symm.trans dropped'⟩

theorem dropStart?_append (start rest : Text) : dropStart? start (start ++ rest) = some rest :=
  dropStart?_eq_some_iff.2 rfl

theorem endsWith_concat (t : Text) (c d : Char) : endsWith (t ++ [c]) [d] = (d == c) := by
  simp [endsWith, List.isSuffixOf, List.isPrefixOf]

/-- A text of blanks only, possibly empty. -/
def Blanks (t : Text) : Prop :=
  ∀ c ∈ t, isBlank c = true

/-- A name: a word character and any more of them. -/
def IsName (t : Text) : Prop :=
  t ≠ [] ∧ ∀ c ∈ t, isWord c = true

instance : DecidablePred Blanks := fun t =>
  decidable_of_iff (t.all isBlank = true) List.all_eq_true

instance : DecidablePred IsName := fun t =>
  decidable_of_iff (t ≠ [] ∧ t.all isWord = true) (and_congr_right fun _ => List.all_eq_true)

@[simp] theorem blanks_nil : Blanks [] := by
  simp [Blanks]

theorem blanks_space : Blanks [' '] := by
  decide

@[simp] theorem blanks_cons {c : Char} {t : Text} :
    Blanks (c :: t) ↔ isBlank c = true ∧ Blanks t := by
  simp [Blanks]

@[simp] theorem blanks_append {u v : Text} : Blanks (u ++ v) ↔ Blanks u ∧ Blanks v := by
  simp only [Blanks, List.mem_append]
  constructor
  · intro h
    exact ⟨fun c hc => h c (.inl hc), fun c hc => h c (.inr hc)⟩
  · rintro ⟨hu, hv⟩ c (hc | hc)
    · exact hu c hc
    · exact hv c hc

theorem blanks_takeWhile (t : Text) : Blanks (t.takeWhile isBlank) :=
  fun _ h => List.mem_takeWhile_imp h

theorem IsName.stops {name t : Text} {p : Char → Bool} (h : IsName name)
    (word : ∀ c, isWord c = true → p c = false) : Stops p (name ++ t) := by
  obtain ⟨ne, all⟩ := h
  cases name with
  | nil => exact absurd rfl ne
  | cons c name => simpa using word c (all c (by simp))

theorem IsName.stops_isBlank {name t : Text} (h : IsName name) : Stops isBlank (name ++ t) :=
  h.stops fun _ => isBlank_eq_false_of_isWord

theorem stops_isWord_append {gap t : Text} (blank : Blanks gap) (h : Stops isWord t) :
    Stops isWord (gap ++ t) := by
  cases gap with
  | nil => exact h
  | cons c gap => simpa using isWord_eq_false_of_isBlank (blanks_cons.1 blank).1

theorem stops_isWord_of_blanks {gap t : Text} (ne : gap ≠ []) (h : Blanks gap) :
    Stops isWord (gap ++ t) := by
  cases gap with
  | nil => exact absurd rfl ne
  | cons c gap => simpa using isWord_eq_false_of_isBlank (blanks_cons.1 h).1

theorem trimStart_append {gap t : Text} (blank : Blanks gap) (stops : Stops isBlank t) :
    trimStart (gap ++ t) = t :=
  dropWhile_append_of_stops blank stops

theorem stops_trimStart (t : Text) : Stops isBlank (trimStart t) :=
  stops_dropWhile isBlank t

theorem takeWhile_append_trimStart (t : Text) : t.takeWhile isBlank ++ trimStart t = t :=
  List.takeWhile_append_dropWhile

theorem trimStart_append_of_stops (t : Text) {u : Text} (stops : Stops isBlank u) :
    trimStart (t ++ u) = trimStart t ++ u := by
  have front := stops_trimStart t
  conv => lhs; rw [← takeWhile_append_trimStart t, List.append_assoc]
  apply trimStart_append (blanks_takeWhile t)
  cases body : trimStart t with
  | nil => exact stops
  | cons c rest => simpa [body] using front

theorem trimStart_eq_iff {t u : Text} :
    trimStart t = u ↔ (∃ gap, t = gap ++ u ∧ Blanks gap) ∧ Stops isBlank u := by
  constructor
  · rintro rfl
    exact ⟨⟨_, (takeWhile_append_trimStart t).symm, blanks_takeWhile t⟩, stops_trimStart t⟩
  · rintro ⟨⟨gap, rfl, blank⟩, stops⟩
    exact trimStart_append blank stops

/-! ## Trimmed text -/

theorem trimStart_eq_nil_iff {t : Text} : trimStart t = [] ↔ Blanks t :=
  List.dropWhile_eq_nil_iff

theorem trimEnd_append {t trail : Text} (blank : Blanks trail) :
    trimEnd (t ++ trail) = trimEnd t := by
  unfold trimEnd
  rw [List.reverse_append, List.dropWhile_append_of_pos]
  intro c hc
  exact blank c (List.mem_reverse.1 hc)

theorem trimEnd_append_of_stops {u v : Text} (last : Stops isBlank u.reverse) :
    trimEnd (u ++ v) = u ++ trimEnd v := by
  have whole : u.reverse.dropWhile isBlank = u.reverse := trimStart_append blanks_nil last
  unfold trimEnd
  rw [List.reverse_append, List.dropWhile_append]
  split
  · rename_i empty
    simp [whole, List.isEmpty_iff.1 empty]
  · simp

theorem trim_append {lead t trail : Text} (blankLead : Blanks lead) (blankTrail : Blanks trail) :
    trim (lead ++ t ++ trail) = trim t := by
  have front : trimStart (lead ++ t ++ trail) = trimStart (t ++ trail) := by
    rw [List.append_assoc]
    exact List.dropWhile_append_of_pos blankLead
  unfold trim
  rw [front]
  by_cases blank : Blanks t
  · rw [trimStart_eq_nil_iff.2 (blanks_append.2 ⟨blank, blankTrail⟩),
      trimStart_eq_nil_iff.2 blank]
  · have nonempty : trimStart t ≠ [] := fun h => blank (trimStart_eq_nil_iff.1 h)
    have back : trimStart (t ++ trail) = trimStart t ++ trail := by
      have isEmpty : (t.dropWhile isBlank).isEmpty = false := by
        simpa [trimStart] using nonempty
      simp [trimStart, List.dropWhile_append, isEmpty]
    rw [back, trimEnd_append blankTrail]

theorem trimEnd_eq_nil_iff {t : Text} : trimEnd t = [] ↔ Blanks t := by
  unfold trimEnd
  rw [List.reverse_eq_nil_iff, List.dropWhile_eq_nil_iff]
  simp only [List.mem_reverse, Blanks]

theorem trim_eq_nil_iff {t : Text} : trim t = [] ↔ Blanks t := by
  have cut := takeWhile_append_trimStart t
  rw [trim, trimEnd_eq_nil_iff]
  constructor
  · intro rest
    rw [← cut]
    exact blanks_append.2 ⟨blanks_takeWhile t, rest⟩
  · intro blank
    rw [trimStart_eq_nil_iff.2 blank]
    exact blanks_nil

/-- A text whose first and last characters are not blank is trimmed. -/
theorem trim_eq_self {t : Text} (first : Stops isBlank t) (last : Stops isBlank t.reverse) :
    trim t = t := by
  have front : trimStart t = t := trimStart_append blanks_nil first
  have back : t.reverse.dropWhile isBlank = t.reverse := trimStart_append blanks_nil last
  rw [trim, front, trimEnd, back, List.reverse_reverse]

/-- A text is its trimmed text between blanks. -/
theorem exists_margins (t : Text) :
    ∃ lead trail, t = lead ++ (trim t ++ trail) ∧ Blanks lead ∧ Blanks trail := by
  obtain ⟨⟨lead, front, leadBlank⟩, -⟩ := trimStart_eq_iff.1 (rfl : trimStart t = _)
  let reversed := (trimStart t).reverse
  have back : trimStart t = trim t ++ (reversed.takeWhile isBlank).reverse := by
    have whole := congrArg List.reverse (takeWhile_append_trimStart reversed)
    rw [List.reverse_append, List.reverse_reverse] at whole
    exact whole.symm
  refine ⟨lead, (reversed.takeWhile isBlank).reverse, back ▸ front, leadBlank, fun c member => ?_⟩
  exact blanks_takeWhile reversed c (List.mem_reverse.1 member)

theorem trim_trim (t : Text) : trim (trim t) = trim t := by
  obtain ⟨lead, trail, whole, leadBlank, trailBlank⟩ := exists_margins t
  conv => rhs; rw [whole, ← List.append_assoc]
  exact (trim_append leadBlank trailBlank).symm

theorem mem_of_mem_trimStart {t : Text} {c : Char} (h : c ∈ trimStart t) : c ∈ t :=
  (List.dropWhile_suffix isBlank).subset h

theorem mem_of_mem_trim {t : Text} {c : Char} (h : c ∈ trim t) : c ∈ t := by
  have inStart : c ∈ trimStart t :=
    List.mem_reverse.1 ((List.dropWhile_suffix isBlank).subset (List.mem_reverse.1 h))
  exact mem_of_mem_trimStart inStart

/-! ## Pieces -/

/-- Put a text in front of the first piece. -/
def prepend (t : Text) (pieces : List Text) : List Text :=
  t.foldr consFirst pieces

theorem prepend_append (u v : Text) (pieces : List Text) :
    prepend (u ++ v) pieces = prepend u (prepend v pieces) :=
  List.foldr_append

theorem prepend_cons (t first : Text) (later : List Text) :
    prepend t (first :: later) = (t ++ first) :: later := by
  induction t with
  | nil => rfl
  | cons c t ih => exact congrArg (consFirst c) ih

theorem mem_of_mem_join {separator : Text} {pieces : List Text} {c : Char}
    (h : c ∈ join separator pieces) : c ∈ separator ∨ ∃ piece ∈ pieces, c ∈ piece := by
  induction pieces with
  | nil => cases h
  | cons piece rest ih =>
      cases rest with
      | nil => exact .inr ⟨piece, by simp, h⟩
      | cons next rest =>
          rw [join, List.mem_append, List.mem_append] at h
          rcases h with (inPiece | inSeparator) | inRest
          · exact .inr ⟨piece, by simp, inPiece⟩
          · exact .inl inSeparator
          · rcases ih inRest with inSeparator | ⟨found, member, inFound⟩
            · exact .inl inSeparator
            · exact .inr ⟨found, List.mem_cons_of_mem _ member, inFound⟩

/-! ## Lines -/

/-- The first line of a source is the text before the break, less one carriage
return that may stand before it. -/
theorem lines_append_break {t : Text} (oneLine : '\n' ∉ t) (rest : Text) :
    ∃ line, (t = line ∨ t = line ++ ['\r']) ∧
      lines (t ++ '\n' :: rest) = line :: lines rest := by
  induction t with
  | nil => exact ⟨[], .inl rfl, by simp [lines]⟩
  | cons c t ih =>
      obtain ⟨line, same, split⟩ := ih (fun h => oneLine (List.mem_cons_of_mem _ h))
      have notBreak : c ≠ '\n' := fun h => oneLine (by simp [h])
      by_cases returned : c = '\r' ∧ t = []
      · obtain ⟨rfl, rfl⟩ := returned
        exact ⟨[], .inr rfl, by simp [lines]⟩
      · refine ⟨c :: line, by simpa using same, ?_⟩
        rw [List.cons_append, lines]
        · rw [if_neg notBreak, split, consFirst]
        · rintro more rfl eq
          cases t with
          | nil => exact returned ⟨rfl, rfl⟩
          | cons d t =>
              rw [List.cons_append, List.cons.injEq] at eq
              exact oneLine (by simp [eq.1])

theorem trim_of_break {t line : Text} (h : t = line ∨ t = line ++ ['\r']) :
    trim line = trim t := by
  rcases h with rfl | rfl
  · rfl
  · have blank : Blanks ['\r'] := by decide
    exact (trim_append blanks_nil blank).symm

theorem lines_of_oneLine {t : Text} (ne : t ≠ []) (oneLine : '\n' ∉ t) : lines t = [t] := by
  induction t with
  | nil => exact absurd rfl ne
  | cons c t ih =>
      have notBreak : c ≠ '\n' := fun h => oneLine (by simp [h])
      rw [lines]
      · rw [if_neg notBreak]
        cases t with
        | nil => rfl
        | cons d t =>
            rw [ih (by simp) (fun h => oneLine (List.mem_cons_of_mem _ h))]
            rfl
      · rintro more rfl rfl
        exact oneLine (by simp)

end Text

/-! ## The lines that count -/

open Text

namespace SourceLine

/-- A trimmed line that is not skipped. -/
def counts (text : Text) : Bool :=
  !text.isEmpty && !startsWith text "#include".toList

theorem keepFrom_texts (number : Nat) (raws : List Text) :
    (keepFrom number raws).map SourceLine.text = (raws.map trim).filter counts := by
  induction raws generalizing number with
  | nil => rfl
  | cons raw raws ih =>
      rw [keepFrom, List.map_cons, List.filter_cons]
      by_cases empty : (trim raw).isEmpty = true
      · simp [ofRaw, counts, empty, ih]
      · by_cases directive : startsWith (trim raw) "#include".toList = true
        all_goals
          simp only [ofRaw, counts, empty, directive]
          simp [ih]

/-- The texts of the kept lines are the trimmed lines that count, in order. -/
theorem ofSource_texts (source : Text) :
    (ofSource source).map SourceLine.text = ((lines source).map trim).filter counts :=
  keepFrom_texts 1 (lines source)

/-- No kept line holds a line feed. -/
theorem not_mem_of_mem_ofSource {source text : Text}
    (h : text ∈ (ofSource source).map SourceLine.text) : '\n' ∉ text := by
  rw [ofSource_texts, List.mem_filter, List.mem_map] at h
  obtain ⟨⟨line, member, rfl⟩, -⟩ := h
  exact fun hc => not_mem_of_mem_lines member (mem_of_mem_trim hc)

end SourceLine

end Linewise
