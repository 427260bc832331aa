/-
# Linewise.Proofs.PrintShape -- the texts that are read as print calls

The exact shape of a print call, in the manner of `Linewise.Proofs.Shape`:

    arguments?_eq_some_iff   the text between the comma and the end of the call
    at?_eq_some_iff          a call at the start of a text
    spelling_of_find?        a call anywhere in a text

The argument text is not empty. It starts at the first character that is not
blank, or it is the last blank before the closing parenthesis when there is
nothing else (`ArgumentText.WellFormed`).
-/
import Linewise.PrintCall.Occurrence
import Linewise.Proofs.Shape

namespace Linewise.PrintCall

open Text

set_option autoImplicit false

structure ArgumentText.WellFormed (a : ArgumentText) : Prop where
  blanks : Blanks a.blanks
  oneLine : '\n' ∉ a.text
  text : (a.text ≠ [] ∧ Stops isBlank a.text) ∨ ∃ c, a.text = [c] ∧ isBlank c = true

namespace Occurrence

theorem arguments?_sound {t after : Text} {a : ArgumentText}
    (read : arguments? t = some (a, after)) :
    t = a.blanks ++ (a.text ++ ')' :: after) ∧ a.WellFormed ∧ ')' ∉ firstLine after := by
  have cutBody := takeWhile_append_trimStart t
  unfold arguments? at read
  simp only at read
  split at read
  · cases read
  · rename_i rest cut
    obtain ⟨whole, -, last⟩ := (cutFirstLine_iff (by decide)).1 ⟨rest, cut, rfl⟩
    split at read
    · cases read
    · rename_i c lastBlank
      split at read
      · cases read
      · rename_i notBreak
        cases read
        obtain ⟨front, split⟩ := List.getLast?_eq_some_iff.1 lastBlank
        have blank := blanks_takeWhile t
        rw [split, blanks_append] at blank
        refine ⟨?_, ⟨?_, by simpa using Ne.symm notBreak, .inr ⟨c, rfl, ?_⟩⟩, last⟩
        · rw [whole, split] at cutBody
          simpa [split] using cutBody.symm
        · rw [split, List.dropLast_concat]
          exact blank.1
        · simpa using blank.2
  · rename_i text rest nonempty cut
    cases read
    obtain ⟨whole, oneLine, last⟩ := (cutFirstLine_iff (by decide)).1 ⟨rest, cut, rfl⟩
    have stops := stops_trimStart t
    rw [whole] at stops cutBody
    refine ⟨cutBody.symm, ⟨blanks_takeWhile t, oneLine, .inl ?_⟩, last⟩
    cases text with
    | nil => exact absurd rfl nonempty
    | cons c text => exact ⟨by simp, by simpa using stops⟩

theorem arguments?_complete {after : Text} {a : ArgumentText} (wf : a.WellFormed)
    (last : ')' ∉ firstLine after) :
    arguments? (a.blanks ++ (a.text ++ ')' :: after)) = some (a, after) := by
  obtain ⟨blanks, text⟩ := a
  obtain ⟨blank, oneLine, textual | ⟨c, rfl, blankChar⟩⟩ := wf
  · simp only at blank oneLine textual ⊢
    obtain ⟨nonempty, stops⟩ := textual
    obtain ⟨c, rest, rfl⟩ := List.exists_cons_of_ne_nil nonempty
    have textStops : Stops isBlank (c :: rest ++ ')' :: after) := by simpa using stops
    obtain ⟨remainder, cut, eq⟩ := (cutFirstLine_iff (by decide)).2 ⟨rfl, oneLine, last⟩
    unfold arguments?
    simp only [trimStart_append blank textStops, takeWhile_append_of_stops blank textStops, cut]
    rw [← eq]
  · simp only at blank oneLine ⊢
    have notBreak : c ≠ '\n' := fun eq => oneLine (by simp [eq])
    have blanksStop : Stops isBlank (')' :: after) := stops_cons.2 (by decide)
    have blankRun : Blanks (blanks ++ [c]) := blanks_append.2 ⟨blank, by simpa using blankChar⟩
    have regroup : blanks ++ ([c] ++ ')' :: after) = (blanks ++ [c]) ++ ')' :: after := by simp
    obtain ⟨remainder, cut, eq⟩ : ∃ remainder,
        splitAtLast? ')' (firstLine (')' :: after)) = some ([], remainder) ∧
          after = remainder ++ afterFirstLine (')' :: after) :=
      (cutFirstLine_iff (by decide)).2 ⟨rfl, List.not_mem_nil, last⟩
    unfold arguments?
    simp only [regroup, trimStart_append blankRun blanksStop,
      takeWhile_append_of_stops blankRun blanksStop, cut, List.getLast?_concat,
      List.dropLast_concat, if_neg notBreak]
    rw [← eq]

theorem arguments?_eq_some_iff {t after : Text} {a : ArgumentText} :
    arguments? t = some (a, after) ↔
      t = a.blanks ++ (a.text ++ ')' :: after) ∧ a.WellFormed ∧ ')' ∉ firstLine after := by
  constructor
  · exact arguments?_sound
  · rintro ⟨rfl, wf, last⟩
    exact arguments?_complete wf last

/-! ## A call -/

/-- What follows the format and its blanks. -/
def ending (o : Occurrence) : Text :=
  match o.arguments with
  | none => ')' :: o.after
  | some a => ',' :: (a.blanks ++ (a.text ++ ')' :: o.after))

/-- The text with the call in it. -/
def spelling (o : Occurrence) : Text :=
  o.before ++ ("printf".toList ++ (o.space ++ ("(\"".toList ++ (o.format ++
    ('"' :: (o.gap ++ o.ending))))))

structure WellFormed (o : Occurrence) : Prop where
  space : Blanks o.space
  format : '"' ∉ o.format
  gap : Blanks o.gap
  arguments : ∀ a ∈ o.arguments, a.WellFormed ∧ ')' ∉ firstLine o.after

theorem stops_isBlank_ending (o : Occurrence) : Stops isBlank o.ending := by
  unfold ending
  split <;> exact stops_cons.2 (by decide)

/-- Cutting at the quote that ends the format. -/
theorem format_eq_iff {t format rest : Text} :
    (t.takeWhile (· != '"') = format ∧ t.dropWhile (· != '"') = '"' :: rest) ↔
      t = format ++ '"' :: rest ∧ '"' ∉ format := by
  rw [run_eq_iff]
  constructor
  · rintro ⟨eq, all, -⟩
    exact ⟨eq, fun member => by simpa using all _ member⟩
  · rintro ⟨eq, absent⟩
    refine ⟨eq, fun c member => ?_, by simp⟩
    have : c ≠ '"' := fun h => absent (h ▸ member)
    simpa using this

theorem at?_sound {t : Text} {o : Occurrence} (read : at? t = some o) :
    o.before = [] ∧ t = o.spelling ∧ o.WellFormed := by
  unfold at? at read
  simp only [Option.bind_eq_bind, Option.bind_eq_some_iff, dropStart?_eq_some_iff] at read
  obtain ⟨afterName, rfl, literal, opened, afterFormat, closed, taken⟩ := read
  obtain ⟨quoted, absent⟩ : literal = literal.takeWhile (· != '"') ++ '"' :: afterFormat ∧
      '"' ∉ literal.takeWhile (· != '"') := format_eq_iff.1 ⟨rfl, closed⟩
  have space := takeWhile_append_trimStart afterName
  have gap := takeWhile_append_trimStart afterFormat
  split at taken
  · rename_i after found
    cases taken
    refine ⟨rfl, ?_, blanks_takeWhile _, absent, blanks_takeWhile _, by simp⟩
    simp only [spelling, ending]
    rw [← found, gap, ← quoted, ← opened, space]
    rfl
  · rename_i rest found
    obtain ⟨⟨a, after⟩, arguments, eq⟩ := Option.bind_eq_some_iff.1 taken
    cases eq
    obtain ⟨eq, wf, last⟩ := arguments?_eq_some_iff.1 arguments
    refine ⟨rfl, ?_, blanks_takeWhile _, absent, blanks_takeWhile _, by simpa using ⟨wf, last⟩⟩
    simp only [spelling, ending]
    rw [← eq, ← found, gap, ← quoted, ← opened, space]
    rfl
  · cases taken

theorem at?_complete {o : Occurrence} (start : o.before = []) (wf : o.WellFormed) :
    at? o.spelling = some o := by
  obtain ⟨before, space, format, gap, arguments, after⟩ := o
  obtain ⟨spaceBlank, absent, gapBlank, argumentsWf⟩ := wf
  simp only at start spaceBlank absent gapBlank argumentsWf
  subst start
  have literalStops : ∀ t, Stops isBlank ("(\"".toList ++ t) := fun t => stops_cons.2 (by decide)
  have endingStops := stops_isBlank_ending ⟨[], space, format, gap, arguments, after⟩
  obtain ⟨taken, dropped⟩ := format_eq_iff.2 ⟨(rfl : format ++ '"' :: (gap ++
    ending ⟨[], space, format, gap, arguments, after⟩) = _), absent⟩
  have quote : ∀ t, dropStart? "\"".toList ('"' :: t) = some t := dropStart?_append ['"']
  simp only [at?, spelling, List.nil_append, dropStart?_append, Option.bind_eq_bind,
    Option.bind_some, trimStart_append spaceBlank (literalStops _),
    takeWhile_append_of_stops spaceBlank (literalStops _), taken, dropped, quote,
    trimStart_append gapBlank endingStops, takeWhile_append_of_stops gapBlank endingStops]
  cases arguments with
  | none => rfl
  | some a =>
      obtain ⟨wf, last⟩ := argumentsWf a rfl
      simp only [ending, arguments?_eq_some_iff.2 ⟨rfl, wf, last⟩, Option.bind_some]

/-- A print call at the start of a text is read exactly when the text has its
shape. -/
theorem at?_eq_some_iff {t : Text} {o : Occurrence} :
    at? t = some o ↔ o.before = [] ∧ t = o.spelling ∧ o.WellFormed := by
  constructor
  · exact at?_sound
  · rintro ⟨start, rfl, wf⟩
    exact at?_complete start wf

/-! ## The leftmost call -/

theorem spelling_of_findFrom {boundary : Bool} {t : Text} {o : Occurrence}
    (found : findFrom boundary t = some o) : t = o.spelling ∧ o.WellFormed := by
  induction t generalizing boundary o with
  | nil => cases found
  | cons c rest ih =>
      rw [findFrom] at found
      split at found
      · rename_i here read
        cases found
        split at read
        · obtain ⟨-, eq, wf⟩ := at?_eq_some_iff.1 read
          exact ⟨eq, wf⟩
        · cases read
      · obtain ⟨later, read, rfl⟩ := Option.map_eq_some_iff.1 found
        obtain ⟨eq, wf⟩ := ih read
        exact ⟨congrArg (c :: ·) eq, wf.space, wf.format, wf.gap, wf.arguments⟩

theorem spelling_of_find? {t : Text} {o : Occurrence} (found : find? t = some o) :
    t = o.spelling ∧ o.WellFormed :=
  spelling_of_findFrom found

/-- A call at the start of a text is its leftmost call. -/
theorem find?_of_at? {t : Text} {o : Occurrence} (read : at? t = some o) : find? t = some o := by
  cases t with
  | nil => cases read
  | cons c rest => rw [find?, findFrom, if_pos rfl, read]

end Occurrence

end Linewise.PrintCall
