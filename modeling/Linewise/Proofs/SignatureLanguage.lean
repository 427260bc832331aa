/-
# Linewise.Proofs.SignatureLanguage -- which lines are signatures

The two recognisers of signatures go through a line from the left and take runs of
characters as long as they can. This module says which lines they accept without
saying how: a line is accepted if it can be written in a certain form, however its
parts are chosen (`EntryPoint.Reading`, `Signature.Reading`).

A reading of a signature asks only that its two words are made of word characters. They
cannot be parts of longer words all the same, as blanks or a parenthesis follow them
(`Signature.Reading.wholeWords`). So every reading has the same two words, those that the
line begins with, and the check for control keywords cannot be evaded by reading the line
in another way (`signature_lines_iff`).
-/
import Linewise.Proofs.RulePriority

namespace Linewise

open Text

set_option autoImplicit false

/-! ## The entry point -/

namespace EntryPoint

/-- The entry point as it may be written: `type` is empty or a word with blanks behind it,
and `void` is empty or that word in any letter case. -/
structure Reading where
  type : Text
  space : Text
  inner : Text
  void : Text
  outer : Text
  rest : Text
  typed : type = [] ∨ ∃ word gap, type = word ++ gap ∧ IsName word ∧ gap ≠ [] ∧ Blanks gap
  spaceBlank : Blanks space
  innerBlank : Blanks inner
  isVoid : void = [] ∨ IsVoid void
  outerBlank : Blanks outer

namespace Reading

/-- The line from `main` on. -/
def main (r : Reading) : Text :=
  "main".toList ++ (r.space ++ '(' :: (r.inner ++ (r.void ++ (r.outer ++ ')' :: r.rest))))

def line (r : Reading) : Text :=
  r.type ++ r.main

theorem afterMain?_main (r : Reading) : afterMain? r.main = some r.rest :=
  afterMain?_eq_some_iff.2 ⟨r.space, r.inner, r.void, r.outer, rfl, r.spaceBlank, r.innerBlank,
    r.isVoid, r.outerBlank⟩

/-- What is read behind a type, or at the start of the line, completes a reading. -/
theorem exists_of_afterMain? {type t rest : Text} (read : afterMain? t = some rest)
    (typed : type = [] ∨ ∃ word gap, type = word ++ gap ∧ IsName word ∧ gap ≠ [] ∧ Blanks gap) :
    ∃ r : Reading, r.line = type ++ t := by
  obtain ⟨space, inner, void, outer, rfl, spaceBlank, innerBlank, isVoid, outerBlank⟩ :=
    afterMain?_eq_some_iff.1 read
  exact ⟨⟨type, space, inner, void, outer, rest, typed, spaceBlank, innerBlank, isVoid,
    outerBlank⟩, rfl⟩

end Reading

theorem rest?_isSome_iff_exists_reading {t : Text} :
    (rest? t).isSome = true ↔ ∃ r : Reading, r.line = t := by
  rw [rest?_isSome_iff]
  constructor
  · rintro (⟨behind, typed, main⟩ | main)
    · obtain ⟨word, gap, rfl, isName, gapBlank, -⟩ := afterType?_eq_some_iff.1 typed
      obtain ⟨rest, read⟩ := Option.isSome_iff_exists.1 main
      rw [← List.append_assoc]
      exact Reading.exists_of_afterMain? read
        (.inr ⟨word, gap, rfl, isName, gapBlank.1, gapBlank.2⟩)
    · obtain ⟨rest, read⟩ := Option.isSome_iff_exists.1 main
      exact Reading.exists_of_afterMain? read (.inl rfl)
  · rintro ⟨r, rfl⟩
    have main : (afterMain? r.main).isSome = true := by rw [r.afterMain?_main]; rfl
    rcases r.typed with untyped | ⟨word, gap, eq, isName, gapNe, gapBlank⟩
    · right
      rw [Reading.line, untyped]
      exact main
    · left
      have stops : Stops isBlank r.main := stops_cons.2 (by decide)
      refine ⟨r.main, afterType?_eq_some_iff.2 ⟨word, gap, ?_, isName, ⟨gapNe, gapBlank⟩, stops⟩,
        main⟩
      rw [Reading.line, eq, List.append_assoc]

theorem accepts_iff_exists_reading {line : Text} :
    accepts line = true ↔ endsWith line [';'] = false ∧ ∃ r : Reading, r.line = line := by
  rw [accepts, Bool.and_eq_true, Bool.not_eq_true', rest?_isSome_iff_exists_reading]

end EntryPoint

/-! ## Any other signature -/

namespace Signature

/-- A line read as a signature: two runs of word characters with blanks between them, and
something in parentheses. The runs may be chosen at will. -/
structure Reading where
  type : Text
  gap : Text
  name : Text
  space : Text
  params : Text
  rest : Text
  isType : IsName type
  gapNe : gap ≠ []
  gapBlank : Blanks gap
  isName : IsName name
  spaceBlank : Blanks space

/-- Between these texts a word is not part of a longer one. -/
def Isolates (front back : Text) : Prop :=
  (∀ c ∈ front.getLast?, isWord c = false) ∧ Stops isWord back

namespace Reading

/-- The line from the parenthesis on. -/
def list (r : Reading) : Text :=
  '(' :: (r.params ++ ')' :: r.rest)

def line (r : Reading) : Text :=
  r.type ++ (r.gap ++ (r.name ++ (r.space ++ r.list)))

/-- Both words are as long as they can be. -/
structure WholeWords (r : Reading) : Prop where
  type : Isolates [] (r.gap ++ (r.name ++ (r.space ++ r.list)))
  name : Isolates (r.type ++ r.gap) (r.space ++ r.list)

/-- Neither of the words is a control keyword. -/
def KeywordFree (r : Reading) : Prop :=
  isControlKeyword r.type = false ∧ isControlKeyword r.name = false

theorem wholeWords (r : Reading) : r.WholeWords := by
  have paren : Stops isWord r.list := stops_cons.2 (by decide)
  constructor
  · exact ⟨by simp, stops_isWord_of_blanks r.gapNe r.gapBlank⟩
  · refine ⟨fun c last => ?_, stops_isWord_append r.spaceBlank paren⟩
    rw [List.getLast?_append_of_ne_nil _ r.gapNe] at last
    exact isWord_eq_false_of_isBlank (r.gapBlank c (List.mem_of_mem_getLast? last))

/-- The words of a reading are the first two words of its line. -/
theorem opening_line (r : Reading) : Opening.ofLine r.line = ⟨r.type, r.name, some '('⟩ :=
  Opening.ofLine_words r.isType ⟨r.gapNe, r.gapBlank⟩ r.isName r.spaceBlank (by decide)

theorem words_unique {r other : Reading} (same : other.line = r.line) :
    other.type = r.type ∧ other.name = r.name := by
  have openings := other.opening_line
  rw [same, r.opening_line] at openings
  obtain ⟨type, name, -⟩ := Opening.mk.inj openings
  exact ⟨type.symm, name.symm⟩

/-- The line is read with the words of the reading, and the list up to its last
parenthesis. -/
theorem exists_parse?_line (r : Reading) (oneLine : '\n' ∉ r.line) :
    ∃ s, parse? r.line = some s ∧ s.type = r.type ∧ s.name = r.name := by
  -- the parenthesis that ends the list of the reading need not be the last one
  obtain ⟨params, rest, cut, last⟩ : ∃ params rest,
      r.params ++ ')' :: r.rest = params ++ ')' :: rest ∧ ')' ∉ rest :=
    exists_last_mark (by simp)
  have inList : '\n' ∉ params := by
    intro broken
    apply oneLine
    rw [line, list, cut]
    simp [broken]
  refine ⟨⟨r.type, r.gap, r.name, r.space, params, rest⟩, parse?_eq_some_iff.2 ⟨?_, ?_⟩, rfl, rfl⟩
  · rw [line, list, cut]
    rfl
  · exact ⟨r.isType, ⟨r.gapNe, r.gapBlank⟩, r.isName, r.spaceBlank, inList,
      not_mem_firstLine last⟩

theorem exists_of_parse? {t : Text} {s : Signature} (read : parse? t = some s) :
    ∃ r : Reading, r.line = t ∧ r.type = s.type ∧ r.name = s.name := by
  obtain ⟨rfl, wf⟩ := parse?_eq_some_iff.1 read
  exact ⟨⟨s.type, s.gap, s.name, s.space, s.params, s.rest, wf.type, wf.gap.1, wf.gap.2, wf.name,
    wf.space⟩, rfl, rfl, rfl⟩

end Reading

theorem accepts_iff_exists_reading {line : Text} (oneLine : '\n' ∉ line) :
    accepts line = true ↔
      endsWith line [';'] = false ∧ ∃ r : Reading, r.line = line ∧ r.KeywordFree := by
  rw [accepts, Bool.and_eq_true, Bool.not_eq_true']
  refine and_congr_right fun _ => ?_
  constructor
  · intro free
    cases read : parse? line with
    | none => simp [read] at free
    | some s =>
        obtain ⟨r, spelled, type, name⟩ := Reading.exists_of_parse? read
        refine ⟨r, spelled, ?_⟩
        simpa [read, Reading.KeywordFree, type, name] using free
  · rintro ⟨r, rfl, free⟩
    obtain ⟨s, read, type, name⟩ := r.exists_parse?_line oneLine
    rw [Reading.KeywordFree, ← type, ← name] at free
    simp [read, free]

end Signature

/-- **Which lines are signatures.** A line is the entry point, or another signature,
exactly when it does not end in a semicolon and can be written as one, where neither of
the two words of a signature is a control keyword. The words are whole words, and they
are the same however the line is read; so a line that can be read with a keyword is not
accepted. -/
theorem signature_lines_iff {line : Text} (oneLine : '\n' ∉ line) :
    (Rule.entryPoint.accepts line = true ↔
        endsWith line [';'] = false ∧ ∃ r : EntryPoint.Reading, r.line = line) ∧
      (Rule.functionSignature.accepts line = true ↔
        endsWith line [';'] = false ∧
          ∃ r : Signature.Reading, r.line = line ∧ r.WholeWords ∧ r.KeywordFree) ∧
      ∀ r : Signature.Reading, r.line = line →
        r.WholeWords ∧
          (∀ other : Signature.Reading, other.line = line →
            other.type = r.type ∧ other.name = r.name) ∧
          (¬ r.KeywordFree → Rule.functionSignature.accepts line = false) := by
  have accepted : Rule.functionSignature.accepts line = true ↔
      endsWith line [';'] = false ∧ ∃ r : Signature.Reading, r.line = line ∧ r.KeywordFree :=
    Signature.accepts_iff_exists_reading oneLine
  refine ⟨EntryPoint.accepts_iff_exists_reading, ?_, ?_⟩
  · rw [accepted]
    refine and_congr_right fun _ => exists_congr fun r => and_congr_right fun _ => ?_
    exact (and_iff_right r.wholeWords).symm
  · rintro r rfl
    refine ⟨r.wholeWords, fun other same => Signature.Reading.words_unique same, ?_⟩
    intro keyword
    refine Bool.eq_false_iff.2 fun accept => keyword ?_
    obtain ⟨-, other, same, free⟩ := accepted.1 accept
    obtain ⟨type, name⟩ := Signature.Reading.words_unique same
    rwa [Signature.Reading.KeywordFree, type, name] at free

/-- `else if (x) {`. -/
def elseIfReading : Signature.Reading where
  type := "else".toList
  gap := [' ']
  name := "if".toList
  space := [' ']
  params := ['x']
  rest := " \x7b".toList
  isType := by decide
  gapNe := List.cons_ne_nil _ _
  gapBlank := blanks_space
  isName := by decide
  spaceBlank := blanks_space

/-- `int main ( VOID) {`. -/
def voidMainReading : EntryPoint.Reading where
  type := "int ".toList
  space := [' ']
  inner := [' ']
  void := "VOID".toList
  outer := []
  rest := " \x7b".toList
  typed := .inr ⟨"int".toList, [' '], rfl, isName_spelling .int, List.cons_ne_nil _ _, blanks_space⟩
  spaceBlank := blanks_space
  innerBlank := blanks_space
  isVoid := .inr rfl
  outerBlank := blanks_nil

theorem signature_lines_iff_elseIf_voidMain :
    ('\n' ∉ elseIfReading.line ∧ elseIfReading.line = "else if (x) \x7b".toList ∧
        Rule.functionSignature.accepts elseIfReading.line = false ∧
        ∀ other : Signature.Reading, other.line = elseIfReading.line →
          other.type = "else".toList ∧ other.name = "if".toList) ∧
      '\n' ∉ voidMainReading.line ∧ voidMainReading.line = "int main ( VOID) \x7b".toList ∧
        Rule.entryPoint.accepts voidMainReading.line = true := by
  have oneLine : '\n' ∉ elseIfReading.line := by decide
  have mainOneLine : '\n' ∉ voidMainReading.line := by decide
  obtain ⟨-, unique, refused⟩ := (signature_lines_iff oneLine).2.2 elseIfReading rfl
  have keyword : ¬ elseIfReading.KeywordFree := fun free => absurd free.1 (by decide)
  have entry := (signature_lines_iff mainOneLine).1
  exact ⟨⟨oneLine, by decide, refused keyword, unique⟩, mainOneLine, by decide,
    entry.2 ⟨by decide, voidMainReading, rfl⟩⟩

end Linewise
