/-
# Linewise.Proofs.Shape -- the texts that the recognisers read

A recogniser cuts a text into a record. For each of them this module gives the
text of a record (`spelling`) and the condition on its parts (`WellFormed`)
under which the recogniser reads it back, and proves that it reads nothing else:

    parse? t = some r  ↔  t = r.spelling ∧ r.WellFormed

So every text has at most one reading, the parts of a reading are parts of the
text, and a line written in one of the shapes is recognised. What remains to be
said about a recogniser is then said about texts.
-/
import Linewise.Declaration
import Linewise.Proofs.Runs
import Linewise.Signature

namespace Linewise

open Text

set_option autoImplicit false

/-! ## The first line of a text -/

namespace Text

theorem firstLine_eq_iff {t line rest : Text} :
    (firstLine t = line ∧ afterFirstLine t = rest) ↔
      t = line ++ rest ∧ '\n' ∉ line ∧ Stops (· != '\n') rest := by
  unfold firstLine afterFirstLine
  rw [run_eq_iff]
  have noBreak : (∀ c ∈ line, (c != '\n') = true) ↔ '\n' ∉ line := by
    constructor
    · intro h member
      simpa using h _ member
    · intro h c member
      have : c ≠ '\n' := fun eq => h (eq ▸ member)
      simpa using this
  rw [noBreak]

theorem firstLine_spec (t : Text) :
    t = firstLine t ++ afterFirstLine t ∧ '\n' ∉ firstLine t ∧
      Stops (· != '\n') (afterFirstLine t) :=
  firstLine_eq_iff.1 ⟨rfl, rfl⟩

theorem firstLine_append {u v : Text} (h : '\n' ∉ u) :
    firstLine (u ++ v) = u ++ firstLine v := by
  obtain ⟨whole, oneLine, stops⟩ := firstLine_spec v
  refine (firstLine_eq_iff.2 ⟨?_, ?_, stops⟩).1
  · rw [List.append_assoc, ← whole]
  · rw [List.mem_append]
    exact fun member => member.elim h oneLine

theorem not_mem_firstLine {t : Text} {c : Char} (h : c ∉ t) : c ∉ firstLine t :=
  fun member => h ((List.takeWhile_prefix _).subset member)

/-- Cutting the first line at its last mark, in terms of the whole text. -/
theorem cutFirstLine_iff {mark : Char} (ne : mark ≠ '\n') {t before rest : Text} :
    (∃ after, splitAtLast? mark (firstLine t) = some (before, after) ∧
        rest = after ++ afterFirstLine t) ↔
      t = before ++ mark :: rest ∧ '\n' ∉ before ∧ mark ∉ firstLine rest := by
  constructor
  · rintro ⟨after, cut, rfl⟩
    obtain ⟨eq, last⟩ := splitAtLast?_eq_some_iff.1 cut
    obtain ⟨whole, oneLine, stops⟩ := firstLine_spec t
    rw [eq, List.mem_append, List.mem_cons] at oneLine
    have notBefore : '\n' ∉ before := fun h => oneLine (.inl h)
    have notAfter : '\n' ∉ after := fun h => oneLine (.inr (.inr h))
    refine ⟨?_, notBefore, ?_⟩
    · rw [eq] at whole
      simpa using whole
    · rwa [(firstLine_eq_iff.2 ⟨rfl, notAfter, stops⟩).1]
  · rintro ⟨rfl, notBefore, last⟩
    have line : firstLine (before ++ mark :: rest) = before ++ mark :: firstLine rest := by
      have markLine : '\n' ∉ [mark] := by simpa using ne.symm
      rw [firstLine_append notBefore]
      exact congrArg _ (firstLine_append markLine)
    have split := firstLine_append_afterFirstLine (before ++ mark :: rest)
    refine ⟨firstLine rest, ?_, ?_⟩
    · rw [line]
      exact splitAtLast?_append before last
    · rw [line] at split
      simpa using split.symm

end Text

/-! ## Scalar types -/

namespace ScalarType

theorem read?_eq_some_iff {t rest : Text} {type : ScalarType} :
    read? t = some (type, rest) ↔ t = type.spelling ++ rest := by
  constructor
  · intro h
    obtain ⟨found, -, read⟩ := List.exists_of_findSome?_eq_some h
    obtain ⟨rest', dropped, eq⟩ := Option.map_eq_some_iff.1 read
    cases eq
    exact dropStart?_eq_some_iff.1 dropped
  · rintro rfl
    cases type <;> rfl

theorem readSpaced?_eq_some_iff {t gap rest : Text} {type : ScalarType} :
    readSpaced? t = some (type, gap, rest) ↔
      t = type.spelling ++ gap ++ rest ∧ (gap ≠ [] ∧ Blanks gap) ∧ Stops isBlank rest := by
  have unfolded : readSpaced? t = (read? t).bind fun found =>
      if (found.2.takeWhile isBlank).isEmpty then none
      else some (found.1, found.2.takeWhile isBlank, trimStart found.2) := rfl
  rw [unfolded, Option.bind_eq_some_iff]
  constructor
  · rintro ⟨⟨found, after⟩, read, taken⟩
    have eq := read?_eq_some_iff.1 read
    split at taken
    · cases taken
    · rename_i nonempty
      cases taken
      refine ⟨?_, ⟨by simpa using nonempty, blanks_takeWhile after⟩, stops_trimStart after⟩
      rw [List.append_assoc, takeWhile_append_trimStart, eq]
  · rintro ⟨rfl, ⟨ne, blank⟩, stops⟩
    refine ⟨(type, gap ++ rest), read?_eq_some_iff.2 (List.append_assoc ..), ?_⟩
    simp only [takeWhile_append_of_stops blank stops, trimStart_append blank stops]
    rw [if_neg (by simpa using ne)]

end ScalarType

/-! ## Declarations -/

namespace InitDeclaration

def spelling (d : InitDeclaration) : Text :=
  d.type.spelling ++ d.gap ++ (d.name ++ (d.space ++ '=' :: (d.value ++ d.rest)))

structure WellFormed (d : InitDeclaration) : Prop where
  gap : d.gap ≠ [] ∧ Blanks d.gap
  name : IsName d.name
  space : Blanks d.space
  value : '\n' ∉ d.value
  rest : Stops (· != '\n') d.rest

theorem parse?_eq_some_iff {t : Text} {d : InitDeclaration} :
    parse? t = some d ↔ t = d.spelling ∧ d.WellFormed := by
  unfold parse?
  rw [Option.bind_eq_bind, Option.bind_eq_some_iff]
  constructor
  · rintro ⟨⟨type, gap, binding⟩, read, taken⟩
    obtain ⟨rfl, blank, stops⟩ := ScalarType.readSpaced?_eq_some_iff.1 read
    simp only at taken
    split at taken
    · cases taken
    · rename_i nonempty
      split at taken
      · rename_i body found
        cases taken
        obtain ⟨whole, oneLine, ends⟩ := firstLine_spec body
        have name : binding = binding.takeWhile isWord ++ binding.dropWhile isWord :=
          List.takeWhile_append_dropWhile.symm
        have space := takeWhile_append_trimStart (binding.dropWhile isWord)
        refine ⟨?_, blank, ⟨by simpa using nonempty, fun c h => List.mem_takeWhile_imp h⟩,
          blanks_takeWhile _, oneLine, ends⟩
        simp only [spelling]
        rw [← whole, ← found, space, ← name]
      · cases taken
  · rintro ⟨rfl, wf⟩
    obtain ⟨type, gap, name, space, value, rest⟩ := d
    obtain ⟨gapBlank, isName, spaceBlank, oneLine, ends⟩ := wf
    simp only at gapBlank isName spaceBlank oneLine ends
    refine ⟨(type, gap, name ++ (space ++ '=' :: (value ++ rest))),
      ScalarType.readSpaced?_eq_some_iff.2 ⟨rfl, gapBlank, isName.stops_isBlank⟩, ?_⟩
    have equals : Stops isBlank ('=' :: (value ++ rest)) := by rw [stops_cons]; decide
    have wordEnds : Stops isWord (space ++ '=' :: (value ++ rest)) :=
      stops_isWord_append spaceBlank (stops_cons.2 (by decide))
    obtain ⟨line, after⟩ := firstLine_eq_iff.2 ⟨(rfl : value ++ rest = _), oneLine, ends⟩
    simp only [takeWhile_append_of_stops isName.2 wordEnds, dropWhile_append_of_stops isName.2 wordEnds,
      trimStart_append spaceBlank equals, takeWhile_append_of_stops spaceBlank equals, line, after]
    rw [if_neg (by simpa using isName.1)]

end InitDeclaration

namespace PlainDeclaration

def spelling (d : PlainDeclaration) : Text :=
  d.type.spelling ++ d.gap ++ (d.name ++ ';' :: d.rest)

structure WellFormed (d : PlainDeclaration) : Prop where
  gap : d.gap ≠ [] ∧ Blanks d.gap
  name : IsName d.name

theorem parse?_eq_some_iff {t : Text} {d : PlainDeclaration} :
    parse? t = some d ↔ t = d.spelling ∧ d.WellFormed := by
  unfold parse?
  rw [Option.bind_eq_bind, Option.bind_eq_some_iff]
  constructor
  · rintro ⟨⟨type, gap, binding⟩, read, taken⟩
    obtain ⟨rfl, blank, stops⟩ := ScalarType.readSpaced?_eq_some_iff.1 read
    simp only at taken
    split at taken
    · cases taken
    · rename_i nonempty
      split at taken
      · rename_i rest found
        cases taken
        refine ⟨?_, blank, by simpa using nonempty, fun c h => List.mem_takeWhile_imp h⟩
        simp only [spelling]
        rw [← found, List.takeWhile_append_dropWhile]
      · cases taken
  · rintro ⟨rfl, wf⟩
    obtain ⟨type, gap, name, rest⟩ := d
    obtain ⟨gapBlank, isName⟩ := wf
    simp only at gapBlank isName
    refine ⟨(type, gap, name ++ ';' :: rest),
      ScalarType.readSpaced?_eq_some_iff.2 ⟨rfl, gapBlank, isName.stops_isBlank⟩, ?_⟩
    have wordEnds : Stops isWord (';' :: rest) := by rw [stops_cons]; decide
    simp only [takeWhile_append_of_stops isName.2 wordEnds,
      dropWhile_append_of_stops isName.2 wordEnds]
    rw [if_neg (by simpa using isName.1)]

end PlainDeclaration

/-! ## Loop headers -/

namespace LoopHeader

def spelling (h : LoopHeader) : Text :=
  "for".toList ++ (h.space ++ '(' :: (h.inner ++ (h.type.spelling ++ h.gap ++ h.rest)))

structure WellFormed (h : LoopHeader) : Prop where
  space : Blanks h.space
  inner : Blanks h.inner
  gap : h.gap ≠ [] ∧ Blanks h.gap
  rest : Stops isBlank h.rest

theorem stops_isBlank_spelling (type : ScalarType) (t : Text) :
    Stops isBlank (type.spelling ++ t) := by
  cases type <;> exact stops_cons.2 (by decide)

theorem parse?_eq_some_iff {t : Text} {h : LoopHeader} :
    parse? t = some h ↔ t = h.spelling ∧ h.WellFormed := by
  unfold parse?
  rw [Option.bind_eq_bind, Option.bind_eq_some_iff]
  constructor
  · rintro ⟨afterFor, dropped, taken⟩
    rw [dropStart?_eq_some_iff] at dropped
    split at taken
    · rename_i inside found
      obtain ⟨⟨type, gap, rest⟩, read, eq⟩ := Option.bind_eq_some_iff.1 taken
      obtain ⟨header, blank, stops⟩ := ScalarType.readSpaced?_eq_some_iff.1 read
      cases eq
      refine ⟨?_, blanks_takeWhile _, blanks_takeWhile _, blank, stops⟩
      simp only [spelling]
      rw [← header, takeWhile_append_trimStart, ← found, takeWhile_append_trimStart, dropped]
    · cases taken
  · rintro ⟨rfl, wf⟩
    obtain ⟨space, inner, type, gap, rest⟩ := h
    obtain ⟨spaceBlank, innerBlank, gapBlank, stops⟩ := wf
    simp only at spaceBlank innerBlank gapBlank stops
    refine ⟨_, dropStart?_eq_some_iff.2 rfl, ?_⟩
    have paren : Stops isBlank ('(' :: (inner ++ (type.spelling ++ gap ++ rest))) := by
      rw [stops_cons]; decide
    have keyword : Stops isBlank (type.spelling ++ gap ++ rest) := by
      rw [List.append_assoc]
      exact stops_isBlank_spelling type _
    have read : ScalarType.readSpaced? (type.spelling ++ gap ++ rest) = some (type, gap, rest) :=
      ScalarType.readSpaced?_eq_some_iff.2 ⟨rfl, gapBlank, stops⟩
    simp only [trimStart_append spaceBlank paren, takeWhile_append_of_stops spaceBlank paren,
      trimStart_append innerBlank keyword, takeWhile_append_of_stops innerBlank keyword, read,
      Option.bind_eq_bind, Option.bind_some]

end LoopHeader

/-! ## Signatures -/

namespace Signature

structure WellFormed (s : Signature) : Prop where
  type : IsName s.type
  gap : s.gap ≠ [] ∧ Blanks s.gap
  name : IsName s.name
  space : Blanks s.space
  params : '\n' ∉ s.params
  rest : ')' ∉ firstLine s.rest

def spelling (s : Signature) : Text :=
  s.type ++ (s.gap ++ (s.name ++ (s.space ++ '(' :: (s.params ++ ')' :: s.rest))))

theorem parse?_eq_some_iff {t : Text} {s : Signature} :
    parse? t = some s ↔ t = s.spelling ∧ s.WellFormed := by
  unfold parse?
  constructor
  · intro taken
    simp only at taken
    split at taken
    · cases taken
    · rename_i nonempty
      simp only [Bool.or_eq_true, List.isEmpty_iff, not_or] at nonempty
      obtain ⟨⟨typeNe, gapNe⟩, nameNe⟩ := nonempty
      split at taken
      · rename_i body found
        obtain ⟨⟨params, after⟩, cut, rfl⟩ := Option.map_eq_some_iff.1 taken
        obtain ⟨whole, oneLine, last⟩ :=
          (cutFirstLine_iff (by decide)).1 ⟨after, cut, rfl⟩
        refine ⟨?_, ⟨typeNe, fun c h => List.mem_takeWhile_imp h⟩, ⟨gapNe, blanks_takeWhile _⟩,
          ⟨nameNe, fun c h => List.mem_takeWhile_imp h⟩, blanks_takeWhile _, oneLine, last⟩
        simp only [spelling]
        rw [← whole, ← found, takeWhile_append_trimStart, List.takeWhile_append_dropWhile,
          takeWhile_append_trimStart, List.takeWhile_append_dropWhile]
      · cases taken
  · rintro ⟨rfl, wf⟩
    obtain ⟨type, gap, name, space, params, rest⟩ := s
    obtain ⟨isType, gapBlank, isName, spaceBlank, oneLine, last⟩ := wf
    simp only at isType gapBlank isName spaceBlank oneLine last
    have paren : Stops isBlank ('(' :: (params ++ ')' :: rest)) := by rw [stops_cons]; decide
    have nameEnds : Stops isWord (space ++ '(' :: (params ++ ')' :: rest)) :=
      stops_isWord_append spaceBlank (stops_cons.2 (by decide))
    have gapEnds : Stops isBlank (name ++ (space ++ '(' :: (params ++ ')' :: rest))) :=
      isName.stops_isBlank
    have typeEnds : Stops isWord (gap ++ (name ++ (space ++ '(' :: (params ++ ')' :: rest)))) :=
      stops_isWord_of_blanks gapBlank.1 gapBlank.2
    obtain ⟨after, cut, eq⟩ := (cutFirstLine_iff (by decide)).2 ⟨rfl, oneLine, last⟩
    simp only [spelling, takeWhile_append_of_stops isType.2 typeEnds,
      dropWhile_append_of_stops isType.2 typeEnds, trimStart_append gapBlank.2 gapEnds,
      takeWhile_append_of_stops gapBlank.2 gapEnds, takeWhile_append_of_stops isName.2 nameEnds,
      dropWhile_append_of_stops isName.2 nameEnds, trimStart_append spaceBlank paren,
      takeWhile_append_of_stops spaceBlank paren, cut, Option.map_some]
    rw [if_neg (by simp [isType.1, gapBlank.1, isName.1]), ← eq]

end Signature

/-! ## The entry point -/

namespace EntryPoint

theorem afterType?_eq_some_iff {t rest : Text} :
    afterType? t = some rest ↔
      ∃ type gap, t = type ++ (gap ++ rest) ∧ IsName type ∧ (gap ≠ [] ∧ Blanks gap) ∧
        Stops isBlank rest := by
  unfold afterType?
  constructor
  · intro taken
    simp only at taken
    split at taken
    · cases taken
    · rename_i nonempty
      simp only [Bool.or_eq_true, List.isEmpty_iff, not_or] at nonempty
      cases taken
      refine ⟨_, _, ?_, ⟨nonempty.1, fun c h => List.mem_takeWhile_imp h⟩,
        ⟨nonempty.2, blanks_takeWhile _⟩, stops_trimStart _⟩
      rw [takeWhile_append_trimStart, List.takeWhile_append_dropWhile]
  · rintro ⟨type, gap, rfl, isType, gapBlank, stops⟩
    have typeEnds : Stops isWord (gap ++ rest) := stops_isWord_of_blanks gapBlank.1 gapBlank.2
    simp only [takeWhile_append_of_stops isType.2 typeEnds,
      dropWhile_append_of_stops isType.2 typeEnds, takeWhile_append_of_stops gapBlank.2 stops,
      trimStart_append gapBlank.2 stops]
    rw [if_neg (by simp [isType.1, gapBlank.1])]

/-- The word `void` in any letter case. -/
def IsVoid (t : Text) : Prop :=
  t.map Char.toLower = "void".toList

theorem afterVoid?_eq_some_iff {t rest : Text} :
    afterVoid? t = some rest ↔ ∃ void, t = void ++ rest ∧ IsVoid void := by
  unfold afterVoid?
  constructor
  · intro taken
    split at taken
    · rename_i lower
      cases taken
      exact ⟨t.take 4, (List.take_append_drop 4 t).symm, lower⟩
    · cases taken
  · rintro ⟨void, rfl, lower⟩
    have length : void.length = 4 := by simpa using congrArg List.length lower
    rw [if_pos (by rw [List.take_left' length]; exact lower), List.drop_left' length]

theorem IsVoid.stops_isBlank {void rest : Text} (h : IsVoid void) :
    Stops isBlank (void ++ rest) := by
  cases void with
  | nil => cases h
  | cons c void =>
      have lower : c.toLower = 'v' := (List.cons.inj h).1
      have ascii : ∀ n < 128, (Char.ofNat n).toLower = 'v' →
          isBlank (Char.ofNat n) = false := by decide +kernel
      have small : c.toNat < 128 := by
        by_contra large
        have same : c.toLower = c := by
          unfold Char.toLower
          rw [dif_neg]
          rintro ⟨-, upper⟩
          exact large (Nat.lt_of_le_of_lt upper (by decide))
        rw [← same, lower] at large
        exact large (by decide)
      have := ascii c.toNat small (by rwa [Char.ofNat_toNat])
      rw [List.cons_append, stops_cons]
      rwa [Char.ofNat_toNat] at this

/-- The parentheses of the entry point hold blanks or one `void`. -/
theorem afterMain?_eq_some_iff {t rest : Text} :
    afterMain? t = some rest ↔
      ∃ space inner void outer, t = "main".toList ++ (space ++ '(' :: (inner ++ (void ++
          (outer ++ ')' :: rest)))) ∧
        Blanks space ∧ Blanks inner ∧ (void = [] ∨ IsVoid void) ∧ Blanks outer := by
  have unfolded : afterMain? t = (dropStart? "main".toList t).bind fun afterName =>
      (dropStart? "(".toList (trimStart afterName)).bind fun inside =>
        dropStart? ")".toList
          (trimStart ((afterVoid? (trimStart inside)).getD (trimStart inside))) := rfl
  rw [unfolded]
  simp only [Option.bind_eq_some_iff, dropStart?_eq_some_iff]
  constructor
  · rintro ⟨afterName, rfl, inside, opened, closed⟩
    obtain ⟨⟨space, rfl, spaceBlank⟩, -⟩ := trimStart_eq_iff.1 opened
    obtain ⟨⟨inner, innerEq, innerBlank⟩, -⟩ := trimStart_eq_iff.1 (rfl : trimStart inside = _)
    obtain ⟨⟨outer, outerEq, outerBlank⟩, -⟩ := trimStart_eq_iff.1 closed
    cases void : afterVoid? (trimStart inside) with
    | none =>
        rw [void, Option.getD_none] at outerEq
        refine ⟨space, inner, [], outer, ?_, spaceBlank, innerBlank, .inl rfl, outerBlank⟩
        rw [innerEq, outerEq]
        rfl
    | some behind =>
        obtain ⟨word, eq, isVoid⟩ := afterVoid?_eq_some_iff.1 void
        rw [void, Option.getD_some] at outerEq
        refine ⟨space, inner, word, outer, ?_, spaceBlank, innerBlank, .inr isVoid, outerBlank⟩
        rw [innerEq, eq, outerEq]
        rfl
  · rintro ⟨space, inner, void, outer, rfl, spaceBlank, innerBlank, voidOr, outerBlank⟩
    have paren : ∀ t, Stops isBlank ('(' :: t) := fun t => stops_cons.2 (by decide)
    have close : Stops isBlank (')' :: rest) := stops_cons.2 (by decide)
    refine ⟨_, rfl, inner ++ (void ++ (outer ++ ')' :: rest)),
      trimStart_append spaceBlank (paren _), ?_⟩
    rcases voidOr with rfl | isVoid
    · have skipped : trimStart (inner ++ ([] ++ (outer ++ ')' :: rest))) = ')' :: rest := by
        rw [List.nil_append, ← List.append_assoc]
        exact trimStart_append (blanks_append.2 ⟨innerBlank, outerBlank⟩) close
      have noVoid : afterVoid? (')' :: rest) = none := by
        rw [Option.eq_none_iff_forall_ne_some]
        intro behind found
        obtain ⟨word, eq, isVoid⟩ := afterVoid?_eq_some_iff.1 found
        cases word with
        | nil => cases isVoid
        | cons c word =>
            have first : c = ')' := (List.cons.inj eq).1.symm
            subst first
            exact absurd (List.cons.inj isVoid).1 (by decide)
      rw [skipped, noVoid, Option.getD_none]
      exact trimStart_append blanks_nil close
    · have skipped : trimStart (inner ++ (void ++ (outer ++ ')' :: rest))) =
          void ++ (outer ++ ')' :: rest) :=
        trimStart_append innerBlank isVoid.stops_isBlank
      rw [skipped, afterVoid?_eq_some_iff.2 ⟨void, rfl, isVoid⟩, Option.getD_some]
      exact trimStart_append outerBlank close

/-- A text starts with the entry point when `main` and its parentheses stand at
its start or behind one word. -/
theorem rest?_isSome_iff {t : Text} :
    (rest? t).isSome = true ↔
      (∃ behind, afterType? t = some behind ∧ (afterMain? behind).isSome = true) ∨
        (afterMain? t).isSome = true := by
  unfold rest?
  cases typed : (afterType? t).bind afterMain? with
  | some rest =>
      obtain ⟨behind, found, main⟩ := Option.bind_eq_some_iff.1 typed
      simp only [Option.isSome_some, true_iff]
      exact .inl ⟨behind, found, by rw [main]; rfl⟩
  | none =>
      constructor
      · exact .inr
      · rintro (⟨behind, found, main⟩ | main)
        · rw [found, Option.bind_some] at typed
          rw [typed] at main
          cases main
        · exact main

end EntryPoint

end Linewise
