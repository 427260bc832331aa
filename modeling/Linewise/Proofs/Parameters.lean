/-
# Linewise.Proofs.Parameters -- parameter lists and their reduction

A parameter list is cut at its commas and each parameter is reduced to its last
word. This module gives parameters as they are written, tokens with blanks around
them (`Parameter`), and says what becomes of a list of them
(`reduceParameters_listText`).

The parameter list of a signature reaches to the last closing parenthesis of its
line, so it may run past its own end. What is added then is reduced as well, and
`reduceParameters_append_eq_iff` gives the exact additions that survive: words with
a comma and one blank between them (`IsReduced`), behind a list that leaves no gap
(`Seamless`).
-/
import Linewise.Proofs.Words
import Linewise.Signature
import Mathlib.Data.List.Basic

namespace Linewise.Signature

open Text

set_option autoImplicit false

/-! ## Written parameters -/

/-- A token of a parameter. -/
structure Token where
  text : Text
  nonempty : text ≠ []
  solid : Solid text
  noComma : ',' ∉ text
  noClose : ')' ∉ text

/-- The blanks between two tokens. -/
structure Gap where
  text : Text
  nonempty : text ≠ []
  blank : Blanks text

def Gap.space : Gap where
  text := [' ']
  nonempty := by decide
  blank := blanks_space

/-- A parameter as it is written: its last token, those in front of it, each with
the blanks behind it, and the blanks around the whole. -/
structure Parameter where
  lead : Text
  front : List (Token × Gap)
  last : Token
  trail : Text
  leadBlank : Blanks lead
  trailBlank : Blanks trail

namespace Parameter

def frontText (p : Parameter) : Text :=
  p.front.flatMap fun part => part.1.text ++ part.2.text

def text (p : Parameter) : Text :=
  p.lead ++ (p.frontText ++ (p.last.text ++ p.trail))

/-- The name that the parameter contributes: its last token, unless it is a lone
`void`. -/
def name? (p : Parameter) : Option Text :=
  if p.front.isEmpty ∧ p.last.text = "void".toList then none else some p.last.text

/-- What a closing parenthesis behind the parameter is glued to. -/
def stub (p : Parameter) : Text :=
  if p.trail = [] then p.last.text else []

theorem words_front (p : Parameter) (t : Text) :
    words (p.lead ++ (p.frontText ++ t)) = p.front.map (·.1.text) ++ words t := by
  rw [words_blanks_append p.leadBlank, frontText]
  induction p.front with
  | nil => rfl
  | cons part front ih =>
      obtain ⟨token, gap⟩ := part
      rw [List.flatMap_cons, List.append_assoc, List.append_assoc,
        words_solid_append token.nonempty token.solid gap.nonempty gap.blank, ih]
      rfl

/-- Text behind the last token makes its own words when blanks stand between. -/
theorem words_last (p : Parameter) (t : Text) :
    words (p.last.text ++ (p.trail ++ t)) =
      if p.trail = [] then words (p.last.text ++ t) else p.last.text :: words t := by
  split
  · rename_i noTrail
    rw [noTrail, List.nil_append]
  · rename_i trailNe
    exact words_solid_append p.last.nonempty p.last.solid trailNe p.trailBlank t

theorem words_text (p : Parameter) : words p.text = p.front.map (·.1.text) ++ [p.last.text] := by
  have alone := words_of_solid p.last.nonempty p.last.solid
  have last := p.words_last []
  simp only [List.append_nil, alone, words, ite_self] at last
  rw [text, words_front, last]

theorem reduceParameter_text (p : Parameter) : reduceParameter p.text = p.name? := by
  have alone : p.front.map (·.1.text) ++ [p.last.text] = ["void".toList] ↔
      p.front.isEmpty ∧ p.last.text = "void".toList := by
    cases p.front with
    | nil => simp
    | cons part front => simp
  simp only [reduceParameter, p.words_text, name?, alone, List.getLast?_concat]

theorem not_mem_text (p : Parameter) {c : Char} (notBlank : isBlank c = false)
    (free : ∀ token : Token, c ∉ token.text) : c ∉ p.text := by
  have inBlanks : ∀ {gap : Text}, Blanks gap → c ∉ gap := by
    intro gap blank member
    rw [blank c member] at notBlank
    cases notBlank
  intro member
  simp only [text, frontText, List.mem_append, List.mem_flatMap] at member
  rcases member with lead | ⟨part, -, token | gap⟩ | last | trail
  · exact inBlanks p.leadBlank lead
  · exact free part.1 token
  · exact inBlanks part.2.blank gap
  · exact free p.last last
  · exact inBlanks p.trailBlank trail

theorem noComma (p : Parameter) : ',' ∉ p.text :=
  p.not_mem_text (by decide) Token.noComma

theorem eq_last_of_name? (p : Parameter) {name : Text} (named : p.name? = some name) :
    name = p.last.text := by
  unfold name? at named
  split at named
  · cases named
  · exact (Option.some.inj named).symm

theorem stub_eq_last_iff (p : Parameter) : p.stub = p.last.text ↔ p.trail = [] := by
  unfold stub
  split
  · simp_all
  · simpa [*] using p.last.nonempty.symm

theorem stub_eq_nil_iff (p : Parameter) : p.stub = [] ↔ p.trail ≠ [] := by
  unfold stub
  split
  · simpa [*] using p.last.nonempty
  · simp_all

end Parameter

/-! ## Parameter lists -/

def listText (params : List Parameter) : Text :=
  join [','] (params.map Parameter.text)

/-- The names that a parameter list contributes. -/
def names (params : List Parameter) : List Text :=
  params.filterMap Parameter.name?

theorem commaFree_texts (params : List Parameter) : CommaFree (params.map Parameter.text) := by
  intro piece member
  obtain ⟨p, -, rfl⟩ := List.mem_map.1 member
  exact p.noComma

theorem commaFree_names (params : List Parameter) : CommaFree (names params) := by
  intro name member
  obtain ⟨p, -, named⟩ := List.mem_filterMap.1 member
  rw [p.eq_last_of_name? named]
  exact p.last.noComma

theorem filterMap_texts (params : List Parameter) :
    (params.map Parameter.text).filterMap reduceParameter = names params := by
  rw [List.filterMap_map, names]
  exact congrArg (List.filterMap · params) (funext Parameter.reduceParameter_text)

/-- A parameter list is reduced to the names of its parameters. -/
theorem reduceParameters_listText (params : List Parameter) :
    reduceParameters (listText params) = join ", ".toList (names params) := by
  cases params with
  | nil => rfl
  | cons p later =>
      rw [reduceParameters, listText, splitOn_join (by simp) (commaFree_texts _), filterMap_texts]

/-! ## Text behind the closing parenthesis -/

theorem of_reduceParameter {t word : Text} (reduced : reduceParameter t = some word) :
    word ∈ words t ∧ words t ≠ ["void".toList] := by
  simp only [reduceParameter] at reduced
  split at reduced
  · cases reduced
  · rename_i notVoid
    exact ⟨List.mem_of_getLast? reduced, notVoid⟩

/-- Text with a parenthesis in it is reduced to its last word. -/
theorem reduceParameter_of_close {t : Text} (close : ')' ∈ t) :
    reduceParameter t = (words t).getLast? := by
  obtain ⟨word, member, inWord⟩ := exists_mem_words_iff.2 ⟨close, by decide⟩
  have notVoid : words t ≠ ["void".toList] := by
    intro void
    rw [void, List.mem_singleton] at member
    rw [member] at inWord
    exact absurd inWord (by decide)
  simp only [reduceParameter, if_neg notVoid]

theorem exists_reduceParameter {t : Text} (close : ')' ∈ t) :
    ∃ word, reduceParameter t = some word := by
  obtain ⟨word, member, -⟩ := exists_mem_words_iff.2 ⟨close, by decide⟩
  rw [reduceParameter_of_close close]
  exact ⟨_, List.getLast?_eq_some_getLast (List.ne_nil_of_mem member)⟩

/-- Solid text behind a parenthesis that follows `tail` is glued to `stub`. -/
def Glues (tail stub : Text) : Prop :=
  ∀ first, Solid first → reduceParameter (tail ++ ')' :: first) = some (stub ++ ')' :: first)

theorem words_close {first : Text} (solid : Solid first) : words (')' :: first) = [')' :: first] :=
  words_of_solid (by simp) (solid_cons.2 ⟨by decide, solid⟩)

theorem glues_nil : Glues [] [] := by
  intro first solid
  rw [List.nil_append, reduceParameter_of_close (by simp), words_close solid]
  rfl

theorem Parameter.glues (p : Parameter) : Glues p.text p.stub := by
  intro first solid
  have regroup : p.text ++ ')' :: first =
      p.lead ++ (p.frontText ++ (p.last.text ++ (p.trail ++ ')' :: first))) := by
    simp [text]
  have glued : words (p.last.text ++ ')' :: first) = [p.last.text ++ ')' :: first] :=
    words_of_solid (by simp) (solid_append.2 ⟨p.last.solid, solid_cons.2 ⟨by decide, solid⟩⟩)
  rw [reduceParameter_of_close (by simp), regroup, p.words_front, p.words_last, stub]
  split
  · rw [glued, List.getLast?_concat]
  · simp [words_close solid]

/-- Names joined to text behind them, and the same names joined to what that text is
reduced to. -/
theorem join_append_eq_iff {front later more : List Text} {name first word : Text}
    (frontFree : CommaFree front) (reduced : CommaFree (word :: more))
    (written : CommaFree ((name ++ ')' :: first) :: later)) :
    join ", ".toList (front ++ word :: more) =
        join ", ".toList (front ++ [name]) ++ ')' :: join [','] (first :: later) ↔
      word = name ++ ')' :: first ∧ more.map (' ' :: ·) = later := by
  obtain ⟨pieces, gap, piecesFree, gapFree, joined⟩ := exists_join_comma_blank frontFree
  obtain ⟨wordFree, moreFree⟩ := commaFree_cons.1 reduced
  obtain ⟨nameFree, laterFree⟩ := commaFree_cons.1 written
  have leftFree : CommaFree (pieces ++ (gap ++ word) :: more.map (' ' :: ·)) :=
    commaFree_append.2 ⟨piecesFree, commaFree_cons.2
      ⟨by simp [gapFree, wordFree], commaFree_map_blank.2 moreFree⟩⟩
  have rightFree : CommaFree (pieces ++ (gap ++ name ++ ')' :: first) :: later) :=
    commaFree_append.2 ⟨piecesFree, commaFree_cons.2
      ⟨by rw [List.append_assoc, List.mem_append, not_or]; exact ⟨gapFree, nameFree⟩, laterFree⟩⟩
  rw [← join_cons_cons, joined, joined, List.map_nil, join_append_join,
    join_comma_inj (by simp) (by simp) leftFree rightFree, List.append_cancel_left_eq,
    List.cons.injEq, List.append_assoc, List.append_cancel_left_eq]

theorem reduceParameter_blank_cons_iff {word : Text} :
    reduceParameter (' ' :: word) = some word ↔
      word ≠ [] ∧ Solid word ∧ word ≠ "void".toList := by
  have skipped : words (' ' :: word) = words word := words_cons_blank (by decide) word
  constructor
  · intro reduced
    obtain ⟨member, notVoid⟩ := of_reduceParameter reduced
    rw [skipped] at member notVoid
    have ne : word ≠ [] := by
      rintro rfl
      cases member
    have solid := solid_of_mem_words member
    refine ⟨ne, solid, ?_⟩
    intro void
    rw [words_of_solid ne solid, void] at notVoid
    exact notVoid rfl
  · rintro ⟨ne, solid, notVoid⟩
    rw [reduceParameter, skipped, words_of_solid ne solid]
    simpa using notVoid

/-- Pieces that come back, each behind a blank, are a blank and a word each. -/
theorem map_blank_filterMap_eq_iff {pieces : List Text} :
    (pieces.filterMap reduceParameter).map (' ' :: ·) = pieces ↔
      ∀ piece ∈ pieces, ∃ word, piece = ' ' :: word ∧ reduceParameter piece = some word := by
  induction pieces with
  | nil => simp
  | cons piece rest ih =>
      rw [List.forall_mem_cons, ← ih]
      cases reduced : reduceParameter piece with
      | none =>
          rw [List.filterMap_cons_none reduced]
          constructor
          · intro same
            have shorter := List.length_filterMap_le reduceParameter rest
            have := congrArg List.length same
            simp only [List.length_map, List.length_cons] at this
            omega
          · rintro ⟨⟨word, -, found⟩, -⟩
            cases found
      | some word =>
          rw [List.filterMap_cons_some reduced, List.map_cons, List.cons.injEq]
          constructor
          · rintro ⟨same, others⟩
            exact ⟨⟨word, same.symm, rfl⟩, others⟩
          · rintro ⟨⟨found, same, eq⟩, others⟩
            cases eq
            exact ⟨same.symm, others⟩

/-- Text that reduction leaves alone behind a closing parenthesis: words with a comma
and one blank between neighbours. The first may be empty, and no other is `void`. -/
def IsReduced (t : Text) : Prop :=
  ∃ first later, t = join ", ".toList (first :: later) ∧ CommaFree (first :: later) ∧ Solid first ∧
    ∀ word ∈ later, word ≠ [] ∧ Solid word ∧ word ≠ "void".toList

theorem isReduced_iff {first : Text} {later : List Text} (free : CommaFree (first :: later)) :
    IsReduced (join [','] (first :: later)) ↔
      Solid first ∧ (later.filterMap reduceParameter).map (' ' :: ·) = later := by
  constructor
  · rintro ⟨start, tail, same, tailFree, solid, reduced⟩
    have blankFree : CommaFree (start :: tail.map (' ' :: ·)) := by
      rw [commaFree_cons, commaFree_map_blank, ← commaFree_cons]
      exact tailFree
    rw [join_comma_blank, join_comma_inj (by simp) (by simp) free blankFree] at same
    obtain ⟨rfl, rfl⟩ := List.cons.inj same
    refine ⟨solid, map_blank_filterMap_eq_iff.2 ?_⟩
    intro piece member
    obtain ⟨word, inTail, rfl⟩ := List.mem_map.1 member
    exact ⟨word, rfl, reduceParameter_blank_cons_iff.2 (reduced word inTail)⟩
  · rintro ⟨solid, same⟩
    have reduced := map_blank_filterMap_eq_iff.1 same
    refine ⟨first, later.filterMap reduceParameter, ?_, ?_, solid, ?_⟩
    · rw [join_comma_blank, same]
    · rw [commaFree_cons, ← commaFree_map_blank, same, ← commaFree_cons]
      exact free
    · intro word member
      have inLater : ' ' :: word ∈ later := by
        rw [← same]
        exact List.mem_map_of_mem member
      obtain ⟨found, eq, reduces⟩ := reduced _ inLater
      obtain rfl : word = found := (List.cons.inj eq).2
      exact reduceParameter_blank_cons_iff.1 reduces

theorem reduceParameters_append (init : List Parameter) {tail first : Text} {later : List Text}
    (tailFree : ',' ∉ tail) (free : CommaFree (first :: later)) :
    ∃ word, CommaFree (word :: later.filterMap reduceParameter) ∧ Solid word ∧
      reduceParameter (tail ++ ')' :: first) = some word ∧
      reduceParameters (join [','] (init.map Parameter.text ++ [tail]) ++
          ')' :: join [','] (first :: later)) =
        join ", ".toList (names init ++ word :: later.filterMap reduceParameter) := by
  obtain ⟨firstFree, laterFree⟩ := commaFree_cons.1 free
  have gluedFree : ',' ∉ tail ++ ')' :: first := by simp [tailFree, firstFree]
  have piecesFree : CommaFree (init.map Parameter.text ++ (tail ++ ')' :: first) :: later) :=
    commaFree_append.2 ⟨commaFree_texts init, commaFree_cons.2 ⟨gluedFree, laterFree⟩⟩
  have reducedFree : CommaFree (((tail ++ ')' :: first) :: later).filterMap reduceParameter) := by
    intro name inNames comma
    obtain ⟨piece, inPieces, found⟩ := List.mem_filterMap.1 inNames
    have inPiece := mem_of_mem_words (of_reduceParameter found).1 comma
    exact commaFree_cons.2 ⟨gluedFree, laterFree⟩ piece inPieces inPiece
  obtain ⟨word, reduced⟩ := exists_reduceParameter (by simp : ')' ∈ tail ++ ')' :: first)
  rw [List.filterMap_cons_some reduced] at reducedFree
  refine ⟨word, reducedFree, solid_of_mem_words (of_reduceParameter reduced).1, reduced, ?_⟩
  rw [← join_cons_cons, join_append_join, reduceParameters, splitOn_join (by simp) piecesFree,
    List.filterMap_append, filterMap_texts, List.filterMap_cons_some reduced]

/-- Which text survives behind a list whose last piece is `tail`, where `name` stands
in front of the parenthesis of the reduced list. -/
theorem reduceParameters_glued_eq_iff (init : List Parameter) {tail stub : Text} (name added : Text)
    (tailFree : ',' ∉ tail) (nameFree : ',' ∉ name) (glues : Glues tail stub) :
    reduceParameters (join [','] (init.map Parameter.text ++ [tail]) ++ ')' :: added) =
        join ", ".toList (names init ++ [name]) ++ ')' :: added ↔
      stub = name ∧ IsReduced added := by
  obtain ⟨first, later, free, rfl⟩ := exists_commaFree added
  obtain ⟨firstFree, laterFree⟩ := commaFree_cons.1 free
  obtain ⟨word, wordFree, solid, reduced, whole⟩ := reduceParameters_append init tailFree free
  have writtenFree : CommaFree ((name ++ ')' :: first) :: later) :=
    commaFree_cons.2 ⟨by simp [nameFree, firstFree], laterFree⟩
  rw [whole, join_append_eq_iff (commaFree_names init) wordFree writtenFree, isReduced_iff free]
  constructor
  · rintro ⟨rfl, others⟩
    have firstSolid : Solid first := (solid_cons.1 (solid_append.1 solid).2).2
    rw [glues first firstSolid, Option.some.injEq, List.append_cancel_right_eq] at reduced
    exact ⟨reduced, firstSolid, others⟩
  · rintro ⟨rfl, firstSolid, others⟩
    rw [glues first firstSolid, Option.some.injEq] at reduced
    exact ⟨reduced.symm, others⟩

/-- Behind a list with names whose last parameter has none, nothing survives. -/
theorem reduceParameters_unnamed_ne {init : List Parameter} (p : Parameter) (added : Text)
    (named : names init ≠ []) :
    reduceParameters (join [','] (init.map Parameter.text ++ [p.text]) ++ ')' :: added) ≠
      join ", ".toList (names init) ++ ')' :: added := by
  obtain ⟨first, later, free, rfl⟩ := exists_commaFree added
  obtain ⟨firstFree, laterFree⟩ := commaFree_cons.1 free
  obtain ⟨word, wordFree, -, -, whole⟩ := reduceParameters_append init p.noComma free
  obtain ⟨front, name, split⟩ := (List.eq_nil_or_concat' (names init)).resolve_left named
  have namesFree : CommaFree (front ++ [name]) := split ▸ commaFree_names init
  obtain ⟨frontFree, nameFree⟩ := commaFree_append.1 namesFree
  have nameComma := (commaFree_cons.1 nameFree).1
  -- the last name of the list would have to be glued to the parenthesis already
  rw [whole, split, List.append_assoc, List.singleton_append]
  intro same
  have glued := (join_append_eq_iff frontFree (commaFree_cons.2 ⟨nameComma, wordFree⟩)
    (commaFree_cons.2 ⟨by simp [nameComma, firstFree], laterFree⟩)).1 same
  simpa using congrArg List.length glued.1

/-- The list leaves no gap in front of its closing parenthesis: its last parameter
ends in its name, or nothing in it has a name and a blank stands at its end. -/
def Seamless (params : List Parameter) : Prop :=
  ∀ p ∈ params.getLast?, p.name? ≠ none ∧ p.trail = [] ∨ names params = [] ∧ p.trail ≠ []

theorem seamless_concat {init : List Parameter} {p : Parameter} :
    Seamless (init ++ [p]) ↔
      p.name? ≠ none ∧ p.trail = [] ∨ names (init ++ [p]) = [] ∧ p.trail ≠ [] := by
  simp [Seamless]

/-- **What a parameter list that runs past its end leaves alone.** Behind a parameter
list and its closing parenthesis, a text survives the reduction exactly when it is
reduced itself and the list leaves no gap in front of it. -/
theorem reduceParameters_append_eq_iff (params : List Parameter) (added : Text) :
    reduceParameters (listText params ++ ')' :: added) =
        join ", ".toList (names params) ++ ')' :: added ↔
      Seamless params ∧ IsReduced added := by
  rcases List.eq_nil_or_concat' params with rfl | ⟨init, p, rfl⟩
  · have alone := reduceParameters_glued_eq_iff [] [] added List.not_mem_nil List.not_mem_nil
      glues_nil
    simpa [listText, names, join, Seamless] using alone
  · have pieces : listText (init ++ [p]) = join [','] (init.map Parameter.text ++ [p.text]) := by
      simp [listText]
    rw [pieces, seamless_concat]
    cases named : p.name? with
    | some name =>
        have last : names (init ++ [p]) = names init ++ [name] := by
          simp [names, named]
        rw [p.eq_last_of_name? named] at last
        rw [last, reduceParameters_glued_eq_iff init _ added p.noComma p.last.noComma p.glues,
          p.stub_eq_last_iff]
        simp
    | none =>
        have last : names (init ++ [p]) = names init := by
          simp [names, named]
        rw [last]
        by_cases empty : names init = []
        · have alone := reduceParameters_glued_eq_iff init [] added p.noComma List.not_mem_nil
            p.glues
          rw [empty, List.nil_append, p.stub_eq_nil_iff] at alone
          simpa [empty, join] using alone
        · simpa [empty] using reduceParameters_unnamed_ne p added empty

end Linewise.Signature
