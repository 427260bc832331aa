/-
# Linewise.Proofs.EntryDetection -- calls in lines and calls in the whole text

A listing looks for a call of the entry point in each text before it is
indented, while `EntryCall.ensure` looks in the whole program. This module
compares the two.

Indentation makes no difference: a call at the start of a text is behind a blank
or a line feed afterwards, and both may precede one (`isIn_blanks_append`). Line
breaks do. The blanks inside a call may hold a line feed, so the whole text has,
besides the calls of its lines, those that begin in one line and end in a later
one (`isIn_joined_iff`). Where there is such a call and no line makes one on its
own, the listing adds a call that the whole text already has, and nowhere else do
the two differ (`toText_eq_ensure_body_iff`).

A finished program has a call either way, found in one of its lines or added, and a
call is not lost in a longer text that ends at a boundary in front of it
(`isIn_between`). So `ensure` leaves every finished program alone (`ensure_stable`).
-/
import Linewise.Proofs.Pass
import Linewise.Proofs.Runs

namespace Linewise

open Text

set_option autoImplicit false

namespace EntryCall

/-! ## The shape of a call -/

/-- `main ( ) ;` with any blanks between its parts. -/
def IsCall (t : Text) : Prop :=
  ∃ space inner trail, t = "main".toList ++ (space ++ '(' :: (inner ++ ')' :: (trail ++ [';']))) ∧
    Blanks space ∧ Blanks inner ∧ Blanks trail

/-- A call may follow this text. -/
def Boundary (lead : Text) : Prop :=
  ∀ c ∈ lead.getLast?, mayPrecede c = true

theorem rest?_eq_some_iff {t rest : Text} :
    rest? t = some rest ↔ ∃ call, t = call ++ rest ∧ IsCall call := by
  have unfolded : rest? t = (dropStart? "main".toList t).bind fun afterName =>
      (dropStart? "(".toList (trimStart afterName)).bind fun inside =>
        (dropStart? ")".toList (trimStart inside)).bind fun afterClose =>
          dropStart? ";".toList (trimStart afterClose) := rfl
  rw [unfolded]
  simp only [Option.bind_eq_some_iff, dropStart?_eq_some_iff]
  constructor
  · rintro ⟨afterName, rfl, inside, opened, afterClose, closed, ended⟩
    obtain ⟨⟨space, rfl, spaceBlank⟩, -⟩ := trimStart_eq_iff.1 opened
    obtain ⟨⟨inner, rfl, innerBlank⟩, -⟩ := trimStart_eq_iff.1 closed
    obtain ⟨⟨trail, rfl, trailBlank⟩, -⟩ := trimStart_eq_iff.1 ended
    exact ⟨_, by simp, space, inner, trail, rfl, spaceBlank, innerBlank, trailBlank⟩
  · rintro ⟨_, rfl, space, inner, trail, rfl, spaceBlank, innerBlank, trailBlank⟩
    have paren : ∀ t, Stops isBlank ('(' :: t) := fun t => stops_cons.2 (by decide)
    have close : ∀ t, Stops isBlank (')' :: t) := fun t => stops_cons.2 (by decide)
    have semicolon : ∀ t, Stops isBlank (';' :: t) := fun t => stops_cons.2 (by decide)
    refine ⟨space ++ '(' :: (inner ++ ')' :: (trail ++ ';' :: rest)), by simp,
      inner ++ ')' :: (trail ++ ';' :: rest), trimStart_append spaceBlank (paren _),
      trail ++ ';' :: rest, trimStart_append innerBlank (close _),
      trimStart_append trailBlank (semicolon rest)⟩

theorem IsCall.head {call : Text} (h : IsCall call) : ∃ rest, call = 'm' :: rest := by
  obtain ⟨_, _, _, rfl, -⟩ := h
  exact ⟨_, rfl⟩

theorem isInside_iff {t : Text} :
    isInside t = true ↔ ∃ lead c call rest,
      t = lead ++ c :: (call ++ rest) ∧ mayPrecede c = true ∧ IsCall call := by
  induction t with
  | nil => simp [isInside]
  | cons d t ih =>
      rw [isInside, Bool.or_eq_true, Bool.and_eq_true, ih, Option.isSome_iff_exists]
      simp only [rest?_eq_some_iff]
      constructor
      · rintro (⟨precedes, rest, call, rfl, isCall⟩ | ⟨lead, c, call, rest, rfl, precedes, isCall⟩)
        · exact ⟨[], d, call, rest, rfl, precedes, isCall⟩
        · exact ⟨d :: lead, c, call, rest, rfl, precedes, isCall⟩
      · rintro ⟨lead, c, call, rest, eq, precedes, isCall⟩
        cases lead with
        | nil =>
            obtain ⟨rfl, rfl⟩ := List.cons.inj eq
            exact .inl ⟨precedes, rest, call, rfl, isCall⟩
        | cons first lead =>
            obtain ⟨rfl, rfl⟩ := List.cons.inj eq
            exact .inr ⟨lead, c, call, rest, rfl, precedes, isCall⟩

/-- A text has a call when one stands in it behind a boundary. -/
theorem isIn_iff {t : Text} :
    isIn t = true ↔ ∃ lead call rest, t = lead ++ (call ++ rest) ∧ Boundary lead ∧ IsCall call := by
  rw [isIn, Bool.or_eq_true, isInside_iff, Option.isSome_iff_exists]
  simp only [rest?_eq_some_iff]
  constructor
  · rintro (⟨rest, call, rfl, isCall⟩ | ⟨lead, c, call, rest, rfl, precedes, isCall⟩)
    · exact ⟨[], call, rest, rfl, by simp [Boundary], isCall⟩
    · exact ⟨lead ++ [c], call, rest, by simp, by simpa [Boundary] using precedes, isCall⟩
  · rintro ⟨lead, call, rest, rfl, boundary, isCall⟩
    cases last : lead.getLast? with
    | none =>
        rw [List.getLast?_eq_none_iff] at last
        subst last
        exact .inl ⟨rest, call, rfl, isCall⟩
    | some c =>
        obtain ⟨front, rfl⟩ := List.getLast?_eq_some_iff.1 last
        exact .inr ⟨front, c, call, rest, by simp, boundary c last, isCall⟩

/-! ## Blanks and lines in front -/

theorem boundary_append {front lead : Text} (ends : Boundary front) (boundary : Boundary lead) :
    Boundary (front ++ lead) := by
  cases last : lead.getLast? with
  | none =>
      rw [List.getLast?_eq_none_iff] at last
      simpa [last] using ends
  | some c =>
      obtain ⟨init, rfl⟩ := List.getLast?_eq_some_iff.1 last
      have precedes := boundary c last
      simpa [Boundary, ← List.append_assoc] using precedes

/-- What is left of a boundary when a part in front of it is cut off. -/
theorem boundary_of_append (front : Text) {lead : Text} (boundary : Boundary (front ++ lead)) :
    Boundary lead := by
  intro c last
  obtain ⟨init, rfl⟩ := List.getLast?_eq_some_iff.1 last
  exact boundary c (by simp [← List.append_assoc])

theorem boundary_replicate (count : Nat) : Boundary (List.replicate count ' ') := by
  intro c last
  have : c = ' ' := List.eq_of_mem_replicate (List.mem_of_getLast? last)
  subst this
  decide

/-- A call stays one between a boundary and any text. -/
theorem isIn_between {front t : Text} (ends : Boundary front) (calls : isIn t = true)
    (behind : Text) : isIn (front ++ (t ++ behind)) = true := by
  obtain ⟨lead, call, rest, rfl, boundary, isCall⟩ := isIn_iff.1 calls
  exact isIn_iff.2 ⟨front ++ lead, call, rest ++ behind, by simp, boundary_append ends boundary, isCall⟩

/-- What a call may follow, without the letter that it begins with, neither makes nor
hides one. -/
theorem isIn_append_left {front : Text} (ends : Boundary front) (noName : 'm' ∉ front) (t : Text) :
    isIn (front ++ t) = isIn t := by
  rw [Bool.eq_iff_iff, isIn_iff, isIn_iff]
  constructor
  · rintro ⟨lead, call, rest, eq, boundary, isCall⟩
    rcases List.append_eq_append_iff.1 eq with ⟨behind, rfl, rfl⟩ | ⟨within, split, callEq⟩
    · exact ⟨behind, call, rest, rfl, boundary_of_append _ boundary, isCall⟩
    · obtain ⟨more, rfl⟩ := isCall.head
      cases within with
      | nil => exact ⟨[], _, rest, by simpa using callEq.symm, by simp [Boundary], isCall⟩
      | cons c within =>
          obtain ⟨rfl, -⟩ := List.cons.inj callEq
          exact absurd (split ▸ by simp : 'm' ∈ front) noName
  · rintro ⟨lead, call, rest, rfl, boundary, isCall⟩
    exact ⟨front ++ lead, call, rest, by simp, boundary_append ends boundary, isCall⟩

/-- An indentation neither makes nor hides a call. -/
theorem isIn_blanks_append (count : Nat) (t : Text) :
    isIn (List.replicate count ' ' ++ t) = isIn t :=
  isIn_append_left (boundary_replicate count) (by simp [List.mem_replicate]) t

/-- Lines, each with its line feed. -/
def joined (lines : List Text) : Text :=
  lines.flatMap (· ++ ['\n'])

theorem joined_cons (line : Text) (rest : List Text) :
    joined (line :: rest) = line ++ '\n' :: joined rest := by
  simp [joined]

theorem joined_append (first second : List Text) :
    joined (first ++ second) = joined first ++ joined second :=
  List.flatMap_append

theorem boundary_break (t : Text) : Boundary (t ++ ['\n']) := by
  simp only [Boundary, List.getLast?_concat, Option.mem_def, Option.some.injEq]
  rintro c rfl
  decide

theorem boundary_joined (lines : List Text) : Boundary (joined lines) := by
  induction lines with
  | nil => simp [joined, Boundary]
  | cons line rest ih =>
      have split : joined (line :: rest) = (line ++ ['\n']) ++ joined rest := by simp [joined]
      rw [split]
      exact boundary_append (boundary_break line) ih

/-- A call begins in one line, and ends in a later one. -/
def Straddles (lines : List Text) : Prop :=
  ∃ before lead start after finish rest, lines = before ++ (lead ++ start) :: after ∧
    joined after = finish ++ rest ∧ Boundary lead ∧ IsCall (start ++ '\n' :: finish)

theorem Straddles.cons {lines : List Text} (line : Text) (h : Straddles lines) :
    Straddles (line :: lines) := by
  obtain ⟨before, lead, start, after, finish, rest, rfl, split, boundary, isCall⟩ := h
  exact ⟨line :: before, lead, start, after, finish, rest, rfl, split, boundary, isCall⟩

/-- A call of the whole text stands in one line or straddles several. -/
theorem isIn_of_isIn_joined {lines : List Text} (h : isIn (joined lines) = true) :
    (∃ line ∈ lines, isIn line = true) ∨ Straddles lines := by
  induction lines with
  | nil => cases h
  | cons line rest ih =>
      obtain ⟨lead, call, more, eq, boundary, isCall⟩ := isIn_iff.1 h
      obtain ⟨tail, callEq⟩ := isCall.head
      rw [joined_cons] at eq
      rcases List.append_eq_append_iff.1 eq with ⟨behind, rfl, later⟩ | ⟨start, rfl, here⟩
      · -- the call does not begin in the first line
        cases behind with
        | nil =>
            rw [callEq] at later
            exact absurd (List.cons.inj later).1 (by decide)
        | cons c behind =>
            obtain ⟨-, later⟩ := List.cons.inj later
            have boundary : Boundary behind :=
              boundary_of_append (line ++ [c]) (by simpa using boundary)
            have inRest : isIn (joined rest) = true :=
              isIn_iff.2 ⟨behind, call, more, later, boundary, isCall⟩
            rcases ih inRest with ⟨found, member, calls⟩ | straddles
            · exact .inl ⟨found, List.mem_cons_of_mem _ member, calls⟩
            · exact .inr (straddles.cons line)
      · -- it begins there; it ends there too, or behind the line feed
        rcases List.append_eq_append_iff.1 here with ⟨spare, rfl, -⟩ | ⟨beyond, rfl, next⟩
        · exact .inl ⟨_, by simp, isIn_iff.2 ⟨lead, call, spare, rfl, boundary, isCall⟩⟩
        · cases beyond with
          | nil =>
              rw [List.append_nil] at isCall
              exact .inl ⟨lead ++ start, by simp,
                isIn_iff.2 ⟨lead, start, [], by simp, boundary, isCall⟩⟩
          | cons c finish =>
              obtain ⟨rfl, later⟩ := List.cons.inj next
              exact .inr ⟨[], lead, start, rest, finish, more, rfl, later, boundary, isCall⟩

theorem isIn_joined_iff {lines : List Text} :
    isIn (joined lines) = true ↔ (∃ line ∈ lines, isIn line = true) ∨ Straddles lines := by
  constructor
  · exact isIn_of_isIn_joined
  · rintro (⟨line, member, calls⟩ | ⟨before, lead, start, after, finish, rest, rfl, split,
      boundary, isCall⟩)
    · obtain ⟨before, after, rfl⟩ := List.append_of_mem member
      rw [joined_append, joined_cons]
      exact isIn_between (boundary_joined before) calls ('\n' :: joined after)
    · refine isIn_iff.2 ⟨joined before ++ lead, start ++ '\n' :: finish, rest, ?_,
        boundary_append (boundary_joined before) boundary, isCall⟩
      simp [joined_append, joined_cons, split]

/-- `ensure` on lines: nothing but the call can be missing. -/
theorem ensure_joined (lines : List Text) :
    ensure (joined lines) =
      if isIn (joined lines) then joined lines else joined lines ++ addition := by
  have ends : ((joined lines).isEmpty || endsWith (joined lines) ['\n']) = true := by
    rcases List.eq_nil_or_concat lines with rfl | ⟨front, last, rfl⟩
    · rfl
    · have : ['\n'] <:+ joined (front ++ [last]) := ⟨joined front ++ last, by simp [joined]⟩
      simp [endsWith, this]
  unfold ensure
  rw [if_pos ends]

/-! ## The listing against the whole text -/

theorem isIn_line (width : Nat) (p : Placed) : isIn (p.line width) = isIn p.text :=
  isIn_blanks_append _ _

theorem body_extend (width : Nat) (texts : List Placed) :
    (Listing.extend { width } texts).body = joined (texts.map (Placed.line width)) := by
  simp [Listing.body, Listing.extend, joined]

/-- The lines together make a call that none of the texts makes. -/
def OnlyAcrossBreaks (width : Nat) (texts : List Placed) : Prop :=
  (∀ p ∈ texts, isIn p.text = false) ∧ Straddles (texts.map (Placed.line width))

theorem ensure_body_extend_of_straddles {width : Nat} {texts : List Placed}
    (across : OnlyAcrossBreaks width texts) :
    (Listing.extend { width } texts).toText =
      ensure (Listing.extend { width } texts).body ++ addition := by
  have inLines : isIn (joined (texts.map (Placed.line width))) = true :=
    isIn_joined_iff.2 (.inr across.2)
  have noText : texts.any (isIn ·.text) = false := by
    simpa using across.1
  rw [Listing.toText, body_extend, ensure_joined, if_pos inLines]
  simp [Listing.extend, noText]

theorem ensure_body_extend {width : Nat} {texts : List Placed}
    (within : ¬ OnlyAcrossBreaks width texts) :
    (Listing.extend { width } texts).toText = ensure (Listing.extend { width } texts).body := by
  have agree : isIn (joined (texts.map (Placed.line width))) = texts.any (isIn ·.text) := by
    rw [Bool.eq_iff_iff, isIn_joined_iff, List.any_eq_true]
    simp only [List.mem_map, exists_exists_and_eq_and, isIn_line]
    constructor
    · rintro (calls | straddles)
      · exact calls
      · by_contra noText
        refine within ⟨fun p member => ?_, straddles⟩
        exact Bool.eq_false_iff.2 fun calls => noText ⟨p, member, calls⟩
    · exact .inl
  rw [Listing.toText, body_extend, ensure_joined, agree]
  simp [Listing.extend]

/-- Adding texts whose indentations fit succeeds, and the program is the one that
`ensure` makes of the lines together, except where a call is made across a line
break only: there, and nowhere else, the listing adds one more. -/
theorem toText_eq_ensure_body_iff {width : Nat} {texts : List Placed}
    (fits : ∀ p ∈ texts, p.Fits width) :
    ∃ listing, Listing.addAll { width } texts = .ok listing ∧
      listing.body = texts.flatMap (fun p => p.line width ++ ['\n']) ∧
      (listing.toText = ensure listing.body ↔ ¬ OnlyAcrossBreaks width texts) ∧
      (OnlyAcrossBreaks width texts → listing.toText = ensure listing.body ++ addition) := by
  refine ⟨Listing.extend { width } texts, Listing.addAll_eq_ok_iff.2 ⟨fits, rfl⟩, ?_, ?_,
    ensure_body_extend_of_straddles⟩
  · rw [body_extend, joined, List.flatMap_map]
  · refine ⟨fun same across => ?_, ensure_body_extend⟩
    rw [ensure_body_extend_of_straddles across] at same
    exact absurd (List.append_right_eq_self.1 same) (by decide)

/-- Texts that cut one call in two and make another: the listing agrees. -/
theorem toText_eq_ensure_body_beside_split_call :
    (∀ p ∈ [⟨1, "main(".toList⟩, ⟨1, ");".toList⟩, ⟨0, "main();".toList⟩], Placed.Fits 4 p) ∧
      ∃ listing, Listing.addAll { width := 4 }
          [⟨1, "main(".toList⟩, ⟨1, ");".toList⟩, ⟨0, "main();".toList⟩] = .ok listing ∧
        listing.body = "    main(\n    );\nmain();\n".toList ∧
        listing.toText = ensure listing.body := by
  have fits : ∀ p ∈ [⟨1, "main(".toList⟩, ⟨1, ");".toList⟩, ⟨0, "main();".toList⟩],
      Placed.Fits 4 p := by
    decide
  obtain ⟨listing, added, body, agree, -⟩ := toText_eq_ensure_body_iff fits
  refine ⟨fits, listing, added, body, agree.2 fun across => ?_⟩
  have noCall := across.1 ⟨0, "main();".toList⟩ (by simp)
  exact absurd noCall (by decide)

/-- Two texts that make a call together: the program gets a second one. -/
theorem toText_ne_ensure_body_of_split_call :
    ∃ listing, Listing.addAll { width := 4 }
        [⟨0, "f(); main()".toList⟩, ⟨0, ";".toList⟩] = .ok listing ∧
      listing.body = "f(); main()\n;\n".toList ∧ ensure listing.body = listing.body ∧
      listing.toText ≠ ensure listing.body := by
  refine ⟨_, rfl, ?_, ?_, ?_⟩
  · decide
  · decide
  · decide

/-! ## Nothing is added twice -/

theorem isIn_append_addition (t : Text) : isIn (t ++ addition) = true := by
  have parts : addition = ['\n'] ++ ("main();".toList ++ ['\n']) := by decide
  rw [parts, ← List.append_assoc]
  exact isIn_between (boundary_break t) (by decide) ['\n']

theorem ensure_eq_self {t : Text} (calls : isIn t = true) : ensure t = t := by
  rw [ensure, if_pos calls]

theorem isIn_ensure (t : Text) : isIn (ensure t) = true := by
  unfold ensure
  split
  · assumption
  · split
    · exact isIn_append_addition t
    · have split : t ++ '\n' :: addition = (t ++ ['\n']) ++ addition := by simp
      rw [split]
      exact isIn_append_addition _

theorem isIn_toText_extend (width : Nat) (texts : List Placed) :
    isIn (Listing.extend { width } texts).toText = true := by
  rw [Listing.toText]
  split
  · rename_i calls
    obtain ⟨p, member, calls⟩ : ∃ p ∈ texts, isIn p.text = true := by
      simpa [Listing.extend] using calls
    rw [body_extend]
    exact isIn_joined_iff.2
      (.inl ⟨p.line width, List.mem_map_of_mem member, (isIn_line width p).trans calls⟩)
  · exact isIn_append_addition _

/-- **A finished program is finished for good.** Every program that is made from
texts whose indentations fit calls its entry point, so that `ensure` leaves it
alone; so is every compiled program; and of any text whatever, `ensure` makes one
that calls its entry point and that it leaves alone from then on. -/
theorem ensure_stable :
    (∀ (width : Nat) (texts : List Placed), (∀ p ∈ texts, p.Fits width) →
      ∃ listing, Listing.addAll { width } texts = .ok listing ∧
        isIn listing.toText = true ∧ ensure listing.toText = listing.toText) ∧
    (∀ (width : Nat) (source : Text) (compilation : Compilation),
      compile width source = .ok compilation →
        isIn compilation.program = true ∧ ensure compilation.program = compilation.program) ∧
    ∀ t : Text, isIn (ensure t) = true ∧ ensure (ensure t) = ensure t := by
  refine ⟨fun width texts fits => ?_, fun width source compilation compiled => ?_, fun t => ?_⟩
  · have calls := isIn_toText_extend width texts
    exact ⟨_, Listing.addAll_eq_ok_iff.2 ⟨fits, rfl⟩, calls, ensure_eq_self calls⟩
  · obtain ⟨-, rfl⟩ := compile_eq_ok_iff.1 compiled
    have calls := isIn_toText_extend width (place 0 (renderings source))
    rw [Listing.toText_extend] at calls
    exact ⟨calls, ensure_eq_self calls⟩
  · exact ⟨isIn_ensure t, ensure_eq_self (isIn_ensure t)⟩

/-- A call at the start of an indented line, and a source without one. -/
theorem ensure_stable_indented_call :
    (∀ p ∈ [⟨0, "f()".toList⟩, ⟨2, "main ();".toList⟩], Placed.Fits 3 p) ∧
      (∃ listing, Listing.addAll { width := 3 }
          [⟨0, "f()".toList⟩, ⟨2, "main ();".toList⟩] = .ok listing ∧
        isIn listing.toText = true ∧ ensure listing.toText = listing.toText) ∧
      ∃ compilation, compile 3 "int main() \x7b\n\x7d".toList = .ok compilation ∧
        isIn compilation.program = true ∧ ensure compilation.program = compilation.program := by
  have fits : ∀ p ∈ [⟨0, "f()".toList⟩, ⟨2, "main ();".toList⟩], Placed.Fits 3 p := by
    decide
  have compiled : compile 3 "int main() \x7b\n\x7d".toList =
      .ok { program := "function main() \x7b\n\x7d\n\nmain();\n".toList, shortages := [] } := by
    decide
  exact ⟨fits, ensure_stable.1 3 _ fits, _, compiled, ensure_stable.2.1 3 _ _ compiled⟩

end EntryCall

end Linewise
