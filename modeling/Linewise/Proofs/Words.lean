/-
# Linewise.Proofs.Words -- words and joined pieces

What `words` and `join` say about the text they cut and put together.

Everything about words follows from one equation: a blank divides them
(`words_append_blank`). They hold the characters that are not blank, in order
(`flatten_words`). Joining is the other way round. Pieces without a comma can be
read back from their text (`splitOn_join`, `join_comma_inj`), and a blank behind a
comma is a blank in front of the next piece (`join_comma_blank`).
-/
import Linewise.Proofs.Runs

namespace Linewise.Text

set_option autoImplicit false

/-! ## Text without blanks -/

def Solid (t : Text) : Prop :=
  ∀ c ∈ t, isBlank c = false

instance : DecidablePred Solid := fun t =>
  decidable_of_iff (t.all (!isBlank ·) = true) (by simp [Solid])

theorem solid_cons {c : Char} {t : Text} : Solid (c :: t) ↔ isBlank c = false ∧ Solid t := by
  simp [Solid]

theorem solid_append {u v : Text} : Solid (u ++ v) ↔ Solid u ∧ Solid v := by
  simp only [Solid, List.mem_append]
  constructor
  · intro h
    exact ⟨fun c member => h c (.inl member), fun c member => h c (.inr member)⟩
  · rintro ⟨left, right⟩ c (member | member)
    · exact left c member
    · exact right c member

/-! ## Words -/

theorem words_cons_blank {c : Char} (blank : isBlank c = true) (t : Text) :
    words (c :: t) = words t := by
  rw [words.eq_def]
  simp [blank]

theorem words_cons_last {c : Char} (notBlank : isBlank c = false) {t : Text}
    (ends : ∀ d ∈ t.head?, isBlank d = true) : words (c :: t) = [c] :: words t := by
  cases t with
  | nil => simp [words, notBlank]
  | cons d t =>
      rw [words.eq_def]
      simp [notBlank, ends d rfl]

theorem words_cons_solid {c d : Char} (notBlank : isBlank c = false) (nextSolid : isBlank d = false)
    (t : Text) : words (c :: d :: t) = consFirst c (words (d :: t)) := by
  rw [words.eq_def]
  simp [notBlank, nextSolid]

theorem words_cons_ne_nil {c : Char} (notBlank : isBlank c = false) (t : Text) :
    words (c :: t) ≠ [] := by
  cases t with
  | nil => simp [words, notBlank]
  | cons d t =>
      by_cases blank : isBlank d = true
      · rw [words_cons_last notBlank (by simpa using blank)]
        exact List.cons_ne_nil _ _
      · rw [words_cons_solid notBlank (by simpa using blank)]
        cases words (d :: t) <;> exact List.cons_ne_nil _ _

theorem consFirst_append {c : Char} {pieces : List Text} (ne : pieces ≠ []) (more : List Text) :
    consFirst c (pieces ++ more) = consFirst c pieces ++ more := by
  cases pieces with
  | nil => exact absurd rfl ne
  | cons piece rest => rfl

/-- The words of a text with a blank in it are those on either side. -/
theorem words_append_blank {c : Char} (blank : isBlank c = true) (u v : Text) :
    words (u ++ c :: v) = words u ++ words v := by
  induction u with
  | nil => exact words_cons_blank blank v
  | cons d u ih =>
      by_cases skipped : isBlank d = true
      · rw [List.cons_append, words_cons_blank skipped, words_cons_blank skipped, ih]
      · have notBlank : isBlank d = false := by simpa using skipped
        -- whether `d` ends its word is decided by the character behind it
        cases u with
        | nil =>
            rw [List.cons_append, List.nil_append, words_cons_last notBlank (by simpa using blank),
              words_cons_last notBlank (by simp), words_cons_blank blank]
            rfl
        | cons e u =>
            by_cases ends : isBlank e = true
            · rw [List.cons_append, words_cons_last notBlank (by simpa using ends), ih,
                words_cons_last notBlank (by simpa using ends)]
              rfl
            · have nextSolid : isBlank e = false := by simpa using ends
              rw [List.cons_append] at ih
              rw [List.cons_append, List.cons_append, words_cons_solid notBlank nextSolid, ih,
                words_cons_solid notBlank nextSolid,
                consFirst_append (words_cons_ne_nil nextSolid u)]

theorem words_blanks_append {gap : Text} (blank : Blanks gap) (t : Text) :
    words (gap ++ t) = words t := by
  induction gap with
  | nil => rfl
  | cons c gap ih =>
      obtain ⟨first, others⟩ := blanks_cons.1 blank
      rw [List.cons_append, words_cons_blank first, ih others]

theorem words_of_solid {t : Text} (ne : t ≠ []) (solid : Solid t) : words t = [t] := by
  induction t with
  | nil => exact absurd rfl ne
  | cons c t ih =>
      obtain ⟨first, others⟩ := solid_cons.1 solid
      cases t with
      | nil => simp [words, first]
      | cons d t =>
          rw [words_cons_solid first (solid_cons.1 others).1, ih (by simp) others]
          rfl

/-- A word with a gap behind it comes first. -/
theorem words_solid_append {word gap : Text} (ne : word ≠ []) (solid : Solid word)
    (gapNe : gap ≠ []) (blank : Blanks gap) (t : Text) :
    words (word ++ (gap ++ t)) = word :: words t := by
  obtain ⟨c, gap, rfl⟩ := List.exists_cons_of_ne_nil gapNe
  obtain ⟨first, others⟩ := blanks_cons.1 blank
  rw [List.cons_append, words_append_blank first, words_blanks_append others,
    words_of_solid ne solid]
  rfl

theorem flatten_consFirst (c : Char) (pieces : List Text) :
    (consFirst c pieces).flatten = c :: pieces.flatten := by
  cases pieces <;> rfl

/-- The words hold every character that is not blank, in order. -/
theorem flatten_words (t : Text) : (words t).flatten = t.filter (!isBlank ·) := by
  fun_induction words t with
  | case1 => rfl
  | case2 c rest blank ih => simp [blank, ih]
  | case3 c notBlank => simp [notBlank]
  | case4 c notBlank next rest blank ih => simp [notBlank, ih]
  | case5 c notBlank next rest solid ih =>
      rw [flatten_consFirst, ih]
      simp [notBlank]

theorem exists_mem_words_iff {t : Text} {c : Char} :
    (∃ word ∈ words t, c ∈ word) ↔ c ∈ t ∧ isBlank c = false := by
  rw [← List.mem_flatten, flatten_words, List.mem_filter, Bool.not_eq_true']

theorem mem_of_mem_words {t word : Text} {c : Char} (member : word ∈ words t) (h : c ∈ word) :
    c ∈ t :=
  (exists_mem_words_iff.1 ⟨word, member, h⟩).1

theorem solid_of_mem_words {t word : Text} (member : word ∈ words t) : Solid word :=
  fun _ h => (exists_mem_words_iff.1 ⟨word, member, h⟩).2

/-! ## Joined pieces -/

theorem join_eq_intercalate (separator : Text) (pieces : List Text) :
    join separator pieces = separator.intercalate pieces := by
  induction pieces with
  | nil => rfl
  | cons piece rest ih =>
      cases rest with
      | nil => simp [join]
      | cons next rest => rw [join, ih, List.intercalate_cons_cons, List.append_assoc]

theorem mem_join_of_mem (separator : Text) {pieces : List Text} {piece : Text} {c : Char}
    (member : piece ∈ pieces) (h : c ∈ piece) : c ∈ join separator pieces := by
  induction pieces with
  | nil => cases member
  | cons first rest ih =>
      cases rest with
      | nil =>
          rw [List.mem_singleton] at member
          exact member ▸ h
      | cons next rest =>
          rw [join, List.mem_append, List.mem_append]
          rcases List.mem_cons.1 member with rfl | member
          · exact .inl (.inl h)
          · exact .inr (ih member)

theorem mem_of_mem_splitOn {mark c : Char} {t piece : Text} (member : piece ∈ t.splitOn mark)
    (h : c ∈ piece) : c ∈ t := by
  have := mem_join_of_mem [mark] member h
  rwa [join_eq_intercalate, List.intercalate_splitOn] at this

theorem join_cons_cons (separator : Text) (c : Char) (first : Text) (later : List Text) :
    join separator ((c :: first) :: later) = c :: join separator (first :: later) :=
  join_consFirst separator c (List.cons_ne_nil first later)

/-- Two joined lists make one, with the pieces where they meet put together. -/
theorem join_append_join (separator : Text) (init : List Text) (u v : Text) (later : List Text) :
    join separator (init ++ [u]) ++ join separator (v :: later) =
      join separator (init ++ (u ++ v) :: later) := by
  induction init with
  | nil => cases later <;> simp [join]
  | cons piece init ih =>
      cases init with
      | nil => simpa [join] using ih
      | cons next init => simpa [join] using ih

/-- A comma and a blank between pieces is a comma, with the blank in front of the next. -/
theorem join_comma_blank (first : Text) (later : List Text) :
    join ", ".toList (first :: later) = join [','] (first :: later.map (' ' :: ·)) := by
  induction later generalizing first with
  | nil => rfl
  | cons next later ih =>
      rw [join, ih, List.map_cons, join, join_cons_cons]
      simp

/-! ## Pieces without a comma -/

def CommaFree (pieces : List Text) : Prop :=
  ∀ piece ∈ pieces, ',' ∉ piece

theorem commaFree_cons {piece : Text} {rest : List Text} :
    CommaFree (piece :: rest) ↔ ',' ∉ piece ∧ CommaFree rest := by
  simp [CommaFree]

theorem commaFree_append {left right : List Text} :
    CommaFree (left ++ right) ↔ CommaFree left ∧ CommaFree right := by
  simp only [CommaFree, List.forall_mem_append]

theorem commaFree_map_blank {pieces : List Text} :
    CommaFree (pieces.map (' ' :: ·)) ↔ CommaFree pieces := by
  simp [CommaFree]

theorem splitOn_join {pieces : List Text} (ne : pieces ≠ []) (free : CommaFree pieces) :
    (join [','] pieces).splitOn ',' = pieces := by
  rw [join_eq_intercalate, List.splitOn_intercalate ',' free ne]

theorem join_comma_inj {left right : List Text} (leftNe : left ≠ []) (rightNe : right ≠ [])
    (leftFree : CommaFree left) (rightFree : CommaFree right) :
    join [','] left = join [','] right ↔ left = right := by
  constructor
  · intro same
    rw [← splitOn_join leftNe leftFree, same, splitOn_join rightNe rightFree]
  · rintro rfl
    rfl

/-- Every text is cut at its commas. -/
theorem exists_commaFree (t : Text) :
    ∃ first later, CommaFree (first :: later) ∧ t = join [','] (first :: later) := by
  induction t with
  | nil => exact ⟨[], [], by simp [CommaFree], rfl⟩
  | cons c t ih =>
      obtain ⟨first, later, free, rfl⟩ := ih
      by_cases comma : c = ','
      · refine ⟨[], first :: later, commaFree_cons.2 ⟨List.not_mem_nil, free⟩, ?_⟩
        rw [join_nil_cons _ (by simp), comma]
        rfl
      · obtain ⟨firstFree, laterFree⟩ := commaFree_cons.1 free
        refine ⟨c :: first, later, commaFree_cons.2 ⟨?_, laterFree⟩, (join_cons_cons ..).symm⟩
        exact List.not_mem_cons_of_ne_of_not_mem (Ne.symm comma) firstFree

/-- With some pieces in front, the blank behind their last comma belongs to the next
piece. -/
theorem exists_join_comma_blank {front : List Text} (free : CommaFree front) :
    ∃ pieces gap, CommaFree pieces ∧ ',' ∉ gap ∧ ∀ piece later,
      join ", ".toList (front ++ piece :: later) =
        join [','] (pieces ++ (gap ++ piece) :: later.map (' ' :: ·)) := by
  cases front with
  | nil => exact ⟨[], [], free, List.not_mem_nil, join_comma_blank⟩
  | cons first front =>
      obtain ⟨firstFree, frontFree⟩ := commaFree_cons.1 free
      refine ⟨first :: front.map (' ' :: ·), [' '],
        commaFree_cons.2 ⟨firstFree, commaFree_map_blank.2 frontFree⟩, by decide, ?_⟩
      intro piece later
      rw [List.cons_append, join_comma_blank, List.map_append]
      rfl

end Linewise.Text
