/-
# Linewise.Proofs.LiteralEnd -- where format text ends its literal

A template literal ends at a backtick, and an interpolation begins at `${`, unless
a backslash takes the character away: a backslash belongs to the character behind
it, whatever that is. `PrintCall.escape` puts a backslash in front of every such
mark without looking at the backslashes that are there. Where their number is even,
the new one takes the mark. Where it is odd, the last of them takes the new one, and
the mark is left exposed.

So the format text of a literal is safe up to exactly that case
(`exposed_escape_iff`), whatever the arguments are, and neither the placeholders nor
the newline at the end make a difference (`exists_mem_cut_escapedMark_iff`,
`escapedMark_stripNewline_iff`).
-/
import Linewise.Proofs.Placeholders

namespace Linewise.PrintCall

open Text

set_option autoImplicit false

/-! ## Marks -/

/-- A backtick, or a dollar sign in front of an opening brace. -/
def IsMark (c : Char) (next : Option Char) : Prop :=
  c = '\x60' ∨ c = '$' ∧ next = some '{'

instance (c : Char) (next : Option Char) : Decidable (IsMark c next) :=
  inferInstanceAs (Decidable (_ ∨ _))

/-- Template text, read from the left, has a mark that no backslash takes: the literal
ends inside it, or an interpolation begins there. -/
def exposed : Text → Bool
  | [] => false
  | c :: rest =>
    if c = '\\' then
      match rest with
      | [] => false
      | _ :: more => exposed more
    else decide (IsMark c rest.head?) || exposed rest

/-- The number of backslashes at the end of a text. -/
def backslashes (lead : Text) : Nat :=
  (lead.reverse.takeWhile (· == '\\')).length

/-- The text has a mark directly behind an odd number of backslashes. -/
def EscapedMark (t : Text) : Prop :=
  ∃ lead c rest, t = lead ++ c :: rest ∧ IsMark c rest.head? ∧ backslashes lead % 2 = 1

theorem exposed_cons {c : Char} (plain : c ≠ '\\') (rest : Text) :
    exposed (c :: rest) = (decide (IsMark c rest.head?) || exposed rest) := by
  cases rest <;> simp [exposed, plain]

theorem IsMark.ne_backslash {c : Char} {next : Option Char} (h : IsMark c next) : c ≠ '\\' := by
  rintro rfl
  simp [IsMark] at h

theorem mark_eq (c : Char) (next : Option Char) :
    mark c next = if IsMark c next then ['\\'] else [] := rfl

theorem escapedMark_iff_dangling {t : Text} :
    EscapedMark t ↔
      ∃ lead c rest, t = lead ++ c :: rest ∧ IsMark c rest.head? ∧ dangling lead = true := by
  simp only [EscapedMark, dangling_iff, backslashes]

/-! ## Reading a marked text -/

theorem isMark_escape_iff (c : Char) (t : Text) :
    IsMark c (escape t).head? ↔ IsMark c t.head? := by
  simp only [IsMark, head?_escape_iff (d := '{') (by decide) (by decide) (by decide)]

/-- In front of a character that is not a backslash, nothing changes what is exposed. -/
theorem exposed_escape_cons {c : Char} (plain : c ≠ '\\') (t : Text) :
    exposed (escape (c :: t)) = exposed (escape t) := by
  rw [escape_cons]
  by_cases marked : IsMark c t.head?
  · rw [mark_eq, if_pos marked]
    rfl
  · have unmarked : ¬ IsMark c (escape t).head? := mt (isMark_escape_iff c t).1 marked
    rw [mark_eq, if_neg marked, List.nil_append, exposed_cons plain]
    simp [unmarked]

/-- Behind a backslash the new one is taken instead of the mark. -/
theorem exposed_escape_backslash (d : Char) (t : Text) :
    exposed (escape ('\\' :: d :: t)) = (decide (IsMark d t.head?) || exposed (escape t)) := by
  rw [escape_cons, mark_of_ne (by decide) (by decide), List.nil_append, escape_cons]
  by_cases marked : IsMark d t.head?
  · have live : IsMark d (escape t).head? := (isMark_escape_iff d t).2 marked
    rw [mark_eq, if_pos marked]
    have taken : exposed ('\\' :: (['\\'] ++ d :: escape t)) = exposed (d :: escape t) := rfl
    rw [taken, exposed_cons marked.ne_backslash]
    simp [live, marked]
  · rw [mark_eq, if_neg marked]
    have taken : exposed ('\\' :: ([] ++ d :: escape t)) = exposed (escape t) := rfl
    rw [taken]
    simp [marked]

theorem escapedMark_cons {c : Char} (plain : c ≠ '\\') (t : Text) :
    EscapedMark (c :: t) ↔ EscapedMark t := by
  simp only [escapedMark_iff_dangling]
  constructor
  · rintro ⟨lead, m, rest, eq, isMark, dangles⟩
    cases lead with
    | nil => cases dangles
    | cons first lead =>
        obtain ⟨rfl, rfl⟩ := List.cons.inj eq
        rw [dangling_cons plain] at dangles
        exact ⟨lead, m, rest, rfl, isMark, dangles⟩
  · rintro ⟨lead, m, rest, rfl, isMark, dangles⟩
    exact ⟨c :: lead, m, rest, rfl, isMark, (dangling_cons plain lead).trans dangles⟩

theorem escapedMark_backslash (d : Char) (t : Text) :
    EscapedMark ('\\' :: d :: t) ↔ IsMark d t.head? ∨ EscapedMark t := by
  simp only [escapedMark_iff_dangling]
  constructor
  · rintro ⟨lead, m, rest, eq, isMark, dangles⟩
    match lead with
    | [] => cases dangles
    | [_] =>
        obtain ⟨-, rfl, rfl⟩ : '\\' = _ ∧ d = m ∧ t = rest := by simpa using eq
        exact .inl isMark
    | _ :: _ :: lead =>
        obtain ⟨rfl, rfl, rfl⟩ : '\\' = _ ∧ d = _ ∧ t = lead ++ m :: rest := by simpa using eq
        exact .inr ⟨lead, m, rest, rfl, isMark, dangles⟩
  · rintro (isMark | ⟨lead, m, rest, rfl, isMark, dangles⟩)
    · exact ⟨['\\'], d, t, rfl, isMark, rfl⟩
    · exact ⟨'\\' :: d :: lead, m, rest, rfl, isMark, dangles⟩

theorem not_escapedMark_of_length_le_one {t : Text} (short : t.length ≤ 1) : ¬ EscapedMark t := by
  rintro ⟨lead, c, rest, rfl, -, odd⟩
  have : lead = [] := List.length_eq_zero_iff.1 (by simp at short; omega)
  simp [this, backslashes] at odd

/-- Escaping leaves a mark exposed exactly where one was escaped before. -/
theorem exposed_escape_iff (t : Text) : exposed (escape t) = true ↔ EscapedMark t := by
  fun_induction dangling t with
  | case1 =>
      have unmarked := not_escapedMark_of_length_le_one (t := []) (by simp)
      simpa [escape, exposed] using unmarked
  | case2 =>
      have unmarked := not_escapedMark_of_length_le_one (t := ['\\']) (by simp)
      simpa [escape, exposed] using unmarked
  | case3 d more ih =>
      rw [exposed_escape_backslash, escapedMark_backslash, Bool.or_eq_true, decide_eq_true_eq, ih]
  | case4 c rest plain ih =>
      rw [exposed_escape_cons plain, escapedMark_cons plain, ih]

/-! ## Pieces of a format -/

/-- A character that is neither part of a mark nor a backslash. -/
def IsApart (c : Char) : Prop :=
  c ≠ '\\' ∧ c ≠ '\x60' ∧ c ≠ '$' ∧ c ≠ '{'

instance : DecidablePred IsApart := fun _ => inferInstanceAs (Decidable (_ ∧ _))

theorem IsApart.not_isMark {c : Char} (apart : IsApart c) (next : Option Char) :
    ¬ IsMark c next := by
  rintro (tick | ⟨dollar, -⟩)
  · exact apart.2.1 tick
  · exact apart.2.2.1 dollar

theorem isApart_of_isPlaceholderKind {kind : Char} (placeholder : isPlaceholderKind kind = true) :
    IsApart kind :=
  ⟨ne_of_isPlaceholderKind placeholder rfl, ne_of_isPlaceholderKind placeholder rfl,
    ne_of_isPlaceholderKind placeholder rfl, ne_of_isPlaceholderKind placeholder rfl⟩

/-- Backslashes are counted back to the nearest other character. -/
theorem dangling_append_cons {c : Char} (plain : c ≠ '\\') (u v : Text) :
    dangling (u ++ c :: v) = dangling v := by
  induction v using List.reverseRecOn with
  | nil =>
      rw [dangling_concat]
      simp [dangling, plain]
  | append_singleton v d ih =>
      rw [← List.cons_append, ← List.append_assoc, dangling_concat, dangling_concat, ih]

/-- The next character counts for a mark only if it is a brace. -/
theorem IsMark.of_head? {m c : Char} (apart : IsApart c) {u v : Text}
    (h : IsMark m (u ++ c :: v).head?) : IsMark m u.head? := by
  rcases h with tick | ⟨dollar, next⟩
  · exact .inl tick
  · cases u with
    | nil => exact absurd (Option.some.inj next) apart.2.2.2
    | cons d u => exact .inr ⟨dollar, next⟩

theorem IsMark.append {m : Char} {u : Text} (h : IsMark m u.head?) (v : Text) :
    IsMark m (u ++ v).head? := by
  rcases h with tick | ⟨dollar, next⟩
  · exact .inl tick
  · obtain ⟨rest, rfl⟩ := List.head?_eq_some_iff.1 next
    exact .inr ⟨dollar, rfl⟩

/-- A mark and its backslashes stand together on one side of such a character. -/
theorem escapedMark_append_cons {c : Char} (apart : IsApart c) (u v : Text) :
    EscapedMark (u ++ c :: v) ↔ EscapedMark u ∨ EscapedMark v := by
  simp only [escapedMark_iff_dangling]
  constructor
  · rintro ⟨lead, m, rest, eq, isMark, dangles⟩
    rcases List.append_eq_append_iff.1 eq with ⟨w, rfl, behind⟩ | ⟨w, rfl, here⟩
    · cases w with
      | nil =>
          obtain ⟨rfl, -⟩ := List.cons.inj behind
          exact absurd isMark (apart.not_isMark _)
      | cons d w =>
          obtain ⟨rfl, rfl⟩ := List.cons.inj behind
          rw [dangling_append_cons apart.1] at dangles
          exact .inr ⟨w, m, rest, rfl, isMark, dangles⟩
    · cases w with
      | nil =>
          obtain ⟨rfl, -⟩ := List.cons.inj here
          exact absurd isMark (apart.not_isMark _)
      | cons d w =>
          obtain ⟨rfl, rfl⟩ := List.cons.inj here
          exact .inl ⟨lead, m, w, rfl, isMark.of_head? apart, dangles⟩
  · rintro (⟨lead, m, rest, rfl, isMark, dangles⟩ | ⟨lead, m, rest, rfl, isMark, dangles⟩)
    · exact ⟨lead, m, rest ++ c :: v, by simp, isMark.append _, dangles⟩
    · exact ⟨u ++ c :: lead, m, rest, by simp, isMark,
        (dangling_append_cons apart.1 u lead).trans dangles⟩

theorem consFirst_cut_eq_cons {c : Char} {t first : Text} {later : List Text}
    (h : consFirst c (cut t) = first :: later) :
    ∃ front, first = c :: front ∧ cut t = front :: later := by
  cases pieces : cut t with
  | nil => exact absurd pieces (cut_ne_nil t)
  | cons front others =>
      rw [pieces] at h
      obtain ⟨rfl, rfl⟩ := List.cons.inj h
      exact ⟨front, rfl, rfl⟩

/-- The first piece ends where the text does, or at the first placeholder. -/
theorem cut_eq_cons {t first : Text} {later : List Text} (h : cut t = first :: later) :
    (later = [] ∧ t = first) ∨
      ∃ kind rest, isPlaceholderKind kind = true ∧ t = first ++ '%' :: kind :: rest ∧
        cut rest = later := by
  fun_induction cut t generalizing first with
  | case1 kind rest placeholder ih =>
      obtain ⟨rfl, rfl⟩ := List.cons.inj h
      exact .inr ⟨kind, rest, placeholder, rfl, rfl⟩
  | case2 kind rest other ih =>
      obtain ⟨front, rfl, pieces⟩ := consFirst_cut_eq_cons h
      rcases ih pieces with ⟨rfl, eq⟩ | ⟨next, tail, placeholder, eq, cutTail⟩
      · exact .inl ⟨rfl, by rw [eq]⟩
      · exact .inr ⟨next, tail, placeholder, by rw [eq, List.cons_append], cutTail⟩
  | case3 c rest other ih =>
      obtain ⟨front, rfl, pieces⟩ := consFirst_cut_eq_cons h
      rcases ih pieces with ⟨rfl, rfl⟩ | ⟨next, tail, placeholder, rfl, cutTail⟩
      · exact .inl ⟨rfl, rfl⟩
      · exact .inr ⟨next, tail, placeholder, rfl, cutTail⟩
  | case4 =>
      obtain ⟨rfl, rfl⟩ := List.cons.inj h
      exact .inl ⟨rfl, rfl⟩

/-- Cutting at the placeholders neither makes nor hides an escaped mark. -/
theorem exists_mem_cut_escapedMark_iff (t : Text) :
    (∃ piece ∈ cut t, EscapedMark piece) ↔ EscapedMark t := by
  induction pieces : cut t generalizing t with
  | nil => exact absurd pieces (cut_ne_nil t)
  | cons first later ih =>
      simp only [List.mem_cons, or_and_right, exists_or, exists_eq_left]
      rcases cut_eq_cons pieces with ⟨rfl, rfl⟩ | ⟨kind, rest, placeholder, rfl, cutRest⟩
      · simp
      · have behind : EscapedMark (kind :: rest) ↔ EscapedMark rest :=
          escapedMark_cons (isApart_of_isPlaceholderKind placeholder).1 rest
        rw [ih rest cutRest, escapedMark_append_cons (by decide), behind]

theorem escapedMark_concat_backslash (t : Text) : EscapedMark (t ++ ['\\']) ↔ EscapedMark t := by
  constructor
  · rintro ⟨lead, m, rest, eq, isMark, odd⟩
    rcases List.eq_nil_or_concat rest with rfl | ⟨rest, d, rfl⟩
    · obtain ⟨-, last⟩ := List.append_inj' eq rfl
      obtain rfl : '\\' = m := by simpa using last
      exact absurd rfl isMark.ne_backslash
    · rw [List.concat_eq_append, ← List.cons_append, ← List.append_assoc] at eq
      obtain ⟨rfl, last⟩ := List.append_inj' eq rfl
      obtain rfl : '\\' = d := by simpa using last
      refine ⟨lead, m, rest, rfl, ?_, odd⟩
      cases rest with
      | nil => simpa [IsMark] using isMark
      | cons next rest => exact isMark
  · rintro ⟨lead, m, rest, rfl, isMark, odd⟩
    exact ⟨lead, m, rest ++ ['\\'], by simp, isMark.append _, odd⟩

/-- Nor does taking away the newline at the end. -/
theorem escapedMark_stripNewline_iff (format : Text) :
    EscapedMark (stripNewline format) ↔ EscapedMark format := by
  rcases stripNewline_cases format with same | newline
  · rw [same]
  · have ends : format = (stripNewline format ++ ['\\']) ++ 'n' :: [] := by simpa using newline
    have unmarked : ¬ EscapedMark [] := not_escapedMark_of_length_le_one (by simp)
    conv => rhs; rw [ends, escapedMark_append_cons (by decide), escapedMark_concat_backslash]
    simp [unmarked]

/-! ## The literal -/

/-- The parts of the literal that come from the format: its pieces between the
placeholders, each escaped. -/
def literalText (p : PrintCall) : List Text :=
  (cut (stripNewline p.format)).map escape

/-- **When format text breaks out of its literal.** The literal is made of the parts
of the format with the arguments between them. Each part is read from its own start,
since the brace that ends an interpolation leaves no backslash over. Whatever the
arguments are, a part has an exposed mark exactly when the format has a mark directly
behind an odd number of backslashes. -/
theorem breaks_out_iff_escapedMark (p : PrintCall) :
    p.interpolate = weave p.args p.literalText ∧
      ((∃ part ∈ p.literalText, exposed part = true) ↔ EscapedMark p.format) := by
  have parts : (∃ part ∈ p.literalText, exposed part = true) ↔
      ∃ piece ∈ cut (stripNewline p.format), EscapedMark piece := by
    simp [literalText, exposed_escape_iff]
  constructor
  · rw [interpolate_eq_weave, literalText, stripNewline_eq_withoutNewline]
  · rw [parts, exists_mem_cut_escapedMark_iff, escapedMark_stripNewline_iff]

/-- A format of an escaped backtick: the literal ends inside it. -/
theorem breaks_out_of_escaped_backtick :
    let p : PrintCall := { format := ['\\', '\x60'], args := [] }
    p.literalText = [['\\', '\\', '\x60']] ∧ p.interpolate = ['\\', '\\', '\x60'] ∧
      exposed p.interpolate = true := by
  decide

end Linewise.PrintCall
