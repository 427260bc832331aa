/-
# Linewise.Proofs.Placeholders -- the template literal piece by piece

`PrintCall.interpolate` works on one text: it strips, escapes and then replaces.
Here the format is cut at its placeholders first, into the pieces between them
(`cut`), and the literal is put together again from the pieces and the arguments
by position (`weave`). The two ways agree (`interpolate_eq_weave`):

* escaping neither makes a placeholder nor breaks one, and does not look across
  one: `$%d{` has no `$` before a brace (`cut_escape`);
* stripping counts backslashes from the end, and what it takes away is the last
  unit of the format as it is read from the left (`stripNewline_eq_withoutNewline`).
-/
import Linewise.PrintCall.Template
import Linewise.Proofs.Runs
import Mathlib.Data.List.Induction

namespace Linewise.PrintCall

open Text

set_option autoImplicit false

/-! ## Cutting and weaving -/

/-- The pieces of a text between its placeholders, from the left. -/
def cut : Text → List Text
  | '%' :: kind :: rest =>
    if isPlaceholderKind kind then [] :: cut rest else consFirst '%' (cut (kind :: rest))
  | c :: rest => consFirst c (cut rest)
  | [] => [[]]

/-- What takes the place of a placeholder: between `${` and a closing brace the argument
at its position, or `undefined` where there is none. -/
def filled (args : List Text) (i : Nat) : Text :=
  "$\x7b".toList ++ (args[i]?).getD "undefined".toList ++ "\x7d".toList

/-- The pieces with a filled placeholder in front of each but the first. -/
def weave (args : List Text) : List Text → Text
  | [] => []
  | first :: later => first ++ (later.mapIdx fun i piece => filled args i ++ piece).flatten

theorem consFirst_ne_nil (c : Char) (pieces : List Text) : consFirst c pieces ≠ [] := by
  cases pieces <;> exact List.cons_ne_nil _ _

theorem cut_ne_nil (t : Text) : cut t ≠ [] := by
  fun_cases cut t
  · exact List.cons_ne_nil _ _
  · exact consFirst_ne_nil _ _
  · exact consFirst_ne_nil _ _
  · exact List.cons_ne_nil _ _

theorem cut_placeholder {kind : Char} (h : isPlaceholderKind kind = true) (t : Text) :
    cut ('%' :: kind :: t) = [] :: cut t := by
  rw [cut, if_pos h]

theorem cut_cons_of_not {c : Char} {t : Text}
    (h : ∀ kind rest, c = '%' → t = kind :: rest → False) :
    cut (c :: t) = consFirst c (cut t) := by
  rw [cut]
  exact h

/-- A character that starts no placeholder belongs to the first piece. -/
theorem cut_cons {c : Char} {t : Text}
    (h : c = '%' → ∀ kind ∈ t.head?, isPlaceholderKind kind = false) :
    cut (c :: t) = consFirst c (cut t) := by
  by_cases starts : c = '%' ∧ t ≠ []
  · obtain ⟨rfl, nonempty⟩ := starts
    obtain ⟨kind, rest, rfl⟩ := List.exists_cons_of_ne_nil nonempty
    rw [cut, if_neg (by simp [h rfl kind rfl])]
  · exact cut_cons_of_not fun kind rest percent eq => starts ⟨percent, by simp [eq]⟩

theorem cut_cons_of_ne {c : Char} (h : c ≠ '%') (t : Text) :
    cut (c :: t) = consFirst c (cut t) :=
  cut_cons_of_not fun _ _ percent _ => h percent

theorem weave_consFirst (args : List Text) (c : Char) {pieces : List Text} (h : pieces ≠ []) :
    weave args (consFirst c pieces) = c :: weave args pieces := by
  cases pieces with
  | nil => exact absurd rfl h
  | cons first later => rfl

theorem filled_zero (args : List Text) :
    filled args 0 = interpolation (args.head?.getD undefined) := by
  rw [filled, ← List.head?_eq_getElem?]
  rfl

theorem filled_succ (args : List Text) (i : Nat) : filled args (i + 1) = filled args.tail i := by
  rw [filled, filled, List.getElem?_tail]

theorem weave_nil_cons (args : List Text) {pieces : List Text} (h : pieces ≠ []) :
    weave args ([] :: pieces) =
      interpolation (args.head?.getD undefined) ++ weave args.tail pieces := by
  cases pieces with
  | nil => exact absurd rfl h
  | cons first later =>
      rw [weave, List.mapIdx_cons, List.flatten_cons, List.nil_append, List.append_assoc,
        filled_zero]
      simp only [filled_succ]
      rfl

theorem substitute_eq_weave (args : List Text) (t : Text) :
    substitute args t = weave args (cut t) := by
  fun_induction substitute args t with
  | case1 args kind rest placeholder ih =>
      rw [cut_placeholder placeholder, weave_nil_cons args (cut_ne_nil rest), ih]
  | case2 args kind rest other ih =>
      rw [cut, if_neg other, weave_consFirst args '%' (cut_ne_nil _), ih]
  | case3 args c rest other ih =>
      rw [cut_cons_of_not other, weave_consFirst args c (cut_ne_nil rest), ih]
  | case4 => rfl

theorem countPlaceholders_add_one (t : Text) : countPlaceholders t + 1 = (cut t).length := by
  have length_consFirst : ∀ (c : Char) (u : Text),
      (consFirst c (cut u)).length = (cut u).length := by
    intro c u
    cases pieces : cut u with
    | nil => exact absurd pieces (cut_ne_nil u)
    | cons first later => rfl
  fun_induction countPlaceholders t with
  | case1 kind rest placeholder ih =>
      rw [cut_placeholder placeholder, List.length_cons, ih]
  | case2 kind rest other ih =>
      rw [cut, if_neg other, length_consFirst, ih]
  | case3 c rest other ih =>
      rw [cut_cons_of_not other, length_consFirst, ih]
  | case4 => rfl

/-! ## Escaping the pieces -/

/-- What `escape` puts in front of a character, by what follows it. -/
def mark (c : Char) (next : Option Char) : Text :=
  if c = '\x60' ∨ c = '$' ∧ next = some '{' then ['\\'] else []

theorem escape_cons (c : Char) (t : Text) : escape (c :: t) = mark c t.head? ++ c :: escape t := by
  by_cases tick : c = '\x60'
  · simp [tick, escape, mark]
  by_cases dollar : c = '$' ∧ t.head? = some '{'
  · obtain ⟨rfl, next⟩ := dollar
    obtain ⟨rest, rfl⟩ := List.head?_eq_some_iff.1 next
    simp [escape, mark]
  · rw [mark, if_neg (not_or.2 ⟨tick, dollar⟩), escape, List.nil_append]
    · exact tick
    · rintro rest rfl rfl
      exact dollar ⟨rfl, rfl⟩

theorem mark_of_ne {c : Char} (tick : c ≠ '\x60') (dollar : c ≠ '$') (next : Option Char) :
    mark c next = [] := by
  simp [mark, tick, dollar]

/-- Only a mark can change the first character. -/
theorem head?_escape_iff {d : Char} (backslash : d ≠ '\\') (tick : d ≠ '\x60') (dollar : d ≠ '$')
    (t : Text) : (escape t).head? = some d ↔ t.head? = some d := by
  cases t with
  | nil => rfl
  | cons c rest =>
      rw [escape_cons]
      unfold mark
      split
      · rename_i marked
        have : c ≠ d := by
          rintro rfl
          simp [tick, dollar] at marked
        simp [this, backslash.symm]
      · rfl

theorem ne_of_isPlaceholderKind {kind d : Char} (placeholder : isPlaceholderKind kind = true)
    (other : isPlaceholderKind d = false) : kind ≠ d := by
  rintro rfl
  rw [placeholder] at other
  cases other

/-- The first piece begins as the text does, unless a placeholder comes first. -/
theorem head?_of_cut_eq {t piece : Text} {later : List Text} (h : cut t = piece :: later) {d : Char}
    (notPercent : d ≠ '%') : piece.head? = some d ↔ t.head? = some d := by
  cases t with
  | nil =>
      cases h
      rfl
  | cons c rest =>
      by_cases starts : ∃ kind tail, rest = kind :: tail ∧ c = '%' ∧ isPlaceholderKind kind = true
      · obtain ⟨kind, tail, rfl, rfl, placeholder⟩ := starts
        rw [cut_placeholder placeholder] at h
        cases h
        simp [notPercent.symm]
      · rw [cut_cons] at h
        · cases pieces : cut rest with
          | nil => exact absurd pieces (cut_ne_nil rest)
          | cons first others =>
              rw [pieces] at h
              cases h
              simp
        · rintro rfl kind next
          obtain ⟨tail, rfl⟩ := List.head?_eq_some_iff.1 next
          exact Bool.eq_false_iff.2 fun placeholder => starts ⟨kind, tail, rfl, rfl, placeholder⟩

theorem map_escape_consFirst (c : Char) (t : Text) :
    (consFirst c (cut t)).map escape =
      prepend (mark c t.head?) (consFirst c ((cut t).map escape)) := by
  cases pieces : cut t with
  | nil => exact absurd pieces (cut_ne_nil t)
  | cons first later =>
      have same : mark c first.head? = mark c t.head? := by
        simp only [mark, head?_of_cut_eq pieces (d := '{') (by decide)]
      rw [consFirst, List.map_cons, escape_cons, same]
      unfold mark
      split <;> rfl

theorem cut_mark_append (c : Char) (next : Option Char) (t : Text) :
    cut (mark c next ++ t) = prepend (mark c next) (cut t) := by
  unfold mark
  split
  · exact cut_cons_of_ne (by decide) t
  · rfl

/-- Escaping and cutting commute, at a character that starts no placeholder. -/
theorem cut_escape_cons {c : Char} {t : Text}
    (h : c = '%' → ∀ kind ∈ t.head?, isPlaceholderKind kind = false)
    (ih : cut (escape t) = (cut t).map escape) :
    cut (escape (c :: t)) = (consFirst c (cut t)).map escape := by
  have escaped : c = '%' → ∀ kind ∈ (escape t).head?, isPlaceholderKind kind = false := by
    intro percent kind next
    refine Bool.eq_false_iff.2 fun placeholder => ?_
    have ne : ∀ d, isPlaceholderKind d = false → kind ≠ d := fun d =>
      ne_of_isPlaceholderKind placeholder
    have first : t.head? = some kind :=
      (head?_escape_iff (ne _ rfl) (ne _ rfl) (ne _ rfl) t).1 next
    rw [h percent kind first] at placeholder
    cases placeholder
  rw [escape_cons, cut_mark_append, cut_cons escaped, ih, map_escape_consFirst]

/-- Escaping and cutting commute. -/
theorem cut_escape (t : Text) : cut (escape t) = (cut t).map escape := by
  fun_induction cut t with
  | case1 kind rest placeholder ih =>
      have ne : ∀ d, isPlaceholderKind d = false → kind ≠ d := fun d =>
        ne_of_isPlaceholderKind placeholder
      rw [escape_cons, mark_of_ne (by decide) (by decide), escape_cons,
        mark_of_ne (ne _ rfl) (ne _ rfl), List.nil_append, List.nil_append,
        cut_placeholder placeholder, ih]
      rfl
  | case2 kind rest other ih =>
      refine cut_escape_cons (fun _ d next => ?_) ih
      cases next
      exact Bool.eq_false_iff.2 other
  | case3 c rest other ih =>
      refine cut_escape_cons (fun percent kind next => ?_) ih
      obtain ⟨tail, rfl⟩ := List.head?_eq_some_iff.1 next
      exact absurd rfl (other kind tail percent)
  | case4 => rfl

/-! ## The newline at the end -/

/-- The units of a format from the left: a backslash takes the next character with
it. -/
def units : Text → List Text
  | [] => []
  | c :: rest =>
    if c = '\\' then
      match rest with
      | [] => [['\\']]
      | d :: more => ['\\', d] :: units more
    else [c] :: units rest

/-- The last unit is a backslash without the character that it takes. -/
def dangling : Text → Bool
  | [] => false
  | c :: rest =>
    if c = '\\' then
      match rest with
      | [] => true
      | _ :: more => dangling more
    else dangling rest

theorem units_cons {c : Char} (plain : c ≠ '\\') (rest : Text) :
    units (c :: rest) = [c] :: units rest := by
  cases rest <;> simp [units, plain]

theorem dangling_cons {c : Char} (plain : c ≠ '\\') (rest : Text) :
    dangling (c :: rest) = dangling rest := by
  cases rest <;> simp [dangling, plain]

/-- The format without its last unit, if that is a newline escape. -/
def withoutNewline (format : Text) : Text :=
  if (units format).getLast? = some ['\\', 'n'] then (units format).dropLast.flatten else format

theorem flatten_units (t : Text) : (units t).flatten = t := by
  fun_induction units t with
  | case1 => rfl
  | case2 => rfl
  | case3 d more ih => simp [ih]
  | case4 c rest plain ih => simp [ih]

theorem units_append {t : Text} (closed : dangling t = false) (u : Text) :
    units (t ++ u) = units t ++ units u := by
  fun_induction dangling t with
  | case1 => rfl
  | case2 => cases closed
  | case3 d more ih => simp [units, ih closed]
  | case4 c rest plain ih => simp [units_cons plain, ih closed]

/-- A character behind a dangling backslash belongs to its unit. -/
theorem units_append_cons {t : Text} (dangles : dangling t = true) (c : Char) (u : Text) :
    ∃ front, units (t ++ c :: u) = front ++ ['\\', c] :: units u := by
  fun_induction dangling t with
  | case1 => cases dangles
  | case2 => exact ⟨[], by simp [units]⟩
  | case3 d more ih =>
      obtain ⟨front, split⟩ := ih dangles
      exact ⟨['\\', d] :: front, by simp [units, split]⟩
  | case4 d rest plain ih =>
      obtain ⟨front, split⟩ := ih dangles
      exact ⟨[d] :: front, by simp [units_cons plain, split]⟩

theorem dangling_concat (t : Text) (c : Char) :
    dangling (t ++ [c]) = (c == '\\' && !dangling t) := by
  fun_induction dangling t with
  | case1 => by_cases h : c = '\\' <;> simp [dangling, h]
  | case2 => simp [dangling]
  | case3 d more ih => simpa [dangling] using ih
  | case4 d rest plain ih => simpa [dangling_cons plain] using ih

/-- A text dangles when the backslashes at its end do not pair up. -/
theorem dangling_iff (t : Text) :
    dangling t = true ↔ (t.reverse.takeWhile (· == '\\')).length % 2 = 1 := by
  induction t using List.reverseRecOn with
  | nil => simp [dangling]
  | append_singleton t c ih =>
      rw [dangling_concat, List.reverse_append, List.reverse_singleton, List.singleton_append]
      by_cases h : c = '\\'
      · rw [List.takeWhile_cons_of_pos (by simp [h]), List.length_cons]
        have : dangling t = false ↔ (t.reverse.takeWhile (· == '\\')).length % 2 = 0 := by
          rw [← Bool.not_eq_true, ih]
          omega
        simp only [h, beq_self_eq_true, Bool.true_and, Bool.not_eq_true', this]
        omega
      · rw [List.takeWhile_cons_of_neg (by simp [h])]
        simp [h]

theorem stripNewline_cases (format : Text) :
    stripNewline format = format ∨ format = stripNewline format ++ ['\\', 'n'] := by
  unfold stripNewline
  split
  · rename_i head reversed
    have whole : format = head.reverse ++ ['\\', 'n'] := by
      rw [← List.reverse_reverse format, reversed]
      simp
    split
    · exact .inr whole
    · exact .inl rfl
  · exact .inl rfl

theorem stripNewline_append_newline (t : Text) :
    stripNewline (t ++ ['\\', 'n']) = if dangling t then t ++ ['\\', 'n'] else t := by
  have reversed : (t ++ ['\\', 'n']).reverse = 'n' :: '\\' :: t.reverse := by simp
  unfold stripNewline
  rw [reversed]
  simp only [List.reverse_reverse]
  by_cases dangles : dangling t = true
  · have odd := (dangling_iff t).1 dangles
    rw [if_pos dangles, if_neg (by omega)]
  · have even := mt (dangling_iff t).2 dangles
    rw [if_neg dangles, if_pos (by omega)]

/-- Stripping looks at the end of the format, but it takes away a unit. -/
theorem stripNewline_eq_withoutNewline (format : Text) :
    stripNewline format = withoutNewline format := by
  by_cases ends : ∃ t, format = t ++ ['\\', 'n']
  · obtain ⟨t, rfl⟩ := ends
    rw [stripNewline_append_newline, withoutNewline]
    cases dangles : dangling t with
    | false =>
        have split : units (t ++ ['\\', 'n']) = units t ++ [['\\', 'n']] := units_append dangles _
        simp [split, flatten_units]
    | true =>
        obtain ⟨front, split⟩ := units_append_cons dangles '\\' ['n']
        simp [split, units]
  · have last : (units format).getLast? ≠ some ['\\', 'n'] := by
      intro newline
      obtain ⟨front, split⟩ := List.getLast?_eq_some_iff.1 newline
      refine ends ⟨front.flatten, ?_⟩
      rw [← flatten_units format, split, List.flatten_append]
      rfl
    rw [withoutNewline, if_neg last]
    exact (stripNewline_cases format).resolve_right fun newline => ends ⟨_, newline⟩

/-- The inside of the literal: the pieces of the format without its last newline,
each escaped, with the arguments between them. -/
theorem interpolate_eq_weave (p : PrintCall) :
    p.interpolate = weave p.args ((cut (withoutNewline p.format)).map escape) := by
  rw [interpolate, substitute_eq_weave, cut_escape, stripNewline_eq_withoutNewline]

end Linewise.PrintCall
