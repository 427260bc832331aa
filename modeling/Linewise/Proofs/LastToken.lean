/-
# Linewise.Proofs.LastToken -- stripping takes the last token, read from the left

A format is read from the left. A backslash and the character behind it are one token,
whatever that character is, and any other character is a token of its own; a backslash
at the very end has nothing to take and stands alone. `Tokenized` says so without saying
how the tokens are found. Every text has one tokenization (`tokenized_iff`), and a text
whose tokens are the first ones of another is the beginning of that text
(`Tokenized.exists_split`).

`PrintCall.stripNewline` starts at the other end and counts backslashes there. What it
takes away is the last token if that is a newline escape, and nothing otherwise
(`stripNewline_drops_last_token`).
-/
import Linewise.Proofs.Placeholders

namespace Linewise.PrintCall

open Text

set_option autoImplicit false

/-! ## Tokens from the left -/

inductive Tokenized : Text → List Text → Prop
  | nil : Tokenized [] []
  | lone : Tokenized ['\\'] [['\\']]
  | escape {rest : Text} {tokens : List Text} (c : Char) :
      Tokenized rest tokens → Tokenized ('\\' :: c :: rest) (['\\', c] :: tokens)
  | char {c : Char} {rest : Text} {tokens : List Text} :
      c ≠ '\\' → Tokenized rest tokens → Tokenized (c :: rest) ([c] :: tokens)

/-- A backslash and an `n`. -/
def newlineToken : Text := ['\\', 'n']

/-- A backslash and the backslash that it takes. -/
def backslashToken : Text := ['\\', '\\']

theorem tokenized_units (t : Text) : Tokenized t (units t) := by
  fun_induction units t with
  | case1 => exact .nil
  | case2 => exact .lone
  | case3 c rest ih => exact .escape c ih
  | case4 c rest plain ih => exact .char plain ih

namespace Tokenized

variable {t : Text} {tokens : List Text}

theorem eq_units (h : Tokenized t tokens) : tokens = units t := by
  induction h with
  | nil => rfl
  | lone => rfl
  | escape c _ ih => rw [units, if_pos rfl, ih]
  | char plain _ ih => rw [units_cons plain, ih]

theorem flatten_eq (h : Tokenized t tokens) : tokens.flatten = t := by
  rw [h.eq_units, flatten_units]

/-- The text of the first tokens has these tokens, and the rest has the others. -/
theorem exists_split {front back : List Text} (h : Tokenized t (front ++ back)) :
    ∃ u v, t = u ++ v ∧ Tokenized u front ∧ Tokenized v back := by
  induction front generalizing t with
  | nil => exact ⟨[], t, rfl, .nil, h⟩
  | cons token front ih =>
      generalize joined : token :: front ++ back = tokens at h
      cases h with
      | nil => cases joined
      | lone =>
          -- a backslash at the end leaves no token for either side
          obtain ⟨rfl, empty⟩ := List.cons.inj joined
          obtain ⟨rfl, rfl⟩ := List.append_eq_nil_iff.1 empty
          exact ⟨['\\'], [], rfl, .lone, .nil⟩
      | escape c more =>
          obtain ⟨rfl, rfl⟩ := List.cons.inj joined
          obtain ⟨u, v, rfl, first, second⟩ := ih more
          exact ⟨'\\' :: c :: u, v, rfl, .escape c first, second⟩
      | char plain more =>
          obtain ⟨rfl, rfl⟩ := List.cons.inj joined
          obtain ⟨u, v, rfl, first, second⟩ := ih more
          exact ⟨_ :: u, v, rfl, .char plain first, second⟩

end Tokenized

theorem tokenized_iff {t : Text} {tokens : List Text} : Tokenized t tokens ↔ tokens = units t := by
  constructor
  · exact Tokenized.eq_units
  · rintro rfl
    exact tokenized_units t

/-! ## The token at the end -/

/-- The tokens without a newline escape at the end. -/
def withoutNewlineToken (tokens : List Text) : List Text :=
  if tokens.getLast? = some newlineToken then tokens.dropLast else tokens

/-- Stripping leaves the tokens that it does not take away as they are. -/
theorem tokenized_stripNewline {format : Text} {tokens : List Text} (h : Tokenized format tokens) :
    Tokenized (stripNewline format) (withoutNewlineToken tokens) := by
  rw [stripNewline_eq_withoutNewline, withoutNewline, withoutNewlineToken, ← h.eq_units]
  by_cases last : tokens.getLast? = some newlineToken
  · rw [if_pos last]
    obtain ⟨front, rfl⟩ := List.getLast?_eq_some_iff.1 last
    obtain ⟨u, v, -, first, -⟩ := h.exists_split
    have taken : (front ++ [newlineToken]).getLast? = some ['\\', 'n'] := last
    rw [if_pos taken, List.dropLast_concat, first.flatten_eq]
    exact first
  · have kept : ¬ tokens.getLast? = some ['\\', 'n'] := last
    rw [if_neg last, if_neg kept]
    exact h

/-- **Stripping agrees with reading from the left.** A format has one tokenization, and
its tokens make up the format. If the last of them is a newline escape, stripping leaves
the others; any other format is left as it is, and so is one that ends in an escaped
backslash and an `n`. The tokens that are left are the tokens of the result. -/
theorem stripNewline_drops_last_token (format : Text) :
    (∃! tokens, Tokenized format tokens) ∧
    ∀ tokens, Tokenized format tokens →
      tokens.flatten = format ∧
      (tokens.getLast? = some newlineToken → stripNewline format = tokens.dropLast.flatten) ∧
      (tokens.getLast? ≠ some newlineToken → stripNewline format = format) ∧
      (∀ front, tokens = front ++ [backslashToken, ['n']] → stripNewline format = format) ∧
      Tokenized (stripNewline format) (withoutNewlineToken tokens) := by
  refine ⟨⟨units format, tokenized_iff.2 rfl, fun other => tokenized_iff.1⟩, ?_⟩
  intro tokens h
  have stripped := tokenized_stripNewline h
  have kept : tokens.getLast? ≠ some newlineToken → stripNewline format = format := by
    intro last
    rw [withoutNewlineToken, if_neg last] at stripped
    exact stripped.flatten_eq.symm.trans h.flatten_eq
  refine ⟨h.flatten_eq, ?_, kept, ?_, stripped⟩
  · intro last
    rw [withoutNewlineToken, if_pos last] at stripped
    exact stripped.flatten_eq.symm
  · rintro front rfl
    apply kept
    simp [newlineToken]

/-- A newline escape goes from behind an escaped backslash; an `n` there stays. -/
theorem stripNewline_drops_last_token_backslashes :
    Tokenized "\\\\\\n".toList [backslashToken, newlineToken] ∧
      stripNewline "\\\\\\n".toList = "\\\\".toList ∧
      Tokenized "ab\\\\n".toList [['a'], ['b'], backslashToken, ['n']] ∧
      stripNewline "ab\\\\n".toList = "ab\\\\".toList ++ ['n'] := by
  have paired : Tokenized "\\\\\\n".toList [backslashToken, newlineToken] :=
    .escape '\\' (.escape 'n' .nil)
  have escaped : Tokenized "ab\\\\n".toList [['a'], ['b'], backslashToken, ['n']] :=
    .char (by decide) (.char (by decide) (.escape '\\' (.char (by decide) .nil)))
  obtain ⟨-, stripped, -⟩ := (stripNewline_drops_last_token "\\\\\\n".toList).2 _ paired
  obtain ⟨-, -, -, kept, -⟩ := (stripNewline_drops_last_token "ab\\\\n".toList).2 _ escaped
  exact ⟨paired, stripped rfl, escaped, kept [['a'], ['b']] rfl⟩

end Linewise.PrintCall
