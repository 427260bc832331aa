/-
# Linewise.Proofs.PrintedText -- the printed text keeps its value

A format is the inside of a string literal and becomes the inside of a template
literal, which is read by other rules: a backtick and `${` mean something there,
a double quote does not. Both kinds of literal are read by one function,
`LiteralRules.value?`, from a table of escapes and the characters that cannot
stand unescaped. It has no value where the rules refuse the text, where a
backslash is the last character, and for escapes that are not one character long
or stand for none.

For formats whose escapes both kinds read alike (`Token`), the pieces of the
literal have the values of the pieces of the format (`interpolate_keeps_values`).
What the passes over the format do to the tokens:

* `withoutNewline_spell`: what goes is the last token, if it is a newline escape;
* `exists_spell_of_mem_cut`: a placeholder never takes a character of an escape;
* `template_value?_escape_spell`: an escaped token sequence reads as its value.
-/
import Linewise.Proofs.Placeholders
import Mathlib.Data.List.Forall2

namespace Linewise.PrintCall

open Text

set_option autoImplicit false

/-! ## Reading a literal -/

/-- How the inside of a literal is read. -/
structure LiteralRules where
  /-- The character cannot stand in front of this text without a backslash. -/
  refuses : Char → Text → Bool
  /-- The character that a backslash and this one stand for. -/
  escaped? : Char → Option Char

/-- The text that the inside of a literal stands for. -/
def LiteralRules.value? (rules : LiteralRules) : Text → Option Text
  | [] => some []
  | '\\' :: c :: rest => do
    let value ← rules.escaped? c
    let values ← rules.value? rest
    some (value :: values)
  | c :: rest =>
    if c = '\\' || rules.refuses c rest then none else (rules.value? rest).map (c :: ·)

/-- String literals, as formats are written. Octal and hexadecimal escapes and
universal character names are not read. -/
def stringLiteral : LiteralRules where
  refuses c _ := c = '"' || c = '\n' || c = '\r'
  escaped?
    | 'a' => some '\x07'
    | 'b' => some '\x08'
    | 'f' => some '\x0c'
    | 'n' => some '\n'
    | 'r' => some '\r'
    | 't' => some '\t'
    | 'v' => some '\x0b'
    | '\\' => some '\\'
    | '\'' => some '\''
    | '"' => some '"'
    | '?' => some '?'
    | _ => none

/-- Template literals. A backslash before a character without a meaning of its own
leaves the character. Numeric escapes are not read, and neither are line
continuations and carriage returns, which do not stand for themselves. -/
def templateLiteral : LiteralRules where
  refuses c rest := c = '\x60' || c = '\r' || c = '$' && rest.head? = some '{'
  escaped?
    | 'b' => some '\x08'
    | 'f' => some '\x0c'
    | 'n' => some '\n'
    | 'r' => some '\r'
    | 't' => some '\t'
    | 'v' => some '\x0b'
    | 'x' => none
    | 'u' => none
    | '\n' => none
    | '\r' => none
    | '\u2028' => none
    | '\u2029' => none
    | c => if c.isDigit then none else some c

theorem LiteralRules.value?_backslash (rules : LiteralRules) {c value : Char} {rest values : Text}
    (char : rules.escaped? c = some value) (more : rules.value? rest = some values) :
    rules.value? ('\\' :: c :: rest) = some (value :: values) := by
  rw [value?, char, more]
  rfl

theorem LiteralRules.value?_cons (rules : LiteralRules) {c : Char} {rest values : Text}
    (backslash : c ≠ '\\') (allowed : rules.refuses c rest = false)
    (more : rules.value? rest = some values) :
    rules.value? (c :: rest) = some (c :: values) := by
  rw [value?, allowed, more]
  · simp [backslash]
  · exact fun _ _ eq _ => backslash eq

/-! ## Tokens of a format -/

/-- The escapes that both kinds of literal read alike. -/
inductive Escape where
  | newline | tab | carriageReturn | backspace | formFeed | verticalTab | backslash | quote
  deriving Repr, DecidableEq

namespace Escape

/-- The character behind the backslash. -/
def letter : Escape → Char
  | newline => 'n'
  | tab => 't'
  | carriageReturn => 'r'
  | backspace => 'b'
  | formFeed => 'f'
  | verticalTab => 'v'
  | backslash => '\\'
  | quote => '\''

def value : Escape → Char
  | newline => '\n'
  | tab => '\t'
  | carriageReturn => '\r'
  | backspace => '\x08'
  | formFeed => '\x0c'
  | verticalTab => '\x0b'
  | backslash => '\\'
  | quote => '\''

theorem string_escaped? (e : Escape) : stringLiteral.escaped? e.letter = some e.value := by
  cases e <;> rfl

theorem template_escaped? (e : Escape) : templateLiteral.escaped? e.letter = some e.value := by
  cases e <;> rfl

end Escape

/-- A plain character stands for itself in a string literal. -/
def IsPlain (c : Char) : Prop :=
  c ≠ '\\' ∧ c ≠ '"' ∧ c ≠ '\r' ∧ c ≠ '\n'

instance (c : Char) : Decidable (IsPlain c) :=
  inferInstanceAs (Decidable (_ ∧ _))

inductive Token where
  | plain (c : Char) (h : IsPlain c)
  | escape (e : Escape)
  deriving DecidableEq

namespace Token

def spelling : Token → Text
  | plain c _ => [c]
  | escape e => ['\\', e.letter]

def value : Token → Char
  | plain c _ => c
  | escape e => e.value

end Token

def spell (tokens : List Token) : Text :=
  tokens.flatMap Token.spelling

/-- The tokens without a newline escape at the end. -/
def dropNewline (tokens : List Token) : List Token :=
  if tokens.getLast? = some (.escape .newline) then tokens.dropLast else tokens

theorem spell_cons (token : Token) (rest : List Token) :
    spell (token :: rest) = token.spelling ++ spell rest := by
  simp [spell]

theorem units_spell (tokens : List Token) : units (spell tokens) = tokens.map Token.spelling := by
  induction tokens with
  | nil => rfl
  | cons token rest ih =>
      cases token with
      | plain c h => exact (units_cons h.1 _).trans (congrArg _ ih)
      | escape e => exact congrArg (['\\', e.letter] :: ·) ih

theorem spelling_eq_newline_iff {token : Token} :
    token.spelling = ['\\', 'n'] ↔ token = .escape .newline := by
  cases token with
  | plain c h => simp [Token.spelling]
  | escape e => cases e <;> simp [Token.spelling, Escape.letter]

theorem withoutNewline_spell (tokens : List Token) :
    withoutNewline (spell tokens) = spell (dropNewline tokens) := by
  have last : (units (spell tokens)).getLast? = some ['\\', 'n'] ↔
      tokens.getLast? = some (.escape .newline) := by
    simp [units_spell, List.getLast?_map, spelling_eq_newline_iff]
  simp only [withoutNewline, dropNewline, last]
  split
  · rw [units_spell, ← List.map_dropLast]
    exact List.flatMap_def.symm
  · rfl

/-! ## Reading what the tokens spell -/

theorem string_value?_spell (tokens : List Token) :
    stringLiteral.value? (spell tokens) = some (tokens.map Token.value) := by
  induction tokens with
  | nil => rfl
  | cons token rest ih =>
      cases token with
      | plain c h =>
          obtain ⟨backslash, quote, carriageReturn, newline⟩ := h
          refine stringLiteral.value?_cons backslash ?_ ih
          simp [stringLiteral, quote, carriageReturn, newline]
      | escape e => exact stringLiteral.value?_backslash e.string_escaped? ih

theorem escape_spell_escape (e : Escape) (rest : Text) :
    PrintCall.escape ('\\' :: e.letter :: rest) = '\\' :: e.letter :: PrintCall.escape rest := by
  cases e <;> rfl

theorem template_value?_escape_spell (tokens : List Token) :
    templateLiteral.value? (escape (spell tokens)) = some (tokens.map Token.value) := by
  induction tokens with
  | nil => rfl
  | cons token rest ih =>
      cases token with
      | plain c h =>
          rw [spell_cons, Token.spelling, List.singleton_append, escape_cons]
          unfold mark
          split
          · rename_i marked
            have self : templateLiteral.escaped? c = some c := by
              rcases marked with rfl | ⟨rfl, -⟩ <;> rfl
            exact templateLiteral.value?_backslash self ih
          · rename_i unmarked
            refine templateLiteral.value?_cons h.1 ?_ ih
            obtain ⟨-, -, carriageReturn, -⟩ := h
            rw [not_or, ← head?_escape_iff (by decide) (by decide) (by decide)] at unmarked
            simpa [templateLiteral, carriageReturn, unmarked.1] using unmarked.2
      | escape e =>
          rw [spell_cons, Token.spelling]
          exact (congrArg _ (escape_spell_escape e _)).trans
            (templateLiteral.value?_backslash e.template_escaped? ih)

/-! ## Pieces of a format -/

theorem exists_spell_of_mem_prepend (token : Token) {t : Text}
    (spelled : ∀ piece ∈ cut t, ∃ tokens, piece = spell tokens) :
    ∀ piece ∈ prepend token.spelling (cut t), ∃ tokens, piece = spell tokens := by
  cases pieces : cut t with
  | nil => exact absurd pieces (cut_ne_nil t)
  | cons first later =>
      rw [pieces, List.forall_mem_cons] at spelled
      obtain ⟨⟨tokens, rfl⟩, spelledLater⟩ := spelled
      rw [prepend_cons, ← spell_cons, List.forall_mem_cons]
      exact ⟨⟨token :: tokens, rfl⟩, spelledLater⟩

/-- The second character of a placeholder is a token of its own. -/
theorem plain_of_head?_spell {tokens : List Token} {kind : Char}
    (placeholder : isPlaceholderKind kind = true) (next : (spell tokens).head? = some kind) :
    ∃ h rest, tokens = .plain kind h :: rest := by
  cases tokens with
  | nil => cases next
  | cons token rest =>
      cases token with
      | plain c h =>
          cases next
          exact ⟨h, rest, rfl⟩
      | escape e =>
          cases next
          cases placeholder

/-- Placeholders are cut out between tokens. -/
theorem exists_spell_of_mem_cut (tokens : List Token) :
    ∀ piece ∈ cut (spell tokens), ∃ us, piece = spell us := by
  -- a placeholder takes two tokens, so the induction is on the length
  induction size : tokens.length using Nat.strongRecOn generalizing tokens with
  | ind size ih =>
    subst size
    cases tokens with
    | nil =>
        intro piece member
        exact ⟨[], List.mem_singleton.1 member⟩
    | cons token rest =>
        have spelled := ih rest.length (by simp) rest rfl
        by_cases starts : token.spelling = ['%'] ∧
            ∃ kind ∈ (spell rest).head?, isPlaceholderKind kind = true
        · obtain ⟨percent, kind, next, placeholder⟩ := starts
          obtain ⟨h, tail, rfl⟩ := plain_of_head?_spell placeholder next
          rw [spell_cons, percent, spell_cons, Token.spelling]
          refine (cut_placeholder placeholder (spell tail)).symm ▸ List.forall_mem_cons.2 ?_
          exact ⟨⟨[], rfl⟩, ih tail.length (by simp only [List.length_cons]; omega) tail rfl⟩
        · have outside : cut (spell (token :: rest)) =
              prepend token.spelling (cut (spell rest)) := by
            cases token with
            | plain c h =>
                refine cut_cons fun percent kind next => Bool.eq_false_iff.2 fun placeholder => ?_
                exact starts ⟨congrArg (fun c => [c]) percent, kind, next, placeholder⟩
            | escape e =>
                have letter : e.letter ≠ '%' := by cases e <;> decide
                refine (cut_cons_of_ne (by decide) _).trans ?_
                exact congrArg _ (cut_cons_of_ne letter _)
          rw [outside]
          exact exists_spell_of_mem_prepend token spelled

/-! ## The literal against the format -/

/-- The first text has the value, as template text, that the second has in a
string literal. -/
def SameValue (template string : Text) : Prop :=
  ∃ value, templateLiteral.value? template = some value ∧
    stringLiteral.value? string = some value

/-- The literal is made of pieces with the arguments between them, one for each
piece of the format less its last newline, and each piece can be read and has the
value of its piece of the format. -/
theorem interpolate_keeps_values (tokens : List Token) (args : List Text) :
    ∃ pieces, PrintCall.interpolate ⟨spell tokens, args⟩ = weave args pieces ∧
      List.Forall₂ SameValue pieces (cut (spell (dropNewline tokens))) := by
  refine ⟨_, interpolate_eq_weave _, ?_⟩
  rw [withoutNewline_spell, List.forall₂_map_left_iff, List.forall₂_same]
  intro piece member
  obtain ⟨us, rfl⟩ := exists_spell_of_mem_cut _ piece member
  exact ⟨us.map Token.value, template_value?_escape_spell us, string_value?_spell us⟩

/-- A backtick before a placeholder, a `$` before a brace, an escaped backslash, and a
newline at the end. -/
def markedTokens : List Token :=
  [.plain '\x60' (by decide), .plain '%' (by decide), .plain 'd' (by decide),
    .plain '$' (by decide), .plain '{' (by decide), .escape .backslash,
    .plain '%' (by decide), .plain 's' (by decide), .escape .newline]

theorem interpolate_keeps_values_markedTokens :
    spell markedTokens = "\x60%d$\x7b\\\\%s\\n".toList ∧
      ∃ pieces, PrintCall.interpolate ⟨spell markedTokens, ["i + 1".toList]⟩ =
          weave ["i + 1".toList] pieces ∧
        weave ["i + 1".toList] pieces =
          "\\\x60$\x7bi + 1\x7d\\$\x7b\\\\$\x7bundefined\x7d".toList ∧
        List.Forall₂ SameValue pieces ["\x60".toList, "$\x7b\\\\".toList, []] := by
  obtain ⟨pieces, woven, same⟩ := interpolate_keeps_values markedTokens ["i + 1".toList]
  have text : PrintCall.interpolate ⟨spell markedTokens, ["i + 1".toList]⟩ =
      "\\\x60$\x7bi + 1\x7d\\$\x7b\\\\$\x7bundefined\x7d".toList := by
    decide
  have parts : cut (spell (dropNewline markedTokens)) =
      ["\x60".toList, "$\x7b\\\\".toList, []] := by
    decide
  exact ⟨by decide, pieces, woven, woven ▸ text, parts ▸ same⟩

end Linewise.PrintCall
