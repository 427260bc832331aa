/-
# Linewise.Text.CharClass -- blanks and word characters

The two classes of characters that recognisers ask about. `isBlank` is the
Unicode property White_Space, which separates the parts of a line; `isWord` is
what a name is made of. No character is in both: `isBlank_eq_false_of_isWord`. Both
are total on all of Unicode, and both decide ASCII without looking at a table.
-/
import Linewise.Text.WordTable

namespace Linewise.Text

set_option autoImplicit false

/-- Whether a code point lies in one of the closed ranges. -/
def inRanges (ranges : List (Nat × Nat)) (code : Nat) : Bool :=
  ranges.any fun range => range.1 ≤ code && code ≤ range.2

/-- The ten runs of White_Space. Zero-width and separator control characters
are not among them. -/
def blankRanges : List (Nat × Nat) := [
  (0x9, 0xd), (0x20, 0x20), (0x85, 0x85), (0xa0, 0xa0), (0x1680, 0x1680),
  (0x2000, 0x200a), (0x2028, 0x2029), (0x202f, 0x202f), (0x205f, 0x205f),
  (0x3000, 0x3000)]

def isBlank (c : Char) : Bool :=
  inRanges blankRanges c.toNat

/-- Letters, digits and the underscore, and their kin outside ASCII. -/
def isWord (c : Char) : Bool :=
  if c.toNat < 128 then c.isAlphanum || c == '_' else inRanges wordRanges c.toNat

/-! ## The classes are apart -/

/-- No range of the first list meets a range of the second. -/
def rangesApart (left right : List (Nat × Nat)) : Bool :=
  left.all fun a => right.all fun b => a.2 < b.1 || b.2 < a.1

theorem inRanges_eq_false_of_rangesApart {left right : List (Nat × Nat)} {code : Nat}
    (apart : rangesApart left right = true) (h : inRanges left code = true) :
    inRanges right code = false := by
  simp only [inRanges, List.any_eq_true, Bool.and_eq_true, decide_eq_true_eq] at h
  obtain ⟨a, ha, hlo, hhi⟩ := h
  simp only [inRanges, List.any_eq_false, Bool.and_eq_true, decide_eq_true_eq]
  intro b hb hcode
  have := List.all_eq_true.1 (List.all_eq_true.1 apart a ha) b hb
  simp only [Bool.or_eq_true, decide_eq_true_eq] at this
  omega

theorem rangesApart_blank_word : rangesApart blankRanges wordRanges = true := by
  decide +kernel

theorem isWord_eq_false_of_isBlank {c : Char} (h : isBlank c = true) : isWord c = false := by
  unfold isWord
  split
  · have ascii : ∀ n < 128, inRanges blankRanges n = true →
        ((Char.ofNat n).isAlphanum || Char.ofNat n == '_') = false := by decide +kernel
    have := ascii c.toNat (by assumption) h
    rwa [Char.ofNat_toNat] at this
  · exact inRanges_eq_false_of_rangesApart rangesApart_blank_word h

theorem isBlank_eq_false_of_isWord {c : Char} (h : isWord c = true) : isBlank c = false := by
  cases hb : isBlank c with
  | false => rfl
  | true => rw [isWord_eq_false_of_isBlank hb] at h; contradiction

end Linewise.Text
