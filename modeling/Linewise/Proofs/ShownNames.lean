/-
# Linewise.Proofs.ShownNames -- names as texts, and texts as names

A name is bytes, and `display` shows it as a text. The bytes of a text are shown as that
text (`display_ofString`), so that different texts have different bytes, in the order of the
texts (`lt_of_ofString_lt`). Other bytes are shown with replacements, and then different
names can be shown alike.

Bytes below 128 stand for themselves (`display_append_cons`), and no others are shown as
such a character: what is shown has no slash and no zero that the name does not have
(`mem_of_mem_ofString_display`). This rests on what holds of a character that has begun
(`Begun.Valid`): whatever bytes complete it, the code is one of a character above 127.
-/
import Linewise.Files.Path
import Mathlib.Algebra.Group.Nat.Defs
import Mathlib.Tactic.SplitIfs

namespace Linewise

set_option autoImplicit false

namespace Text.Utf8

theorem toNat_ofNat {n : Nat} (valid : n.isValidChar) : (Char.ofNat n).toNat = n := by
  rw [Char.ofNat, dif_pos valid]
  rfl

/-! ## Characters that have begun -/

/-- Whatever bytes complete the character, its code is one above 127. -/
structure Begun.Valid (b : Begun) : Prop where
  low : 0x80 ≤ b.low
  missing : 0 < b.missing
  code : ∀ byte tail, b.low ≤ byte → byte ≤ b.high → tail < 64 ^ (b.missing - 1) →
    0x80 ≤ (b.code * 64 + (byte - 0x80)) * 64 ^ (b.missing - 1) + tail ∧
      ((b.code * 64 + (byte - 0x80)) * 64 ^ (b.missing - 1) + tail).isValidChar

theorem valid_of_begin? {byte : Nat} {b : Begun} (begins : begin? byte = some b) : b.Valid := by
  unfold begin? at begins
  split_ifs at begins
  all_goals
    simp only [Bool.and_eq_true, decide_eq_true_eq] at *
    obtain rfl := Option.some.inj begins
    refine ⟨by simp, by simp, fun next tail low high short => ?_⟩
    simp only [Nat.isValidChar] at *
    omega

theorem Begun.Valid.next {b : Begun} (valid : b.Valid) (more : b.missing ≠ 1) {byte : Nat}
    (low : b.low ≤ byte) (high : byte ≤ b.high) :
    Begun.Valid ⟨b.code * 64 + (byte - 0x80), b.missing - 1, 0x80, 0xbf⟩ := by
  have pending := valid.missing
  refine ⟨Nat.le_refl _, by dsimp only; omega, fun following tail low' high' short => ?_⟩
  dsimp only at *
  -- the next byte and the tail are a tail of the character as it was
  have power : 64 ^ (b.missing - 1) = 64 ^ (b.missing - 1 - 1) * 64 := by
    rw [← Nat.pow_succ]
    congr 1
    omega
  have valid := valid.code byte ((following - 0x80) * 64 ^ (b.missing - 1 - 1) + tail) low high
  rw [power] at valid
  generalize 64 ^ (b.missing - 1 - 1) = scale at *
  generalize b.code * 64 + (byte - 0x80) = code at *
  have bound : (following - 0x80) * scale ≤ 63 * scale := Nat.mul_le_mul_right _ (by omega)
  have same : (code * 64 + (following - 0x80)) * scale + tail =
      code * (scale * 64) + ((following - 0x80) * scale + tail) := by
    rw [Nat.add_mul, Nat.add_assoc, Nat.mul_assoc, Nat.mul_comm 64]
  rw [same]
  exact valid (by omega)

/-! ## Reading bytes -/

theorem decodeFrom_cons (begun : Option Begun) (byte : UInt8) (rest : List UInt8) :
    decodeFrom begun (byte :: rest) =
      (step begun byte.toNat).1 ++ decodeFrom (step begun byte.toNat).2 rest :=
  rfl

theorem valid_first (byte : Nat) : ∀ b ∈ (first byte).2, b.Valid := by
  unfold first
  split
  · simp
  · split
    · next b begins =>
        rintro _ ⟨⟩
        exact valid_of_begin? begins
    · simp

/-- Reading a byte leaves what has begun valid. -/
theorem valid_step {begun : Option Begun} (valid : ∀ b ∈ begun, b.Valid) (byte : Nat) :
    ∀ b ∈ (step begun byte).2, b.Valid := by
  cases begun with
  | none => exact valid_first byte
  | some b =>
      rw [step]
      split
      · next inside =>
          simp only [Bool.and_eq_true, decide_eq_true_eq] at inside
          dsimp only
          split
          · simp
          · next more =>
              intro next begins
              obtain rfl := Option.some.inj begins
              exact (valid b rfl).next more inside.1 inside.2
      · exact valid_first byte

theorem of_mem_first {byte : Nat} {c : Char} (member : c ∈ (first byte).1) :
    c.toNat = byte ∨ 0x80 ≤ c.toNat := by
  unfold first at member
  split at member
  · next ascii =>
      rw [List.mem_singleton.1 member]
      exact .inl (toNat_ofNat (.inl (by omega)))
  · split at member
    · cases member
    · rw [List.mem_singleton.1 member]
      exact .inr (by decide)

/-- A character that a byte completes is above 127, if it is not the byte itself. -/
theorem of_mem_step {begun : Option Begun} (valid : ∀ b ∈ begun, b.Valid) {byte : Nat} {c : Char}
    (member : c ∈ (step begun byte).1) : c.toNat = byte ∨ 0x80 ≤ c.toNat := by
  cases begun with
  | none => exact of_mem_first member
  | some b =>
      rw [step] at member
      split at member
      · next inside =>
          simp only [Bool.and_eq_true, decide_eq_true_eq] at inside
          dsimp only at member
          split at member
          · next last =>
              have code := (valid b rfl).code byte 0 inside.1 inside.2 (by simp [last])
              simp only [last, Nat.sub_self, Nat.pow_zero, Nat.mul_one, Nat.add_zero] at code
              rw [List.mem_singleton.1 member, toNat_ofNat code.2]
              exact .inr code.1
          · cases member
      · rcases List.mem_cons.1 member with rfl | behind
        · exact .inr (by decide)
        · exact of_mem_first behind

/-- A character below 128 stands for a byte of the same code. -/
theorem exists_of_mem_decodeFrom {begun : Option Begun} (valid : ∀ b ∈ begun, b.Valid)
    {bytes : List UInt8} {c : Char} (member : c ∈ decodeFrom begun bytes)
    (ascii : c.toNat < 0x80) : ∃ byte ∈ bytes, byte.toNat = c.toNat := by
  induction bytes generalizing begun with
  | nil =>
      cases begun with
      | none => cases member
      | some b =>
          rw [List.mem_singleton.1 member] at ascii
          exact absurd ascii (by decide)
  | cons byte rest ih =>
      rcases List.mem_append.1 member with here | behind
      · rcases of_mem_step valid here with same | above
        · exact ⟨byte, List.mem_cons_self, same.symm⟩
        · omega
      · obtain ⟨other, inRest, same⟩ := ih (valid_step valid byte.toNat) behind
        exact ⟨other, List.mem_cons_of_mem _ inRest, same⟩

/-- A byte below 128 ends what has begun, and stands for itself. -/
theorem decodeFrom_append_cons {begun : Option Begun} (valid : ∀ b ∈ begun, b.Valid)
    (bytes : List UInt8) {byte : UInt8} (ascii : byte.toNat < 0x80) (rest : List UInt8) :
    decodeFrom begun (bytes ++ byte :: rest) =
      decodeFrom begun bytes ++ Char.ofNat byte.toNat :: decodeFrom none rest := by
  induction bytes generalizing begun with
  | nil =>
      have alone : first byte.toNat = ([Char.ofNat byte.toNat], none) := if_pos ascii
      rw [List.nil_append, decodeFrom_cons, decodeFrom]
      cases begun with
      | none =>
          rw [step, alone]
          rfl
      | some b =>
          have low := (valid b rfl).low
          have outside : (decide (b.low ≤ byte.toNat) && decide (byte.toNat ≤ b.high)) = false := by
            simp only [Bool.and_eq_false_iff, decide_eq_false_iff_not]
            omega
          rw [step, outside, alone]
          rfl
  | cons next others ih =>
      rw [List.cons_append, decodeFrom_cons, decodeFrom_cons, ih (valid_step valid next.toNat),
        List.append_assoc]

/-! ## The bytes of characters -/

/-- A byte below 128 among those of a character is all of it. -/
theorem toNat_of_mem_utf8EncodeChar {c : Char} {byte : UInt8}
    (member : byte ∈ String.utf8EncodeChar c) (ascii : byte.toNat < 0x80) :
    c.toNat = byte.toNat := by
  rw [← Char.toNat_val]
  unfold String.utf8EncodeChar at member
  dsimp only at member
  split_ifs at member
  all_goals
    simp only [List.mem_cons, List.not_mem_nil, or_false] at member
    rcases member with rfl | rfl | rfl | rfl
    all_goals
      simp only [UInt8.toNat_ofNat'] at *
      omega

/-- A character with that many bytes to come has begun, and the next of them is expected. -/
structure Begun.Expects (b : Begun) (code missing next : Nat) : Prop where
  code : b.code = code
  missing : b.missing = missing
  low : b.low ≤ next
  high : next ≤ b.high

theorem begin?_lead_two {code : Nat} (low : 0x7f < code) (high : code ≤ 0x7ff) :
    ∃ b, begin? (code / 64 % 32 + 192) = some b ∧ b.Expects (code / 64) 1 (code % 64 + 128) := by
  unfold begin?
  simp only [Bool.and_eq_true, decide_eq_true_eq]
  rw [if_pos (by omega)]
  refine ⟨_, rfl, ?_, rfl, ?_, ?_⟩ <;> dsimp only <;> omega

theorem begin?_lead_three {code : Nat} (low : 0x7ff < code) (high : code ≤ 0xffff)
    (valid : code.isValidChar) :
    ∃ b, begin? (code / 4096 % 16 + 224) = some b ∧
      b.Expects (code / 4096) 2 (code / 64 % 64 + 128) := by
  -- behind the least lead byte the code would be shorter, behind `0xed` a surrogate
  unfold begin?
  simp only [Nat.isValidChar, Bool.and_eq_true, decide_eq_true_eq] at *
  split_ifs
  all_goals
    first
    | omega
    | refine ⟨_, rfl, ?_, rfl, ?_, ?_⟩ <;> dsimp only <;> omega

theorem begin?_lead_four {code : Nat} (low : 0xffff < code) (valid : code.isValidChar) :
    ∃ b, begin? (code / 262144 % 8 + 240) = some b ∧
      b.Expects (code / 262144) 3 (code / 4096 % 64 + 128) := by
  unfold begin?
  simp only [Nat.isValidChar, Bool.and_eq_true, decide_eq_true_eq] at *
  split_ifs
  all_goals
    first
    | omega
    | refine ⟨_, rfl, ?_, rfl, ?_, ?_⟩ <;> dsimp only <;> omega

theorem decodeFrom_of_begin? {lead : Nat} {b : Begun} (low : 0x7f < lead) (high : lead < 256)
    (begins : begin? lead = some b) (rest : List UInt8) :
    decodeFrom none (UInt8.ofNat lead :: rest) = decodeFrom (some b) rest := by
  rw [decodeFrom_cons, UInt8.toNat_ofNat', Nat.mod_eq_of_lt high, step, first,
    if_neg (by omega), begins]
  rfl

/-- An expected byte that is not the last adds its bits. -/
theorem decodeFrom_of_expects_more {b : Begun} {code missing next : Nat}
    (expects : b.Expects code (missing + 2) (next + 128)) (short : next < 64) (rest : List UInt8) :
    decodeFrom (some b) (UInt8.ofNat (next + 128) :: rest) =
      decodeFrom (some ⟨code * 64 + next, missing + 1, 0x80, 0xbf⟩) rest := by
  rw [decodeFrom_cons, UInt8.toNat_ofNat', Nat.mod_eq_of_lt (by omega), step,
    if_pos (by simp [expects.low, expects.high]), if_neg (by simp [expects.missing])]
  simp [expects.code, expects.missing]

/-- The last expected byte completes the character. -/
theorem decodeFrom_of_expects_last {b : Begun} {code next : Nat}
    (expects : b.Expects code 1 (next + 128)) (short : next < 64) (rest : List UInt8) :
    decodeFrom (some b) (UInt8.ofNat (next + 128) :: rest) =
      Char.ofNat (code * 64 + next) :: decodeFrom none rest := by
  rw [decodeFrom_cons, UInt8.toNat_ofNat', Nat.mod_eq_of_lt (by omega), step,
    if_pos (by simp [expects.low, expects.high]), if_pos expects.missing]
  simp [expects.code]

theorem expects_next (code missing : Nat) {next : Nat} (short : next < 64) :
    Begun.Expects ⟨code, missing, 0x80, 0xbf⟩ code missing (next + 128) :=
  ⟨rfl, rfl, by dsimp only; omega, by dsimp only; omega⟩

/-- The bytes of a character are read as that character, whatever follows. -/
theorem decodeFrom_utf8EncodeChar (c : Char) (rest : List UInt8) :
    decodeFrom none (String.utf8EncodeChar c ++ rest) = c :: decodeFrom none rest := by
  have valid : c.val.toNat.isValidChar := c.valid
  have same : Char.ofNat c.val.toNat = c := Char.ofNat_toNat c
  unfold String.utf8EncodeChar
  generalize c.val.toNat = code at *
  subst same
  dsimp only
  split_ifs with one two three
  · rw [List.singleton_append, decodeFrom_cons, UInt8.toNat_ofNat', Nat.mod_eq_of_lt (by omega),
      step, first, if_pos (by omega)]
    rfl
  · obtain ⟨b, begins, expects⟩ := begin?_lead_two (by omega) two
    simp only [List.cons_append, List.nil_append]
    rw [decodeFrom_of_begin? (by omega) (by omega) begins,
      decodeFrom_of_expects_last expects (by omega)]
    congr 2
    omega
  · obtain ⟨b, begins, expects⟩ := begin?_lead_three (by omega) three valid
    simp only [List.cons_append, List.nil_append]
    rw [decodeFrom_of_begin? (by omega) (by omega) begins,
      decodeFrom_of_expects_more expects (by omega),
      decodeFrom_of_expects_last (expects_next _ _ (by omega)) (by omega)]
    congr 2
    omega
  · obtain ⟨b, begins, expects⟩ := begin?_lead_four (by omega) valid
    simp only [List.cons_append, List.nil_append]
    rw [decodeFrom_of_begin? (by omega) (by omega) begins,
      decodeFrom_of_expects_more expects (by omega),
      decodeFrom_of_expects_more (expects_next _ _ (by omega)) (by omega),
      decodeFrom_of_expects_last (expects_next _ _ (by omega)) (by omega)]
    congr 2
    omega

/-- The first digit to the base 64 that differs decides. -/
theorem digits_lt {first second : Nat} (less : first < second) (bound : second < 2097152) :
    first / 262144 % 8 < second / 262144 % 8 ∨ first / 262144 % 8 = second / 262144 % 8 ∧
      (first / 4096 % 64 < second / 4096 % 64 ∨ first / 4096 % 64 = second / 4096 % 64 ∧
        (first / 64 % 64 < second / 64 % 64 ∨ first / 64 % 64 = second / 64 % 64 ∧
          first % 64 < second % 64)) := by
  by_cases lead : first / 262144 = second / 262144
  · refine .inr ⟨by omega, ?_⟩
    by_cases middle : first / 4096 = second / 4096
    · exact .inr ⟨by omega, by omega⟩
    · exact .inl (by omega)
  · exact .inl (by omega)

/-- Bytes are in the order of the characters. -/
theorem utf8EncodeChar_append_lt {c d : Char} (less : c < d) (front back : List UInt8) :
    String.utf8EncodeChar c ++ front < String.utf8EncodeChar d ++ back := by
  have less : c.val.toNat < d.val.toNat := UInt32.lt_iff_toNat_lt.1 (Char.lt_def.1 less)
  have valid : d.val.toNat.isValidChar := d.valid
  unfold String.utf8EncodeChar
  generalize c.val.toNat = first at *
  generalize d.val.toNat = second at *
  simp only [Nat.isValidChar] at valid
  have digits := digits_lt less (by omega)
  have byte : ∀ code, (code % 64 + 128) % 2 ^ 8 = code % 64 + 128 := fun code => by omega
  dsimp only
  split_ifs
  all_goals
    simp only [List.cons_append, List.nil_append, List.cons_lt_cons_iff, UInt8.lt_iff_toNat_lt,
      ← UInt8.toNat_inj, UInt8.toNat_ofNat', byte]
    omega

end Text.Utf8

/-! ## Paths -/

namespace Path

open Text.Utf8

theorem ofString_append (front back : String) :
    ofString (front ++ back) = ofString front ++ ofString back := by
  rw [ofString, String.toList_append, List.flatMap_append]
  rfl

/-- A text is shown as itself. -/
theorem display_ofString (text : String) : display (ofString text) = text := by
  have decoded : ∀ t : Text, decodeFrom none (t.flatMap String.utf8EncodeChar) = t := by
    intro t
    induction t with
    | nil => rfl
    | cons c rest ih => rw [List.flatMap_cons, decodeFrom_utf8EncodeChar, ih]
  rw [display, ofString, decoded, String.ofList_toList]

theorem ofString_inj {first second : String} : ofString first = ofString second ↔ first = second := by
  constructor
  · intro same
    rw [← display_ofString first, same, display_ofString]
  · rintro rfl
    rfl

theorem ofString_lt {first second : String} (less : first < second) :
    ofString first < ofString second := by
  have ordered : ∀ {t u : Text}, t < u →
      t.flatMap String.utf8EncodeChar < u.flatMap String.utf8EncodeChar := by
    intro t u less
    induction less with
    | @nil c rest =>
        obtain ⟨byte, behind, eq⟩ := List.exists_cons_of_ne_nil (String.utf8EncodeChar_ne_nil (c := c))
        rw [List.flatMap_cons, eq]
        exact List.nil_lt_cons ..
    | rel less => exact utf8EncodeChar_append_lt less _ _
    | cons _ ih => exact List.append_left_lt ih
  exact ordered (String.lt_iff.1 less)

/-- Names that are texts are in the order of the texts. -/
theorem lt_of_ofString_lt {first second : String} (less : ofString first < ofString second) :
    first < second := by
  by_cases same : first = second
  · subst same
    exact absurd less Std.lt_irrefl
  · by_cases before : first < second
    · exact before
    · have after : second < first := Std.lt_of_le_of_ne (Std.not_lt.1 before) (Ne.symm same)
      exact absurd (ofString_lt after) (List.lt_asymm less)

/-- A byte below 128 of what is shown is a byte of the name. -/
theorem mem_of_mem_ofString_display {path : Path} {byte : UInt8} (ascii : byte.toNat < 0x80)
    (member : byte ∈ ofString path.display) : byte ∈ path := by
  obtain ⟨c, shown, inChar⟩ := List.mem_flatMap.1 member
  have code := toNat_of_mem_utf8EncodeChar inChar ascii
  rw [display, String.toList_ofList] at shown
  obtain ⟨other, inPath, same⟩ := exists_of_mem_decodeFrom (by simp) shown (by omega)
  rw [← UInt8.toNat_inj.1 (same.trans code)]
  exact inPath

/-- From a byte below 128 on, what is shown does not depend on what precedes it. -/
theorem display_append_cons (front : Path) {byte : UInt8} (ascii : byte.toNat < 0x80)
    (behind : Path) :
    display (front ++ byte :: behind) = front.display ++ display (byte :: behind) := by
  have nothing : ∀ b ∈ (none : Option Begun), b.Valid := by simp
  have alone := decodeFrom_append_cons nothing [] ascii behind
  rw [List.nil_append, decodeFrom, if_neg (by simp), List.nil_append] at alone
  rw [display, decodeFrom_append_cons nothing front ascii, ← alone, String.ofList_append]
  rfl

end Path

end Linewise
