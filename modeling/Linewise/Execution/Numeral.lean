/-
# Linewise.Execution.Numeral -- numbers among the arguments

Integers are read in the base that their start announces: `0x` hexadecimal, a
zero octal, anything else decimal. Fractions are read in decimal or
hexadecimal notation, with an exponent, or as the words for infinity and for no
number. A reading takes as much of a text as it can and returns the rest; it does
not begin without a digit.

A fraction is rounded to a `Binary`: a mantissa of at most 53 bits times a power
of two, the nearest one and of two nearest the one with the even mantissa.
-/
import Linewise.Text.Latin

namespace Linewise.Numeral

open Text

set_option autoImplicit false

/-! ## Digits -/

/-- The value of a digit, whatever the base. -/
def digitValue? (c : Char) : Option Nat :=
  if c.isDigit then some (c.toNat - '0'.toNat)
  else if 'a' ≤ c && c ≤ 'z' then some (c.toNat - 'a'.toNat + 10)
  else if 'A' ≤ c && c ≤ 'Z' then some (c.toNat - 'A'.toNat + 10)
  else none

def isDigitOf (base : Nat) (c : Char) : Bool :=
  (digitValue? c).any (· < base)

def ofDigits (base : Nat) (digits : Text) : Nat :=
  digits.foldl (fun n c => n * base + (digitValue? c).getD 0) 0

/-- A sign in front of a number, and whether it is a minus. -/
def readSign : Text → Bool × Text
  | '-' :: rest => (true, rest)
  | '+' :: rest => (false, rest)
  | text => (false, text)

def lower (text : Text) : Text :=
  text.map Char.toLower

/-! ## Integers -/

/-- The base of a number, and its text without the letters that announce it. -/
def base : Text → Nat × Text
  | '0' :: mark :: digit :: rest =>
    if mark.toLower = 'x' && isDigitOf 16 digit then (16, digit :: rest)
    else (8, '0' :: mark :: digit :: rest)
  | '0' :: rest => (8, '0' :: rest)
  | text => (10, text)

/-- Read digits of one base. -/
def readDigits? (base : Nat) (negative : Bool) (text : Text) : Option (Int × Text) :=
  let digits := text.takeWhile (isDigitOf base)
  if digits.isEmpty then none
  else
    let value : Int := ofDigits base digits
    some (if negative then -value else value, text.dropWhile (isDigitOf base))

/-- Read an integer of any base after blanks and a sign. -/
def readInteger? (text : Text) : Option (Int × Text) :=
  let (negative, unsigned) := readSign (text.dropWhile Latin.isSpace)
  let (base, digits) := base unsigned
  readDigits? base negative digits

/-- Read a decimal integer after blanks and a sign. -/
def readDecimal? (text : Text) : Option (Int × Text) :=
  let (negative, unsigned) := readSign (text.dropWhile Latin.isSpace)
  readDigits? 10 negative unsigned

/-! ## Fractions -/

/-- A rounded number. -/
inductive Binary where
  | nan
  | infinity
  | finite (mantissa : Nat) (exponent : Int)
  deriving Repr, DecidableEq

/-- A power with an exponent that may be negative, as a fraction. -/
def power (base : Nat) (exponent : Int) : Nat × Nat :=
  if 0 ≤ exponent then (Nat.pow base exponent.toNat, 1)
  else (1, Nat.pow base (-exponent).toNat)

/-- Divide and round to the nearest, a half to the even neighbour. -/
def roundDiv (numerator denominator : Nat) : Nat :=
  let quotient := numerator / denominator
  let twice := 2 * (numerator % denominator)
  if twice > denominator || (twice = denominator && quotient % 2 = 1) then quotient + 1
  else quotient

/-- A fraction over a power of two. -/
def scaled (numerator denominator : Nat) (exponent : Int) : Nat × Nat :=
  let (up, down) := power 2 exponent
  (numerator * down, denominator * up)

def leastExponent : Int := -1074

/-- The exponent that leaves 53 bits before the point. -/
def exponentOf (numerator denominator : Nat) : Int :=
  let guess : Int := (Nat.log2 numerator : Int) - Nat.log2 denominator - 52
  let (n, d) := scaled numerator denominator guess
  max leastExponent (if n / d < 0x10000000000000 then guess - 1 else guess)

/-- Round a fraction. The second value says that it is out of range: too large,
or so small that digits are lost. -/
def round (numerator denominator : Nat) : Binary × Bool :=
  if numerator = 0 then (.finite 0 0, false)
  else
    let exponent := exponentOf numerator denominator
    let (n, d) := scaled numerator denominator exponent
    let mantissa := roundDiv n d
    if 971 < exponent || (exponent = 971 && 0x20000000000000 ≤ mantissa) then (.infinity, true)
    else if mantissa = 0x20000000000000 then (.finite 0x10000000000000 (exponent + 1), false)
    else (.finite mantissa exponent, mantissa < 0x10000000000000 && n % d ≠ 0)

/-- The digits of a fraction around its point, and the rest of the text. -/
def readPoint (base : Nat) (text : Text) : Text × Text × Text :=
  let whole := text.takeWhile (isDigitOf base)
  match text.dropWhile (isDigitOf base) with
  | '.' :: rest =>
    if whole.isEmpty && !(rest.head?.any (isDigitOf base)) then ([], [], text)
    else (whole, rest.takeWhile (isDigitOf base), rest.dropWhile (isDigitOf base))
  | rest => (whole, [], rest)

/-- An exponent after its letter, if digits follow. -/
def readExponent (letter : Char) (text : Text) : Int × Text :=
  match text with
  | c :: rest =>
    if c.toLower = letter then
      let (negative, digits) := readSign rest
      (readDigits? 10 negative digits).getD (0, text)
    else (0, text)
  | [] => (0, [])

/-- Exponents beyond this are as good as infinite. -/
def farExponent : Int := 20000

/-- Read the digits of a fraction. Its exponent counts powers of `radix`, and each
digit behind the point stands for `step` of them. -/
def readFraction? (base radix : Nat) (step : Int) (letter : Char) (text : Text) :
    Option ((Binary × Bool) × Text) :=
  let (whole, fraction, rest) := readPoint base text
  if whole.isEmpty && fraction.isEmpty then none
  else
    let (written, rest) := readExponent letter rest
    let exponent := written - step * fraction.length
    let digits := ofDigits base (whole ++ fraction)
    let size := exponent + step * (whole ++ fraction).length
    if digits = 0 then some ((.finite 0 0, false), rest)
    else if farExponent < size then some ((.infinity, true), rest)
    else if size < -farExponent then some ((.finite 0 0, true), rest)
    else
      let (up, down) := power radix exponent
      some (round (digits * up) down, rest)

/-- The part of a text after one of the words, in small letters or capitals. -/
def afterWord? (words : List String) (text : Text) : Option Text :=
  (words.find? fun word => word.toList.isPrefixOf (lower text)).map fun word =>
    text.drop word.length

/-- What may stand in brackets after the word for no number. -/
def afterNote (text : Text) : Text :=
  match text with
  | '(' :: rest =>
    match rest.dropWhile fun c => c.isAlphanum || c = '_' with
    | ')' :: rest => rest
    | _ => text
  | _ => text

/-- Read a number without blanks and sign. -/
def readUnsigned? (text : Text) : Option ((Binary × Bool) × Text) :=
  match afterWord? ["infinity", "inf"] text, afterWord? ["nan"] text with
  | some rest, _ => some ((.infinity, false), rest)
  | none, some rest => some ((.nan, false), afterNote rest)
  | none, none =>
    let hexadecimal := (afterWord? ["0x"] text).bind (readFraction? 16 2 4 'p')
    hexadecimal.orElse fun _ => readFraction? 10 10 1 'e' text

/-- A number as an argument: its sign, its value, whether it is out of range, and
the rest of the text. -/
structure Reading where
  negative : Bool := false
  value : Binary := .finite 0 0
  outOfRange : Bool := false
  rest : Text := []

def readNumber? (text : Text) : Option Reading :=
  let (negative, unsigned) := readSign (text.dropWhile Latin.isSpace)
  (readUnsigned? unsigned).map fun ((value, outOfRange), rest) =>
    { negative, value, outOfRange, rest }

/-! ## Writing -/

def digitsOf (base value : Nat) : Text :=
  Nat.toDigits base value

/-- A number with a point before its last `places` digits. A point without digits
behind it is written if `point` says so. -/
def withPoint (point : Bool) (places value : Nat) : Text :=
  let digits := digitsOf 10 value
  let padded := List.replicate (places + 1 - digits.length) '0' ++ digits
  let whole := padded.take (padded.length - places)
  if places = 0 then whole ++ (if point then ['.'] else [])
  else whole ++ '.' :: padded.drop (padded.length - places)

/-- A value as a fraction. -/
def fractionOf (mantissa : Nat) (exponent : Int) : Nat × Nat :=
  let (up, down) := power 2 exponent
  (mantissa * up, down)

/-- Digits behind the point, as many as asked for. -/
def fixed (point : Bool) (places mantissa : Nat) (exponent : Int) : Text :=
  let (n, d) := fractionOf mantissa exponent
  withPoint point places (roundDiv (n * Nat.pow 10 places) d)

/-- One digit, then `places` digits, and the power of ten that belongs to them. -/
def leading (places mantissa : Nat) (exponent : Int) : Nat × Int :=
  if mantissa = 0 then (0, 0)
  else
    let (n, d) := fractionOf mantissa exponent
    let guess : Int := ((Nat.log2 n : Int) - Nat.log2 d) * 30103 / 100000 - 1
    let atMost := fun (k : Int) => let (up, down) := power 10 k; decide (d * up ≤ n * down)
    let least := [guess + 3, guess + 2, guess + 1, guess].find? atMost
    let first := least.getD guess
    let (up, down) := power 10 (first - places)
    let digits := roundDiv (n * down) (d * up)
    if digits = Nat.pow 10 (places + 1) then (digits / 10, first + 1) else (digits, first)

/-- A power behind its letter, with a sign and at least two digits. -/
def exponentText (letter : Char) (width : Nat) (exponent : Int) : Text :=
  let digits := digitsOf 10 exponent.natAbs
  letter :: (if exponent < 0 then '-' else '+') ::
    List.replicate (width - digits.length) '0' ++ digits

def scientific (point : Bool) (places mantissa : Nat) (exponent : Int) : Text :=
  let (digits, power) := leading places mantissa exponent
  withPoint point places digits ++ exponentText 'e' 2 power

/-- Without the zeros at the end of the digits behind the point. -/
def withoutZeros (text : Text) : Text :=
  if !text.contains '.' then text
  else
    let kept := (text.reverse.dropWhile (· = '0')).reverse
    if kept.getLast? = some '.' then kept.dropLast else kept

/-- The shorter of the two notations with so many digits in all. -/
def general (point : Bool) (precision mantissa : Nat) (exponent : Int) : Text :=
  let digits := max precision 1
  let (leadingDigits, power) := leading (digits - 1) mantissa exponent
  let tidy := fun text => if point then text else withoutZeros text
  if -4 ≤ power && power < digits then
    tidy (fixed point (digits - 1 - power).toNat mantissa exponent)
  else tidy (withPoint point (digits - 1) leadingDigits) ++ exponentText 'e' 2 power

/-- Hexadecimal digits with a power of two; without a precision as many as the
value has. -/
def hexadecimal (point : Bool) (precision : Option Nat) (mantissa : Nat) (exponent : Int) : Text :=
  let power := if mantissa = 0 then 0 else exponent + 52
  let places := precision.getD 13
  let kept :=
    if places < 13 then roundDiv mantissa (Nat.pow 16 (13 - places))
    else mantissa * Nat.pow 16 (places - 13)
  let digits := digitsOf 16 kept
  let padded := List.replicate (places + 1 - digits.length) '0' ++ digits
  let behind := padded.drop (padded.length - places)
  let behind :=
    if precision.isSome then behind else (behind.reverse.dropWhile (· = '0')).reverse
  padded.take (padded.length - places) ++
    (if behind.isEmpty && !point then [] else '.' :: behind) ++ exponentText 'p' 1 power

end Linewise.Numeral
