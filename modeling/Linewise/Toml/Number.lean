/-
# Linewise.Toml.Number -- integers, floats, dates and times

Integers are decimal, hexadecimal, octal or binary and fit in 64 bits with sign.
Underscores may stand between two digits, and a decimal integer has no leading
zero. Floats are checked and not kept, since no setting is a float; one that
rounds to positive infinity is refused. Dates and times are checked against the
calendar and the clock and kept in their normal form: `T` between date and time,
no zeros at the end of a fraction, `Z` or a signed offset.
-/
import Linewise.Toml.Item
import Linewise.Toml.Reader

namespace Linewise.Toml

open Text Reader

set_option autoImplicit false

/-! ## Digits -/

/-- Digits with single underscores between them. -/
def wellSpaced : Text → Bool
  | [] => false
  | '_' :: _ => false
  | [_] => true
  | _ :: '_' :: more => wellSpaced more
  | _ :: next :: more => wellSpaced (next :: more)

/-- A run of digits without its underscores. -/
def digitRun (isDigit : Char → Bool) : Reader Text := do
  let run ← many fun c => isDigit c || c = '_'
  if wellSpaced run then return run.filter (· != '_') else failure

def digitValue (c : Char) : Nat :=
  if c.isDigit then c.toNat - '0'.toNat
  else if 'a' ≤ c && c ≤ 'f' then c.toNat - 'a'.toNat + 10
  else c.toNat - 'A'.toNat + 10

def ofDigits (base : Nat) (digits : Text) : Nat :=
  digits.foldl (fun n c => n * base + digitValue c) 0

def isBaseDigit (base : Nat) (c : Char) : Bool :=
  (c.isDigit || 'a' ≤ c && c ≤ 'f' || 'A' ≤ c && c ≤ 'F') && digitValue c < base

/-! ## Integers -/

/-- A sign; `true` is minus. -/
def sign : Reader Bool := do
  let mark ← optional (one fun c => c = '+' || c = '-')
  return mark = some '-'

/-- The digits of a decimal integer. -/
def decimalDigits : Reader Text := do
  let digits ← digitRun Char.isDigit
  if digits.length > 1 && digits.head? = some '0' then failure else return digits

def integerInRange (value : Int) : Reader Item :=
  if -0x8000000000000000 ≤ value && value ≤ 0x7fffffffffffffff then return .scalar (.integer value) else failure

/-- An integer behind the mark of its base. -/
def basedInteger (mark : Char) (base : Nat) : Reader Item := do
  literal ['0', mark]
  let digits ← digitRun (isBaseDigit base)
  integerInRange (ofDigits base digits)

def decimalInteger : Reader Item := do
  let negative ← sign
  let magnitude : Int := ofDigits 10 (← decimalDigits)
  integerInRange (if negative then -magnitude else magnitude)

def integer : Reader Item :=
  basedInteger 'x' 16 <|> basedInteger 'o' 8 <|> basedInteger 'b' 2 <|> decimalInteger

/-! ## Floats -/

/-- The least number that rounds to infinity in double precision. -/
def infinityThreshold : Nat := Nat.pow 2 1024 - Nat.pow 2 970

/-- Whether the number with these digits, `scale` of them behind the point when
it is negative, rounds to infinity. Numbers far from the threshold are told
apart by their length. -/
def roundsToInfinity (digits : Text) (scale : Int) : Bool :=
  let significant := digits.dropWhile (· = '0')
  let magnitude := significant.length + scale
  let value := ofDigits 10 significant
  if significant.isEmpty || magnitude < 309 then false
  else if 309 < magnitude then true
  else if 0 ≤ scale then infinityThreshold ≤ value * Nat.pow 10 scale.toNat
  else infinityThreshold * Nat.pow 10 (-scale).toNat ≤ value

def fraction : Reader Text := do
  literal ['.']
  digitRun Char.isDigit

def exponent : Reader Int := do
  let _ ← one fun c => c = 'e' || c = 'E'
  let negative ← sign
  let magnitude : Int := ofDigits 10 (← digitRun Char.isDigit)
  return if negative then -magnitude else magnitude

def finiteFloat : Reader Item := do
  let negative ← sign
  let whole ← decimalDigits
  let fractionDigits ← optional fraction
  let power ← optional exponent
  if fractionDigits.isNone && power.isNone then failure
  let behind := fractionDigits.getD []
  if !negative && roundsToInfinity (whole ++ behind) (power.getD 0 - behind.length) then failure
  return .scalar .float

def specialFloat : Reader Item := do
  let _ ← sign
  literal "inf".toList <|> literal "nan".toList
  return .scalar .float

/-! ## Dates and times -/

/-- A number of exactly this many digits within bounds. -/
def fixedNumber (width low high : Nat) : Reader Nat := fun t =>
  let digits := t.take width
  let value := ofDigits 10 digits
  if digits.length = width && digits.all Char.isDigit && low ≤ value && value ≤ high then
    some (value, t.drop width)
  else none

/-- A number in decimal, filled up with zeros. -/
def padded (width number : Nat) : String :=
  let digits := Nat.repr number
  String.ofList (List.replicate (width - digits.length) '0') ++ digits

def isLeapYear (year : Nat) : Bool :=
  year % 4 = 0 && (year % 100 ≠ 0 || year % 400 = 0)

def daysInMonth (year month : Nat) : Nat :=
  if month = 2 then if isLeapYear year then 29 else 28
  else if month = 4 || month = 6 || month = 9 || month = 11 then 30
  else 31

def date : Reader String := do
  let year ← fixedNumber 4 0 9999
  literal ['-']
  let month ← fixedNumber 2 1 12
  literal ['-']
  let day ← fixedNumber 2 1 (daysInMonth year month)
  return padded 4 year ++ "-" ++ padded 2 month ++ "-" ++ padded 2 day

/-- A fraction of a second. Nine digits count and zeros at their end do not. -/
def secondFraction : Reader String := do
  literal ['.']
  let digits ← many Char.isDigit
  if digits.isEmpty then failure
  let kept := ((digits.take 9).reverse.dropWhile (· = '0')).reverse
  return if kept.isEmpty then "" else "." ++ String.ofList kept

def time : Reader String := do
  let hour ← fixedNumber 2 0 23
  literal [':']
  let minute ← fixedNumber 2 0 59
  literal [':']
  let second ← fixedNumber 2 0 60
  let part ← optional secondFraction
  return padded 2 hour ++ ":" ++ padded 2 minute ++ ":" ++ padded 2 second ++ part.getD ""

def offset : Reader String :=
  (do
    let _ ← one fun c => c = 'Z' || c = 'z'
    return "Z") <|>
  (do
    let mark ← one fun c => c = '+' || c = '-'
    let hour ← fixedNumber 2 0 23
    literal [':']
    let minute ← fixedNumber 2 0 59
    let shown := if mark = '-' && (hour, minute) ≠ (0, 0) then "-" else "+"
    return shown ++ padded 2 hour ++ ":" ++ padded 2 minute)

/-- A time of day behind a date, with its offset. -/
def timeOfDate : Reader String := do
  let _ ← one fun c => c = 'T' || c = 't' || c = ' '
  let clock ← time
  let zone ← optional offset
  return "T" ++ clock ++ zone.getD ""

def dateTime : Reader Item := do
  let text ← (do
    let day ← date
    let rest ← optional timeOfDate
    return day ++ rest.getD "") <|> time
  return .scalar (.dateTime text)

/-- A date, a time, a float or an integer. -/
def number : Reader Item :=
  dateTime <|> finiteFloat <|> specialFloat <|> integer

end Linewise.Toml
