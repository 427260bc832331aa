/-
# Linewise.Execution.Printf -- output by a format

A format is text with escapes and directives. A directive takes the next argument
and says how it is written: `%d` and `%i` as an integer, `%u`, `%o`, `%x` and `%X`
as one without a sign, the letters `e`, `f`, `g` and `a` as fractions, `%c` its
first character, `%s` the whole of it and `%b` with its own escapes replaced.
Flags, a width and a precision may stand between. The format is used again until
it has taken all arguments; where one is missing, nothing or zero is written.

An argument that is no number is reported and the work goes on. A directive that
means nothing ends it; what was written before stays.
-/
import Linewise.Execution.Numeral

namespace Linewise.Printf

open Text

set_option autoImplicit false

/-! ## Escapes -/

def isOctal (c : Char) : Bool :=
  '0' ≤ c && c ≤ '7'

/-- The character with an octal code of up to three digits. -/
def ofOctal (digits : Text) : Char :=
  Char.ofNat (Numeral.ofDigits 8 digits % 256)

/-- The character of a one-letter escape. -/
def letterEscape? : Char → Option Char
  | 'a' => some '\x07'
  | 'b' => some '\x08'
  | 'e' => some '\x1b'
  | 'f' => some '\x0c'
  | 'n' => some '\n'
  | 'r' => some '\r'
  | 't' => some '\t'
  | 'v' => some '\x0b'
  | '\\' => some '\\'
  | _ => none

/-- The character that an escape stands for, and how many characters after the
backslash belong to it. A backslash that escapes nothing stands for itself. -/
def escape (rest : Text) : Char × Nat :=
  let digits := (rest.take 3).takeWhile isOctal
  if !digits.isEmpty then (ofOctal digits, digits.length)
  else match rest.head?.bind letterEscape? with
    | some c => (c, 1)
    | none => ('\\', 0)

/-- Replace escapes; an octal code may have a zero in front, and `\c` ends the
text. The second value says that it did. The next `skip` characters belong to the
last escape. -/
def unescape (skip : Nat) : Text → Text × Bool
  | [] => ([], false)
  | c :: rest =>
    match skip with
    | skip + 1 => unescape skip rest
    | 0 =>
      if c ≠ '\\' then
        let (text, ended) := unescape 0 rest
        (c :: text, ended)
      else match rest with
        | 'c' :: _ => ([], true)
        | _ =>
          let zeros := if rest.head? = some '0' && (rest.drop 1).head?.any isOctal then 1 else 0
          let (char, length) := escape (rest.drop zeros)
          let (text, ended) := unescape (zeros + length) rest
          (char :: text, ended)

/-! ## Directives -/

/-- A width or precision: a number, or the next argument. -/
inductive Extent where
  | fixed (size : Nat)
  | argument
  deriving Repr, DecidableEq

/-- A directive as it stands in a format. Its last letter is missing where the
format ends before it. -/
structure Directive where
  text : Text := []
  flags : Text := []
  width : Option Extent := none
  precision : Option Extent := none
  conversion : Option Char
  deriving Repr, DecidableEq

/-- A part of a format. -/
inductive Piece where
  | literal (c : Char)
  | directive (directive : Directive)
  deriving Repr, DecidableEq

/-- A width or precision at the start of a text, and the rest. -/
def readExtent (text : Text) : Option Extent × Text :=
  match text with
  | '*' :: rest => (some .argument, rest)
  | _ =>
    let digits := text.takeWhile Char.isDigit
    (if digits.isEmpty then none else some (.fixed (Numeral.ofDigits 10 digits)),
      text.dropWhile Char.isDigit)

/-- The directive after a percent sign, and its length. -/
def readDirective (text : Text) : Directive × Nat :=
  let isFlag := fun c => "#-+ 0".toList.contains c
  let (width, rest) := readExtent (text.dropWhile isFlag)
  let (precision, rest) :=
    match rest with
    | '.' :: rest =>
      let (precision, rest) := readExtent rest
      (some (precision.getD (.fixed 0)), rest)
    | _ => (none, rest)
  let length := text.length - rest.tail.length
  ({ text := '%' :: text.take length, flags := text.takeWhile isFlag, width, precision
     conversion := rest.head? }, length)

/-- The parts of a format. The next `skip` characters belong to the last one. -/
def pieces (skip : Nat) : Text → List Piece
  | [] => []
  | c :: rest =>
    match skip with
    | skip + 1 => pieces skip rest
    | 0 =>
      if c = '\\' then
        let (char, length) := escape rest
        .literal char :: pieces length rest
      else if c ≠ '%' then .literal c :: pieces 0 rest
      else if rest.head? = some '%' then .literal '%' :: pieces 1 rest
      else
        let (directive, length) := readDirective rest
        .directive directive :: pieces length rest

/-! ## Writing one argument -/

/-- A directive whose width and precision are known. -/
structure Layout where
  left : Bool
  zeros : Bool
  plus : Bool
  space : Bool
  alternative : Bool
  width : Nat
  precision : Option Nat
  /-- Neither width nor precision is beyond all bounds. -/
  fits : Bool
  deriving Repr, DecidableEq

namespace Layout

/-- Fill up to the width. Zeros go between the sign and the digits. -/
def pad (layout : Layout) (zeros : Bool) (sign body : Text) : Text :=
  let missing := layout.width - (sign ++ body).length
  if layout.left then sign ++ body ++ List.replicate missing ' '
  else if zeros then sign ++ List.replicate missing '0' ++ body
  else List.replicate missing ' ' ++ sign ++ body

def string (layout : Layout) (text : Text) : Text :=
  layout.pad false [] (match layout.precision with
    | some n => text.take n
    | none => text)

def sign (layout : Layout) (negative : Bool) : Text :=
  if negative then ['-'] else if layout.plus then ['+'] else if layout.space then [' '] else []

/-- Digits, at least as many as the precision asks for. -/
def integer (layout : Layout) (sign digits : Text) : Text :=
  let digits := List.replicate (layout.precision.getD 1 - digits.length) '0' ++ digits
  layout.pad (layout.zeros && layout.precision.isNone) sign digits

/-- The digits of a number; a zero has none if the precision is zero. -/
def digits (layout : Layout) (base value : Nat) : Text :=
  if value = 0 && layout.precision = some 0 then [] else Numeral.digitsOf base value

def signed (layout : Layout) (value : Int) : Text :=
  layout.integer (layout.sign (value < 0)) (layout.digits 10 value.natAbs)

def unsigned (layout : Layout) (conversion : Char) (value : Nat) : Text :=
  match conversion with
  | 'o' =>
    let digits := layout.digits 8 value
    let short := digits.length < layout.precision.getD 0
    layout.integer [] (if layout.alternative && digits.head? ≠ some '0' && !short then '0' :: digits
      else digits)
  | 'x' =>
    layout.integer (if layout.alternative && value ≠ 0 then ['0', 'x'] else []) (layout.digits 16 value)
  | 'X' =>
    layout.integer (if layout.alternative && value ≠ 0 then ['0', 'X'] else [])
      ((layout.digits 16 value).map Char.toUpper)
  | _ => layout.integer [] (layout.digits 10 value)

/-- A fraction in the notation of a small letter. -/
def fraction (layout : Layout) (letter : Char) (negative : Bool) (value : Numeral.Binary) : Text :=
  let sign := layout.sign negative
  match value with
  | .nan => layout.pad false sign "nan".toList
  | .infinity => layout.pad false sign "inf".toList
  | .finite mantissa exponent =>
    let places := layout.precision.getD 6
    match letter with
    | 'f' => layout.pad layout.zeros sign (Numeral.fixed layout.alternative places mantissa exponent)
    | 'e' =>
      layout.pad layout.zeros sign (Numeral.scientific layout.alternative places mantissa exponent)
    | 'g' =>
      layout.pad layout.zeros sign (Numeral.general layout.alternative places mantissa exponent)
    | _ =>
      layout.pad layout.zeros (sign ++ ['0', 'x'])
        (Numeral.hexadecimal layout.alternative layout.precision mantissa exponent)

end Layout

/-! ## Running -/

/-- Output and reports so far, the arguments that are left, and whether the work
has ended. -/
structure State where
  arguments : List Text
  output : Text := []
  reports : List Text := []
  status : Nat := 0
  ended : Bool := false

namespace State

def write (state : State) (text : Text) : State :=
  { state with output := state.output ++ text }

/-- Report an argument and go on. -/
def report (state : State) (argument : Text) (problem : String) : State :=
  { state with reports := state.reports ++ [argument ++ ": ".toList ++ problem.toList], status := 1 }

/-- Report and end. -/
def fail (state : State) (problem : Text) : State :=
  { state with reports := state.reports ++ [problem], status := 2, ended := true }

def take (state : State) : Option Text × State :=
  (state.arguments.head?, { state with arguments := state.arguments.tail })

/-- Report what was left of a numeral. -/
def check (state : State) (argument rest : Text) (read outOfRange : Bool) : State :=
  if !rest.isEmpty then
    state.report argument (if read then "not completely converted" else "expected numeric value")
  else if outOfRange then state.report argument "Numerical result out of range"
  else state

end State

/-- A quote in front of a character asks for its code. -/
def code? : Text → Option Nat
  | '"' :: rest => some ((rest.head?.map Char.toNat).getD 0)
  | '\x27' :: rest => some ((rest.head?.map Char.toNat).getD 0)
  | _ => none

/-- The next argument as an integer between two bounds. -/
def takeInteger (least greatest : Int) (state : State) : Int × State :=
  match state.take with
  | (none, state) => (0, state)
  | (some argument, state) =>
    match code? argument with
    | some code => (code, state)
    | none =>
      match Numeral.readInteger? argument with
      | none => (0, state.check argument argument false false)
      | some (value, rest) =>
        let held := max least (min greatest value)
        (held, state.check argument rest true (held ≠ value))

def takeSigned : State → Int × State :=
  takeInteger (-0x8000000000000000) 0x7fffffffffffffff

/-- The next argument without a sign; a negative one counts down from the top. A
value too far below zero is as one too large. -/
def takeUnsigned (state : State) : Nat × State :=
  let top : Int := 0xffffffffffffffff
  let (value, after) := takeInteger (-top - 1) top state
  if value = -top - 1 then (top.toNat, (takeInteger (-top) top state).2)
  else ((if value < 0 then value + top + 1 else value).toNat, after)

/-- The next argument as a fraction. -/
def takeFraction (state : State) : Numeral.Reading × State :=
  match state.take with
  | (none, state) => ({}, state)
  | (some argument, state) =>
    match code? argument with
    | some code => ({ value := (Numeral.round code 1).1 }, state)
    | none =>
      match Numeral.readNumber? argument with
      | none => ({}, state.check argument argument false false)
      | some reading => (reading, state.check argument reading.rest true reading.outOfRange)

def greatestExtent : Int := 0x7fffffff

/-- A width or precision from the directive or the arguments, where only the last
32 bits count. -/
def takeExtent (extent : Option Extent) (state : State) : Option Int × State :=
  match extent with
  | none => (none, state)
  | some (.fixed size) => (some size, state)
  | some .argument =>
    let (value, state) := takeSigned state
    (some (Int.bmod value 0x100000000), state)

/-- The layout of a directive. A negative width means left, and a negative
precision none. What does not fit is left out. -/
def layoutOf (directive : Directive) (state : State) : Layout × State :=
  let (width, state) := takeExtent directive.width state
  let (precision, state) := takeExtent directive.precision state
  let width := width.getD 0
  let fits := width ≤ greatestExtent && precision.all (· ≤ greatestExtent)
  ({ left := directive.flags.contains '-' || width < 0
     zeros := directive.flags.contains '0'
     plus := directive.flags.contains '+'
     space := directive.flags.contains ' '
     alternative := directive.flags.contains '#'
     width := if fits then width.natAbs else 0
     precision := precision.bind fun p => if p < 0 || !fits then none else some p.toNat
     fits }, state)

/-- Write what a layout has made, if it fits. -/
def State.put (state : State) (layout : Layout) (text : Text) : State :=
  if layout.fits then state.write text else state.fail "xvsnprintf failed".toList

/-- Write the next argument as a letter says, if it says anything. -/
def convert (layout : Layout) (letter : Char) (state : State) : Option State :=
  match letter with
  | 's' => some <|
    let (argument, state) := state.take
    state.put layout (layout.string (argument.getD []))
  | 'b' => some <|
    let (argument, state) := state.take
    let (text, ended) := unescape 0 (argument.getD [])
    let state := state.put layout (layout.string text)
    { state with ended := state.ended || ended }
  | 'c' => some <|
    let (argument, state) := state.take
    state.put layout (layout.pad false [] [((argument.getD []).head?).getD '\x00'])
  | 'd' | 'i' => some <|
    let (value, state) := takeSigned state
    state.put layout (layout.signed value)
  | 'o' | 'u' | 'x' | 'X' => some <|
    let (value, state) := takeUnsigned state
    state.put layout (layout.unsigned letter value)
  | _ =>
    if !"aefg".toList.contains letter.toLower then none
    else
      let (reading, state) := takeFraction state
      let text := layout.fraction letter.toLower reading.negative reading.value
      some (state.put layout (if letter.isUpper then text.map Char.toUpper else text))

/-- Write one directive. -/
def runDirective (directive : Directive) (state : State) : State :=
  let (layout, state) := layoutOf directive state
  match directive.conversion with
  | none => state.fail "missing format character".toList
  | some letter =>
    (convert layout letter state).getD
      (state.fail (directive.text ++ ": invalid directive".toList))

/-- Write the parts of a format until one ends the work. -/
def runPieces (state : State) : List Piece → State
  | [] => state
  | piece :: rest =>
    if state.ended then state
    else match piece with
      | .literal c => runPieces (state.write [c]) rest
      | .directive directive => runPieces (runDirective directive state) rest

/-- Use a format, at most so often, until no argument is left or it takes none. -/
def repeatFormat (format : List Piece) : Nat → State → State
  | 0, state => state
  | bound + 1, state =>
    let next := runPieces state format
    if next.ended || next.arguments.isEmpty || next.arguments.length = state.arguments.length then
      next
    else repeatFormat format bound next

/-- Run the command on its arguments. An option is refused; two dashes end the
options. -/
def run (arguments : List Text) : State :=
  match arguments with
  | ['-', '-'] :: rest => start rest
  | ('-' :: letter :: _) :: _ =>
    ({ arguments := [] } : State).fail ("Illegal option -".toList ++ [letter])
  | _ => start arguments
where
  start : List Text → State
    | [] => ({ arguments := [] } : State).fail "usage: printf format [arg ...]".toList
    | format :: arguments =>
      repeatFormat (pieces 0 format) (arguments.length + 1) { arguments }

end Linewise.Printf
