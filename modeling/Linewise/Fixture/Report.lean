/-
# Linewise.Fixture.Report -- what is printed about fixtures

A fixture is a source whose program has a known output. Its `Outcome` says how
its run went, a `Report` adds its name and the path of its program, and a
`Summary` counts. The text of all three is here, in colour or plain: a `Painter`
wraps text in terminal colour codes or leaves it as it is.

When outputs differ, both are shown with their blanks made visible and as lists
of character codes, since the difference is often a line feed at the end.
-/
import Linewise.Depth
import Linewise.Files.Path

namespace Linewise

set_option autoImplicit false

/-- How the run of one fixture went. -/
inductive Outcome where
  | passed
  | mismatch (expected actual : String)
  | missingExpected (actual : String)
  | runtimeError (message : String)
  | compileError (message : String)
  deriving Repr, DecidableEq

def Outcome.isPass : Outcome → Bool
  | .passed => true
  | _ => false

/-- The outcome of a named fixture; `generated` is the path of its program, when
there is one. -/
structure Report where
  name : String
  generated : Option Path
  outcome : Outcome
  deriving Repr, DecidableEq

/-! ## Counting -/

structure Summary where
  passed : Nat := 0
  total : Nat := 0
  deriving Repr, DecidableEq

namespace Summary

/-- The fixtures that did not pass; a count below zero is out of bounds. -/
def failed (s : Summary) : Except Overflow Nat :=
  if s.passed ≤ s.total then .ok (s.total - s.passed) else .error .counter

/-- Count one more outcome. -/
def record (s : Summary) (outcome : Outcome) : Except Overflow Summary :=
  if wordLimit ≤ s.total then .error .counter
  else if !outcome.isPass then .ok { s with total := s.total + 1 }
  else if wordLimit ≤ s.passed then .error .counter
  else .ok { passed := s.passed + 1, total := s.total + 1 }

end Summary

/-! ## Colour -/

inductive Colour where
  | red
  | green
  | yellow
  | blue
  | bold
  deriving Repr, DecidableEq

def Colour.code : Colour → String
  | .red => "\x1b[31m"
  | .green => "\x1b[32m"
  | .yellow => "\x1b[33m"
  | .blue => "\x1b[34m"
  | .bold => "\x1b[1m"

structure Painter where
  enabled : Bool
  deriving Repr, DecidableEq

def Painter.paint (painter : Painter) (colour : Colour) (text : String) : String :=
  if painter.enabled then colour.code ++ text ++ "\x1b[0m" else text

/-! ## Making text visible -/

/-- A line feed becomes an arrow and itself, and then every blank, that line
feed too, becomes a dot. -/
def visible (s : String) : String :=
  String.ofList (s.toList.flatMap fun c =>
    if c = '\n' then ['↵', '·'] else if Text.isBlank c then ['·'] else [c])

def charCodes (s : String) : List Nat :=
  s.toList.map Char.toNat

/-- Numbers between brackets, with a comma and a blank between neighbours. -/
def numberList (numbers : List Nat) : String :=
  "[" ++ String.intercalate ", " (numbers.map Nat.repr) ++ "]"

/-! ## Texts -/

def banner (painter : Painter) : String :=
  painter.paint .bold "C to JavaScript Compiler Test Runner" ++ "\n\n"

/-- The label above a text, with the number of its characters. -/
def sized (label text : String) : String :=
  label ++ " (" ++ Nat.repr text.length ++ " chars):"

/-- The lines about an outcome. -/
def Outcome.lines (painter : Painter) : Outcome → List String
  | .passed => [painter.paint .green "✅ Output matches expected"]
  | .mismatch expected actual => [
      painter.paint .red "❌ Output mismatch",
      painter.paint .yellow (sized "Expected" expected),
      visible expected,
      painter.paint .yellow (sized "Got" actual),
      visible actual,
      "",
      "Character codes:",
      "Expected: " ++ numberList (charCodes expected),
      "Got:      " ++ numberList (charCodes actual)]
  | .missingExpected actual => [
      painter.paint .red "❌ No expected output registered",
      painter.paint .yellow (sized "Got" actual),
      visible actual]
  | .runtimeError message => [painter.paint .red "❌ Runtime error:" ++ " " ++ message]
  | .compileError message => [painter.paint .red "❌ Compilation error:" ++ " " ++ message]

def Report.text (painter : Painter) (report : Report) : String :=
  let heading := painter.paint .bold ("Testing " ++ report.name ++ ":")
  let compiled := match report.generated with
    | some _ => [painter.paint .blue "⚙ Compiled" ++ " " ++ report.name]
    | none => []
  Text.unlines (heading :: compiled ++ report.outcome.lines painter ++ [""])

def Summary.text (painter : Painter) (summary : Summary) : Except Overflow String :=
  summary.failed.map fun failed => Text.unlines [
    painter.paint .bold "Test Summary:",
    painter.paint .green ("✅ Passed: " ++ Nat.repr summary.passed),
    painter.paint .red ("❌ Failed: " ++ Nat.repr failed),
    painter.paint .blue ("📊 Total: " ++ Nat.repr summary.total)]

end Linewise
