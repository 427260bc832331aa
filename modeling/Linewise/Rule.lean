/-
# Linewise.Rule -- what a line is and what becomes of it

A rule accepts some lines and renders them. The rules are tried in order and the
first that accepts a line decides its kind:

    entryPoint        int main(void) {      function main() {      opens
    functionSignature int add(int a, int b) function add(a, b)     keeps
    blockOpen         {                     {                      opens
    initDeclaration   int a = 1;            let a = 1;             keeps
    plainDeclaration  int a;                let a;                 keeps
    printCall         printf("%d", a);      console.log(...);      keeps
    blockClose        }                     }                      closes
    statement         a = b;                unchanged              keeps
    loopHeader        for (int i = 0; ...   for (let i = 0; ...    keeps
    passthrough       anything              unchanged              keeps

A rule can be asked to render a line that it does not accept; the rules that
look into the line then leave it unchanged. The last rule accepts every line, so
every line has a kind.
-/
import Linewise.Declaration
import Linewise.Depth
import Linewise.PrintCall.Template
import Linewise.Signature

namespace Linewise

open Text

set_option autoImplicit false

inductive LineKind where
  | entryPoint
  | functionSignature
  | blockOpen
  | initDeclaration
  | plainDeclaration
  | printCall
  | blockClose
  | statement
  | loopHeader
  | passthrough
  deriving Repr, DecidableEq

/-- The text for a line, what the line does to the depth, and the warning that
it gives rise to. -/
structure Rendering where
  text : Text
  change : DepthChange
  shortage : Option Shortage := none
  deriving Repr, DecidableEq

structure Rule where
  kind : LineKind
  accepts : Text → Bool
  render : Text → Rendering

namespace Rule

/-- Put `f` of what `parse?` reads in the place of a line, and leave any other line
unchanged. -/
def replacing {α : Type} (parse? : Text → Option α) (f : α → Text) (line : Text) : Rendering :=
  { text := ((parse? line).map f).getD line, change := .keep }

def entryPoint : Rule where
  kind := .entryPoint
  accepts := EntryPoint.accepts
  render _ := { text := EntryPoint.declaration, change := .opens }

def functionSignature : Rule where
  kind := .functionSignature
  accepts := Signature.accepts
  render := replacing Signature.parse? Signature.render

def blockOpen : Rule where
  kind := .blockOpen
  accepts line := line = ['{']
  render _ := { text := ['{'], change := .opens }

def initDeclaration : Rule where
  kind := .initDeclaration
  accepts line := (InitDeclaration.parse? line).isSome
  render := replacing InitDeclaration.parse? InitDeclaration.render

def plainDeclaration : Rule where
  kind := .plainDeclaration
  accepts line := (PlainDeclaration.parse? line).isSome
  render := replacing PlainDeclaration.parse? PlainDeclaration.render

def printCall : Rule where
  kind := .printCall
  accepts line := (PrintCall.parse? line).isSome
  render line :=
    match PrintCall.parse? line with
    | some call => { text := call.consoleLog, change := .keep, shortage := call.shortage? }
    | none => { text := line, change := .keep }

def blockClose : Rule where
  kind := .blockClose
  accepts line := line = ['}']
  render _ := { text := ['}'], change := .closes }

def statement : Rule where
  kind := .statement
  accepts line := endsWith line [';']
  render line := { text := line, change := .keep }

def loopHeader : Rule where
  kind := .loopHeader
  accepts line := (LoopHeader.parse? line).isSome
  render := replacing LoopHeader.parse? LoopHeader.render

def passthrough : Rule where
  kind := .passthrough
  accepts _ := true
  render line := { text := line, change := .keep }

/-- The rules in order of priority. -/
def all : List Rule := [
  entryPoint, functionSignature, blockOpen, initDeclaration, plainDeclaration,
  printCall, blockClose, statement, loopHeader, passthrough]

/-- The first of the rules that accepts the line. -/
def select (rules : List Rule) (line : Text) : Rule :=
  (rules.find? (·.accepts line)).getD passthrough

/-- The rule of a kind. -/
def ofKind : LineKind → Rule
  | .entryPoint => entryPoint
  | .functionSignature => functionSignature
  | .blockOpen => blockOpen
  | .initDeclaration => initDeclaration
  | .plainDeclaration => plainDeclaration
  | .printCall => printCall
  | .blockClose => blockClose
  | .statement => statement
  | .loopHeader => loopHeader
  | .passthrough => passthrough

end Rule

/-- The kind of a line. -/
def LineKind.ofLine (line : Text) : LineKind :=
  (Rule.select Rule.all line).kind

/-- A line after its rule: its kind, its text without indentation, the depth it
is rendered at and the depth of the next line. -/
structure Step where
  kind : LineKind
  text : Text
  renderDepth : Nat
  nextDepth : Nat
  shortage : Option Shortage
  deriving Repr, DecidableEq

/-- Apply the first accepting rule to a line at a given depth. -/
def Step.ofLine (depth : Nat) (line : Text) : Except Overflow Step := do
  let rule := Rule.select Rule.all line
  let rendering := rule.render line
  let (renderDepth, nextDepth) ← rendering.change.apply depth
  return { kind := rule.kind, text := rendering.text, renderDepth, nextDepth
           shortage := rendering.shortage }

end Linewise
