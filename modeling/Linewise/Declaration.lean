/-
# Linewise.Declaration -- scalar declarations and typed loop headers

The three places where a scalar type is written and `let` takes its place:

    int a = 10;            let a = 10;
    double ratio; // r     let ratio; // r
    for (int i = 0; ...    for (let i = 0; ...

Only the four scalar types count, and blanks have to follow the type. Of a
declaration the blanks between type and name collapse to one; the rest is kept
as it is written. A declaration with a value reaches to the end of its text
line.
-/
import Linewise.Text.Basic

namespace Linewise

open Text

set_option autoImplicit false

/-! ## Scalar types -/

inductive ScalarType where
  | int
  | float
  | double
  | char
  deriving Repr, DecidableEq

namespace ScalarType

def all : List ScalarType := [.int, .float, .double, .char]

def spelling : ScalarType → Text
  | .int => "int".toList
  | .float => "float".toList
  | .double => "double".toList
  | .char => "char".toList

/-- The type whose spelling starts the text, and what follows it. No spelling
is the start of another. -/
def read? (t : Text) : Option (ScalarType × Text) :=
  all.findSome? fun type => (dropStart? type.spelling t).map fun rest => (type, rest)

/-- A type, the blanks after it, of which there is at least one, and the rest. -/
def readSpaced? (t : Text) : Option (ScalarType × Text × Text) := do
  let (type, rest) ← read? t
  let gap := rest.takeWhile isBlank
  if gap.isEmpty then none else some (type, gap, trimStart rest)

end ScalarType

def bindingKeyword : Text := "let".toList

/-! ## Declarations -/

/-- A declaration with a value. `value` is the text after the equals sign up to
the end of the line. -/
structure InitDeclaration where
  type : ScalarType
  gap : Text
  name : Text
  space : Text
  value : Text
  rest : Text
  deriving Repr, DecidableEq

namespace InitDeclaration

def parse? (t : Text) : Option InitDeclaration := do
  let (type, gap, binding) ← ScalarType.readSpaced? t
  let name := binding.takeWhile isWord
  let afterName := binding.dropWhile isWord
  if name.isEmpty then none
  else match trimStart afterName with
    | '=' :: body =>
      some { type, gap, name, space := afterName.takeWhile isBlank
             value := firstLine body, rest := afterFirstLine body }
    | _ => none

/-- Everything from the name to the end of the line. -/
def binding (d : InitDeclaration) : Text :=
  d.name ++ d.space ++ '=' :: d.value

def render (d : InitDeclaration) : Text :=
  bindingKeyword ++ ' ' :: d.binding

end InitDeclaration

/-- A declaration of a name alone. -/
structure PlainDeclaration where
  type : ScalarType
  gap : Text
  name : Text
  rest : Text
  deriving Repr, DecidableEq

namespace PlainDeclaration

def parse? (t : Text) : Option PlainDeclaration := do
  let (type, gap, binding) ← ScalarType.readSpaced? t
  let name := binding.takeWhile isWord
  if name.isEmpty then none
  else match binding.dropWhile isWord with
    | ';' :: rest => some { type, gap, name, rest }
    | _ => none

def render (d : PlainDeclaration) : Text :=
  bindingKeyword ++ ' ' :: d.name ++ ';' :: d.rest

end PlainDeclaration

/-! ## Typed loop headers -/

/-- The start of a loop that declares its counter; `space` and `inner` are the
blanks around the opening parenthesis and `gap` those after the type. -/
structure LoopHeader where
  space : Text
  inner : Text
  type : ScalarType
  gap : Text
  rest : Text
  deriving Repr, DecidableEq

namespace LoopHeader

def parse? (t : Text) : Option LoopHeader := do
  let afterFor ← dropStart? "for".toList t
  match trimStart afterFor with
  | '(' :: inside =>
    let (type, gap, rest) ← ScalarType.readSpaced? (trimStart inside)
    some { space := afterFor.takeWhile isBlank, inner := inside.takeWhile isBlank
           type, gap, rest }
  | _ => none

/-- The text in front of the type. -/
def opening (h : LoopHeader) : Text :=
  "for".toList ++ h.space ++ '(' :: h.inner

def render (h : LoopHeader) : Text :=
  h.opening ++ bindingKeyword ++ h.gap ++ h.rest

end LoopHeader

end Linewise
