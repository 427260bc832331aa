/-
# Linewise.Toml.Document -- a whole document

A document is a sequence of lines: blank ones, comments, headers and pairs. A
pair goes into the table of the last header. Values nest to a fixed depth and
dotted keys have a largest number of parts, both below `nestingLimit`.
-/
import Linewise.Toml.Number
import Linewise.Toml.Quoted

namespace Linewise.Toml

open Text Reader

set_option autoImplicit false

/-- Nesting has to stay below this. -/
def nestingLimit : Nat := 80

/-! ## Keys -/

def isBareKey (c : Char) : Bool :=
  c.isAlphanum || c = '-' || c = '_'

def bareKey : Reader String := do
  let key ← many isBareKey
  if key.isEmpty then failure else return String.ofList key

/-- The parts of a dotted key, at most so many. -/
def keyParts : Nat → Reader (List String)
  | 0 => failure
  | limit + 1 => do
    spaces
    let part ← shortString <|> bareKey
    spaces
    if (← peek) = some '.' then
      literal ['.']
      return part :: (← keyParts limit)
    else return [part]

/-- The parts of a key before the last, and the last. -/
def key : Reader (List String × String) := do
  let parts ← keyParts (nestingLimit - 1)
  match parts.getLast? with
  | some last => return (parts.dropLast, last)
  | none => failure

/-! ## Values -/

/-- The rest of an array behind its opening bracket or a comma. -/
def elements (value : Reader Item) : Nat → Reader (List Item)
  | 0 => failure
  | bound + 1 => do
    trivia
    if (← peek) = some ']' then
      literal [']']
      return []
    let item ← value
    trivia
    let mark ← one fun c => c = ',' || c = ']'
    if mark = ']' then return [item]
    return item :: (← elements value bound)

def array (value : Reader Item) : Reader Item := do
  literal ['[']
  return .array (← bounded (elements value))

/-- A key, an equals sign and a value. -/
def pair (value : Reader Item) : Reader ((List String × String) × Item) := do
  let name ← key
  literal ['=']
  spaces
  return (name, ← value)

/-- The rest of an inline table from a pair on. -/
def pairs (value : Reader Item) : Nat → Entries → Reader Item
  | 0, _ => failure
  | bound + 1, entries => do
    let ((dots, last), item) ← pair value
    match addPair dots last item .inline entries with
    | some (.table _ entries) =>
      spaces
      let mark ← one fun c => c = ',' || c = '}'
      if mark = '}' then return .table .inline entries
      pairs value bound entries
    | _ => failure

def inlineTable (value : Reader Item) : Reader Item := do
  literal ['{']
  spaces
  if (← peek) = some '}' then
    literal ['}']
    return .table .inline []
  bounded fun bound => pairs value bound []

def boolean : Reader Item :=
  (do literal "true".toList; return .scalar (.boolean true)) <|>
  (do literal "false".toList; return .scalar (.boolean false))

def plainValue : Reader Item :=
  (do return .scalar (.string (← string))) <|> boolean <|> number

/-- A value in which so many arrays and inline tables may nest. -/
def value : Nat → Reader Item
  | 0 => plainValue
  | limit + 1 => plainValue <|> array (value limit) <|> inlineTable (value limit)

/-! ## Lines -/

/-- A document in the making: its root table and the path of the last header. -/
structure Draft where
  entries : Entries := []
  path : List String := []

namespace Draft

/-- Change the root table. -/
def edit (draft : Draft) (change : Origin → Entries → Option Item) : Option Draft :=
  match change .header draft.entries with
  | some (.table _ entries) => some { draft with entries }
  | _ => none

def addPair (draft : Draft) (name : List String × String) (item : Item) : Option Draft :=
  draft.edit (editAt false (Toml.addPair name.1 name.2 item) draft.path)

def openTable (draft : Draft) (name : List String × String) : Option Draft :=
  (draft.edit (Toml.openTable name.1 name.2)).map fun draft =>
    { draft with path := name.1 ++ [name.2] }

def openElement (draft : Draft) (name : List String × String) : Option Draft :=
  (draft.edit (Toml.openElement name.1 name.2)).map fun draft =>
    { draft with path := name.1 ++ [name.2] }

end Draft

/-- A header line and the draft after it. -/
def header (draft : Draft) : Reader Draft :=
  (do
    literal ['[', '[']
    let name ← key
    literal [']', ']']
    lineEnd
    liftM (draft.openElement name)) <|>
  (do
    literal ['[']
    let name ← key
    literal [']']
    lineEnd
    liftM (draft.openTable name))

/-- A line with a pair and the draft after it. -/
def pairLine (draft : Draft) : Reader Draft := do
  let (name, item) ← pair (value (nestingLimit - 1))
  lineEnd
  liftM (draft.addPair name item)

/-- The remaining lines of a document. -/
def documentLines : Nat → Draft → Reader Draft
  | 0, _ => failure
  | bound + 1, draft => do
    spaces
    match ← peek with
    | none => return draft
    | some '#' => lineEnd; documentLines bound draft
    | some '\n' => newline; documentLines bound draft
    | some '\r' => newline; documentLines bound draft
    | some '[' => documentLines bound (← header draft)
    | some _ => documentLines bound (← pairLine draft)

/-- The root table of a document. A byte order mark at its start is dropped. -/
def parse? (document : String) : Option Entries :=
  let text := match document.toList with
    | '\ufeff' :: rest => rest
    | text => text
  (bounded (fun bound => documentLines bound {}) text).map fun (draft, _) => draft.entries

end Linewise.Toml
