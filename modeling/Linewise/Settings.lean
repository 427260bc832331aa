/-
# Linewise.Settings -- how fixtures are checked

Where the fixtures are, where their programs go, what runs them, how they are
indented and what they should print. A settings document overrides single
values; its table of expected outputs replaces the built-in one as a whole, and
keys that mean nothing here are ignored. Without a document the defaults hold.
-/
import Linewise.Error
import Linewise.Program
import Linewise.Toml.Document

namespace Linewise

set_option autoImplicit false

/-- The expected outputs of the bundled fixtures. -/
def defaultExpected : List (String × String) := [
  ("hello.c", "Sum of 10 and 20 is 30\n"),
  ("if_else.c", "Number is positive\n"),
  ("while_loop.c", "i = 0\ni = 1\ni = 2\ni = 3\ni = 4\n"),
  ("for_loop.c", "i = 0\ni = 1\ni = 2\ni = 3\ni = 4\n"),
  ("functions.c", "Result is 12\n"),
  ("logical.c", "Both conditions are true\n"),
  ("comments.c", "Comments should be preserved in the output\n")]

structure Settings where
  fixturesDirectory : Path := "fixtures"
  outputDirectory : Path := "output"
  runtime : String := "node"
  indentWidth : Nat := defaultWidth
  expected : List (String × String) := defaultExpected
  deriving Repr, DecidableEq

namespace Settings

/-- The document that is looked for in the working directory. -/
def fileName : String := "c2js.toml"

/-! ## Values of a document -/

def string? : Toml.Item → Option String
  | .scalar (.string text) => some text
  | _ => none

def path? (item : Toml.Item) : Option Path :=
  (string? item).map Path.ofString

def natural? : Toml.Item → Option Nat
  | .scalar (.integer value) => if 0 ≤ value then some value.toNat else none
  | _ => none

/-- A table of strings. A date or time counts as a table of one reserved key. -/
def strings? : Toml.Item → Option (List (String × String))
  | .table _ entries => entries.mapM fun (key, item) => (string? item).map fun text => (key, text)
  | .scalar (.dateTime text) => some [("$__toml_private_datetime", text)]
  | _ => none

/-- The value of a key, or the default when the key is missing. -/
def setting? {α : Type} (entries : Toml.Entries) (key : String) (default : α)
    (read? : Toml.Item → Option α) : Option α :=
  match entries.lookup key with
  | none => some default
  | some item => read? item

def ofEntries? (entries : Toml.Entries) : Option Settings := do
  let default : Settings := {}
  return {
    fixturesDirectory := ← setting? entries "fixtures_dir" default.fixturesDirectory path?
    outputDirectory := ← setting? entries "output_dir" default.outputDirectory path?
    runtime := ← setting? entries "runtime" default.runtime string?
    indentWidth := ← setting? entries "indent_width" default.indentWidth natural?
    expected := ← setting? entries "expected" default.expected strings? }

/-! ## Documents -/

/-- Read a document; `path` is the name it goes by in an error. -/
def ofDocument (document : String) (path : Path) : Except Error Settings :=
  match (Toml.parse? document).bind ofEntries? with
  | some settings => .ok settings
  | none => .error (.settings path)

def ofFile (files : FileTree) (path : Path) : Except Error Settings :=
  match files.read? path with
  | .ok document => ofDocument document path
  | .error reason => .error (.read path reason)

/-- Read the document that is named, else the one in `directory`, else take the
defaults. -/
def load (files : FileTree) (explicit : Option Path) (directory : Path) :
    Except Error Settings :=
  match explicit with
  | some path => ofFile files path
  | none =>
    let path := Path.join directory fileName
    if files.isFile path then ofFile files path else .ok {}

end Settings

end Linewise
