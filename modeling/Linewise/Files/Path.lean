/-
# Linewise.Files.Path -- the parts of a path

A path is a string of bytes: names divided by slashes. `segments` is what a walk
through the file tree follows. `components` is the same without the names `.`
that change nothing; one at the start of a relative path stays. The name of a
file, its stem and its extension are read off the last component.

The bytes need not be those of a text. `display` shows them as one all the same,
with a replacement character where they are not, so that different paths can be
shown alike.
-/
import Linewise.Text.Utf8

namespace Linewise

set_option autoImplicit false

/-- The bytes of a path, or of a name on it. -/
abbrev Path := List UInt8

namespace Path

open Text

/-- The path that is written as a text. -/
def ofString (text : String) : Path :=
  text.toList.flatMap String.utf8EncodeChar

instance : Coe String Path := ⟨ofString⟩

/-- The path as a text, with replacements. -/
def display (path : Path) : String :=
  String.ofList (Utf8.decodeFrom none path)

def slash : UInt8 := 0x2f

def dot : UInt8 := 0x2e

def isAbsolute (path : Path) : Bool :=
  path.head? = some slash

def endsInSlash (path : Path) : Bool :=
  path.getLast? = some slash

/-- The names between the slashes; empty ones do not count. -/
def segments (path : Path) : List Path :=
  (path.splitOn slash).filter (!·.isEmpty)

def components (path : Path) : List Path :=
  match segments path with
  | [] => []
  | first :: rest =>
    let rest := rest.filter (· ≠ ofString ".")
    if first = "." && isAbsolute path then rest else first :: rest

/-- The name at the end of a path; dots alone are no name. -/
def fileName? (path : Path) : Option Path :=
  match (components path).getLast? with
  | none => none
  | some name => if name = "." || name = ".." then none else some name

/-- The name before its last dot, and the extension after it. A dot at the start
begins no extension. -/
def splitName (name : Path) : Path × Option Path :=
  if name = ".." then (name, none)
  else match splitAtLast? dot name with
    | none => (name, none)
    | some ([], _) => (name, none)
    | some (stem, extension) => (stem, some extension)

def extension? (path : Path) : Option Path :=
  (fileName? path).bind fun name => (splitName name).2

def stem? (path : Path) : Option Path :=
  (fileName? path).map fun name => (splitName name).1

/-- A name below a directory; an absolute one stands for itself. -/
def join (directory name : Path) : Path :=
  if isAbsolute name || directory.isEmpty then name
  else if endsInSlash directory then directory ++ name
  else directory ++ slash :: name

/-- The path without its last component, unless it has none. -/
def parent? (path : Path) : Option Path :=
  match components path with
  | [] => none
  | parts =>
    let names := [slash].intercalate parts.dropLast
    some (if isAbsolute path then slash :: names else names)

end Path

end Linewise
