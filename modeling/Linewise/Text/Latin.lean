/-
# Linewise.Text.Latin -- bytes as characters

Commands work on bytes. Here a byte is the character with its code, so that the
functions on texts apply; every character of such a text is below 256.
-/
import Linewise.Text.Utf8

namespace Linewise.Text.Latin

set_option autoImplicit false

def ofByteList (bytes : List UInt8) : Text :=
  bytes.map fun byte => Char.ofNat byte.toNat

def toByteList (text : Text) : List UInt8 :=
  text.map fun c => c.toNat.toUInt8

def ofBytes (bytes : ByteArray) : Text :=
  ofByteList bytes.toList

def toBytes (text : Text) : ByteArray :=
  ⟨(toByteList text).toArray⟩

/-- The bytes of a string. -/
def ofString (string : String) : Text :=
  ofBytes string.toUTF8

/-- Spaces, tabs and the characters that end lines or pages. -/
def isSpace (c : Char) : Bool :=
  c = ' ' || ('\t' ≤ c && c ≤ '\r')

/-- Characters with a shape, and the space. -/
def isPrintable (c : Char) : Bool :=
  ' ' ≤ c && c ≤ '~'

end Linewise.Text.Latin
