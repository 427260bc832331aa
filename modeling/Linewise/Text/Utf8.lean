/-
# Linewise.Text.Utf8 -- text from bytes that may not be text

Output of a program is bytes. `decodeLossy` reads them as UTF-8 and puts one
replacement character in the place of each longest start of a character that
does not become one, and of each byte that starts none. Overlong forms,
surrogates and codes above the last are no characters.
-/
import Linewise.Text.Basic

namespace Linewise.Text.Utf8

set_option autoImplicit false

/-- A character that has begun: the bits so far, the number of bytes to come and
the bounds of the next one. -/
structure Begun where
  code : Nat
  missing : Nat
  low : Nat
  high : Nat
  deriving Repr, DecidableEq

/-- What a first byte begins, if it begins a character of several bytes. -/
def begin? (byte : Nat) : Option Begun :=
  if 0xc2 ≤ byte && byte ≤ 0xdf then some ⟨byte - 0xc0, 1, 0x80, 0xbf⟩
  else if byte = 0xe0 then some ⟨0, 2, 0xa0, 0xbf⟩
  else if byte = 0xed then some ⟨0xd, 2, 0x80, 0x9f⟩
  else if 0xe1 ≤ byte && byte ≤ 0xef then some ⟨byte - 0xe0, 2, 0x80, 0xbf⟩
  else if byte = 0xf0 then some ⟨0, 3, 0x90, 0xbf⟩
  else if byte = 0xf4 then some ⟨4, 3, 0x80, 0x8f⟩
  else if 0xf1 ≤ byte && byte ≤ 0xf3 then some ⟨byte - 0xf0, 3, 0x80, 0xbf⟩
  else none

def replacement : Char := '�'

/-- Read a byte that is not part of a begun character. -/
def first (byte : Nat) : Text × Option Begun :=
  if byte < 0x80 then ([Char.ofNat byte], none)
  else match begin? byte with
    | some begun => ([], some begun)
    | none => ([replacement], none)

/-- Read one byte: the characters it completes, and what remains begun. -/
def step (begun : Option Begun) (byte : Nat) : Text × Option Begun :=
  match begun with
  | none => first byte
  | some b =>
    if b.low ≤ byte && byte ≤ b.high then
      let code := b.code * 64 + (byte - 0x80)
      if b.missing = 1 then ([Char.ofNat code], none)
      else ([], some ⟨code, b.missing - 1, 0x80, 0xbf⟩)
    else
      let (text, next) := first byte
      (replacement :: text, next)

def decodeFrom (begun : Option Begun) : List UInt8 → Text
  | [] => if begun.isSome then [replacement] else []
  | byte :: rest =>
    let (text, next) := step begun byte.toNat
    text ++ decodeFrom next rest

def decodeLossy (bytes : ByteArray) : String :=
  String.ofList (decodeFrom none bytes.toList)

end Linewise.Text.Utf8
