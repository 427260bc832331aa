/-
# Linewise.Pattern -- where the recognisers match

Each recogniser finds its shape at certain places of a text. This module lists
all of them with the places of their parts: a `Span` is a part of the text with
the byte offsets of its two ends in UTF-8. Matches are taken from the left and
do not overlap.

Where a shape may stand:

* entry point, signature, declarations and loop header only at the start;
* a print call wherever no word character precedes it;
* a placeholder anywhere;
* an entry call at the start, or together with the character before it.
-/
import Linewise.Declaration
import Linewise.EntryCall
import Linewise.PrintCall.Template
import Linewise.Signature

namespace Linewise

open Text

set_option autoImplicit false

inductive Pattern where
  | entryPoint
  | functionSignature
  | initDeclaration
  | plainDeclaration
  | printCall
  | placeholder
  | loopHeader
  | entryCall
  deriving Repr, DecidableEq

/-- A part of a text between two byte offsets. -/
structure Span where
  start : Nat
  stop : Nat
  text : Text
  deriving Repr, DecidableEq

/-- The captured part of a match: what precedes it inside the match, and its
text. -/
structure Capture where
  lead : Text
  text : Text
  deriving Repr, DecidableEq

/-- A match at the start of a text and its captured parts; a part that is absent
from this match is `none`. -/
structure Match where
  whole : Text
  captures : List (Option Capture) := []
  deriving Repr, DecidableEq

namespace Match

def spanAt (offset : Nat) (text : Text) : Span :=
  { start := offset, stop := offset + byteLength text, text }

/-- The whole match and its captured parts, for a match that starts at a byte
offset. -/
def spans (offset : Nat) (m : Match) : List (Option Span) :=
  some (spanAt offset m.whole) :: m.captures.map fun capture =>
    capture.map fun part => spanAt (offset + byteLength part.lead) part.text

/-- The match of a recogniser that only tells what remains of the text. -/
def ofRest (t rest : Text) : Match :=
  { whole := t.take (t.length - rest.length) }

def ofSignature (s : Signature) : Match :=
  { whole := s.head
    captures := [
      some ⟨[], s.type⟩,
      some ⟨s.type ++ s.gap, s.name⟩,
      some ⟨s.type ++ s.gap ++ s.name ++ s.space ++ ['('], s.params⟩] }

def ofInitDeclaration (d : InitDeclaration) : Match :=
  { whole := d.type.spelling ++ d.gap ++ d.binding
    captures := [some ⟨d.type.spelling ++ d.gap, d.binding⟩] }

def ofPlainDeclaration (d : PlainDeclaration) : Match :=
  { whole := d.type.spelling ++ d.gap ++ d.name ++ [';']
    captures := [some ⟨d.type.spelling ++ d.gap, d.name⟩] }

def ofLoopHeader (h : LoopHeader) : Match :=
  { whole := h.opening ++ h.type.spelling ++ h.gap
    captures := [some ⟨h.opening, h.type.spelling⟩] }

def ofPrintCall (o : PrintCall.Occurrence) : Match :=
  { whole := o.call
    captures := [
      some ⟨o.opening, o.format⟩,
      o.arguments.map fun arguments => ⟨o.opening ++ o.format ++ o.middle, arguments.text⟩] }

end Match

namespace Pattern

/-- The match that starts exactly here. `previous` is the character before the
text, if there is one. -/
def matchAt (previous : Option Char) (t : Text) : Pattern → Option Match
  | .entryPoint => atStart ((EntryPoint.rest? t).map (Match.ofRest t))
  | .functionSignature => atStart ((Signature.parse? t).map Match.ofSignature)
  | .initDeclaration => atStart ((InitDeclaration.parse? t).map Match.ofInitDeclaration)
  | .plainDeclaration => atStart ((PlainDeclaration.parse? t).map Match.ofPlainDeclaration)
  | .loopHeader => atStart ((LoopHeader.parse? t).map Match.ofLoopHeader)
  | .printCall =>
    if previous.any isWord then none
    else (PrintCall.Occurrence.at? t).map Match.ofPrintCall
  | .placeholder =>
    match t with
    | '%' :: kind :: _ =>
      if PrintCall.isPlaceholderKind kind then some { whole := ['%', kind] } else none
    | _ => none
  | .entryCall =>
    match atStart ((EntryCall.rest? t).map (Match.ofRest t)) with
    | some found => some found
    | none =>
      match t with
      | c :: rest =>
        if EntryCall.mayPrecede c then (EntryCall.rest? rest).map (Match.ofRest t) else none
      | [] => none
where
  /-- Keep a match only if nothing precedes it. -/
  atStart (found : Option Match) : Option Match :=
    if previous.isNone then found else none

/-- All matches from a byte offset on. The next `skip` characters belong to the
last match. -/
def matchesFrom (pattern : Pattern) (offset : Nat) (previous : Option Char) (skip : Nat) :
    Text → List (List (Option Span))
  | [] => []
  | c :: rest =>
    let next := fun skip => pattern.matchesFrom (offset + c.utf8Size) (some c) skip rest
    match skip with
    | skip + 1 => next skip
    | 0 =>
      match pattern.matchAt previous (c :: rest) with
      | none => next 0
      | some found => found.spans offset :: next (found.whole.length - 1)

/-- All matches of a text: for each the span of the whole and of its parts. -/
def allMatches (pattern : Pattern) (t : Text) : List (List (Option Span)) :=
  pattern.matchesFrom 0 none 0 t

end Pattern

end Linewise
