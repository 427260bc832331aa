/-
# Linewise.Proofs.Offsets -- rewriting a line by the places of its parts

A rule that rewrites a line cuts it into a record and puts the parts together again. It
can also be told where the parts stand and cut the line at these places, which are byte
offsets. Then more can go wrong: a match need not have the part that is asked for, and an
offset may lie inside a character or behind the end of the line. `part?` and `slice?` fail
in these cases, and only in these (`slice?_eq_some_iff`).

They do not occur. The places that a pattern gives for a text lie between the characters
of that text, in each of its matches (`Pattern.slice?_of_mem_allMatches`). So the rules
can work from the places of the first match alone, and write what they write from the
record (`Rewriter.run?_eq`, `Signature.acceptsAt?_eq`).
-/
import Linewise.Pattern
import Linewise.Proofs.PrintSurroundings

namespace Linewise

open Text

set_option autoImplicit false

/-! ## Slices -/

namespace Text

theorem byteLength_append (u v : Text) : byteLength (u ++ v) = byteLength u + byteLength v := by
  induction u with
  | nil => simp [byteLength]
  | cons c u ih => simp only [List.cons_append, byteLength, ih, Nat.add_assoc]

/-- Cut a text at a byte offset, if the offset lies between two characters. -/
def splitBytes? (t : Text) (offset : Nat) : Option (Text × Text) :=
  if offset = 0 then some ([], t)
  else match t with
    | [] => none
    | c :: rest =>
      if c.utf8Size ≤ offset then
        (splitBytes? rest (offset - c.utf8Size)).map fun cut => (c :: cut.1, cut.2)
      else none

/-- The text between two byte offsets, if both lie between two characters and the first is
not behind the second. -/
def slice? (t : Text) (start stop : Nat) : Option Text :=
  (splitBytes? t stop).bind fun outer => (splitBytes? outer.1 start).map Prod.snd

theorem splitBytes?_append (front back : Text) :
    splitBytes? (front ++ back) (byteLength front) = some (front, back) := by
  induction front with
  | nil => cases back <;> rfl
  | cons c front ih =>
      have size := c.utf8Size_pos
      rw [List.cons_append, splitBytes?, byteLength, if_neg (by omega), if_pos (by omega),
        Nat.add_sub_cancel_left, ih]
      rfl

theorem splitBytes?_sound {t front back : Text} {offset : Nat}
    (cut : splitBytes? t offset = some (front, back)) :
    t = front ++ back ∧ byteLength front = offset := by
  induction t generalizing front offset with
  | nil =>
      unfold splitBytes? at cut
      split at cut
      · rename_i zero
        cases cut
        exact ⟨rfl, zero.symm⟩
      · cases cut
  | cons c rest ih =>
      rw [splitBytes?] at cut
      split at cut
      · rename_i zero
        cases cut
        exact ⟨rfl, zero.symm⟩
      · split at cut
        · rename_i fits
          obtain ⟨⟨more, tail⟩, found, eq⟩ := Option.map_eq_some_iff.1 cut
          cases eq
          obtain ⟨rfl, length⟩ := ih found
          refine ⟨rfl, ?_⟩
          show c.utf8Size + byteLength more = offset
          omega
        · cases cut

theorem slice?_eq_some_iff {t part : Text} {start stop : Nat} :
    slice? t start stop = some part ↔ ∃ front back, t = front ++ (part ++ back) ∧
      byteLength front = start ∧ byteLength front + byteLength part = stop := by
  unfold slice?
  rw [Option.bind_eq_some_iff]
  constructor
  · rintro ⟨⟨outer, back⟩, cut, inner⟩
    obtain ⟨⟨front, found⟩, split, rfl⟩ := Option.map_eq_some_iff.1 inner
    obtain ⟨rfl, length⟩ := splitBytes?_sound cut
    obtain ⟨rfl, start⟩ := splitBytes?_sound split
    refine ⟨front, back, List.append_assoc .., start, ?_⟩
    rw [← byteLength_append, length]
  · rintro ⟨front, back, rfl, rfl, rfl⟩
    refine ⟨(front ++ part, back), ?_, ?_⟩
    · rw [← byteLength_append, ← List.append_assoc, splitBytes?_append]
    · rw [splitBytes?_append]
      rfl

end Text

/-! ## Matches lie in their text -/

/-- The match stands at the start of the text, and its parts inside the match. -/
structure Match.Begins (m : Match) (t : Text) : Prop where
  whole : m.whole <+: t
  parts : ∀ part, some part ∈ m.captures → part.lead ++ part.text <+: m.whole

namespace Match

/-- All the spans of a match are slices of the text that it was found in. -/
theorem Begins.slice?_span {m : Match} {t : Text} (h : m.Begins t) (before : Text) {span : Span}
    (member : some span ∈ m.spans (byteLength before)) :
    slice? (before ++ t) span.start span.stop = some span.text := by
  obtain ⟨after, rfl⟩ := h.whole
  rw [spans, List.mem_cons] at member
  rcases member with eq | inParts
  · obtain rfl := Option.some.inj eq
    exact slice?_eq_some_iff.2 ⟨before, after, rfl, rfl, rfl⟩
  · obtain ⟨capture, found, eq⟩ := List.mem_map.1 inParts
    obtain ⟨part, rfl, rfl⟩ := Option.map_eq_some_iff.1 eq
    obtain ⟨tail, split⟩ := h.parts part found
    refine slice?_eq_some_iff.2 ⟨before ++ part.lead, tail ++ after, ?_, ?_, ?_⟩
    · rw [← split]
      simp [spanAt]
    · rw [byteLength_append]
      rfl
    · rw [byteLength_append]
      rfl

theorem begins_ofRest (t rest : Text) : (ofRest t rest).Begins t :=
  ⟨List.take_prefix _ _, fun _ member => nomatch member⟩

theorem begins_ofSignature {t : Text} {s : Signature} (read : Signature.parse? t = some s) :
    (ofSignature s).Begins t := by
  obtain ⟨rfl, -⟩ := Signature.parse?_eq_some_iff.1 read
  refine ⟨⟨s.rest, by simp [ofSignature, Signature.head, Signature.spelling]⟩, ?_⟩
  intro part member
  simp only [ofSignature, List.mem_cons, Option.some.injEq, List.not_mem_nil, or_false] at member
  rcases member with rfl | rfl | rfl
  · exact ⟨s.gap ++ s.name ++ s.space ++ '(' :: s.params ++ [')'],
      by simp [ofSignature, Signature.head]⟩
  · exact ⟨s.space ++ '(' :: s.params ++ [')'], by simp [ofSignature, Signature.head]⟩
  · exact ⟨[')'], by simp [ofSignature, Signature.head]⟩

theorem begins_ofInitDeclaration {t : Text} {d : InitDeclaration}
    (read : InitDeclaration.parse? t = some d) : (ofInitDeclaration d).Begins t := by
  obtain ⟨rfl, -⟩ := InitDeclaration.parse?_eq_some_iff.1 read
  refine ⟨⟨d.rest, ?_⟩, ?_⟩
  · simp [ofInitDeclaration, InitDeclaration.binding, InitDeclaration.spelling]
  · intro part member
    obtain rfl := Option.some.inj (List.mem_singleton.1 member)
    exact List.prefix_rfl

theorem begins_ofPlainDeclaration {t : Text} {d : PlainDeclaration}
    (read : PlainDeclaration.parse? t = some d) : (ofPlainDeclaration d).Begins t := by
  obtain ⟨rfl, -⟩ := PlainDeclaration.parse?_eq_some_iff.1 read
  refine ⟨⟨d.rest, by simp [ofPlainDeclaration, PlainDeclaration.spelling]⟩, ?_⟩
  intro part member
  obtain rfl := Option.some.inj (List.mem_singleton.1 member)
  exact List.prefix_append _ _

theorem begins_ofLoopHeader {t : Text} {h : LoopHeader} (read : LoopHeader.parse? t = some h) :
    (ofLoopHeader h).Begins t := by
  obtain ⟨rfl, -⟩ := LoopHeader.parse?_eq_some_iff.1 read
  refine ⟨⟨h.rest, by simp [ofLoopHeader, LoopHeader.opening, LoopHeader.spelling]⟩, ?_⟩
  intro part member
  obtain rfl := Option.some.inj (List.mem_singleton.1 member)
  exact List.prefix_append _ _

theorem begins_ofPrintCall (o : PrintCall.Occurrence) :
    (ofPrintCall o).Begins (o.call ++ o.after) := by
  refine ⟨List.prefix_append _ _, ?_⟩
  intro part member
  simp only [ofPrintCall, List.mem_cons, Option.some.injEq, List.not_mem_nil, or_false] at member
  rcases member with rfl | argument
  · exact ⟨o.middle ++ o.argumentText ++ [')'], by simp [ofPrintCall, PrintCall.Occurrence.call]⟩
  · obtain ⟨a, found, rfl⟩ := Option.map_eq_some_iff.1 argument.symm
    refine ⟨[')'], ?_⟩
    simp [ofPrintCall, PrintCall.Occurrence.call, PrintCall.Occurrence.argumentText, found]

end Match

namespace Pattern

theorem eq_some_of_atStart {previous : Option Char} {found : Option Match} {m : Match}
    (kept : matchAt.atStart previous found = some m) : found = some m := by
  unfold matchAt.atStart at kept
  split at kept
  · exact kept
  · cases kept

/-- What a pattern matches stands where it was looked for. -/
theorem begins_of_matchAt {pattern : Pattern} {previous : Option Char} {t : Text} {m : Match}
    (found : pattern.matchAt previous t = some m) : m.Begins t := by
  cases pattern with
  | entryPoint =>
      obtain ⟨rest, -, rfl⟩ := Option.map_eq_some_iff.1 (eq_some_of_atStart found)
      exact Match.begins_ofRest t rest
  | functionSignature =>
      obtain ⟨s, read, rfl⟩ := Option.map_eq_some_iff.1 (eq_some_of_atStart found)
      exact Match.begins_ofSignature read
  | initDeclaration =>
      obtain ⟨d, read, rfl⟩ := Option.map_eq_some_iff.1 (eq_some_of_atStart found)
      exact Match.begins_ofInitDeclaration read
  | plainDeclaration =>
      obtain ⟨d, read, rfl⟩ := Option.map_eq_some_iff.1 (eq_some_of_atStart found)
      exact Match.begins_ofPlainDeclaration read
  | loopHeader =>
      obtain ⟨h, read, rfl⟩ := Option.map_eq_some_iff.1 (eq_some_of_atStart found)
      exact Match.begins_ofLoopHeader read
  | printCall =>
      rw [PrintCall.Occurrence.matchAt_eq] at found
      obtain ⟨o, here, rfl⟩ := Option.map_eq_some_iff.1 found
      have before := PrintCall.Occurrence.before_of_here? here
      have whole : t = o.call ++ o.after := by
        unfold PrintCall.Occurrence.here? at here
        split at here
        · cases here
        · rw [(PrintCall.Occurrence.at?_sound here).2.1, PrintCall.Occurrence.spelling_eq_call, before]
          rfl
      rw [whole]
      exact Match.begins_ofPrintCall o
  | placeholder =>
      simp only [matchAt] at found
      split at found
      · split at found
        · cases found
          refine ⟨List.prefix_append ['%', _] _, ?_⟩
          intro _ member
          cases member
        · cases found
      · cases found
  | entryCall =>
      simp only [matchAt] at found
      split at found
      · rename_i start kept
        cases found
        obtain ⟨rest, -, rfl⟩ := Option.map_eq_some_iff.1 (eq_some_of_atStart kept)
        exact Match.begins_ofRest t rest
      · split at found
        · split at found
          · obtain ⟨rest, -, rfl⟩ := Option.map_eq_some_iff.1 found
            exact Match.begins_ofRest _ rest
          · cases found
        · cases found

theorem slice?_of_mem_matchesFrom {pattern : Pattern} {previous : Option Char} {skip : Nat}
    {before t : Text} {groups : List (Option Span)} {span : Span}
    (found : groups ∈ pattern.matchesFrom (byteLength before) previous skip t)
    (member : some span ∈ groups) :
    slice? (before ++ t) span.start span.stop = some span.text := by
  induction t generalizing before previous skip with
  | nil => cases found
  | cons c rest ih =>
      have step : byteLength before + c.utf8Size = byteLength (before ++ [c]) := by
        rw [byteLength_append]
        rfl
      have later : ∀ {skip}, groups ∈ pattern.matchesFrom (byteLength before + c.utf8Size)
          (some c) skip rest → slice? (before ++ c :: rest) span.start span.stop = some span.text := by
        intro skip inRest
        rw [step] at inRest
        have behind := ih inRest
        rwa [List.append_assoc, List.singleton_append] at behind
      cases skip with
      | succ skip => exact later found
      | zero =>
          rw [matchesFrom] at found
          cases here : pattern.matchAt previous (c :: rest) with
          | none =>
              simp only [here] at found
              exact later found
          | some m =>
              simp only [here, List.mem_cons] at found
              rcases found with rfl | inRest
              · exact (begins_of_matchAt here).slice?_span before member
              · exact later inRest

/-- Every span of every match is a slice of the text. -/
theorem slice?_of_mem_allMatches {pattern : Pattern} {t : Text} {groups : List (Option Span)}
    {span : Span} (found : groups ∈ pattern.allMatches t) (member : some span ∈ groups) :
    slice? t span.start span.stop = some span.text := by
  have start : groups ∈ pattern.matchesFrom (byteLength []) none 0 t := found
  exact slice?_of_mem_matchesFrom start member

/-! ## The first match -/

def firstMatch? (pattern : Pattern) (line : Text) : Option (List (Option Span)) :=
  (pattern.allMatches line).head?

theorem matchesFrom_of_anchored {pattern : Pattern}
    (anchored : ∀ c t, pattern.matchAt (some c) t = none) (offset : Nat) (c : Char) (skip : Nat)
    (t : Text) : pattern.matchesFrom offset (some c) skip t = [] := by
  induction t generalizing offset c skip with
  | nil => rfl
  | cons d rest ih =>
      cases skip with
      | succ skip => exact ih ..
      | zero =>
          rw [matchesFrom, anchored]
          exact ih ..

/-- A pattern that matches only at the start has no match but the one there. -/
theorem firstMatch?_of_anchored {α : Type} {pattern : Pattern} {parse? : Text → Option α}
    {toMatch : α → Match}
    (anchored : ∀ previous t,
      pattern.matchAt previous t = matchAt.atStart previous ((parse? t).map toMatch))
    (empty : parse? [] = none) (line : Text) :
    pattern.firstMatch? line = (parse? line).map fun r => (toMatch r).spans 0 := by
  cases line with
  | nil =>
      rw [empty]
      rfl
  | cons c rest =>
      have start : pattern.matchAt none (c :: rest) = (parse? (c :: rest)).map toMatch :=
        anchored none (c :: rest)
      unfold firstMatch? allMatches
      rw [matchesFrom, start]
      cases parse? (c :: rest) with
      | none =>
          have noMore : pattern.matchesFrom (0 + c.utf8Size) (some c) 0 rest = [] :=
            matchesFrom_of_anchored (fun d t => anchored (some d) t) _ _ _ _
          simp only [noMore, Option.map_none, List.head?_nil]
      | some r => rfl

theorem firstMatch?_printCall (line : Text) :
    printCall.firstMatch? line = (PrintCall.Occurrence.find? line).map fun o =>
      (Match.ofPrintCall o).spans (byteLength o.before) := by
  have first := PrintCall.Occurrence.head?_matchesFrom 0 none line
  simp only [Nat.zero_add] at first
  exact first

end Pattern

/-! ## Cutting a line at its places -/

/-- The place of a part, if the match has it. The whole match is part zero. -/
def span? (groups : List (Option Span)) (i : Nat) : Option Span :=
  groups[i]?.join

/-- The text of a part, cut out of the line. -/
def part? (line : Text) (groups : List (Option Span)) (i : Nat) : Option Text :=
  (span? groups i).bind fun span => slice? line span.start span.stop

/-- What stands in front of a place. -/
def front? (line : Text) (span : Span) : Option Text :=
  slice? line 0 span.start

/-- What stands behind a place. -/
def behind? (line : Text) (span : Span) : Option Text :=
  slice? line span.stop (byteLength line)

theorem front?_append (front text back : Text) :
    front? (front ++ (text ++ back)) (Match.spanAt (byteLength front) text) = some front :=
  slice?_eq_some_iff.2 ⟨[], text ++ back, rfl, rfl, Nat.zero_add _⟩

theorem behind?_append (front text back : Text) :
    behind? (front ++ (text ++ back)) (Match.spanAt (byteLength front) text) = some back := by
  refine slice?_eq_some_iff.2 ⟨front ++ text, [], ?_, byteLength_append .., ?_⟩
  · simp
  · rw [← byteLength_append, List.append_assoc]

/-- A match at the start of the line leaves what stands behind it. -/
theorem behind?_start {line text back : Text} (cut : line = text ++ back) :
    behind? line (Match.spanAt 0 text) = some back := by
  rw [cut]
  exact behind?_append [] text back

theorem Match.Begins.part?_eq {m : Match} {t : Text} (h : m.Begins t) (before : Text) {i : Nat}
    {part : Capture} (found : m.captures[i]? = some (some part)) :
    part? (before ++ t) (m.spans (byteLength before)) (i + 1) = some part.text := by
  have place : (m.spans (byteLength before))[i + 1]? =
      some (some (spanAt (byteLength before + byteLength part.lead) part.text)) := by
    rw [spans, List.getElem?_cons_succ, List.getElem?_map, found]
    rfl
  have cut := h.slice?_span before (List.mem_of_getElem? place)
  rw [part?, span?, place]
  exact cut

/-! ## Rules that cut at places -/

/-- A way to rewrite a line that knows nothing but the places of the first match of a
pattern. -/
structure Rewriter where
  pattern : Pattern
  write? : Text → List (Option Span) → Option Text

namespace Rewriter

/-- The line rewritten, or left as it is where the pattern has no match; `none` where a
part is missing or the line cannot be cut. -/
def run? (w : Rewriter) (line : Text) : Option Text :=
  match w.pattern.firstMatch? line with
  | none => some line
  | some groups => w.write? line groups

def functionSignature : Rewriter where
  pattern := .functionSignature
  write? line groups := do
    let name ← part? line groups 2
    let params ← part? line groups 3
    let rest ← behind? line (← span? groups 0)
    some ("function ".toList ++ name ++ '(' :: reduceParameters params ++ ')' :: rest)

def initDeclaration : Rewriter where
  pattern := .initDeclaration
  write? line groups := do
    let binding ← part? line groups 1
    some (bindingKeyword ++ ' ' :: binding)

def plainDeclaration : Rewriter where
  pattern := .plainDeclaration
  write? line groups := do
    let name ← part? line groups 1
    let rest ← behind? line (← span? groups 0)
    some (bindingKeyword ++ ' ' :: name ++ ';' :: rest)

def printCall : Rewriter where
  pattern := .printCall
  write? line groups := do
    let format ← part? line groups 1
    -- the list of arguments is the one part that a match may lack
    let args ← match span? groups 2 with
      | none => some []
      | some _ => (part? line groups 2).map Arguments.split
    some (PrintCall.consoleLog { format, args })

def loopHeader : Rewriter where
  pattern := .loopHeader
  write? line groups := do
    let keyword ← span? groups 1
    let opening ← front? line keyword
    let rest ← behind? line keyword
    some (opening ++ bindingKeyword ++ rest)

/-- The rules that look into the line. -/
def ofKind? : LineKind → Option Rewriter
  | .functionSignature => some functionSignature
  | .initDeclaration => some initDeclaration
  | .plainDeclaration => some plainDeclaration
  | .printCall => some printCall
  | .loopHeader => some loopHeader
  | _ => none

/-- A rewriter that writes from the places of a record what is written from the record
itself does so on every line. -/
theorem run?_eq_replacing {α : Type} {w : Rewriter} {parse? : Text → Option α}
    {places : α → List (Option Span)} {render : α → Text}
    (first : ∀ line, w.pattern.firstMatch? line = (parse? line).map places)
    (writes : ∀ line r, parse? line = some r → w.write? line (places r) = some (render r))
    (line : Text) : w.run? line = some (Rule.replacing parse? render line).text := by
  rw [run?, first, Rule.replacing]
  cases read : parse? line with
  | none => rfl
  | some r => exact writes line r read

theorem functionSignature_run? (line : Text) :
    functionSignature.run? line = some (Rule.functionSignature.render line).text := by
  refine run?_eq_replacing (Pattern.firstMatch?_of_anchored (fun _ _ => rfl) rfl) ?_ line
  intro line s read
  have begins := Match.begins_ofSignature read
  have name : part? line ((Match.ofSignature s).spans 0) 2 = some s.name :=
    begins.part?_eq [] (i := 1) rfl
  have params : part? line ((Match.ofSignature s).spans 0) 3 = some s.params :=
    begins.part?_eq [] (i := 2) rfl
  have rest : behind? line (Match.spanAt 0 s.head) = some s.rest := by
    apply behind?_start
    rw [(Signature.parse?_eq_some_iff.1 read).1]
    simp [Signature.head, Signature.spelling]
  have start : span? ((Match.ofSignature s).spans 0) 0 = some (Match.spanAt 0 s.head) := rfl
  simp only [functionSignature, name, params, start, rest, Option.bind_eq_bind, Option.bind_some]
  rfl

theorem initDeclaration_run? (line : Text) :
    initDeclaration.run? line = some (Rule.initDeclaration.render line).text := by
  refine run?_eq_replacing (Pattern.firstMatch?_of_anchored (fun _ _ => rfl) rfl) ?_ line
  intro line d read
  have binding : part? line ((Match.ofInitDeclaration d).spans 0) 1 = some d.binding :=
    (Match.begins_ofInitDeclaration read).part?_eq [] (i := 0) rfl
  simp only [initDeclaration, binding, Option.bind_eq_bind, Option.bind_some]
  rfl

theorem plainDeclaration_run? (line : Text) :
    plainDeclaration.run? line = some (Rule.plainDeclaration.render line).text := by
  refine run?_eq_replacing (Pattern.firstMatch?_of_anchored (fun _ _ => rfl) rfl) ?_ line
  intro line d read
  have name : part? line ((Match.ofPlainDeclaration d).spans 0) 1 = some d.name :=
    (Match.begins_ofPlainDeclaration read).part?_eq [] (i := 0) rfl
  have rest : behind? line (Match.spanAt 0 (Match.ofPlainDeclaration d).whole) = some d.rest := by
    apply behind?_start
    rw [(PlainDeclaration.parse?_eq_some_iff.1 read).1]
    simp [Match.ofPlainDeclaration, PlainDeclaration.spelling]
  have start : span? ((Match.ofPlainDeclaration d).spans 0) 0 =
      some (Match.spanAt 0 (Match.ofPlainDeclaration d).whole) := rfl
  simp only [plainDeclaration, name, start, rest, Option.bind_eq_bind, Option.bind_some]
  rfl

theorem loopHeader_run? (line : Text) :
    loopHeader.run? line = some (Rule.loopHeader.render line).text := by
  refine run?_eq_replacing (Pattern.firstMatch?_of_anchored (fun _ _ => rfl) rfl) ?_ line
  intro line h read
  let place := Match.spanAt (byteLength h.opening) h.type.spelling
  have keyword : span? ((Match.ofLoopHeader h).spans 0) 1 = some place := by
    simp [span?, Match.spans, Match.ofLoopHeader, place]
  have whole : line = h.opening ++ (h.type.spelling ++ (h.gap ++ h.rest)) := by
    rw [(LoopHeader.parse?_eq_some_iff.1 read).1]
    simp [LoopHeader.opening, LoopHeader.spelling]
  have opening : front? line place = some h.opening := by
    rw [whole]
    exact front?_append h.opening h.type.spelling _
  have rest : behind? line place = some (h.gap ++ h.rest) := by
    rw [whole]
    exact behind?_append h.opening h.type.spelling _
  simp only [loopHeader, keyword, opening, rest, Option.bind_eq_bind, Option.bind_some]
  simp only [LoopHeader.render, List.append_assoc]

/-- The call that is found is written from the places of its format and arguments. -/
theorem printCall_write? {line : Text} {o : PrintCall.Occurrence}
    (found : PrintCall.Occurrence.find? line = some o) :
    printCall.write? line ((Match.ofPrintCall o).spans (byteLength o.before)) =
      some o.toCall.consoleLog := by
  have cut := (PrintCall.Occurrence.isFirstIn_of_find? found).cut
  have begins := Match.begins_ofPrintCall o
  have format : part? line ((Match.ofPrintCall o).spans (byteLength o.before)) 1 =
      some o.format := by
    rw [cut]
    exact begins.part?_eq o.before (i := 0) rfl
  simp only [printCall, format, Option.bind_eq_bind, Option.bind_some]
  cases arguments : o.arguments with
  | none =>
      have missing : span? ((Match.ofPrintCall o).spans (byteLength o.before)) 2 = none := by
        simp [span?, Match.spans, Match.ofPrintCall, arguments]
      simp only [missing, PrintCall.Occurrence.toCall, arguments]
  | some a =>
      let lead := o.opening ++ o.format ++ o.middle
      have captured : (Match.ofPrintCall o).captures[1]? = some (some ⟨lead, a.text⟩) := by
        simp [Match.ofPrintCall, arguments, lead]
      have present : span? ((Match.ofPrintCall o).spans (byteLength o.before)) 2 =
          some (Match.spanAt (byteLength o.before + byteLength lead) a.text) := by
        simp [span?, Match.spans, Match.ofPrintCall, arguments, lead]
      have text : part? line ((Match.ofPrintCall o).spans (byteLength o.before)) 2 =
          some a.text := by
        rw [cut]
        exact begins.part?_eq o.before captured
      simp only [present, text, Option.map_some, Option.bind_some, PrintCall.Occurrence.toCall,
        arguments]

theorem printCall_run? (line : Text) :
    printCall.run? line = some (Rule.printCall.render line).text := by
  have first : printCall.pattern.firstMatch? line = _ := Pattern.firstMatch?_printCall line
  rw [run?, first]
  cases found : PrintCall.Occurrence.find? line with
  | none => simp [Rule.printCall, PrintCall.parse?, found]
  | some o => simpa [Rule.printCall, PrintCall.parse?, found] using printCall_write? found

/-- Every rule that looks into the line can be run from the places of the first match. -/
theorem run?_eq {kind : LineKind} {w : Rewriter} (looks : ofKind? kind = some w) (line : Text) :
    w.run? line = some ((Rule.ofKind kind).render line).text := by
  cases kind with
  | functionSignature =>
      cases looks
      exact functionSignature_run? line
  | initDeclaration =>
      cases looks
      exact initDeclaration_run? line
  | plainDeclaration =>
      cases looks
      exact plainDeclaration_run? line
  | printCall =>
      cases looks
      exact printCall_run? line
  | loopHeader =>
      cases looks
      exact loopHeader_run? line
  | entryPoint | blockOpen | blockClose | statement | passthrough => cases looks

end Rewriter

/-- Whether a line is a signature, from the places of its first two words. -/
def Signature.acceptsAt? (line : Text) : Option Bool :=
  if endsWith line [';'] then some false
  else match Pattern.functionSignature.firstMatch? line with
    | none => some false
    | some groups => do
      let type ← part? line groups 1
      let name ← part? line groups 2
      some (!isControlKeyword type && !isControlKeyword name)

theorem Signature.acceptsAt?_eq (line : Text) : acceptsAt? line = some (accepts line) := by
  have first : Pattern.functionSignature.firstMatch? line =
      (parse? line).map fun s => (Match.ofSignature s).spans 0 :=
    Pattern.firstMatch?_of_anchored (fun _ _ => rfl) rfl line
  unfold acceptsAt? accepts
  rw [first]
  cases ends : endsWith line [';'] with
  | true => rfl
  | false =>
      cases read : parse? line with
      | none => rfl
      | some s =>
          have begins := Match.begins_ofSignature read
          have type : part? line ((Match.ofSignature s).spans 0) 1 = some s.type :=
            begins.part?_eq [] (i := 0) rfl
          have name : part? line ((Match.ofSignature s).spans 0) 2 = some s.name :=
            begins.part?_eq [] (i := 1) rfl
          simp [type, name]

end Linewise
