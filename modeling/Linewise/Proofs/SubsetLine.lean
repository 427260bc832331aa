/-
# Linewise.Proofs.SubsetLine -- the lines of the subset and their renderings

The subset that a translation is meant for, line by line: declarations, print
statements, lines that are kept as they are, and the lines in front of a block.
Each is a type whose values are well formed by construction, with the line it is
written as (`source`) and the line it becomes (`target`).

For each of them the rules in front of its own have to refuse the line, and its
own rule has to read back the parts it was written from. Print statements and
signatures are such calls and headings as `Linewise.Proofs.PrintReading` and
`Linewise.Proofs.SignatureRest` read:

    Leaf.ofLine_source        declarations, print statements, kept lines
    Head.ofLine_source        entry points, signatures, loop headers, braces
-/
import Linewise.Proofs.Placeholders
import Linewise.Proofs.PrintReading
import Linewise.Proofs.SignatureRest

namespace Linewise

open Text

set_option autoImplicit false

/-! ## Which rule decides -/

namespace Rule

/-- A line that ends in a semicolon is none of the lines in front of a declaration. -/
theorem rejected_of_semicolon (t : Text) :
    ∀ r ∈ [entryPoint, functionSignature, blockOpen], r.accepts (t ++ [';']) = false := by
  have brace : t ++ [';'] ≠ ['{'] := by
    intro eq
    have := congrArg List.getLast? eq
    simp at this
  simp [entryPoint, functionSignature, blockOpen, EntryPoint.accepts, Signature.accepts,
    endsWith_concat, brace]

end Rule

namespace Subset

/-! ## Words and lines -/

structure Word where
  text : Text
  isName : IsName text

theorem Word.not_mem (w : Word) {c : Char} (h : isWord c = false) : c ∉ w.text := by
  intro member
  rw [w.isName.2 c member] at h
  cases h

/-- A line as it is written, without indentation, that is not skipped. -/
structure IsLine (t : Text) : Prop where
  nonempty : t ≠ []
  trimmed : trim t = t
  oneLine : '\n' ∉ t
  notInclude : startsWith t "#include".toList = false

/-- A character that cannot be the first of a line of code. -/
def skipped (c : Char) : Bool :=
  isBlank c || c == '#'

theorem isLine_concat {t : Text} {last : Char} (first : Stops skipped (t ++ [last]))
    (blank : isBlank last = false) (oneLine : '\n' ∉ t) : IsLine (t ++ [last]) := by
  cases split : t ++ [last] with
  | nil => simp at split
  | cons c rest =>
      rw [split, stops_cons, skipped, Bool.or_eq_false_iff] at first
      have reversed : (c :: rest).reverse = last :: t.reverse := by simp [← split]
      have notBreak : '\n' ≠ last := by
        rintro rfl
        exact absurd blank (by decide)
      refine ⟨by simp, trim_eq_self (stops_cons.2 first.1) ?_, ?_, ?_⟩
      · rw [reversed]
        exact stops_cons.2 blank
      · rw [← split, List.mem_append, List.mem_singleton, not_or]
        exact ⟨oneLine, notBreak⟩
      · have hash : ¬ '#' = c := fun eq => by simp [← eq] at first
        simp [startsWith, List.isPrefixOf, hash]

theorem Word.stops_skipped (w : Word) (t : Text) : Stops skipped (w.text ++ t) := by
  refine w.isName.stops fun c word => ?_
  have hash : c ≠ '#' := by
    rintro rfl
    exact absurd word (by decide)
  simp [skipped, isBlank_eq_false_of_isWord word, hash]

theorem oneLine_list {pieces : List Text} (h : ∀ piece ∈ pieces, '\n' ∉ piece) :
    '\n' ∉ join ", ".toList pieces := by
  intro member
  rcases mem_of_mem_join member with inSeparator | ⟨piece, inPieces, inPiece⟩
  · exact absurd inSeparator (by decide)
  · exact h piece inPieces inPiece

/-! ## Declarations -/

theorem not_mem_spelling (type : ScalarType) {c : Char} (h : isWord c = false) :
    c ∉ type.spelling := by
  have word : ∀ d ∈ type.spelling, isWord d = true :=
    List.all_eq_true.1 (by cases type <;> decide)
  intro member
  rw [word c member] at h
  cases h

theorem stops_skipped_spelling (type : ScalarType) (t : Text) :
    Stops skipped (type.spelling ++ t) := by
  cases type <;> exact stops_cons.2 (by decide)

/-- A line that does not start as a scalar type does is no declaration. -/
theorem not_declaration {line : Text}
    (h : ∀ type : ScalarType, line.take 2 ≠ type.spelling.take 2) :
    ∀ r ∈ [Rule.initDeclaration, Rule.plainDeclaration], r.accepts line = false := by
  have noType : ∀ (type : ScalarType) (t : Text), line ≠ type.spelling ++ t := by
    rintro type t rfl
    refine h type (List.take_append_of_le_length ?_)
    cases type <;> decide
  have init : InitDeclaration.parse? line = none :=
    Option.eq_none_iff_forall_ne_some.2 fun d read =>
      noType d.type _ ((InitDeclaration.parse?_eq_some_iff.1 read).1.trans (List.append_assoc ..))
  have plain : PlainDeclaration.parse? line = none :=
    Option.eq_none_iff_forall_ne_some.2 fun d read =>
      noType d.type _ ((PlainDeclaration.parse?_eq_some_iff.1 read).1.trans (List.append_assoc ..))
  simp [Rule.initDeclaration, Rule.plainDeclaration, init, plain]

/-- A declaration with a value, which is any text on the line. -/
structure Initialisation where
  type : ScalarType
  name : Word
  value : Text
  oneLine : '\n' ∉ value

namespace Initialisation

def source (d : Initialisation) : Text :=
  d.type.spelling ++ ' ' :: d.name.text ++ " = ".toList ++ d.value ++ [';']

def target (d : Initialisation) : Text :=
  "let ".toList ++ d.name.text ++ " = ".toList ++ d.value ++ [';']

/-- What is read from the line. -/
def parsed (d : Initialisation) : InitDeclaration where
  type := d.type
  gap := [' ']
  name := d.name.text
  space := [' ']
  value := ' ' :: d.value ++ [';']
  rest := []

theorem parse?_source (d : Initialisation) : InitDeclaration.parse? d.source = some d.parsed := by
  refine InitDeclaration.parse?_eq_some_iff.2 ⟨?_, ?_⟩
  · unfold source
    simp [InitDeclaration.spelling, parsed]
  · refine ⟨⟨by simp [parsed], blanks_space⟩, d.name.isName, blanks_space, ?_, stops_nil _⟩
    simpa [parsed] using d.oneLine

theorem render_parsed (d : Initialisation) : d.parsed.render = d.target := by
  unfold target InitDeclaration.render bindingKeyword
  simp [InitDeclaration.binding, parsed]

theorem ofLine_source (d : Initialisation) :
    Rendering.ofLine d.source = { text := d.target, change := .keep } := by
  have selected : Rule.select Rule.all d.source = Rule.initDeclaration :=
    Rule.select_eq _ rfl (Rule.rejected_of_semicolon _)
      (by simp [Rule.initDeclaration, d.parse?_source])
  rw [Rendering.ofLine, selected]
  simp [Rule.initDeclaration, Rule.replacing, d.parse?_source, d.render_parsed]

theorem isLine_source (d : Initialisation) : IsLine d.source := by
  refine isLine_concat ?_ (by decide) ?_
  · simp only [List.append_assoc]
    exact stops_skipped_spelling d.type _
  · have noBreak := not_mem_spelling d.type (c := '\n') (by decide)
    have inName := d.name.not_mem (c := '\n') (by decide)
    simp [noBreak, inName, d.oneLine]

end Initialisation

/-- A declaration of a name alone. -/
structure Declaration where
  type : ScalarType
  name : Word

namespace Declaration

def source (d : Declaration) : Text :=
  d.type.spelling ++ ' ' :: d.name.text ++ [';']

def target (d : Declaration) : Text :=
  "let ".toList ++ d.name.text ++ [';']

theorem parse?_source (d : Declaration) :
    PlainDeclaration.parse? d.source =
      some { type := d.type, gap := [' '], name := d.name.text, rest := [] } := by
  refine PlainDeclaration.parse?_eq_some_iff.2 ⟨?_, ⟨by simp, blanks_space⟩, d.name.isName⟩
  simp [source, PlainDeclaration.spelling]

/-- There is no equals sign, so that no value is read. -/
theorem not_initDeclaration (d : Declaration) : Rule.initDeclaration.accepts d.source = false := by
  have absent : '=' ∉ d.source := by
    have inType := not_mem_spelling d.type (c := '=') (by decide)
    have inName := d.name.not_mem (c := '=') (by decide)
    simp [source, inType, inName]
  have unread : InitDeclaration.parse? d.source = none := by
    refine Option.eq_none_iff_forall_ne_some.2 fun found read => absent ?_
    rw [(InitDeclaration.parse?_eq_some_iff.1 read).1]
    simp [InitDeclaration.spelling]
  simp [Rule.initDeclaration, unread]

theorem ofLine_source (d : Declaration) :
    Rendering.ofLine d.source = { text := d.target, change := .keep } := by
  have rejected : ∀ r ∈ [Rule.entryPoint, Rule.functionSignature, Rule.blockOpen,
      Rule.initDeclaration], r.accepts d.source = false :=
    List.forall_mem_append.2 ⟨Rule.rejected_of_semicolon _,
      List.forall_mem_singleton.2 d.not_initDeclaration⟩
  have selected : Rule.select Rule.all d.source = Rule.plainDeclaration :=
    Rule.select_eq _ rfl rejected (by simp [Rule.plainDeclaration, d.parse?_source])
  have rendered : PlainDeclaration.render ⟨d.type, [' '], d.name.text, []⟩ = d.target := by
    unfold PlainDeclaration.render target bindingKeyword
    simp
  rw [Rendering.ofLine, selected]
  simp [Rule.plainDeclaration, Rule.replacing, d.parse?_source, rendered]

theorem isLine_source (d : Declaration) : IsLine d.source := by
  refine isLine_concat ?_ (by decide) ?_
  · simp only [List.append_assoc]
    exact stops_skipped_spelling d.type _
  · have noBreak := not_mem_spelling d.type (c := '\n') (by decide)
    have inName := d.name.not_mem (c := '\n') (by decide)
    simp [noBreak, inName]

end Declaration

/-! ## Print statements -/

/-- A print statement: a format without quotes, and its arguments. -/
structure PrintStatement where
  format : Text
  args : List Arguments.Argument
  noQuote : '"' ∉ format
  oneLine : '\n' ∉ format

namespace PrintStatement

open Arguments

def source (p : PrintStatement) : Text :=
  "printf(".toList ++
    join ", ".toList (('"' :: p.format ++ ['"']) :: p.args.map Argument.text) ++ [')'] ++ [';']

def target (p : PrintStatement) : Text :=
  "console.log(\x60".toList ++ PrintCall.weave (p.args.map Argument.text)
    ((PrintCall.cut (PrintCall.withoutNewline p.format)).map PrintCall.escape) ++ "\x60);".toList

/-- The warning for a format that has more gaps between its pieces than there are
arguments. -/
def shortage (p : PrintStatement) : Option Shortage :=
  let placeholders := (PrintCall.cut p.format).length - 1
  if p.args.length < placeholders then
    some { format := p.format, placeholders, arguments := p.args.length }
  else none

def call (p : PrintStatement) : PrintCall where
  format := p.format
  args := p.args.map Argument.text

/-- The statement with the blanks that it is written with. -/
def written (p : PrintStatement) : PrintCall.Written where
  format := p.format
  gap := .none
  args := p.args.map fun a => ⟨.space, a, .none⟩
  noQuote := p.noQuote
  oneLine := p.oneLine

theorem source_eq_line (p : PrintStatement) : p.source = p.written.line := by
  have spaced : p.written.args.map Spaced.text = (p.args.map Argument.text).map (' ' :: ·) := by
    simp [written, Spaced.text, Margin.space, Margin.none, Function.comp_def]
  unfold source PrintCall.Written.line
  rw [join_comma_blank, spaced, List.append_assoc, List.append_assoc]
  rfl

theorem parse?_source (p : PrintStatement) : PrintCall.parse? p.source = some p.call := by
  have args : p.written.args.map (·.argument.text) = p.args.map Argument.text := by
    simp [written, Function.comp_def]
  rw [source_eq_line, p.written.parse?_line, args]
  rfl

theorem oneLine_args (args : List Argument) : ∀ piece ∈ args.map Argument.text, '\n' ∉ piece := by
  intro piece member
  obtain ⟨a, -, rfl⟩ := List.mem_map.1 member
  exact a.oneLine

theorem consoleLog_call (p : PrintStatement) : p.call.consoleLog = p.target := by
  unfold target PrintCall.consoleLog
  rw [PrintCall.interpolate_eq_weave]
  rfl

theorem shortage?_call (p : PrintStatement) : p.call.shortage? = p.shortage := by
  have count : p.call.placeholders = (PrintCall.cut p.format).length - 1 := by
    have := PrintCall.countPlaceholders_add_one p.format
    simp only [PrintCall.placeholders, call]
    omega
  have length : p.call.args.length = p.args.length := List.length_map ..
  unfold PrintCall.shortage? shortage
  rw [count, length]
  rfl

theorem ofLine_source (p : PrintStatement) :
    Rendering.ofLine p.source =
      { text := p.target, change := .keep, shortage := p.shortage } := by
  have print : LineKind.ofLine p.source = .printCall := by
    rw [source_eq_line, p.written.ofLine_line]
  obtain ⟨call, read, rendering⟩ := Rendering.of_printCall print
  obtain rfl : p.call = call := Option.some.inj (p.parse?_source.symm.trans read)
  rw [rendering, p.consoleLog_call, p.shortage?_call]

theorem isLine_source (p : PrintStatement) : IsLine p.source := by
  refine isLine_concat (stops_cons.2 (by decide)) (by decide) ?_
  have inList := oneLine_list (List.forall_mem_cons.2 ⟨by simpa using p.oneLine, oneLine_args p.args⟩ :
    ∀ piece ∈ ('"' :: p.format ++ ['"']) :: p.args.map Argument.text, '\n' ∉ piece)
  rw [List.mem_append, List.mem_append, not_or, not_or]
  exact ⟨⟨by decide, inList⟩, by decide⟩

end PrintStatement

/-! ## Kept lines -/

/-- A line that is kept as it is. -/
structure RawLine where
  text : Text
  isLine : IsLine text
  kind : LineKind.ofLine text = .statement ∨ LineKind.ofLine text = .passthrough

theorem render_of_kept {rule : Rule} (member : rule ∈ Rule.all)
    (kept : rule.kind = .statement ∨ rule.kind = .passthrough) (line : Text) :
    rule.render line = { text := line, change := .keep } := by
  simp only [Rule.all, List.mem_cons, List.not_mem_nil, or_false] at member
  rcases member with rfl | rfl | rfl | rfl | rfl | rfl | rfl | rfl | rfl | rfl
  all_goals rcases kept with kind | kind <;> cases kind
  · rfl
  · rfl

theorem RawLine.ofLine_text (line : RawLine) :
    Rendering.ofLine line.text = { text := line.text, change := .keep } :=
  render_of_kept (Rule.select_mem line.text) line.kind line.text

/-! ## Statements -/

/-- A statement on a line of its own. -/
inductive Leaf where
  | initialise (d : Initialisation)
  | declare (d : Declaration)
  | print (p : PrintStatement)
  | raw (line : RawLine)

namespace Leaf

def source : Leaf → Text
  | initialise d => d.source
  | declare d => d.source
  | print p => p.source
  | raw line => line.text

def target : Leaf → Text
  | initialise d => d.target
  | declare d => d.target
  | print p => p.target
  | raw line => line.text

def shortage : Leaf → Option Shortage
  | print p => p.shortage
  | _ => none

/-- What a statement becomes. -/
theorem ofLine_source (leaf : Leaf) :
    Rendering.ofLine leaf.source =
      { text := leaf.target, change := .keep, shortage := leaf.shortage } := by
  cases leaf with
  | initialise d => exact d.ofLine_source
  | declare d => exact d.ofLine_source
  | print p => exact p.ofLine_source
  | raw line => exact line.ofLine_text

theorem isLine_source (leaf : Leaf) : IsLine leaf.source := by
  cases leaf with
  | initialise d => exact d.isLine_source
  | declare d => exact d.isLine_source
  | print p => exact p.isLine_source
  | raw line => exact line.isLine

end Leaf

/-! ## Entry points -/

/-- The line of the entry point, with or without `void` between its parentheses. -/
structure EntryLine where
  type : Word
  void : Bool

namespace EntryLine

def source (e : EntryLine) : Text :=
  e.type.text ++ " main(".toList ++ (if e.void then "void".toList else []) ++ ") ".toList ++ ['{']

theorem accepts_source (e : EntryLine) : EntryPoint.accepts e.source = true := by
  obtain ⟨type, void⟩ := e
  have typed : EntryPoint.afterType? (source ⟨type, void⟩) =
      some ("main(".toList ++ (if void then "void".toList else []) ++ ") \x7b".toList) := by
    refine EntryPoint.afterType?_eq_some_iff.2
      ⟨type.text, [' '], ?_, type.isName, ⟨by simp, blanks_space⟩, stops_cons.2 (by decide)⟩
    unfold source
    simp
  have main : EntryPoint.afterMain?
      ("main(".toList ++ (if void then "void".toList else []) ++ ") \x7b".toList) =
        some " \x7b".toList := by
    cases void <;> decide
  have found : (EntryPoint.rest? (source ⟨type, void⟩)).isSome = true :=
    EntryPoint.rest?_isSome_iff.2 (.inl ⟨_, typed, by rw [main]; rfl⟩)
  have noSemicolon : endsWith (source ⟨type, void⟩) [';'] = false := endsWith_concat _ '{' ';'
  simp [EntryPoint.accepts, found, noSemicolon]

def target : Text := "function main() \x7b".toList

theorem ofLine_source (e : EntryLine) :
    Rendering.ofLine e.source = { text := target, change := .opens } := by
  have selected : Rule.select Rule.all e.source = Rule.entryPoint :=
    Rule.select_eq [] rfl (by simp) e.accepts_source
  rw [Rendering.ofLine, selected]
  rfl

theorem isLine_source (e : EntryLine) : IsLine e.source := by
  refine isLine_concat ?_ (by decide) ?_
  · simp only [List.append_assoc]
    exact e.type.stops_skipped _
  · have inType := e.type.not_mem (c := '\n') (by decide)
    cases e.void <;> simp [inType]

end EntryLine

/-! ## Loop headers -/

/-- A loop header that declares its counter. It makes no print call, and its last
character is neither blank nor a semicolon. -/
structure LoopLine where
  type : ScalarType
  rest : Text
  oneLine : '\n' ∉ rest
  ends : ∃ front last, rest = front ++ [last] ∧ isBlank last = false ∧ last ≠ ';'
  noPrint : PrintCall.parse? ("for (".toList ++ type.spelling ++ ' ' :: rest) = none

namespace LoopLine

def source (h : LoopLine) : Text :=
  "for (".toList ++ h.type.spelling ++ ' ' :: h.rest

def target (h : LoopLine) : Text :=
  "for (let ".toList ++ h.rest

theorem source_eq_concat (h : LoopLine) :
    ∃ front last, h.source = front ++ [last] ∧ isBlank last = false ∧ last ≠ ';' := by
  obtain ⟨front, last, eq, blank, notSemicolon⟩ := h.ends
  refine ⟨"for (".toList ++ h.type.spelling ++ ' ' :: front, last, ?_, blank, notSemicolon⟩
  unfold source
  rw [eq]
  simp

theorem parse?_source (h : LoopLine) :
    LoopHeader.parse? h.source =
      some { space := [' '], inner := [], type := h.type, gap := ' ' :: h.rest.takeWhile isBlank
             rest := trimStart h.rest } := by
  refine LoopHeader.parse?_eq_some_iff.2 ⟨?_, blanks_space, blanks_nil, ⟨by simp, ?_⟩, stops_trimStart _⟩
  · unfold source LoopHeader.spelling
    simp [takeWhile_append_trimStart]
  · exact blanks_append.2 ⟨blanks_space, blanks_takeWhile h.rest⟩

/-- The rules in front of the one for loop headers refuse the line. -/
theorem rejected (h : LoopLine) :
    ∀ r ∈ [Rule.entryPoint, Rule.functionSignature, Rule.blockOpen, Rule.initDeclaration,
      Rule.plainDeclaration, Rule.printCall, Rule.blockClose, Rule.statement],
      r.accepts h.source = false := by
  obtain ⟨front, last, eq, -, notSemicolon⟩ := h.source_eq_concat
  have noSemicolon : endsWith h.source [';'] = false := by
    rw [eq, endsWith_concat]
    simpa using notSemicolon.symm
  have start : h.source.take 2 = "fo".toList := rfl
  have noType : ∀ type : ScalarType, h.source.take 2 ≠ type.spelling.take 2 := by
    intro type
    rw [start]
    cases type <;> decide
  have noBrace : ∀ c, h.source ≠ [c] := by
    intro c same
    rw [same] at start
    cases start
  have entry : EntryPoint.rest? h.source = none := rfl
  have signature : Signature.parse? h.source = none := rfl
  have noPrint : PrintCall.parse? h.source = none := h.noPrint
  have first : ∀ r ∈ [Rule.entryPoint, Rule.functionSignature, Rule.blockOpen],
      r.accepts h.source = false := by
    simp [Rule.entryPoint, EntryPoint.accepts, entry, Rule.functionSignature, Signature.accepts,
      signature, Rule.blockOpen, noBrace]
  have last : ∀ r ∈ [Rule.printCall, Rule.blockClose, Rule.statement],
      r.accepts h.source = false := by
    simp [Rule.printCall, noPrint, Rule.blockClose, noBrace, Rule.statement, noSemicolon]
  exact List.forall_mem_append.2 ⟨first, List.forall_mem_append.2 ⟨not_declaration noType, last⟩⟩

theorem ofLine_source (h : LoopLine) :
    Rendering.ofLine h.source = { text := h.target, change := .keep } := by
  have selected : Rule.select Rule.all h.source = Rule.loopHeader :=
    Rule.select_eq _ rfl h.rejected (by simp [Rule.loopHeader, h.parse?_source])
  have rendered : LoopHeader.render ⟨[' '], [], h.type, ' ' :: h.rest.takeWhile isBlank,
      trimStart h.rest⟩ = h.target := by
    unfold LoopHeader.render LoopHeader.opening target bindingKeyword
    simp [takeWhile_append_trimStart]
  rw [Rendering.ofLine, selected]
  simp [Rule.loopHeader, Rule.replacing, h.parse?_source, rendered]

theorem isLine_source (h : LoopLine) : IsLine h.source := by
  obtain ⟨front, last, eq, blank, -⟩ := h.source_eq_concat
  have first : Stops skipped h.source := stops_cons.2 (by decide)
  have oneLine : '\n' ∉ h.source := by
    have inType := not_mem_spelling h.type (c := '\n') (by decide)
    unfold source
    simp [inType, h.oneLine]
  rw [eq] at first oneLine ⊢
  exact isLine_concat first blank fun member => oneLine (List.mem_append_left _ member)

end LoopLine

/-! ## Signatures -/

def Word.token (w : Word) : Signature.Token where
  text := w.text
  nonempty := w.isName.1
  solid := fun c member => isBlank_eq_false_of_isWord (w.isName.2 c member)
  noComma := w.not_mem (by decide)
  noClose := w.not_mem (by decide)

/-- A parameter: its type and its name. -/
structure Parameter where
  type : Word
  name : Word

namespace Parameter

def source (p : Parameter) : Text :=
  p.type.text ++ ' ' :: p.name.text

theorem not_mem_source (p : Parameter) {c : Char} (word : isWord c = false) (space : c ≠ ' ') :
    c ∉ p.source := by
  simp [source, p.type.not_mem word, p.name.not_mem word, space]

/-- The parameter with the blanks in front of it. -/
def written (p : Parameter) (lead : Text) (blank : Blanks lead) : Signature.Parameter where
  lead := lead
  front := [(p.type.token, .space)]
  last := p.name.token
  trail := []
  leadBlank := blank
  trailBlank := blanks_nil

theorem text_written (p : Parameter) {lead : Text} (blank : Blanks lead) :
    (p.written lead blank).text = lead ++ p.source := by
  simp [written, source, Signature.Parameter.text, Signature.Parameter.frontText, Word.token,
    Signature.Gap.space]

/-- A list of parameters, with a blank in front of each but the first. -/
def writtenList : List Parameter → List Signature.Parameter
  | [] => []
  | p :: later => p.written [] blanks_nil :: later.map fun q => q.written [' '] blanks_space

theorem listText_writtenList (params : List Parameter) :
    Signature.listText (writtenList params) = join ", ".toList (params.map source) := by
  cases params with
  | nil => rfl
  | cons p later =>
      rw [List.map_cons, join_comma_blank]
      simp [Signature.listText, writtenList, text_written, Function.comp_def]

theorem names_writtenList (params : List Parameter) :
    Signature.names (writtenList params) = params.map (·.name.text) := by
  have name : ∀ (p : Parameter) {lead : Text} (blank : Blanks lead),
      (p.written lead blank).name? = some p.name.text := fun p lead blank => rfl
  cases params with
  | nil => rfl
  | cons p later =>
      simp [Signature.names, writtenList, name, List.filterMap_map]

end Parameter

/-- The signature of a function other than the entry point. -/
structure FunctionLine where
  type : Word
  name : Word
  params : List Parameter
  typeFree : isControlKeyword type.text = false
  nameFree : isControlKeyword name.text = false
  notMain : name.text ≠ "main".toList

namespace FunctionLine

def source (f : FunctionLine) : Text :=
  f.type.text ++ ' ' :: f.name.text ++ '(' ::
    join ", ".toList (f.params.map Parameter.source) ++ [')']

def target (f : FunctionLine) : Text :=
  "function ".toList ++ f.name.text ++ '(' ::
    join ", ".toList (f.params.map (·.name.text)) ++ [')']

def heading (f : FunctionLine) : Signature.Heading where
  type := f.type.text
  gap := .space
  name := f.name.text
  space := []
  params := Parameter.writtenList f.params
  rest := []
  isType := f.type.isName
  isName := f.name.isName
  typeFree := f.typeFree
  nameFree := f.nameFree
  notMain := f.notMain
  spaceBlank := blanks_nil
  oneLine := Arguments.Margin.none.oneLine

theorem source_eq_line (f : FunctionLine) : f.source = f.heading.line := by
  unfold source Signature.Heading.line Signature.Heading.body
  simp only [heading, Parameter.listText_writtenList, Signature.Gap.space, List.append_assoc,
    List.cons_append, List.nil_append]

theorem target_eq (f : FunctionLine) : f.target = f.heading.target := by
  unfold target Signature.Heading.target
  simp only [heading, Parameter.names_writtenList]

theorem oneLine_params (f : FunctionLine) :
    '\n' ∉ join ", ".toList (f.params.map Parameter.source) := by
  refine oneLine_list fun piece member => ?_
  obtain ⟨p, -, rfl⟩ := List.mem_map.1 member
  exact p.not_mem_source (by decide) (by decide)

theorem ofLine_source (f : FunctionLine) :
    Rendering.ofLine f.source = { text := f.target, change := .keep } := by
  have ends : endsWith f.heading.line [';'] = false := by
    rw [← source_eq_line]
    exact endsWith_concat _ ')' ';'
  have oneLine : '\n' ∉ Signature.listText f.heading.params := by
    simpa [heading, Parameter.listText_writtenList] using f.oneLine_params
  have last : ')' ∉ f.heading.rest := List.not_mem_nil
  rw [source_eq_line, target_eq, f.heading.rendering_line ends oneLine rfl last,
    (Signature.Heading.text_eq_target_iff rfl last).2 (.inl last)]

theorem isLine_source (f : FunctionLine) : IsLine f.source := by
  refine isLine_concat ?_ (by decide) ?_
  · simp only [List.append_assoc]
    exact f.type.stops_skipped _
  · have inType := f.type.not_mem (c := '\n') (by decide)
    have inName := f.name.not_mem (c := '\n') (by decide)
    have inParams := f.oneLine_params
    simpa [inType, inName] using inParams

end FunctionLine

/-! ## What stands in front of a block -/

theorem ofLine_open : Rendering.ofLine ['{'] = { text := ['{'], change := .opens } := rfl

theorem ofLine_close : Rendering.ofLine ['}'] = { text := ['}'], change := .closes } := rfl

theorem isLine_brace {c : Char} (h : c = '{' ∨ c = '}') : IsLine [c] := by
  have ends : Stops skipped [c] ∧ isBlank c = false := by
    rcases h with rfl | rfl <;> exact ⟨stops_cons.2 (by decide), by decide⟩
  exact isLine_concat (t := []) ends.1 ends.2 (by simp)

/-- The lines up to the opening brace of a block. -/
inductive Head where
  | entry (e : EntryLine)
  | function (f : FunctionLine)
  | bare
  | loop (h : LoopLine)

namespace Head

def source : Head → List Text
  | entry e => [e.source]
  | function f => [f.source, ['{']]
  | bare => [['{']]
  | loop h => [h.source, ['{']]

def target : Head → List Text
  | entry _ => [EntryLine.target]
  | function f => [f.target, ['{']]
  | bare => [['{']]
  | loop h => [h.target, ['{']]

/-- What the lines become; the last one opens the block. -/
def renderings : Head → List Rendering
  | entry _ => [{ text := EntryLine.target, change := .opens }]
  | function f => [{ text := f.target, change := .keep }, { text := ['{'], change := .opens }]
  | bare => [{ text := ['{'], change := .opens }]
  | loop h => [{ text := h.target, change := .keep }, { text := ['{'], change := .opens }]

theorem ofLine_source (head : Head) : head.source.map Rendering.ofLine = head.renderings := by
  cases head with
  | entry e => exact congrArg (· :: []) e.ofLine_source
  | function f => simp only [source, renderings, List.map_cons, List.map_nil, f.ofLine_source, ofLine_open]
  | bare => rfl
  | loop h => simp only [source, renderings, List.map_cons, List.map_nil, h.ofLine_source, ofLine_open]

theorem isLine_source (head : Head) : ∀ line ∈ head.source, IsLine line := by
  have brace := isLine_brace (.inl rfl)
  cases head with
  | entry e => simpa [source] using e.isLine_source
  | function f => simpa [source] using ⟨f.isLine_source, brace⟩
  | bare => simpa [source] using brace
  | loop h => simpa [source] using ⟨h.isLine_source, brace⟩

theorem place_renderings (head : Head) (depth : Nat) (rest : List Rendering) :
    place depth (head.renderings ++ rest) =
      head.target.map (Placed.mk depth) ++ place (depth + 1) rest := by
  cases head <;> rfl

theorem depthsBounded_renderings (head : Head) (depth : Nat) (rest : List Rendering) :
    DepthsBounded depth ((head.renderings ++ rest).map Rendering.change) ↔
      depth < wordLimit ∧ DepthsBounded (depth + 1) (rest.map Rendering.change) := by
  cases head <;> simp [renderings, DepthsBounded, DepthChange.nextDepth]

theorem shortages_renderings (head : Head) : head.renderings.filterMap Rendering.shortage = [] := by
  cases head <;> rfl

end Head

end Subset

end Linewise
