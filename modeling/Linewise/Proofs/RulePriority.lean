/-
# Linewise.Proofs.RulePriority -- where the order of the rules matters

The first rule that accepts a line decides it, so the order of two rules matters
where both accept the same line. Of the seven rules that ask for a certain beginning
of the line, only the entry point and the signature share one: every other pair is
told apart by the character behind the first words, or by those words (`Opening`,
`eq_of_begins`).

So an order of the rules is as good as any other that keeps the entry point in front
of the signature, and every rule on its side of the three rules that look elsewhere
in the line: print calls, statements, and the rule for everything
(`KeepsPriority.select_eq`).
-/
import Linewise.Proofs.Pass
import Linewise.Proofs.Shape

namespace Linewise

open Text

set_option autoImplicit false

/-! ## How a line begins -/

/-- The first word of a line, the word behind it, and the character behind both,
blanks apart. Either word may be empty. -/
structure Opening where
  first : Text
  second : Text
  mark : Option Char
  deriving Repr, DecidableEq

namespace Opening

def ofLine (line : Text) : Opening :=
  let afterFirst := trimStart (line.dropWhile isWord)
  { first := line.takeWhile isWord
    second := afterFirst.takeWhile isWord
    mark := (trimStart (afterFirst.dropWhile isWord)).head? }

/-- A character that ends a word and is not skipped. -/
def IsMark (c : Char) : Prop :=
  isWord c = false ∧ isBlank c = false

instance : DecidablePred IsMark := fun _ => inferInstanceAs (Decidable (_ ∧ _))

theorem ofLine_word {word gap rest : Text} {mark : Char} (isName : IsName word)
    (blank : Blanks gap) (isMark : IsMark mark) :
    ofLine (word ++ (gap ++ mark :: rest)) = ⟨word, [], some mark⟩ := by
  have wordEnds : Stops isWord (gap ++ mark :: rest) :=
    stops_isWord_append blank (stops_cons.2 isMark.1)
  have notBlank : Stops isBlank (mark :: rest) := stops_cons.2 isMark.2
  have second : (mark :: rest).takeWhile isWord = [] :=
    List.takeWhile_cons_of_neg (by simp [isMark.1])
  have behind : (mark :: rest).dropWhile isWord = mark :: rest :=
    List.dropWhile_cons_of_neg (by simp [isMark.1])
  have whole : trimStart (mark :: rest) = mark :: rest := trimStart_append blanks_nil notBlank
  simp only [ofLine, takeWhile_append_of_stops isName.2 wordEnds,
    dropWhile_append_of_stops isName.2 wordEnds, trimStart_append blank notBlank, second, behind,
    whole, List.head?_cons]

theorem ofLine_words {first gap second space rest : Text} {mark : Char} (isFirst : IsName first)
    (gapBlank : gap ≠ [] ∧ Blanks gap) (isSecond : IsName second) (spaceBlank : Blanks space)
    (isMark : IsMark mark) :
    ofLine (first ++ (gap ++ (second ++ (space ++ mark :: rest)))) = ⟨first, second, some mark⟩ := by
  have firstEnds : Stops isWord (gap ++ (second ++ (space ++ mark :: rest))) :=
    stops_isWord_of_blanks gapBlank.1 gapBlank.2
  have gapEnds : Stops isBlank (second ++ (space ++ mark :: rest)) := isSecond.stops_isBlank
  have secondEnds : Stops isWord (space ++ mark :: rest) :=
    stops_isWord_append spaceBlank (stops_cons.2 isMark.1)
  have spaceEnds : Stops isBlank (mark :: rest) := stops_cons.2 isMark.2
  simp only [ofLine, takeWhile_append_of_stops isFirst.2 firstEnds,
    dropWhile_append_of_stops isFirst.2 firstEnds, trimStart_append gapBlank.2 gapEnds,
    takeWhile_append_of_stops isSecond.2 secondEnds, dropWhile_append_of_stops isSecond.2 secondEnds,
    trimStart_append spaceBlank spaceEnds, List.head?_cons]

end Opening

/-! ## What a rule asks of the beginning -/

/-- The beginnings of the lines that a rule accepts. The rules for print calls and
statements, and the last one, look elsewhere. -/
def LineKind.Begins : LineKind → Opening → Prop
  | .entryPoint, o =>
      (o.second = "main".toList ∨ o.first = "main".toList ∧ o.second = []) ∧ o.mark = some '('
  | .functionSignature, o => o.second ≠ [] ∧ o.mark = some '('
  | .blockOpen, o => o.mark = some '{'
  | .initDeclaration, o => o.mark = some '='
  | .plainDeclaration, o => o.mark = some ';'
  | .blockClose, o => o.mark = some '}'
  | .loopHeader, o => o.first = "for".toList ∧ o.second = [] ∧ o.mark = some '('
  | .printCall, _ | .statement, _ | .passthrough, _ => True

theorem isName_spelling (type : ScalarType) : IsName type.spelling := by
  cases type <;> decide

theorem EntryPoint.begins {line : Text} (accepted : accepts line = true) :
    LineKind.entryPoint.Begins (Opening.ofLine line) := by
  have isMain : IsName "main".toList := by decide
  have isMark : Opening.IsMark '(' := by decide
  rw [accepts, Bool.and_eq_true] at accepted
  rcases rest?_isSome_iff.1 accepted.2 with ⟨behind, typed, found⟩ | found
  · obtain ⟨rest, read⟩ := Option.isSome_iff_exists.1 found
    obtain ⟨space, inner, void, outer, rfl, spaceBlank, -⟩ := afterMain?_eq_some_iff.1 read
    obtain ⟨type, gap, rfl, isType, gapBlank, -⟩ := afterType?_eq_some_iff.1 typed
    rw [Opening.ofLine_words isType gapBlank isMain spaceBlank isMark]
    exact ⟨.inl rfl, rfl⟩
  · obtain ⟨rest, read⟩ := Option.isSome_iff_exists.1 found
    obtain ⟨space, inner, void, outer, rfl, spaceBlank, -⟩ := afterMain?_eq_some_iff.1 read
    rw [Opening.ofLine_word isMain spaceBlank isMark]
    exact ⟨.inr ⟨rfl, rfl⟩, rfl⟩

theorem Signature.isSome_parse?_of_accepts {line : Text} (accepted : accepts line = true) :
    (parse? line).isSome = true := by
  rw [accepts, Bool.and_eq_true] at accepted
  cases read : parse? line with
  | none => simp [read] at accepted
  | some s => rfl

theorem Signature.begins {line : Text} (accepted : accepts line = true) :
    LineKind.functionSignature.Begins (Opening.ofLine line) := by
  obtain ⟨s, read⟩ := Option.isSome_iff_exists.1 (isSome_parse?_of_accepts accepted)
  obtain ⟨rfl, wf⟩ := parse?_eq_some_iff.1 read
  rw [spelling, Opening.ofLine_words wf.type wf.gap wf.name wf.space (by decide)]
  exact ⟨wf.name.1, rfl⟩

theorem InitDeclaration.begins {line : Text} (accepted : (parse? line).isSome = true) :
    LineKind.initDeclaration.Begins (Opening.ofLine line) := by
  obtain ⟨d, read⟩ := Option.isSome_iff_exists.1 accepted
  obtain ⟨rfl, wf⟩ := parse?_eq_some_iff.1 read
  rw [spelling, List.append_assoc,
    Opening.ofLine_words (isName_spelling d.type) wf.gap wf.name wf.space (by decide)]
  rfl

theorem PlainDeclaration.begins {line : Text} (accepted : (parse? line).isSome = true) :
    LineKind.plainDeclaration.Begins (Opening.ofLine line) := by
  obtain ⟨d, read⟩ := Option.isSome_iff_exists.1 accepted
  obtain ⟨rfl, wf⟩ := parse?_eq_some_iff.1 read
  rw [spelling, List.append_assoc, ← List.nil_append (';' :: d.rest),
    Opening.ofLine_words (isName_spelling d.type) wf.gap wf.name blanks_nil (by decide)]
  rfl

theorem LoopHeader.begins {line : Text} (accepted : (parse? line).isSome = true) :
    LineKind.loopHeader.Begins (Opening.ofLine line) := by
  obtain ⟨h, read⟩ := Option.isSome_iff_exists.1 accepted
  obtain ⟨rfl, wf⟩ := parse?_eq_some_iff.1 read
  rw [spelling, Opening.ofLine_word (by decide) wf.space (by decide)]
  exact ⟨rfl, rfl, rfl⟩

namespace Rule

theorem begins_of_accepts {kind : LineKind} {line : Text}
    (accepted : (ofKind kind).accepts line = true) : kind.Begins (Opening.ofLine line) := by
  cases kind with
  | entryPoint => exact EntryPoint.begins accepted
  | functionSignature => exact Signature.begins accepted
  | blockOpen =>
      obtain rfl : line = ['{'] := of_decide_eq_true accepted
      rfl
  | initDeclaration => exact InitDeclaration.begins accepted
  | plainDeclaration => exact PlainDeclaration.begins accepted
  | printCall => trivial
  | blockClose =>
      obtain rfl : line = ['}'] := of_decide_eq_true accepted
      rfl
  | statement => trivial
  | loopHeader => exact LoopHeader.begins accepted
  | passthrough => trivial

end Rule

namespace LineKind

/-- The kinds whose rules ask for a beginning. -/
def shaped : List LineKind :=
  [.entryPoint, .functionSignature, .blockOpen, .initDeclaration, .plainDeclaration, .blockClose,
    .loopHeader]

/-- The kinds whose rules look elsewhere in the line. -/
def unshaped : List LineKind :=
  [.printCall, .statement, .passthrough]

theorem mem_shaped_or_mem_unshaped (kind : LineKind) : kind ∈ shaped ∨ kind ∈ unshaped := by
  cases kind <;> decide

/-- The two kinds are the entry point and the signature. -/
def EntryAndSignature (kind other : LineKind) : Prop :=
  kind = .entryPoint ∧ other = .functionSignature ∨ kind = .functionSignature ∧ other = .entryPoint

theorem eq_of_begins {kind other : LineKind} {o : Opening} (inShaped : kind ∈ shaped)
    (otherShaped : other ∈ shaped) (begins : kind.Begins o) (otherBegins : other.Begins o) :
    kind = other ∨ EntryAndSignature kind other := by
  unfold EntryAndSignature
  -- Three kinds ask for the mark `(`: the loop is told from the other two by its
  -- words. Any other two kinds ask for different marks.
  cases kind <;> cases other <;> simp_all [shaped, Begins]

end LineKind

namespace Rule

theorem eq_of_accepts {kind other : LineKind} {line : Text} (inShaped : kind ∈ LineKind.shaped)
    (otherShaped : other ∈ LineKind.shaped) (accepted : (ofKind kind).accepts line = true)
    (otherAccepted : (ofKind other).accepts line = true) :
    kind = other ∨ LineKind.EntryAndSignature kind other :=
  LineKind.eq_of_begins inShaped otherShaped (begins_of_accepts accepted)
    (begins_of_accepts otherAccepted)

/-! ## Orders of the rules -/

/-- The place of a kind in an order of the rules. -/
def rank (rules : List Rule) (kind : LineKind) : Nat :=
  (rules.map Rule.kind).idxOf kind

theorem ofKind_kind {rule : Rule} (member : rule ∈ all) : ofKind rule.kind = rule := by
  simp only [all, List.mem_cons, List.not_mem_nil, or_false] at member
  rcases member with rfl | rfl | rfl | rfl | rfl | rfl | rfl | rfl | rfl | rfl <;> rfl

theorem rank_inj {rules : List Rule} {rule : Rule} {kind : LineKind} (member : rule ∈ rules)
    (same : rank rules rule.kind = rank rules kind) : rule.kind = kind :=
  (List.idxOf_inj (List.mem_map_of_mem member)).1 same

theorem rank_getElem {rules : List Rule} (distinct : (rules.map Rule.kind).Nodup) {i : Nat}
    (inside : i < rules.length) : rank rules rules[i].kind = i := by
  have := distinct.idxOf_getElem i (by simpa using inside)
  simpa [rank] using this

section Select

variable {rules : List Rule} (last : passthrough ∈ rules) (line : Text)

include last

theorem find?_eq_select : rules.find? (·.accepts line) = some (select rules line) := by
  have accepted : (rules.find? (·.accepts line)).isSome = true :=
    List.find?_isSome.2 ⟨passthrough, last, rfl⟩
  obtain ⟨rule, found⟩ := Option.isSome_iff_exists.1 accepted
  rw [select, found, Option.getD_some]

theorem select_mem_rules : select rules line ∈ rules :=
  List.mem_of_find?_eq_some (find?_eq_select last line)

theorem accepts_select : (select rules line).accepts line = true := by
  simpa using List.find?_some (find?_eq_select last line)

/-- The selected rule stands in front of every other that accepts the line. -/
theorem rank_select_le (distinct : (rules.map Rule.kind).Nodup) {rule : Rule}
    (member : rule ∈ rules) (accepted : rule.accepts line = true) :
    rank rules (select rules line).kind ≤ rank rules rule.kind := by
  obtain ⟨-, i, inside, found, rejected⟩ :=
    List.find?_eq_some_iff_getElem.1 (find?_eq_select last line)
  obtain ⟨j, insideJ, rfl⟩ := List.getElem_of_mem member
  rw [← found, rank_getElem distinct, rank_getElem distinct]
  by_contra before
  have := rejected j (by omega)
  simp [accepted] at this

end Select

end Rule

/-! ## The rule of a line -/

theorem Rule.accepts_ofKind (line : Text) :
    (ofKind (LineKind.ofLine line)).accepts line = true := by
  rw [LineKind.ofLine, ofKind_kind (select_mem line)]
  exact accepts_select (by simp [all]) line

/-- No rule in front of the rule of a line accepts it. -/
theorem LineKind.rank_ofLine_le {line : Text} {kind : LineKind}
    (accepted : (Rule.ofKind kind).accepts line = true) :
    Rule.rank Rule.all (LineKind.ofLine line) ≤ Rule.rank Rule.all kind := by
  have distinct : (Rule.all.map Rule.kind).Nodup := by decide
  have last : Rule.passthrough ∈ Rule.all := by simp [Rule.all]
  have member : Rule.ofKind kind ∈ Rule.all := by cases kind <;> simp [Rule.all, Rule.ofKind]
  have sameKind : (Rule.ofKind kind).kind = kind := by cases kind <;> rfl
  have le := Rule.rank_select_le last line distinct member accepted
  rwa [sameKind] at le

theorem Rendering.ofLine_eq_render (line : Text) :
    Rendering.ofLine line = (Rule.ofKind (LineKind.ofLine line)).render line := by
  rw [LineKind.ofLine, Rule.ofKind_kind (Rule.select_mem line)]
  rfl

theorem Rendering.of_printCall {line : Text} (print : LineKind.ofLine line = .printCall) :
    ∃ call, PrintCall.parse? line = some call ∧
      Rendering.ofLine line =
        { text := call.consoleLog, change := .keep, shortage := call.shortage? } := by
  have accepted := Rule.accepts_ofKind line
  rw [print] at accepted
  obtain ⟨call, read⟩ := Option.isSome_iff_exists.1 accepted
  refine ⟨call, read, ?_⟩
  rw [Rendering.ofLine_eq_render, print]
  simp only [Rule.ofKind, Rule.printCall, read]

namespace Rule

/-! ## Orders that keep the priority -/

/-- The rules in another order, with the entry point still in front of the signature
and every rule still on its side of the unshaped ones. -/
structure KeepsPriority (rules : List Rule) : Prop where
  perm : rules.Perm all
  entryFirst : rank rules .entryPoint < rank rules .functionSignature
  sameSide : ∀ kind, ∀ pivot ∈ LineKind.unshaped,
    rank rules kind < rank rules pivot ↔ rank all kind < rank all pivot

/-- Two rules that accept one line, each in front of the other in its own order, are of
one kind. -/
theorem KeepsPriority.kind_eq {rules : List Rule} (keeps : KeepsPriority rules) {a b : Rule}
    {line : Text} (inAll : a ∈ all) (inRules : b ∈ rules) (accepted : a.accepts line = true)
    (otherAccepted : b.accepts line = true) (before : rank all a.kind ≤ rank all b.kind)
    (behind : rank rules b.kind ≤ rank rules a.kind) : a.kind = b.kind := by
  rcases a.kind.mem_shaped_or_mem_unshaped with shaped | unshaped
  · rcases b.kind.mem_shaped_or_mem_unshaped with otherShaped | otherUnshaped
    · rw [← ofKind_kind inAll] at accepted
      rw [← ofKind_kind (keeps.perm.mem_iff.1 inRules)] at otherAccepted
      rcases eq_of_accepts shaped otherShaped accepted otherAccepted with
        same | ⟨entry, signature⟩ | ⟨signature, entry⟩
      · exact same
      · rw [entry, signature] at behind
        exact absurd keeps.entryFirst (by omega)
      · rw [entry, signature] at before
        exact absurd before (by decide)
    · have side := keeps.sameSide a.kind b.kind otherUnshaped
      exact rank_inj inAll (by omega)
  · have side := keeps.sameSide b.kind a.kind unshaped
    exact (rank_inj inRules (by omega)).symm

theorem KeepsPriority.select_eq {rules : List Rule} (keeps : KeepsPriority rules) (line : Text) :
    select rules line = select all line := by
  have distinctAll : (all.map Rule.kind).Nodup := by decide
  have distinct : (rules.map Rule.kind).Nodup :=
    (keeps.perm.map Rule.kind).nodup_iff.2 distinctAll
  have lastAll : passthrough ∈ all := by simp [all]
  have last : passthrough ∈ rules := keeps.perm.mem_iff.2 lastAll
  have inAll := select_mem line
  have inRules := select_mem_rules last line
  have accepted := accepts_select lastAll line
  have otherAccepted := accepts_select last line
  have otherInAll := keeps.perm.mem_iff.1 inRules
  have same : (select all line).kind = (select rules line).kind :=
    keeps.kind_eq inAll inRules accepted otherAccepted
      (rank_select_le lastAll line distinctAll otherInAll otherAccepted)
      (rank_select_le last line distinct (keeps.perm.mem_iff.2 inAll) accepted)
  rw [← ofKind_kind inAll, ← ofKind_kind otherInAll, same]

/-- No line is accepted by two of the shaped rules but the entry point and the signature,
which do share a line; and any order of the rules that keeps their priority gives every
line the rule, and so the kind, that it has. -/
theorem order_matters_only_where_rules_overlap :
    (∀ (line : Text), ∀ kind ∈ LineKind.shaped, ∀ other ∈ LineKind.shaped,
      (ofKind kind).accepts line = true → (ofKind other).accepts line = true →
        kind = other ∨ LineKind.EntryAndSignature kind other) ∧
    (∃ line, (ofKind .entryPoint).accepts line = true ∧
      (ofKind .functionSignature).accepts line = true) ∧
    ∀ rules, KeepsPriority rules → ∀ line,
      select rules line = select all line ∧ (select rules line).kind = LineKind.ofLine line := by
  refine ⟨?_, ⟨"int main()".toList, by decide, by decide⟩, ?_⟩
  · intro line kind inShaped other otherShaped accepted otherAccepted
    exact eq_of_accepts inShaped otherShaped accepted otherAccepted
  · intro rules keeps line
    have same := keeps.select_eq line
    exact ⟨same, by rw [same, LineKind.ofLine]⟩

/-- The five rules in front of print calls, in another order. -/
def shuffled : List Rule :=
  [blockOpen, plainDeclaration, entryPoint, initDeclaration, functionSignature, printCall,
    blockClose, statement, loopHeader, passthrough]

theorem keepsPriority_shuffled : KeepsPriority shuffled where
  perm := by
    have perm : (shuffled.map Rule.kind).Perm (all.map Rule.kind) := by decide
    exact perm.map ofKind
  entryFirst := by decide
  sameSide := by
    intro kind
    cases kind <;> decide

theorem order_matters_only_where_rules_overlap_shuffled :
    LineKind.EntryAndSignature .entryPoint .functionSignature ∧ KeepsPriority shuffled ∧
      (select shuffled "int total = main();".toList).kind = .initDeclaration := by
  obtain ⟨disjoint, -, reordered⟩ := order_matters_only_where_rules_overlap
  have shared := disjoint "int main()".toList .entryPoint (by decide) .functionSignature (by decide)
    (by decide) (by decide)
  have same := (reordered shuffled keepsPriority_shuffled "int total = main();".toList).2
  exact ⟨shared.resolve_left (by decide), keepsPriority_shuffled, same.trans (by decide)⟩

end Rule

end Linewise
