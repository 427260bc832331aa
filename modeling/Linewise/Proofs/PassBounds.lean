/-
# Linewise.Proofs.PassBounds -- the one way in which a pass can fail

A pass counts in machine words and writes texts that have to fit into memory. It can leave
these bounds in two ways, with the depth behind an opening line and with the indentation
of a line. With fewer lines than a machine word can count the first cannot happen: the
depth grows by at most one with every line (`depthsBounded_of_length`). So the pass fails
exactly when a line is rendered at a depth whose indentation is too long, and at a width
of four that takes very many lines (`compile_overflows_iff`).

Depths that are reached but not rendered do not count: an opening line at the end deepens
the depth for no line behind it.

Everything else that is done with a line succeeds (`SourceLine.Sound`). Its number and the
bracket counter of its arguments stay small, and wherever a rule needs a part of the line
by its place, the part is there and the line can be cut (`Linewise.Proofs.Offsets`).
-/
import Linewise.Proofs.Offsets
import Linewise.Proofs.Pass
import Linewise.Proofs.Rejoining
import Mathlib.Algebra.Group.Nat.Defs

namespace Linewise

open Text

set_option autoImplicit false

/-! ## Failing steps -/

theorem bind_eq_error_iff {ε α β : Type} {x : Except ε α} {f : α → Except ε β} {e : ε} :
    (x >>= f) = .error e ↔ x = .error e ∨ ∃ a, x = .ok a ∧ f a = .error e := by
  cases x with
  | error e' => simp [bind, Except.bind]
  | ok a => simp [bind, Except.bind]

theorem DepthChange.apply_eq_error_iff {change : DepthChange} {depth : Nat} {overflow : Overflow} :
    change.apply depth = .error overflow ↔
      (change = .opens ∧ wordLimit ≤ depth) ∧ overflow = .depth := by
  cases change with
  | keep => simp [apply]
  | closes => simp [apply]
  | opens =>
      simp only [apply, deeper]
      split
      · rename_i h
        simp [Except.map, Nat.not_le.2 h]
      · rename_i h
        simp [Except.map, Nat.not_lt.1 h, eq_comm]

theorem Step.ofLine_eq_error_iff {depth : Nat} {line : Text} {overflow : Overflow} :
    Step.ofLine depth line = .error overflow ↔
      ((Rendering.ofLine line).change = .opens ∧ wordLimit ≤ depth) ∧ overflow = .depth := by
  unfold Step.ofLine
  rw [bind_eq_error_iff, ← DepthChange.apply_eq_error_iff]
  constructor
  · rintro (failed | ⟨depths, -, returned⟩)
    · exact failed
    · cases returned
  · exact .inl

theorem Listing.add_eq_error_iff {listing : Listing} {depth : Nat} {text : Text}
    {overflow : Overflow} :
    listing.add depth text = .error overflow ↔
      textLimit < depth * listing.width ∧ overflow = .indentation := by
  unfold add indentation
  split
  · rename_i h
    simp [Except.map, Nat.not_lt.2 h]
  · rename_i h
    simp [Except.map, Nat.not_le.1 h, eq_comm]

namespace Progress

/-- A line that can deepen the depth fails, if at all, with its indentation. -/
theorem eq_indentation_of_feed {progress : Progress} {line : Text} {overflow : Overflow}
    (bounded : (Rendering.ofLine line).change = .opens → progress.depth < wordLimit)
    (failed : progress.feed line = .error overflow) : overflow = .indentation := by
  unfold feed at failed
  rw [bind_eq_error_iff] at failed
  rcases failed with noStep | ⟨step, -, failed⟩
  · obtain ⟨⟨opens, deep⟩, -⟩ := Step.ofLine_eq_error_iff.1 noStep
    have := bounded opens
    omega
  · rw [bind_eq_error_iff] at failed
    rcases failed with noLine | ⟨listing, -, returned⟩
    · exact (Listing.add_eq_error_iff.1 noLine).2
    · cases returned

theorem eq_indentation_of_feedAll {progress : Progress} {lines : List Text} {overflow : Overflow}
    (bounded : DepthsBounded progress.depth ((lines.map Rendering.ofLine).map Rendering.change))
    (failed : progress.feedAll lines = .error overflow) : overflow = .indentation := by
  induction lines generalizing progress with
  | nil => cases failed
  | cons line rest ih =>
      obtain ⟨here, later⟩ := bounded
      rw [feedAll_cons, bind_eq_error_iff] at failed
      rcases failed with noLine | ⟨fed, taken, failed⟩
      · exact eq_indentation_of_feed here noLine
      · obtain ⟨-, rfl⟩ := feed_eq_ok_iff.1 taken
        rw [bind_eq_error_iff] at failed
        rcases failed with noRest | ⟨more, -, returned⟩
        · exact ih later noRest
        · cases returned

end Progress

/-! ## How deep a pass can get -/

theorem DepthChange.renderDepth_le (change : DepthChange) (depth : Nat) :
    change.renderDepth depth ≤ depth := by
  cases change <;> simp only [renderDepth] <;> omega

theorem DepthChange.nextDepth_le (change : DepthChange) (depth : Nat) :
    change.nextDepth depth ≤ depth + 1 := by
  cases change <;> simp only [nextDepth] <;> omega

theorem depthsBounded_of_length {depth : Nat} {changes : List DepthChange}
    (short : depth + changes.length ≤ wordLimit) : DepthsBounded depth changes := by
  induction changes generalizing depth with
  | nil => trivial
  | cons change rest ih =>
      have next := change.nextDepth_le depth
      rw [List.length_cons] at short
      exact ⟨fun _ => by omega, ih (by omega)⟩

theorem depth_lt_of_mem_place {depth : Nat} {rs : List Rendering} {p : Placed}
    (member : p ∈ place depth rs) : p.depth < depth + rs.length := by
  induction rs generalizing depth with
  | nil => cases member
  | cons r rest ih =>
      rw [List.length_cons]
      rcases List.mem_cons.1 member with rfl | later
      · have here := r.change.renderDepth_le depth
        show r.change.renderDepth depth < _
        omega
      · have below := ih later
        have next := r.change.nextDepth_le depth
        omega

theorem length_renderings_le (source : Text) :
    (renderings source).length ≤ (lines source).length := by
  rw [renderings, List.length_map, SourceLine.ofSource_texts]
  exact (List.length_filter_le ..).trans (List.length_map ..).le

/-! ## The other counters -/

theorem SourceLine.number_of_ofRaw {number : Nat} {raw : Text} {line : SourceLine}
    (kept : ofRaw number raw = .ok line) : line.number = number := by
  unfold ofRaw at kept
  simp only at kept
  split at kept
  · cases kept
  · split at kept
    · cases kept
    · cases kept
      rfl

theorem SourceLine.number_lt_of_mem_keepFrom {number : Nat} {raws : List Text} {line : SourceLine}
    (member : line ∈ keepFrom number raws) : line.number < number + raws.length := by
  induction raws generalizing number with
  | nil => cases member
  | cons raw rest ih =>
      rw [List.length_cons]
      have later : line ∈ keepFrom (number + 1) rest → line.number < number + (rest.length + 1) := by
        intro inRest
        have := ih inRest
        omega
      rw [keepFrom] at member
      split at member
      · rename_i kept found
        rcases List.mem_cons.1 member with rfl | inRest
        · have same := number_of_ofRaw found
          omega
        · exact later inRest
      · exact later member

namespace Arguments.Scan

/-- The bracket counter. -/
def depth : Scan → Nat
  | code depth => depth
  | quoted _ depth => depth
  | escaped _ depth => depth

theorem depth_next_le (state : Scan) (c : Char) : (state.next c).depth ≤ state.depth + 1 := by
  cases state with
  | code d =>
      simp only [next]
      split
      · simp only [depth]
        omega
      · split
        · exact le_refl _
        · split <;> simp only [depth] <;> omega
  | quoted quote d =>
      simp only [next]
      split
      · exact Nat.le_succ _
      · split <;> exact Nat.le_succ _
  | escaped quote d => exact Nat.le_succ _

theorem depth_after_le (state : Scan) (t : Text) :
    (state.after t).depth ≤ state.depth + t.length := by
  induction t generalizing state with
  | nil => exact le_refl _
  | cons c t ih =>
      have step := state.depth_next_le c
      have rest := ih (state.next c)
      show ((state.next c).after t).depth ≤ state.depth + (t.length + 1)
      omega

end Arguments.Scan

/-! ## What is done with a line -/

/-- Nothing that is done with a kept line goes wrong, its indentation apart. Its number is
a machine word. Every place that a pattern finds in it is a slice of it, so that the rules
can work from the places alone and decide and write the same. While its arguments are
split, the bracket counter never exceeds the length of the line. -/
structure SourceLine.Sound (line : SourceLine) : Prop where
  number : line.number ≤ wordLimit
  places : ∀ pattern, ∀ groups ∈ Pattern.allMatches pattern line.text,
    ∀ span, some span ∈ groups → slice? line.text span.start span.stop = some span.text
  accepts : Signature.acceptsAt? line.text = some (Rule.functionSignature.accepts line.text)
  rewrites : ∀ kind w, Rewriter.ofKind? kind = some w →
    w.run? line.text = some ((Rule.ofKind kind).render line.text).text
  brackets : ∀ o, PrintCall.Occurrence.find? line.text = some o →
    ∀ read, read <+: o.argumentText →
      (Arguments.Scan.start.after read).depth ≤ line.text.length

theorem PrintCall.Occurrence.length_argumentText_le {line : Text} {o : Occurrence}
    (found : find? line = some o) : o.argumentText.length ≤ line.length := by
  rw [(isFirstIn_of_find? found).cut]
  simp only [call, List.length_append]
  omega

theorem SourceLine.sound_of_mem {source : Text} (countable : (lines source).length < 2 ^ 64)
    {line : SourceLine} (member : line ∈ ofSource source) : line.Sound where
  number := by
    have bound := number_lt_of_mem_keepFrom member
    unfold wordLimit
    omega
  places := by
    intro pattern groups found span member
    exact Pattern.slice?_of_mem_allMatches found member
  accepts := Signature.acceptsAt?_eq line.text
  rewrites := by
    intro kind w looks
    exact Rewriter.run?_eq looks line.text
  brackets := by
    intro o found read isPrefix
    have counted := Arguments.Scan.start.depth_after_le read
    have start : Arguments.Scan.start.depth = 0 := rfl
    have inArguments := isPrefix.length_le
    have inLine := PrintCall.Occurrence.length_argumentText_le found
    omega

/-! ## Exactly when a pass fails -/

theorem depthsBounded_renderings {source : Text} (countable : (lines source).length < 2 ^ 64) :
    DepthsBounded 0 ((renderings source).map Rendering.change) := by
  have kept := length_renderings_le source
  apply depthsBounded_of_length
  rw [List.length_map]
  unfold wordLimit
  omega

theorem exists_compile_of_fits {width : Nat} {source : Text}
    (countable : (lines source).length < 2 ^ 64)
    (fits : ∀ p ∈ place 0 (renderings source), p.depth * width ≤ textLimit) :
    ∃ compilation, compile width source = .ok compilation :=
  ⟨_, compile_eq_ok_iff.2 ⟨⟨depthsBounded_renderings countable, fits⟩, rfl⟩⟩

theorem eq_indentation_of_compile {width : Nat} {source : Text} {overflow : Overflow}
    (countable : (lines source).length < 2 ^ 64)
    (failed : compile width source = .error overflow) : overflow = .indentation := by
  unfold compile at failed
  rw [bind_eq_error_iff] at failed
  rcases failed with noPass | ⟨fed, -, returned⟩
  · exact Progress.eq_indentation_of_feedAll (depthsBounded_renderings countable) noPass
  · cases returned

/-- **When a pass fails.** A source of fewer than 2^64 lines cannot be compiled exactly when
one of its kept lines is rendered at a depth whose indentation is longer than any text, and
that is then the reason; nothing else that is done with a kept line fails. At a width of
four every source of fewer than 2^61 lines can be compiled. -/
theorem compile_overflows_iff (width : Nat) {source : Text}
    (countable : (lines source).length < 2 ^ 64) :
    (∀ overflow, compile width source = .error overflow ↔
      overflow = .indentation ∧
        ∃ p ∈ place 0 (renderings source), textLimit < p.depth * width) ∧
    (∀ line ∈ SourceLine.ofSource source, line.Sound) ∧
    ((lines source).length < 2 ^ 61 → ∃ compilation, compile 4 source = .ok compilation) := by
  refine ⟨fun overflow => ⟨?_, ?_⟩, fun line => SourceLine.sound_of_mem countable, ?_⟩
  · intro failed
    refine ⟨eq_indentation_of_compile countable failed, ?_⟩
    by_contra noOverflow
    push Not at noOverflow
    obtain ⟨compilation, compiled⟩ := exists_compile_of_fits countable noOverflow
    rw [compiled] at failed
    cases failed
  · rintro ⟨rfl, p, member, long⟩
    cases result : compile width source with
    | error overflow => rw [eq_indentation_of_compile countable result]
    | ok compilation =>
        have fits : p.depth * width ≤ textLimit :=
          (compile_eq_ok_iff.1 result).1.indentations p member
        omega
  · intro few
    have kept := length_renderings_le source
    apply exists_compile_of_fits countable
    intro p member
    have shallow := depth_lt_of_mem_place member
    unfold textLimit
    omega

/-- At the greatest width a line inside a block fails, and an opening line at the end does
not. -/
theorem compile_overflows_iff_greatestWidth :
    (lines "\x7b\nx;".toList).length < 2 ^ 64 ∧ (lines "x;\n\x7b".toList).length < 2 ^ 64 ∧
      compile wordLimit "\x7b\nx;".toList = .error .indentation ∧
      ∃ compilation, compile wordLimit "x;\n\x7b".toList = .ok compilation := by
  have inside : (lines "\x7b\nx;".toList).length < 2 ^ 64 := by decide
  have atEnd : (lines "x;\n\x7b".toList).length < 2 ^ 64 := by decide
  refine ⟨inside, atEnd, ?_, ?_⟩
  · exact ((compile_overflows_iff wordLimit inside).1 .indentation).2 ⟨rfl, by decide⟩
  · have shallow : ¬ ∃ p ∈ place 0 (renderings "x;\n\x7b".toList),
        textLimit < p.depth * wordLimit := by decide
    cases result : compile wordLimit "x;\n\x7b".toList with
    | ok compilation => exact ⟨compilation, rfl⟩
    | error overflow =>
        obtain ⟨-, deep⟩ := ((compile_overflows_iff wordLimit atEnd).1 overflow).1 result
        exact absurd deep shallow

end Linewise
