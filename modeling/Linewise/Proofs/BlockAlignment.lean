/-
# Linewise.Proofs.BlockAlignment -- a closing brace lines up with its opener

A line opens a block, lines that balance follow, and a bare closing brace ends
it. Wherever that happens in a source, the closing brace is indented as the
opening line is, all that stands between is at least one level deeper, and the
depth is back at its value before the block.

The floor at zero is what could spoil this: a close that it swallows is not paid
back. Inside a block there is none. A sequence that never closes more than it
opened moves the depth by its own height, from wherever it starts
(`depthAfter_take_of_above`), and a line stands at the lower of the depths around
it (`renderDepth_eq_min`), so no line of the sequence stands lower than its start
(`le_depth_of_mem_place`). `Progress.feedAll_block` says so of a pass in any state,
also one that has run into the floor before.
-/
import Linewise.Proofs.LineByLine

namespace Linewise

set_option autoImplicit false

/-! ## Lines that open a block -/

theorem Rule.select_entryPoint {line : Text} (accepted : EntryPoint.accepts line = true) :
    select all line = entryPoint := by
  have first : all.find? (·.accepts line) = some entryPoint := List.find?_cons_of_pos accepted
  rw [select, first, Option.getD_some]

/-- An entry point opens a block, and so does a bare brace. -/
theorem change_of_opening {line : Text}
    (opening : EntryPoint.accepts line = true ∨ line = ['{']) :
    (Rendering.ofLine line).change = .opens := by
  rcases opening with accepted | rfl
  · rw [Rendering.ofLine, Rule.select_entryPoint accepted]
    rfl
  · rfl

/-! ## Sequences that stay above their start -/

theorem DepthChange.renderDepth_eq_min (change : DepthChange) (depth : Nat) :
    change.renderDepth depth = min depth (change.nextDepth depth) := by
  cases change with
  | keep => simp [renderDepth, nextDepth]
  | opens => simp [renderDepth, nextDepth]
  | closes => simp [renderDepth, nextDepth]

theorem place_append (depth : Nat) (first second : List Rendering) :
    place depth (first ++ second) =
      place depth first ++ place (depthAfter depth (first.map Rendering.change)) second := by
  induction first generalizing depth with
  | nil => rfl
  | cons r rest ih =>
      rw [List.cons_append, place, ih, place, List.cons_append]
      rfl

/-- The floor is not felt by a sequence that never closes more than it opened. -/
theorem depthAfter_take_of_above (depth : Nat) {changes : List DepthChange}
    (above : ∀ i, 0 ≤ level changes i) (i : Nat) :
    (depthAfter depth (changes.take i) : ℤ) = depth + level changes i := by
  induction i with
  | zero => simp [depthAfter, level_zero]
  | succ i ih =>
      have next := above (i + 1)
      rw [level_succ] at next
      rw [List.take_add_one, level_succ]
      cases found : changes[i]? with
      | none => simpa [balance] using ih
      | some change =>
        rw [found] at next
        rw [Option.toList, depthAfter_concat]
        cases change with
        | keep =>
            have level : balance [DepthChange.keep] = 0 := rfl
            simp only [DepthChange.nextDepth, level]
            omega
        | opens =>
            have up : balance [DepthChange.opens] = 1 := rfl
            simp only [DepthChange.nextDepth, up]
            omega
        | closes =>
            -- there is a block to leave, since the height stays above zero
            have down : balance [DepthChange.closes] = -1 := rfl
            simp only [Option.toList, down] at next
            simp only [DepthChange.nextDepth, down]
            omega

theorem depthAfter_of_balanced (depth : Nat) {changes : List DepthChange}
    (balanced : Balanced changes) : depthAfter depth changes = depth := by
  have whole := depthAfter_take_of_above depth balanced.2 changes.length
  rw [level, List.take_length, balanced.1] at whole
  omega

theorem le_depth_of_mem_place {depth : Nat} {rs : List Rendering}
    (above : ∀ i, 0 ≤ level (rs.map Rendering.change) i) {p : Placed} (member : p ∈ place depth rs) :
    depth ≤ p.depth := by
  rw [place_eq_mapIdx_depthAfter, List.mem_mapIdx] at member
  obtain ⟨i, inside, rfl⟩ := member
  have found : (rs.map Rendering.change)[i]? = some rs[i].change := by simp [inside]
  have here := depthAfter_take_of_above depth above i
  have next := depthAfter_take_of_above depth above (i + 1)
  rw [List.take_add_one, found, Option.toList, depthAfter_concat] at next
  have aboveHere := above i
  have aboveNext := above (i + 1)
  rw [DepthChange.renderDepth_eq_min]
  exact le_min (by omega) (by omega)

/-! ## Blocks -/

theorem depthAfter_block (depth : Nat) {inner : List DepthChange} (balanced : Balanced inner) :
    depthAfter depth (.opens :: (inner ++ [.closes])) = depth := by
  have opened : depthAfter depth (.opens :: (inner ++ [.closes])) =
      depthAfter (depth + 1) (inner ++ [.closes]) := rfl
  rw [opened, depthAfter_concat, depthAfter_of_balanced _ balanced, DepthChange.nextDepth,
    Nat.add_sub_cancel]

/-- A block in any pass: its first and its last line stand at the depth where it
begins, and all others deeper. -/
theorem place_block (depth : Nat) {opening closing : Rendering} {inner : List Rendering}
    (opens : opening.change = .opens) (closes : closing.change = .closes)
    (balanced : Balanced (inner.map Rendering.change)) :
    place depth (opening :: (inner ++ [closing])) =
      ⟨depth, opening.text⟩ :: (place (depth + 1) inner ++ [⟨depth, closing.text⟩]) := by
  rw [place, place_append, opens, DepthChange.nextDepth, depthAfter_of_balanced _ balanced]
  simp [place, closes, DepthChange.renderDepth]

/-! ## Passes in two parts -/

theorem feedAll_of_compile {width : Nat} {source : Text} {compilation : Compilation}
    (compiled : compile width source = .ok compilation) :
    ∃ last, (Progress.start width).feedAll ((SourceLine.ofSource source).map SourceLine.text) =
        .ok (compilation.shortages, last) ∧ compilation.program = last.listing.toText := by
  obtain ⟨⟨shortages, last⟩, fed, same⟩ := bind_eq_ok_iff.1 compiled
  obtain rfl := Except.ok.inj same
  exact ⟨last, fed, rfl⟩

theorem Progress.feedAll_append_eq_ok {progress last : Progress} {first second : List Text}
    {shortages : List Shortage} (fed : progress.feedAll (first ++ second) = .ok (shortages, last)) :
    ∃ earlier middle later, progress.feedAll first = .ok (earlier, middle) ∧
      middle.feedAll second = .ok (later, last) := by
  induction first generalizing progress shortages with
  | nil => exact ⟨[], progress, shortages, rfl, fed⟩
  | cons line rest ih =>
      rw [List.cons_append, feedAll_cons] at fed
      obtain ⟨one, fedLine, fed⟩ := bind_eq_ok_iff.1 fed
      obtain ⟨more, fedRest, same⟩ := bind_eq_ok_iff.1 fed
      obtain ⟨-, rfl⟩ := Prod.mk.inj (Except.ok.inj same)
      obtain ⟨earlier, middle, later, fedFirst, fedSecond⟩ := ih fedRest
      refine ⟨one.1.shortage.toList ++ earlier, middle, later, ?_, fedSecond⟩
      rw [feedAll_cons]
      exact bind_eq_ok_iff.2 ⟨one, fedLine, bind_eq_ok_iff.2 ⟨_, fedFirst, rfl⟩⟩

/-- A pass keeps its width, and writes a line for every line it takes in. -/
theorem Progress.width_and_size_of_feedAll {progress last : Progress} {lines : List Text}
    {shortages : List Shortage} (fed : progress.feedAll lines = .ok (shortages, last)) :
    last.listing.width = progress.listing.width ∧
      last.listing.lines.size = progress.listing.lines.size + lines.length := by
  obtain ⟨-, same⟩ := feedAll_eq_ok_iff.1 fed
  obtain ⟨-, rfl⟩ := Prod.mk.inj same
  have length := congrArg List.length
    (map_text_place progress.depth (lines.map Rendering.ofLine))
  refine ⟨rfl, ?_⟩
  simpa [after, Listing.extend] using length

/-- What a pass has written stays in front of the program. -/
theorem Progress.body_isPrefix_toText {progress last : Progress} {lines : List Text}
    {shortages : List Shortage} (fed : progress.feedAll lines = .ok (shortages, last)) :
    progress.listing.body <+: last.listing.toText := by
  obtain ⟨-, same⟩ := feedAll_eq_ok_iff.1 fed
  obtain ⟨-, rfl⟩ := Prod.mk.inj same
  have grown : progress.listing.body <+:
      (progress.after (lines.map Rendering.ofLine)).listing.body := by
    simp [after, Listing.extend, Listing.body, List.flatMap_append]
  rw [Listing.toText]
  split
  · exact grown
  · exact grown.trans (List.prefix_append ..)

/-- A pass over a block, from whatever depth and behind whatever lines. -/
theorem Progress.feedAll_block {start finish : Progress} {shortages : List Shortage}
    {opening : Text} {inner : List Text}
    (opens : EntryPoint.accepts opening = true ∨ opening = ['{'])
    (balanced : Balanced (inner.map fun line => (Rendering.ofLine line).change))
    (fed : start.feedAll (opening :: (inner ++ [['}']])) = .ok (shortages, finish)) :
    finish.depth = start.depth ∧
      finish.listing = start.listing.extend (⟨start.depth, (Rendering.ofLine opening).text⟩ ::
        (place (start.depth + 1) (inner.map Rendering.ofLine) ++ [⟨start.depth, ['}']⟩])) := by
  obtain ⟨-, same⟩ := feedAll_eq_ok_iff.1 fed
  obtain ⟨-, rfl⟩ := Prod.mk.inj same
  have opened := change_of_opening opens
  have changes : inner.map (fun line => (Rendering.ofLine line).change) =
      (inner.map Rendering.ofLine).map Rendering.change := (List.map_map ..).symm
  have block : (opening :: (inner ++ [['}']])).map Rendering.ofLine =
      Rendering.ofLine opening :: (inner.map Rendering.ofLine ++ [Rendering.ofLine ['}']]) := by
    simp
  have closed : (Rendering.ofLine ['}']).change = .closes := rfl
  rw [changes] at balanced
  simp only [after, block]
  constructor
  · rw [List.map_cons, List.map_append, List.map_singleton, opened, closed]
    exact depthAfter_block start.depth balanced
  · rw [place_block start.depth opened closed balanced]
    rfl

/-- The listing of a pass from the start, and its depth. -/
theorem Progress.of_feedAll_start {width : Nat} {lines : List Text} {shortages : List Shortage}
    {progress : Progress} (fed : (start width).feedAll lines = .ok (shortages, progress)) :
    progress.listing.lines.toList =
        (place 0 (lines.map Rendering.ofLine)).map (Placed.line width) ∧
      progress.depth = depthAfter 0 ((lines.map Rendering.ofLine).map Rendering.change) := by
  obtain ⟨-, same⟩ := feedAll_eq_ok_iff.1 fed
  obtain ⟨-, rfl⟩ := Prod.mk.inj same
  refine ⟨?_, rfl⟩
  simp [after, Listing.extend, start]

/-- The lines that the program of a source begins with. -/
theorem exists_splitOn_program {width : Nat} {source : Text} {compilation : Compilation}
    (compiled : compile width source = .ok compilation) :
    ∃ behind, compilation.program.splitOn '\n' =
      (place 0 (renderings source)).map (Placed.line width) ++ behind := by
  obtain ⟨-, rfl⟩ := compile_eq_ok_iff.1 compiled
  have lines := splitOn_programText width source
  rw [programLines, List.append_assoc] at lines
  exact ⟨_, lines⟩

/-- **A closing brace lines up with its opener.** Let a source compile, and let one
of its lines that count open a block, a later one be a bare closing brace, and the
lines between them balance. The pass then reaches the opening line at some depth,
however many braces the lines before it have opened or closed in vain; it writes
the opening line and the closing one at that depth and every line between them
deeper, and is at that depth again behind the closing line. The lines of the program
are those: as many as precede the block, the opening line, the lines between, the
closing line, and the rest. -/
theorem compile_block_aligned {width : Nat} {source : Text} {compilation : Compilation}
    {before inner after : List Text} {opening : Text}
    (compiled : compile width source = .ok compilation)
    (lines : (SourceLine.ofSource source).map SourceLine.text =
      before ++ opening :: (inner ++ ['}'] :: after))
    (opens : EntryPoint.accepts opening = true ∨ opening = ['{'])
    (balanced : Balanced (inner.map fun line => (Rendering.ofLine line).change)) :
    ∃ (earlier during : List Shortage) (start finish : Progress) (inside : List Placed),
      (Progress.start width).feedAll before = .ok (earlier, start) ∧
      start.listing.lines.size = before.length ∧
      start.feedAll (opening :: (inner ++ [['}']])) = .ok (during, finish) ∧
      finish.listing.lines.toList = start.listing.lines.toList ++
        Placed.line width ⟨start.depth, (Rendering.ofLine opening).text⟩ ::
          (inside.map (Placed.line width) ++ [Placed.line width ⟨start.depth, ['}']⟩]) ∧
      inside.map Placed.text = inner.map (fun line => (Rendering.ofLine line).text) ∧
      (∀ p ∈ inside, start.depth + 1 ≤ p.depth) ∧
      finish.depth = start.depth ∧
      finish.listing.body <+: compilation.program ∧
      ∃ behind, compilation.program.splitOn '\n' = start.listing.lines.toList ++
        Placed.line width ⟨start.depth, (Rendering.ofLine opening).text⟩ ::
          (inside.map (Placed.line width) ++ Placed.line width ⟨start.depth, ['}']⟩ :: behind) := by
  obtain ⟨last, fed, program⟩ := feedAll_of_compile compiled
  rw [lines] at fed
  obtain ⟨earlier, start, rest, fedBefore, fedRest⟩ := Progress.feedAll_append_eq_ok fed
  have split : opening :: (inner ++ ['}'] :: after) = (opening :: (inner ++ [['}']])) ++ after := by
    simp
  rw [split] at fedRest
  obtain ⟨during, finish, later, fedBlock, fedAfter⟩ := Progress.feedAll_append_eq_ok fedRest
  obtain ⟨depth, listing⟩ := Progress.feedAll_block opens balanced fedBlock
  obtain ⟨startWidth, startSize⟩ := Progress.width_and_size_of_feedAll fedBefore
  refine ⟨earlier, during, start, finish, place (start.depth + 1) (inner.map Rendering.ofLine),
    fedBefore, by simpa [Progress.start] using startSize, fedBlock, ?_, ?_, fun p member => ?_,
    depth, ?_, ?_⟩
  · rw [listing]
    simp [Listing.extend, startWidth, Progress.start]
  · rw [map_text_place, List.map_map]
    rfl
  · refine le_depth_of_mem_place (fun i => ?_) member
    rw [List.map_map]
    exact balanced.2 i
  · rw [program]
    exact Progress.body_isPrefix_toText fedAfter
  · obtain ⟨behind, program⟩ := exists_splitOn_program compiled
    obtain ⟨startLines, startDepth⟩ := Progress.of_feedAll_start fedBefore
    have cut : renderings source = before.map Rendering.ofLine ++
        ((Rendering.ofLine opening :: (inner.map Rendering.ofLine ++ [Rendering.ofLine ['}']])) ++
          after.map Rendering.ofLine) := by
      rw [renderings, lines]
      simp
    have closed : (Rendering.ofLine ['}']).change = .closes := rfl
    have inside : Balanced ((inner.map Rendering.ofLine).map Rendering.change) := by
      rw [List.map_map]
      exact balanced
    rw [cut, place_append, place_append, ← startDepth,
      place_block start.depth (change_of_opening opens) closed inside] at program
    generalize place _ (after.map Rendering.ofLine) = rest at program
    refine ⟨rest.map (Placed.line width) ++ behind, program.trans ?_⟩
    rw [startLines]
    simp only [List.map_append, List.map_cons, List.append_assoc, List.cons_append,
      List.nil_append]
    rfl

/-- Two braces that close nothing, and the block of an entry point with a block
in it. -/
def surplusCloses : Text :=
  "\x7d\n\x7d\nint main() \x7b\n\x7b\nx = 1;\n\x7d\n\x7d\nint a;\n".toList

theorem compile_block_aligned_surplusCloses :
    ∃ (compilation : Compilation) (start finish : Progress) (inside : List Placed),
      compile 2 surplusCloses = .ok compilation ∧
      compilation.program = ("\x7d\n\x7d\nfunction main() \x7b\n  \x7b\n    x = 1;\n  \x7d\n" ++
        "\x7d\nlet a;\n\nmain();\n").toList ∧
      (Progress.start 2).feedAll [['}'], ['}']] = .ok ([], start) ∧
      start.listing.lines.size = 2 ∧
      start.feedAll ["int main() \x7b".toList, ['{'], "x = 1;".toList, ['}'], ['}']] =
        .ok ([], finish) ∧
      finish.listing.lines.toList = start.listing.lines.toList ++
        Placed.line 2 ⟨start.depth, "function main() \x7b".toList⟩ ::
          (inside.map (Placed.line 2) ++ [Placed.line 2 ⟨start.depth, ['}']⟩]) ∧
      inside.map Placed.text = [['{'], "x = 1;".toList, ['}']] ∧
      (∀ p ∈ inside, start.depth + 1 ≤ p.depth) ∧
      finish.depth = start.depth ∧
      finish.listing.body <+: compilation.program ∧
      ∃ behind, compilation.program.splitOn '\n' = start.listing.lines.toList ++
        Placed.line 2 ⟨start.depth, "function main() \x7b".toList⟩ ::
          (inside.map (Placed.line 2) ++ Placed.line 2 ⟨start.depth, ['}']⟩ :: behind) := by
  have compiled : compile 2 surplusCloses = .ok
      { program := ("\x7d\n\x7d\nfunction main() \x7b\n  \x7b\n    x = 1;\n  \x7d\n" ++
          "\x7d\nlet a;\n\nmain();\n").toList
        shortages := [] } := by
    decide
  have kept : (SourceLine.ofSource surplusCloses).map SourceLine.text =
      [['}'], ['}']] ++ "int main() \x7b".toList ::
        ([['{'], "x = 1;".toList, ['}']] ++ ['}'] :: ["int a;".toList]) := by
    decide
  have changes : [['{'], "x = 1;".toList, ['}']].map (fun line => (Rendering.ofLine line).change) =
      [.opens, .keep, .closes] := by
    decide
  have balanced : Balanced ([['{'], "x = 1;".toList, ['}']].map fun line =>
      (Rendering.ofLine line).change) := by
    rw [changes]
    refine ⟨rfl, fun i => ?_⟩
    rcases i with _ | _ | _ | i <;> simp [level, balance]
  obtain ⟨earlier, during, start, finish, inside, fedBefore, size, fedBlock, lines, texts, deeper,
    depth, written, cut⟩ := compile_block_aligned compiled kept (.inl (by decide)) balanced
  cases fedBefore
  cases fedBlock
  exact ⟨_, _, _, inside, compiled, rfl, rfl, size, rfl, lines, texts, deeper, depth,
    written, cut⟩

end Linewise
