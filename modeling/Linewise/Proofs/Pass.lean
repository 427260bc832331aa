/-
# Linewise.Proofs.Pass -- a whole pass in closed form

A pass takes in one line after the other, and any of them can leave the bounds
of a machine word or of a text. This module says once what a step does and
when it fails, and from that what a pass does and when it fails:

* `DepthChange.apply_eq_ok_iff`, `Listing.add_eq_ok_iff`: one change of depth,
  one added line;
* `Listing.addAll_eq_ok_iff`: a sequence of added lines;
* `Progress.feedAll_eq_ok_iff`: a sequence of source lines;
* `compile_eq_ok_iff`: a source.

Each is an equivalence, so that a result and a failure are both determined.
The running depth appears only in `place`, which pairs every rendering with the
depth it is rendered at; `programText` makes a program of such pairs.
-/
import Linewise.Program
import Mathlib.Data.List.Basic

namespace Linewise

set_option autoImplicit false

theorem bind_eq_ok_iff {ε α β : Type} {x : Except ε α} {f : α → Except ε β} {b : β} :
    (x >>= f) = .ok b ↔ ∃ a, x = .ok a ∧ f a = .ok b := by
  cases x with
  | error e => simp [bind, Except.bind]
  | ok a => simp [bind, Except.bind]

/-! ## One line -/

namespace DepthChange

/-- The depth at which a line with this change is rendered. -/
def renderDepth : DepthChange → Nat → Nat
  | .closes, depth => depth - 1
  | _, depth => depth

/-- The depth of the line after it. -/
def nextDepth : DepthChange → Nat → Nat
  | .keep, depth => depth
  | .opens, depth => depth + 1
  | .closes, depth => depth - 1

theorem apply_eq_ok_iff {change : DepthChange} {depth : Nat} {result : Nat × Nat} :
    change.apply depth = .ok result ↔
      (change = .opens → depth < wordLimit) ∧
        result = (change.renderDepth depth, change.nextDepth depth) := by
  cases change with
  | keep => simp [apply, renderDepth, nextDepth, eq_comm]
  | closes => simp [apply, shallower, renderDepth, nextDepth, eq_comm]
  | opens =>
      simp only [apply, deeper, renderDepth, nextDepth]
      split
      · rename_i h; simp [Except.map, h, eq_comm]
      · rename_i h; simp [Except.map, h]

end DepthChange

theorem Rule.select_mem (line : Text) : select all line ∈ all := by
  unfold select
  cases found : all.find? (·.accepts line) with
  | none => simp [all]
  | some rule => exact List.mem_of_find?_eq_some found

theorem Rule.select_eq {line : Text} (before : List Rule) {after : List Rule} {rule : Rule}
    (order : all = before ++ rule :: after) (rejected : ∀ r ∈ before, r.accepts line = false)
    (accepted : rule.accepts line = true) : select all line = rule := by
  have noEarlier : before.find? (·.accepts line) = none := by
    simpa [List.find?_eq_none] using rejected
  have first : (rule :: after).find? (·.accepts line) = some rule :=
    List.find?_cons_of_pos accepted
  rw [select, order, List.find?_append, noEarlier, Option.none_or, first, Option.getD_some]

/-- What the first accepting rule makes of a line. -/
def Rendering.ofLine (line : Text) : Rendering :=
  (Rule.select Rule.all line).render line

/-- The step of a line at a depth that can still grow. -/
def Step.unbounded (depth : Nat) (line : Text) : Step where
  kind := LineKind.ofLine line
  text := (Rendering.ofLine line).text
  renderDepth := (Rendering.ofLine line).change.renderDepth depth
  nextDepth := (Rendering.ofLine line).change.nextDepth depth
  shortage := (Rendering.ofLine line).shortage

theorem Step.ofLine_eq_ok_iff {depth : Nat} {line : Text} {step : Step} :
    Step.ofLine depth line = .ok step ↔
      ((Rendering.ofLine line).change = .opens → depth < wordLimit) ∧
        step = Step.unbounded depth line := by
  unfold Step.ofLine
  rw [bind_eq_ok_iff]
  simp only [DepthChange.apply_eq_ok_iff]
  constructor
  · rintro ⟨depths, ⟨bound, rfl⟩, eq⟩
    exact ⟨bound, (Except.ok.inj eq).symm⟩
  · rintro ⟨bound, rfl⟩
    exact ⟨_, ⟨bound, rfl⟩, rfl⟩

/-! ## Lines of a listing -/

/-- A text with the depth it is rendered at. -/
structure Placed where
  depth : Nat
  text : Text
  deriving Repr, DecidableEq

namespace Placed

/-- The text behind its indentation. -/
def line (width : Nat) (p : Placed) : Text :=
  List.replicate (p.depth * width) ' ' ++ p.text

/-- The indentation can be written. -/
def Fits (width : Nat) (p : Placed) : Prop :=
  p.depth * width ≤ textLimit

instance (width : Nat) (p : Placed) : Decidable (p.Fits width) :=
  inferInstanceAs (Decidable (_ ≤ _))

end Placed

namespace Listing

/-- Add texts in order. -/
def addAll (listing : Listing) (texts : List Placed) : Except Overflow Listing :=
  texts.foldlM (fun listing p => listing.add p.depth p.text) listing

/-- The listing with the texts behind its lines, whatever their indentations. -/
def extend (listing : Listing) (texts : List Placed) : Listing :=
  { listing with
    lines := listing.lines ++ (texts.map (Placed.line listing.width)).toArray
    callsEntry := listing.callsEntry || texts.any (EntryCall.isIn ·.text) }

theorem extend_nil (listing : Listing) : listing.extend [] = listing := by
  simp [extend]

theorem extend_cons (listing : Listing) (p : Placed) (rest : List Placed) :
    listing.extend (p :: rest) = (listing.extend [p]).extend rest := by
  simp [extend, Bool.or_assoc]

theorem add_eq_ok_iff {listing after : Listing} {depth : Nat} {text : Text} :
    listing.add depth text = .ok after ↔
      Placed.Fits listing.width ⟨depth, text⟩ ∧ after = listing.extend [⟨depth, text⟩] := by
  unfold add indentation Placed.Fits
  split
  · rename_i h
    simp [Except.map, extend, Placed.line, h, eq_comm]
  · rename_i h
    simp [Except.map, h]

theorem addAll_eq_ok_iff {listing after : Listing} {texts : List Placed} :
    listing.addAll texts = .ok after ↔
      (∀ p ∈ texts, p.Fits listing.width) ∧ after = listing.extend texts := by
  induction texts generalizing listing with
  | nil => simp [addAll, extend_nil, pure, Except.pure, eq_comm]
  | cons p rest ih =>
      have step : listing.addAll (p :: rest) =
          listing.add p.depth p.text >>= fun listing => listing.addAll rest := rfl
      rw [step, bind_eq_ok_iff]
      simp only [add_eq_ok_iff, ih, List.forall_mem_cons]
      constructor
      · rintro ⟨_, ⟨fits, rfl⟩, fitsRest, rfl⟩
        exact ⟨⟨fits, fitsRest⟩, (extend_cons listing p rest).symm⟩
      · rintro ⟨⟨fits, fitsRest⟩, rfl⟩
        exact ⟨_, ⟨fits, rfl⟩, fitsRest, extend_cons listing p rest⟩

end Listing

/-- The program made of the texts: each behind its indentation and with a line
feed, and, where none of them makes it, an empty line and the call of the entry
point. -/
def programText (width : Nat) (texts : List Placed) : Text :=
  (texts.flatMap fun p => p.line width ++ ['\n']) ++
    if texts.any (EntryCall.isIn ·.text) then [] else "\nmain();\n".toList

theorem Listing.toText_extend (width : Nat) (texts : List Placed) :
    (Listing.extend { width } texts).toText = programText width texts := by
  have lines : (Listing.extend { width } texts).body =
      texts.flatMap fun p => p.line width ++ ['\n'] := by
    simp [Listing.extend, Listing.body, List.flatMap_map]
  have calls : (Listing.extend { width } texts).callsEntry =
      texts.any (EntryCall.isIn ·.text) := by
    simp [Listing.extend]
  rw [Listing.toText, programText, lines, calls]
  split
  · exact (List.append_nil _).symm
  · rfl

/-! ## A pass -/

/-- Each rendering at its depth, where the first line starts from `depth`. -/
def place (depth : Nat) : List Rendering → List Placed
  | [] => []
  | r :: rest => ⟨r.change.renderDepth depth, r.text⟩ :: place (r.change.nextDepth depth) rest

/-- The depth behind a sequence of changes. -/
def depthAfter (depth : Nat) (changes : List DepthChange) : Nat :=
  changes.foldl (fun depth change => change.nextDepth depth) depth

/-- Every opening line finds a depth that can still grow. -/
def DepthsBounded (depth : Nat) : List DepthChange → Prop
  | [] => True
  | change :: rest =>
      (change = .opens → depth < wordLimit) ∧ DepthsBounded (change.nextDepth depth) rest

/-- No line of a pass leaves the bounds, neither with the depth behind it nor
with its own indentation. -/
structure NoOverflow (width depth : Nat) (renderings : List Rendering) : Prop where
  depths : DepthsBounded depth (renderings.map Rendering.change)
  indentations : ∀ p ∈ place depth renderings, p.Fits width

theorem noOverflow_nil (width depth : Nat) : NoOverflow width depth [] :=
  ⟨trivial, by simp [place]⟩

theorem noOverflow_cons {width depth : Nat} {r : Rendering} {rest : List Rendering} :
    NoOverflow width depth (r :: rest) ↔
      (r.change = .opens → depth < wordLimit) ∧
        Placed.Fits width ⟨r.change.renderDepth depth, r.text⟩ ∧
          NoOverflow width (r.change.nextDepth depth) rest := by
  constructor
  · rintro ⟨depths, indentations⟩
    rw [place, List.forall_mem_cons] at indentations
    exact ⟨depths.1, indentations.1, depths.2, indentations.2⟩
  · rintro ⟨bound, fits, depths, indentations⟩
    refine ⟨⟨bound, depths⟩, ?_⟩
    rw [place, List.forall_mem_cons]
    exact ⟨fits, indentations⟩

namespace Progress

/-- Where a pass stands behind these renderings, whatever the bounds. -/
def after (progress : Progress) (renderings : List Rendering) : Progress where
  depth := depthAfter progress.depth (renderings.map Rendering.change)
  listing := progress.listing.extend (place progress.depth renderings)

theorem after_nil (progress : Progress) : progress.after [] = progress := by
  simp [after, place, Listing.extend_nil, depthAfter]

theorem after_cons (progress : Progress) (r : Rendering) (rest : List Rendering) :
    progress.after (r :: rest) = (progress.after [r]).after rest := by
  simp only [after, place, Progress.mk.injEq]
  exact ⟨rfl, Listing.extend_cons _ _ _⟩

theorem feed_eq_ok_iff {progress : Progress} {line : Text} {result : Step × Progress} :
    progress.feed line = .ok result ↔
      NoOverflow progress.listing.width progress.depth [Rendering.ofLine line] ∧
        result = (Step.unbounded progress.depth line, progress.after [Rendering.ofLine line]) := by
  unfold feed
  simp only [bind_eq_ok_iff, Step.ofLine_eq_ok_iff, Listing.add_eq_ok_iff, noOverflow_cons,
    noOverflow_nil, and_true]
  constructor
  · rintro ⟨step, ⟨bound, rfl⟩, listing, ⟨fits, rfl⟩, eq⟩
    exact ⟨⟨bound, fits⟩, (Except.ok.inj eq).symm⟩
  · rintro ⟨⟨bound, fits⟩, rfl⟩
    exact ⟨_, ⟨bound, rfl⟩, _, ⟨fits, rfl⟩, rfl⟩

theorem feedAll_cons (progress : Progress) (line : Text) (rest : List Text) :
    progress.feedAll (line :: rest) = progress.feed line >>= fun fed =>
      fed.2.feedAll rest >>= fun more => .ok (fed.1.shortage.toList ++ more.1, more.2) := rfl

/-- A pass over lines succeeds exactly when nothing overflows. -/
theorem feedAll_eq_ok_iff {progress : Progress} {lines : List Text}
    {result : List Shortage × Progress} :
    progress.feedAll lines = .ok result ↔
      NoOverflow progress.listing.width progress.depth (lines.map Rendering.ofLine) ∧
        result = ((lines.map Rendering.ofLine).filterMap Rendering.shortage,
          progress.after (lines.map Rendering.ofLine)) := by
  induction lines generalizing progress result with
  | nil =>
      simp only [feedAll, List.map_nil, noOverflow_nil, true_and, List.filterMap_nil, after_nil,
        Except.ok.injEq]
      exact eq_comm
  | cons line rest ih =>
      have shortages : (Step.unbounded progress.depth line).shortage.toList ++
            (rest.map Rendering.ofLine).filterMap Rendering.shortage =
          ((line :: rest).map Rendering.ofLine).filterMap Rendering.shortage := by
        cases h : (Rendering.ofLine line).shortage <;> simp [Step.unbounded, h]
      have noOverflow : NoOverflow progress.listing.width progress.depth
            ((line :: rest).map Rendering.ofLine) ↔
          NoOverflow progress.listing.width progress.depth [Rendering.ofLine line] ∧
            NoOverflow (progress.after [Rendering.ofLine line]).listing.width
              (progress.after [Rendering.ofLine line]).depth (rest.map Rendering.ofLine) := by
        rw [List.map_cons, noOverflow_cons, noOverflow_cons, and_assoc, and_assoc]
        simp only [noOverflow_nil, true_and]
        rfl
      rw [feedAll_cons, bind_eq_ok_iff, noOverflow, ← shortages, List.map_cons,
        after_cons _ _ (rest.map Rendering.ofLine)]
      simp only [bind_eq_ok_iff, feed_eq_ok_iff, ih]
      constructor
      · rintro ⟨_, ⟨first, rfl⟩, _, ⟨others, rfl⟩, eq⟩
        exact ⟨⟨first, others⟩, (Except.ok.inj eq).symm⟩
      · rintro ⟨⟨first, others⟩, rfl⟩
        exact ⟨_, ⟨first, rfl⟩, _, ⟨others, rfl⟩, rfl⟩

end Progress

/-- The renderings of the lines of a source that count. -/
def renderings (source : Text) : List Rendering :=
  ((SourceLine.ofSource source).map SourceLine.text).map Rendering.ofLine

/-- A source compiles exactly when its pass does not overflow, and then to the
program of its placed renderings. -/
theorem compile_eq_ok_iff {width : Nat} {source : Text} {compilation : Compilation} :
    compile width source = .ok compilation ↔
      NoOverflow width 0 (renderings source) ∧
        compilation = { program := programText width (place 0 (renderings source))
                        shortages := (renderings source).filterMap Rendering.shortage } := by
  have unfolded : compile width source =
      (Progress.start width).feedAll ((SourceLine.ofSource source).map SourceLine.text) >>=
        fun fed => .ok { program := fed.2.listing.toText, shortages := fed.1 } := rfl
  have text : ((Progress.start width).after (renderings source)).listing.toText =
      programText width (place 0 (renderings source)) :=
    Listing.toText_extend width (place 0 (renderings source))
  rw [unfolded, bind_eq_ok_iff]
  simp only [Progress.feedAll_eq_ok_iff]
  constructor
  · rintro ⟨_, ⟨noOverflow, rfl⟩, eq⟩
    exact ⟨noOverflow, text ▸ (Except.ok.inj eq).symm⟩
  · rintro ⟨noOverflow, rfl⟩
    exact ⟨_, ⟨noOverflow, rfl⟩, text ▸ rfl⟩

end Linewise
