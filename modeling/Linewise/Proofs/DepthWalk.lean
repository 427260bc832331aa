/-
# Linewise.Proofs.DepthWalk -- the depth as a reflected walk

Opening lines step up and closing lines step down, and a close at depth zero
stays at zero. Without that floor the height behind the first `i` lines is
`level i`, which may be negative. With it the depth is the height above the
lowest point so far, `reflected i`: every close that the floor swallows lowers
that point by one, and nothing else does (`lowest_succ`).

`depthAfter_take` is the equation between the running depth and the walk,
`place_eq_mapIdx` gives the depth of every line from it, and
`noOverflow_iff_withinBounds` says in the same terms when a pass leaves its
bounds. A balanced sequence ends where it began (`reflected_of_balanced`).
-/
import Linewise.Proofs.Pass
import Mathlib.Data.Finset.Lattice.Fold
import Mathlib.Data.Finset.Range
import Mathlib.Order.Lattice

namespace Linewise

set_option autoImplicit false

/-! ## The walk -/

/-- Opening lines less closing lines. -/
def balance (changes : List DepthChange) : ℤ :=
  changes.count .opens - changes.count .closes

/-- The height of the walk behind the first `i` changes. -/
def level (changes : List DepthChange) (i : Nat) : ℤ :=
  balance (changes.take i)

/-- The lowest height up to there, the start included. -/
def lowest (changes : List DepthChange) (i : Nat) : ℤ :=
  (Finset.range (i + 1)).inf' ⟨0, by simp⟩ (level changes)

/-- The height above the lowest point so far. -/
def reflected (changes : List DepthChange) (i : Nat) : ℤ :=
  level changes i - lowest changes i

/-- The depth of line `i`: a closing line is rendered behind its close, any
other line before its change. -/
def lineDepth (changes : List DepthChange) (i : Nat) : ℤ :=
  if changes[i]? = some .closes then reflected changes (i + 1) else reflected changes i

/-- A sequence that closes exactly what it opens, and nothing before. -/
def Balanced (changes : List DepthChange) : Prop :=
  balance changes = 0 ∧ ∀ i, 0 ≤ level changes i

theorem balance_append (first second : List DepthChange) :
    balance (first ++ second) = balance first + balance second := by
  simp only [balance, List.count_append]
  omega

theorem level_zero (changes : List DepthChange) : level changes 0 = 0 := rfl

theorem level_succ (changes : List DepthChange) (i : Nat) :
    level changes (i + 1) = level changes i + balance changes[i]?.toList := by
  rw [level, List.take_add_one, balance_append, level]

theorem lowest_zero (changes : List DepthChange) : lowest changes 0 = 0 := by
  simp [lowest, level_zero]

theorem lowest_succ (changes : List DepthChange) (i : Nat) :
    lowest changes (i + 1) = min (level changes (i + 1)) (lowest changes i) := by
  have grow : Finset.range (i + 1 + 1) = insert (i + 1) (Finset.range (i + 1)) :=
    Finset.range_add_one
  simp only [lowest, grow]
  exact Finset.inf'_insert _ _

theorem lowest_le_level (changes : List DepthChange) (i : Nat) :
    lowest changes i ≤ level changes i :=
  Finset.inf'_le _ (by simp)

theorem reflected_nonneg (changes : List DepthChange) (i : Nat) : 0 ≤ reflected changes i := by
  have := lowest_le_level changes i
  unfold reflected
  omega

/-- One step of the reflected walk, which is the step of the depth. -/
theorem reflected_succ (changes : List DepthChange) (i : Nat) :
    reflected changes (i + 1) =
      match changes[i]? with
      | some .opens => reflected changes i + 1
      | some .closes => max (reflected changes i - 1) 0
      | _ => reflected changes i := by
  have above := lowest_le_level changes i
  unfold reflected
  rw [lowest_succ, level_succ]
  rcases changes[i]? with _ | change
  · simp only [Option.toList, balance, List.count_nil]
    omega
  · cases change with
    | keep =>
        have level : balance [DepthChange.keep] = 0 := rfl
        simp only [Option.toList, level]
        omega
    | opens =>
        have up : balance [DepthChange.opens] = 1 := rfl
        simp only [Option.toList, up]
        omega
    | closes =>
        have down : balance [DepthChange.closes] = -1 := rfl
        simp only [Option.toList, down]
        omega

theorem reflected_of_balanced {changes : List DepthChange} (balanced : Balanced changes) :
    reflected changes changes.length = 0 := by
  obtain ⟨closed, above⟩ := balanced
  have last : level changes changes.length = 0 := by rw [level, List.take_length, closed]
  have floor : 0 ≤ lowest changes changes.length :=
    Finset.le_inf' _ _ fun i _ => above i
  have := reflected_nonneg changes changes.length
  unfold reflected at this ⊢
  omega

/-! ## The running depth -/

theorem depthAfter_concat (depth : Nat) (changes : List DepthChange) (change : DepthChange) :
    depthAfter depth (changes ++ [change]) = change.nextDepth (depthAfter depth changes) := by
  simp [depthAfter]

/-- The running depth is the reflected walk. -/
theorem depthAfter_take (changes : List DepthChange) (i : Nat) :
    (depthAfter 0 (changes.take i) : ℤ) = reflected changes i := by
  induction i with
  | zero => simp [depthAfter, reflected, level_zero, lowest_zero]
  | succ i ih =>
      rw [List.take_add_one, reflected_succ, ← ih]
      rcases changes[i]? with _ | change
      · rw [Option.toList, List.append_nil]
      · rw [Option.toList, depthAfter_concat]
        cases change with
        | keep => rfl
        | opens => simp [DepthChange.nextDepth]
        | closes =>
            simp only [DepthChange.nextDepth]
            omega

theorem renderDepth_eq_lineDepth {changes : List DepthChange} {i : Nat} {change : DepthChange}
    (found : changes[i]? = some change) :
    (change.renderDepth (depthAfter 0 (changes.take i)) : ℤ) = lineDepth changes i := by
  unfold lineDepth
  rw [found]
  cases change with
  | keep => simpa [DepthChange.renderDepth] using depthAfter_take changes i
  | opens => simpa [DepthChange.renderDepth] using depthAfter_take changes i
  | closes =>
      have next := depthAfter_take changes (i + 1)
      rw [List.take_add_one, found, Option.toList, depthAfter_concat] at next
      simpa [DepthChange.renderDepth, DepthChange.nextDepth] using next

theorem place_eq_mapIdx_depthAfter (depth : Nat) (rs : List Rendering) :
    place depth rs = rs.mapIdx fun i r =>
      ⟨r.change.renderDepth (depthAfter depth ((rs.map Rendering.change).take i)), r.text⟩ := by
  induction rs generalizing depth with
  | nil => rfl
  | cons r rest ih =>
      rw [place, List.mapIdx_cons, ih]
      rfl

/-- Every line stands at its depth on the reflected walk. -/
theorem place_eq_mapIdx (rs : List Rendering) :
    place 0 rs = rs.mapIdx fun i r =>
      ⟨(lineDepth (rs.map Rendering.change) i).toNat, r.text⟩ := by
  rw [place_eq_mapIdx_depthAfter]
  apply List.mapIdx_eq_mapIdx_iff.2
  intro i inside
  have found : (rs.map Rendering.change)[i]? = some rs[i].change := by simp [inside]
  rw [← renderDepth_eq_lineDepth found, Int.toNat_natCast]

/-! ## Bounds -/

/-- The bounds of a pass on the reflected walk. -/
structure WithinBounds (width : Nat) (changes : List DepthChange) : Prop where
  depths : ∀ i, changes[i]? = some .opens → reflected changes i < wordLimit
  indentations : ∀ i < changes.length, lineDepth changes i * width ≤ textLimit

theorem depthsBounded_iff {depth : Nat} {changes : List DepthChange} :
    DepthsBounded depth changes ↔
      ∀ i, changes[i]? = some .opens → depthAfter depth (changes.take i) < wordLimit := by
  induction changes generalizing depth with
  | nil => simp [DepthsBounded]
  | cons change rest ih =>
      rw [DepthsBounded, ih]
      constructor
      · rintro ⟨first, others⟩ i opens
        cases i with
        | zero => exact first (by simpa using opens)
        | succ i => exact others i (by simpa using opens)
      · intro all
        exact ⟨fun opens => all 0 (by simp [opens]), fun i opens => all (i + 1) (by simpa using opens)⟩

theorem noOverflow_iff_withinBounds {width : Nat} {rs : List Rendering} :
    NoOverflow width 0 rs ↔ WithinBounds width (rs.map Rendering.change) := by
  have depths : DepthsBounded 0 (rs.map Rendering.change) ↔
      ∀ i, (rs.map Rendering.change)[i]? = some .opens →
        reflected (rs.map Rendering.change) i < wordLimit := by
    rw [depthsBounded_iff]
    simp only [← depthAfter_take, Int.ofNat_lt]
  have indentations : (∀ p ∈ place 0 rs, p.Fits width) ↔
      ∀ i < (rs.map Rendering.change).length,
        lineDepth (rs.map Rendering.change) i * width ≤ textLimit := by
    rw [place_eq_mapIdx_depthAfter]
    simp only [List.mem_mapIdx, forall_exists_index, List.length_map]
    constructor
    · intro fits i inside
      have found : (rs.map Rendering.change)[i]? = some rs[i].change := by simp [inside]
      rw [← renderDepth_eq_lineDepth found]
      exact_mod_cast fits _ i inside rfl
    · rintro bound p i inside rfl
      have found : (rs.map Rendering.change)[i]? = some rs[i].change := by simp [inside]
      have := bound i inside
      rw [← renderDepth_eq_lineDepth found] at this
      exact_mod_cast this
  exact ⟨fun h => ⟨depths.1 h.depths, indentations.1 h.indentations⟩,
    fun h => ⟨depths.2 h.depths, indentations.2 h.indentations⟩⟩

end Linewise
