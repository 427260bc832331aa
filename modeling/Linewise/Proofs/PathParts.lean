/-
# Linewise.Proofs.PathParts -- a name below a directory, and the path above

`join` puts a name below a directory, and `segments_join` says that it does: the walk
along the joined path is the walk to the directory and one step more, and the name, its
stem and its extension are read back from it (`fileName?_join`, `splitName_eq_iff`).

`parent?` drops the last component. What is left is shorter, a subsequence of the path
(`IsAbove`), and its segments are those of the path up to some point, without
names `.` on the way (`Thins`).
-/
import Linewise.Files.Path
import Linewise.Text.Lemmas
import Mathlib.Data.List.Basic

namespace Linewise.Path

open Text

set_option autoImplicit false

/-! ## Segments -/

theorem not_mem_of_mem_splitOn {mark : UInt8} {t piece : Path} (member : piece ∈ t.splitOn mark) :
    mark ∉ piece := by
  induction t generalizing piece with
  | nil =>
      rw [List.splitOn_nil, List.mem_singleton] at member
      simp [member]
  | cons c rest ih =>
      rw [List.splitOn_cons_eq_if_modifyHead] at member
      split at member
      · rcases List.mem_cons.1 member with rfl | behind
        · exact List.not_mem_nil
        · exact ih behind
      · next other =>
          obtain ⟨first, others, cut⟩ := List.exists_cons_of_ne_nil (List.splitOn_ne_nil mark rest)
          rw [cut, List.modifyHead_cons, List.mem_cons] at member
          rcases member with rfl | behind
          · have inFirst : mark ∉ first := ih (cut ▸ List.mem_cons_self)
            have differs : mark ≠ c := by
              rintro rfl
              exact other BEq.rfl
            simp [differs, inFirst]
          · exact ih (cut ▸ List.mem_cons_of_mem _ behind)

/-- A segment is not empty and has no slash. -/
theorem of_mem_segments {path name : Path} (member : name ∈ segments path) :
    name ≠ [] ∧ slash ∉ name := by
  obtain ⟨inSplit, nonempty⟩ := List.mem_filter.1 member
  exact ⟨by simpa using nonempty, not_mem_of_mem_splitOn inSplit⟩

theorem segments_append_slash (front behind : Path) :
    segments (front ++ slash :: behind) = segments front ++ segments behind := by
  rw [segments, List.splitOn_append_cons_self, List.filter_append]
  rfl

theorem segments_nil : segments [] = [] := rfl

/-- A name that an entry of a directory can have. -/
structure IsName (name : Path) : Prop where
  nonempty : name ≠ []
  slash : Path.slash ∉ name
  zero : 0 ∉ name
  here : name ≠ "."
  above : name ≠ ".."

theorem segments_eq_singleton {name : Path} (nonempty : name ≠ []) (plain : slash ∉ name) :
    segments name = [name] := by
  simp [segments, List.splitOn_eq_singleton plain, nonempty]

theorem exists_of_endsInSlash {path : Path} (ends : endsInSlash path = true) :
    ∃ front, path = front ++ [slash] :=
  List.getLast?_eq_some_iff.1 (of_decide_eq_true ends)

/-! ## A name below a directory -/

variable {directory name : Path}

theorem not_isAbsolute (plain : slash ∉ name) : isAbsolute name = false := by
  refine decide_eq_false fun first => plain ?_
  exact List.mem_of_mem_head? first

/-- The three forms of a joined path. -/
theorem join_cases (directory : Path) (plain : slash ∉ name) :
    (directory = [] ∧ join directory name = name) ∨
      (∃ front, directory = front ++ [slash] ∧ join directory name = front ++ slash :: name) ∨
      (directory ≠ [] ∧ join directory name = directory ++ slash :: name) := by
  unfold join
  rw [not_isAbsolute plain, Bool.false_or]
  by_cases empty : directory = []
  · subst empty
    exact .inl ⟨rfl, rfl⟩
  · rw [if_neg (by simpa using empty)]
    by_cases ends : endsInSlash directory = true
    · obtain ⟨front, rfl⟩ := exists_of_endsInSlash ends
      exact .inr (.inl ⟨front, rfl, by rw [if_pos ends, List.append_assoc, List.singleton_append]⟩)
    · exact .inr (.inr ⟨empty, by rw [if_neg ends]⟩)

/-- The walk to a name below a directory passes the directory. -/
theorem segments_join (nonempty : name ≠ []) (plain : slash ∉ name) :
    segments (join directory name) = segments directory ++ [name] := by
  rcases join_cases directory plain with ⟨rfl, eq⟩ | ⟨front, rfl, eq⟩ | ⟨-, eq⟩
  · rw [eq, segments_nil, segments_eq_singleton nonempty plain, List.nil_append]
  · rw [eq, segments_append_slash, segments_append_slash, segments_nil, List.append_nil,
      segments_eq_singleton nonempty plain]
  · rw [eq, segments_append_slash, segments_eq_singleton nonempty plain]

theorem isAbsolute_append {front : Path} (nonempty : front ≠ []) (behind : Path) :
    isAbsolute (front ++ behind) = isAbsolute front := by
  rw [isAbsolute, isAbsolute, List.head?_append_of_ne_nil _ nonempty]

theorem isAbsolute_join (plain : slash ∉ name) :
    isAbsolute (join directory name) = isAbsolute directory := by
  rcases join_cases directory plain with ⟨rfl, eq⟩ | ⟨front, rfl, eq⟩ | ⟨nonempty, eq⟩
  · rw [eq, not_isAbsolute plain]
    rfl
  · rw [eq, List.append_cons, isAbsolute_append (by simp)]
  · rw [eq, isAbsolute_append nonempty]

theorem endsInSlash_append (front : Path) (nonempty : name ≠ []) (plain : slash ∉ name) :
    endsInSlash (front ++ name) = false := by
  refine decide_eq_false fun last => plain ?_
  rw [List.getLast?_append_of_ne_nil _ nonempty] at last
  exact List.mem_of_getLast? last

theorem endsInSlash_join (nonempty : name ≠ []) (plain : slash ∉ name) :
    endsInSlash (join directory name) = false := by
  rcases join_cases directory plain with ⟨rfl, eq⟩ | ⟨front, rfl, eq⟩ | ⟨-, eq⟩
  · rw [eq]
    exact endsInSlash_append [] nonempty plain
  · rw [eq, List.append_cons]
    exact endsInSlash_append _ nonempty plain
  · rw [eq, List.append_cons]
    exact endsInSlash_append _ nonempty plain

theorem join_ne_nil (nonempty : name ≠ []) (plain : slash ∉ name) : join directory name ≠ [] := by
  rcases join_cases directory plain with ⟨rfl, eq⟩ | ⟨front, rfl, eq⟩ | ⟨-, eq⟩ <;>
    simp [eq, nonempty]

theorem not_mem_join {byte : UInt8} (plain : slash ∉ name) (other : byte ≠ slash)
    (inDirectory : byte ∉ directory) (inName : byte ∉ name) : byte ∉ join directory name := by
  rcases join_cases directory plain with ⟨rfl, eq⟩ | ⟨front, rfl, eq⟩ | ⟨-, eq⟩
  · rwa [eq]
  · simp_all
  · simp [eq, other, inDirectory, inName]

theorem getLast?_components_of_segments {path : Path} {front : List Path} {name : Path}
    (parts : segments path = front ++ [name]) (here : name ≠ ".") :
    (components path).getLast? = some name := by
  unfold components
  rw [parts]
  cases front with
  | nil => simp [here]
  | cons first rest =>
      simp only [List.cons_append, List.filter_append]
      have kept : [name].filter (fun n => decide (n ≠ ofString ".")) = [name] := by simp [here]
      rw [kept]
      split
      · exact List.getLast?_concat
      · rw [← List.cons_append]
        exact List.getLast?_concat

/-- The name of a joined path is the name that was joined. -/
theorem fileName?_join (isName : IsName name) : fileName? (join directory name) = some name := by
  unfold fileName?
  rw [getLast?_components_of_segments (segments_join isName.nonempty isName.slash) isName.here]
  simp [isName.here, isName.above]

/-! ## Stem and extension -/

/-- A name is cut at its last dot, unless nothing precedes it. -/
theorem splitName_eq_iff {stem extension : Path} (above : name ≠ "..") :
    splitName name = (stem, some extension) ↔
      stem ≠ [] ∧ dot ∉ extension ∧ name = stem ++ dot :: extension := by
  unfold splitName
  rw [if_neg above]
  constructor
  · intro cut
    split at cut
    · cases cut
    · cases cut
    · next before after nonempty found =>
        cases cut
        obtain ⟨eq, last⟩ := splitAtLast?_eq_some_iff.1 found
        exact ⟨nonempty, last, eq⟩
  · rintro ⟨nonempty, last, rfl⟩
    rw [splitAtLast?_append stem last]
    cases stem with
    | nil => exact absurd rfl nonempty
    | cons byte rest => rfl

/-! ## The path above -/

/-- The second list is the first without some names `.`. -/
inductive Thins : List Path → List Path → Prop
  | nil : Thins [] []
  | keep (name : Path) {names thinned : List Path} :
      Thins names thinned → Thins (name :: names) (name :: thinned)
  | drop {names thinned : List Path} : Thins names thinned → Thins (ofString "." :: names) thinned

theorem thins_filter (names : List Path) : Thins names (names.filter (· ≠ ofString ".")) := by
  induction names with
  | nil => exact .nil
  | cons name rest ih =>
      by_cases here : name = "."
      · subst here
        exact .drop ih
      · rw [List.filter_cons_of_pos (by simpa using here)]
        exact .keep name ih

theorem thins_components (path : Path) : Thins (segments path) (components path) := by
  unfold components
  split
  · next bare =>
      rw [bare]
      exact .nil
  · next first rest eq =>
      rw [eq]
      dsimp only
      split
      · next drops =>
          have here : first = "." := by simp_all
          rw [here]
          exact .drop (thins_filter rest)
      · exact .keep first (thins_filter rest)

theorem Thins.sublist {names thinned : List Path} (thins : Thins names thinned) :
    thinned.Sublist names := by
  induction thins with
  | nil => exact .slnil
  | keep name _ ih => exact .cons_cons name ih
  | drop _ ih => exact .cons _ ih

theorem Thins.dropLast {names thinned : List Path} (thins : Thins names thinned)
    (filled : thinned ≠ []) :
    ∃ front last back, names = front ++ last :: back ∧ Thins front thinned.dropLast := by
  induction thins with
  | nil => exact absurd rfl filled
  | @keep name names thinned thins ih =>
      by_cases last : thinned = []
      · subst last
        exact ⟨[], name, names, rfl, .nil⟩
      · obtain ⟨front, next, back, rfl, shorter⟩ := ih last
        refine ⟨name :: front, next, back, rfl, ?_⟩
        rw [List.dropLast_cons_of_ne_nil last]
        exact .keep name shorter
  | drop thins ih =>
      obtain ⟨front, next, back, rfl, shorter⟩ := ih filled
      exact ⟨ofString "." :: front, next, back, rfl, .drop shorter⟩

theorem intercalate_sublist (mark : UInt8) {fewer pieces : List Path}
    (sublist : fewer.Sublist pieces) :
    ([mark].intercalate fewer).Sublist ([mark].intercalate pieces) := by
  induction sublist with
  | slnil => exact .slnil
  | @cons fewer pieces piece rest ih =>
      by_cases alone : pieces = []
      · subst alone
        simp [List.sublist_nil.1 rest]
      · rw [List.intercalate_cons_of_ne_nil alone]
        exact ih.trans (List.sublist_append_right _ _)
  | @cons_cons fewer pieces piece rest ih =>
      by_cases alone : fewer = []
      · subst alone
        cases pieces with
        | nil => exact List.Sublist.refl _
        | cons next others => simp [List.intercalate_cons_cons]
      · have more : pieces ≠ [] := by
          rintro rfl
          exact alone (List.sublist_nil.1 rest)
        rw [List.intercalate_cons_of_ne_nil alone, List.intercalate_cons_of_ne_nil more]
        exact ih.append_left _

theorem segments_intercalate {names : List Path}
    (each : ∀ name ∈ names, name ≠ [] ∧ slash ∉ name) :
    segments ([slash].intercalate names) = names := by
  by_cases bare : names = []
  · subst bare
    rfl
  · rw [segments, List.splitOn_intercalate _ (fun name member => (each name member).2) bare]
    refine List.filter_eq_self.2 fun name member => ?_
    simpa using (each name member).1

theorem not_isAbsolute_intercalate {names : List Path}
    (each : ∀ name ∈ names, name ≠ [] ∧ slash ∉ name) :
    isAbsolute ([slash].intercalate names) = false := by
  match names, each with
  | [], _ => rfl
  | [name], each =>
      rw [List.intercalate_singleton]
      exact not_isAbsolute (each name List.mem_cons_self).2
  | name :: next :: rest, each =>
      obtain ⟨nonempty, plain⟩ := each name List.mem_cons_self
      rw [List.intercalate_cons_cons, List.append_assoc, isAbsolute_append nonempty]
      exact not_isAbsolute plain

/-- The path above a path, as a walk and as a string of bytes. -/
structure IsAbove (up path : Path) : Prop where
  filled : components path ≠ []
  parts : segments up = (components path).dropLast
  root : up ≠ [] → isAbsolute up = isAbsolute path
  sublist : up.Sublist path

theorem intercalate_dropLast_sublist (path : Path) {behind : Path}
    (pieces : segments path = segments behind) :
    ([slash].intercalate (components path).dropLast).Sublist behind := by
  have names : (components path).dropLast.Sublist (segments behind) := by
    rw [← pieces]
    exact (List.dropLast_sublist _).trans (thins_components path).sublist
  have shorter := intercalate_sublist slash (names.trans List.filter_sublist)
  rwa [List.intercalate_splitOn] at shorter

theorem isAbove_of_parent? {path up : Path} (parent : parent? path = some up) :
    IsAbove up path := by
  have each : ∀ name ∈ (components path).dropLast, name ≠ [] ∧ slash ∉ name := by
    intro name member
    have sublist := (List.dropLast_sublist _).trans (thins_components path).sublist
    exact of_mem_segments (sublist.subset member)
  unfold parent? at parent
  split at parent
  · cases parent
  · next filled =>
      cases parent
      cases absolute : isAbsolute path with
      | false =>
          rw [if_neg (by simp)]
          refine ⟨filled, segments_intercalate each, fun _ => ?_, ?_⟩
          · rw [not_isAbsolute_intercalate each, absolute]
          · exact intercalate_dropLast_sublist path rfl
      | true =>
          rw [if_pos rfl]
          have behind := segments_append_slash [] ([slash].intercalate (components path).dropLast)
          rw [List.nil_append, segments_nil, List.nil_append, segments_intercalate each] at behind
          refine ⟨filled, behind, fun _ => ?_, ?_⟩
          · rw [absolute]
            rfl
          · obtain ⟨rest, rfl⟩ := List.head?_eq_some_iff.1 (of_decide_eq_true absolute)
            exact .cons_cons slash
              (intercalate_dropLast_sublist _ (segments_append_slash [] rest))

theorem IsAbove.length_lt {up path : Path} (above : IsAbove up path) :
    up.length < path.length := by
  refine Nat.lt_of_le_of_ne above.sublist.length_le fun same => ?_
  -- a path is not the one above itself: there is one component less
  have self : up = path := above.sublist.eq_of_length same
  have parts := congrArg List.length (self ▸ above.parts)
  have fewer := (thins_components path).sublist.length_le
  have filled := List.length_pos_iff.2 above.filled
  rw [List.length_dropLast] at parts
  omega

end Linewise.Path
