/-
# Linewise.Proofs.FileGrowth -- what making directories and writing files leaves alone

Two relations between a tree and a later one say what cannot have happened in between.
With `Keeps` every entry is still there, but for the contents of files at locations that may
be written to, so that every walk that led somewhere leads there again. With `Overlaid`
nothing but such files is new either, so that a walk that led nowhere into a directory still
does not.

`makeDirectories` is then described by three facts. A directory that is there is left as it
is (`makeLevels_of_ready`), one that was asked for is there afterwards
(`ready_of_makeLevels`), and an attempt that fails fails again on what it has left behind
(`makeLevels_fails_again`), although for another reason sometimes. The last rests on the
path above: where a path leads to a directory, so does the one above it (`ready_above`).
-/
import Linewise.Proofs.FileWalk

namespace Linewise

set_option autoImplicit false

namespace FileTree

variable {tree before after : FileTree} {path : Path} {location : Location}

/-! ## What is kept -/

/-- Every entry is still there, but a file at a location that may be `written` to can have
another content. No sink has come up. -/
structure Keeps (written : Location → Prop) (before after : FileTree) : Prop where
  start : after.workingDirectory = before.workingDirectory
  entry : ∀ {l e}, before.get? l = some e → after.get? l = some e ∨
    (written l ∧ (∃ old, e = .file old) ∧ ∃ new, after.get? l = some (.file new))
  sink : ∀ {l}, after.get? l = some .sink → before.get? l = some .sink

variable {written : Location → Prop}

namespace Keeps

theorem refl (written : Location → Prop) (tree : FileTree) : Keeps written tree tree :=
  ⟨rfl, .inl, id⟩

theorem trans {first second third : FileTree} (one : Keeps written first second)
    (two : Keeps written second third) : Keeps written first third := by
  refine ⟨two.start.trans one.start, fun {l e} found => ?_, fun found => one.sink (two.sink found)⟩
  rcases one.entry found with same | ⟨may, file, new, changed⟩
  · exact two.entry same
  · rcases two.entry changed with same | ⟨-, -, newer⟩
    · exact .inr ⟨may, file, new, same⟩
    · exact .inr ⟨may, file, newer⟩

variable (keeps : Keeps written before after)

include keeps

theorem mono {more : Location → Prop} (weaker : ∀ l, written l → more l) :
    Keeps more before after := by
  refine ⟨keeps.start, fun {l e} found => ?_, keeps.sink⟩
  rcases keeps.entry found with same | ⟨may, changed⟩
  · exact .inl same
  · exact .inr ⟨weaker l may, changed⟩

theorem directory {l : Location} (found : before.get? l = some .directory) :
    after.get? l = some .directory := by
  rcases keeps.entry found with same | ⟨-, ⟨old, file⟩, -⟩
  · exact same
  · cases file

theorem isSome {l : Location} (found : (before.get? l).isSome) : (after.get? l).isSome := by
  obtain ⟨e, entry⟩ := Option.isSome_iff_exists.1 found
  rcases keeps.entry entry with same | ⟨-, -, new, changed⟩
  · simp [same]
  · simp [changed]

theorem walk {names : List Path} {l target : Location}
    (walks : before.walk l names = .ok target) : after.walk l names = .ok target := by
  induction names generalizing l with
  | nil => exact walks
  | cons name rest ih =>
      obtain ⟨directory, step⟩ := walk_cons_eq_ok_iff.1 walks
      refine walk_cons_eq_ok_iff.2 ⟨keeps.directory directory, ?_⟩
      rcases step with ⟨here, rest⟩ | ⟨up, rest⟩ | ⟨here, up, fits, found, rest⟩
      · exact .inl ⟨here, ih rest⟩
      · exact .inr (.inl ⟨up, ih rest⟩)
      · exact .inr (.inr ⟨here, up, fits, keeps.isSome found, ih rest⟩)

theorem origin (path : Path) : after.origin path = before.origin path := by
  rw [FileTree.origin, FileTree.origin, keeps.start]

theorem leadsTo (leads : before.LeadsTo path location) : after.LeadsTo path location :=
  ⟨keeps.origin path ▸ keeps.walk leads.walk, keeps.directory leads.directory⟩

theorem isDirectory (is : before.isDirectory path = true) : after.isDirectory path = true := by
  obtain ⟨checked, l, leads⟩ := isDirectory_iff.1 is
  exact isDirectory_iff.2 ⟨checked, l, keeps.leadsTo leads⟩

/-- What a path leads to is what it led to, unless it is written to. -/
theorem resolve {e : Entry} (found : before.resolve path = .ok (location, e))
    (other : ¬ written location) : after.resolve path = .ok (location, e) := by
  obtain ⟨checked, walked, entry, slash⟩ := resolve_eq_ok_iff.1 found
  refine resolve_eq_ok_iff.2 ⟨checked, keeps.origin path ▸ keeps.walk walked, ?_, slash⟩
  rcases keeps.entry entry with same | ⟨may, -⟩
  · exact same
  · exact absurd may other

theorem readBytes {e : Entry} (found : before.resolve path = .ok (location, e))
    (other : ¬ written location) : after.readBytes path = before.readBytes path := by
  rw [FileTree.readBytes, FileTree.readBytes, found, keeps.resolve found other]

theorem read? {e : Entry} (found : before.resolve path = .ok (location, e))
    (other : ¬ written location) : after.read? path = before.read? path := by
  rw [FileTree.read?, FileTree.read?, keeps.readBytes found other]

end Keeps

/-- Nothing but files at locations that may be `written` to has changed. -/
structure Overlaid (written : Location → Prop) (before after : FileTree) : Prop where
  start : after.workingDirectory = before.workingDirectory
  entry : ∀ l, after.get? l = before.get? l ∨
    (written l ∧ (before.get? l = none ∨ ∃ old, before.get? l = some (.file old)) ∧
      ∃ new, after.get? l = some (.file new))

namespace Overlaid

theorem refl (written : Location → Prop) (tree : FileTree) : Overlaid written tree tree :=
  ⟨rfl, fun _ => .inl rfl⟩

theorem trans {first second third : FileTree} (one : Overlaid written first second)
    (two : Overlaid written second third) : Overlaid written first third := by
  refine ⟨two.start.trans one.start, fun l => ?_⟩
  rcases two.entry l with same | ⟨may, old, changed⟩
  · rw [same]
    exact one.entry l
  · rcases one.entry l with same | ⟨-, older, -⟩
    · exact .inr ⟨may, same ▸ old, changed⟩
    · exact .inr ⟨may, older, changed⟩

theorem keeps (overlaid : Overlaid written before after) : Keeps written before after := by
  refine ⟨overlaid.start, fun {l e} found => ?_, fun {l} found => ?_⟩
  · rcases overlaid.entry l with same | ⟨may, absent | ⟨old, file⟩, changed⟩
    · exact .inl (same.trans found)
    · exact absurd found (by simp [absent])
    · exact .inr ⟨may, ⟨old, Option.some.inj (found.symm.trans file)⟩, changed⟩
  · rcases overlaid.entry l with same | ⟨-, -, new, changed⟩
    · exact same.symm.trans found
    · rw [changed] at found
      cases found

theorem mono {more : Location → Prop} (overlaid : Overlaid written before after)
    (weaker : ∀ l, written l → more l) : Overlaid more before after := by
  refine ⟨overlaid.start, fun l => ?_⟩
  rcases overlaid.entry l with same | ⟨may, changed⟩
  · exact .inl same
  · exact .inr ⟨weaker l may, changed⟩

theorem any_isDirectory (overlaid : Overlaid written before after) (l : Location) :
    (after.get? l).any Entry.isDirectory = (before.get? l).any Entry.isDirectory := by
  rcases overlaid.entry l with same | ⟨-, absent | ⟨old, file⟩, new, changed⟩
  · rw [same]
  · rw [changed, absent]
    rfl
  · rw [changed, file]
    rfl

end Overlaid

/-! ## Making directories -/

/-- There is nothing left to make. -/
def Ready (tree : FileTree) (path : Path) : Prop :=
  path = [] ∨ tree.isDirectory path = true

theorem Keeps.ready (keeps : Keeps written before after) (ready : Ready before path) :
    Ready after path :=
  ready.imp_right keeps.isDirectory

theorem leadsTo_of_ready (home : tree.get? tree.workingDirectory = some .directory)
    (ready : Ready tree path) : ∃ l, tree.LeadsTo path l := by
  rcases ready with rfl | is
  · exact ⟨tree.workingDirectory, rfl, home⟩
  · exact (isDirectory_iff.1 is).2

theorem keeps_makeDirectory? (written : Location → Prop)
    (made : tree.makeDirectory? path = .ok after) : Keeps written tree after := by
  obtain ⟨above, name, -, -, absent, rfl⟩ := of_makeDirectory? made
  refine ⟨rfl, fun {l e} found => .inl ?_, fun {l} found => ?_⟩
  · rw [get?_put, if_neg]
    · exact found
    · rintro rfl
      rw [absent] at found
      cases found
  · rw [get?_put] at found
    split at found
    · cases found
    · exact found

theorem isDirectory_of_makeDirectory? (made : tree.makeDirectory? path = .ok after) :
    after.isDirectory path = true := by
  have keeps := keeps_makeDirectory? (fun _ => False) made
  obtain ⟨above, name, placed, fits, -, rfl⟩ := of_makeDirectory? made
  obtain ⟨checked, front, parts, here, up, walked, directory⟩ := of_place_eq_some placed
  have new : (tree.put (above ++ [name]) .directory).get? (above ++ [name]) = some .directory := by
    rw [get?_put, if_pos rfl]
  have step : (tree.put (above ++ [name]) .directory).walk above [name] = .ok (above ++ [name]) :=
    walk_cons_eq_ok_iff.2
      ⟨keeps.directory directory, .inr (.inr ⟨here, up, fits, by simp [new], rfl⟩)⟩
  refine isDirectory_iff.2 ⟨checked, above ++ [name], ?_, new⟩
  rw [parts, walk_append, keeps.origin, keeps.walk walked]
  exact step

/-- What is there is not made again, and is not missing. -/
theorem makeDirectory?_of_isDirectory (is : tree.isDirectory path = true) :
    ∃ e, tree.makeDirectory? path = .error e ∧ e ≠ .notFound := by
  obtain ⟨checked, l, walked, directory⟩ := isDirectory_iff.1 is
  refine ⟨.alreadyExists, ?_, by decide⟩
  rcases List.eq_nil_or_concat' (Path.segments path) with bare | ⟨front, last, parts⟩
  · rw [makeDirectory?, place_of_no_segments checked bare]
    rfl
  · rw [parts, walk_append] at walked
    obtain ⟨above, first, rest⟩ := bind_eq_ok_iff.1 walked
    obtain ⟨inside, step⟩ := walk_cons_eq_ok_iff.1 rest
    rw [makeDirectory?, place_of_segments checked parts, first]
    simp only [bind, Except.bind, inside]
    rcases step with ⟨rfl, -⟩ | ⟨rfl, -⟩ | ⟨here, up, fits, found, -⟩
    · rfl
    · rfl
    · simp [here, up, fits, found]

theorem isDirectory_of_makeLast (made : tree.makeLast path = (.ok (), after)) :
    after.isDirectory path = true := by
  unfold makeLast at made
  split at made
  · next new =>
      cases made
      exact isDirectory_of_makeDirectory? new
  · cases is : tree.isDirectory path with
    | false => simp [is] at made
    | true =>
        rw [is] at made
        cases made
        exact is

theorem eq_of_makeLast_error {e : FileError} (failed : tree.makeLast path = (.error e, after)) :
    after = tree := by
  unfold makeLast at failed
  split at failed
  · cases failed
  · exact (Prod.mk.inj failed).2.symm

theorem keeps_makeLast (written : Location → Prop) {result : Except FileError Unit}
    (made : tree.makeLast path = (result, after)) : Keeps written tree after := by
  unfold makeLast at made
  split at made
  · next new =>
      cases made
      exact keeps_makeDirectory? written new
  · cases made
    exact .refl written tree

/-- How an attempt to make a directory and those above it can go, with the files it leaves. -/
inductive Attempt (levels : Nat) (tree : FileTree) (path : Path) :
    Except FileError Unit → FileTree → Prop
  | nothing (empty : path = []) : Attempt levels tree path (.ok ()) tree
  | made {after : FileTree} (new : tree.makeDirectory? path = .ok after) :
      Attempt levels tree path (.ok ()) after
  | refused {e : FileError} (failed : tree.makeDirectory? path = .error e) (other : e ≠ .notFound) :
      Attempt levels tree path (if tree.isDirectory path then .ok () else .error e) tree
  | rootless (failed : tree.makeDirectory? path = .error .notFound)
      (root : Path.parent? path = none) : Attempt levels tree path (.error .notFound) tree
  | stuck {up : Path} {e : FileError} {after : FileTree}
      (failed : tree.makeDirectory? path = .error .notFound) (parent : Path.parent? path = some up)
      (above : makeLevels levels tree up = (.error e, after)) :
      Attempt levels tree path (.error e) after
  | below {up : Path} {middle after : FileTree} {result : Except FileError Unit}
      (failed : tree.makeDirectory? path = .error .notFound) (parent : Path.parent? path = some up)
      (above : makeLevels levels tree up = (.ok (), middle))
      (last : middle.makeLast path = (result, after)) : Attempt levels tree path result after

theorem attempt_of_makeLevels {levels : Nat} {result : Except FileError Unit}
    (made : makeLevels (levels + 1) tree path = (result, after)) :
    Attempt levels tree path result after := by
  rw [makeLevels] at made
  split at made
  · next empty =>
      cases made
      exact .nothing (by simpa using empty)
  · split at made
    · next new =>
        cases made
        exact .made new
    · next failed =>
        split at made
        · next root =>
            cases made
            exact .rootless failed root
        · next up parent =>
            split at made
            · next above => exact .below failed parent above made
            · next above =>
                cases made
                exact .stuck failed parent above
    · next e other failed =>
        cases made
        exact .refused failed other

theorem keeps_makeLevels (written : Location → Prop) {levels : Nat}
    {result : Except FileError Unit} (made : makeLevels levels tree path = (result, after)) :
    Keeps written tree after := by
  induction levels generalizing path result after with
  | zero => exact keeps_makeLast written made
  | succ levels ih =>
      cases attempt_of_makeLevels made with
      | nothing | refused | rootless => exact .refl written tree
      | made new => exact keeps_makeDirectory? written new
      | stuck _ _ above => exact ih above
      | below _ _ above last => exact (ih above).trans (keeps_makeLast written last)

/-- A directory that was made is there. -/
theorem ready_of_makeLevels {levels : Nat} (made : makeLevels levels tree path = (.ok (), after)) :
    Ready after path := by
  cases levels with
  | zero => exact .inr (isDirectory_of_makeLast made)
  | succ levels =>
      generalize result : Except.ok () = r at made
      cases attempt_of_makeLevels made with
      | nothing empty => exact .inl empty
      | made new => exact .inr (isDirectory_of_makeDirectory? new)
      | refused =>
          split at result
          · next is => exact .inr is
          · cases result
      | rootless | stuck => cases result
      | below _ _ _ last =>
          subst result
          exact .inr (isDirectory_of_makeLast last)

/-- Where a directory is ready, nothing is made. -/
theorem makeLevels_of_ready (levels : Nat) (ready : Ready tree path) :
    makeLevels (levels + 1) tree path = (.ok (), tree) := by
  rcases ready with rfl | is
  · rfl
  · obtain ⟨e, failed, other⟩ := makeDirectory?_of_isDirectory is
    cases made : makeLevels (levels + 1) tree path with
    | mk result after =>
        cases attempt_of_makeLevels made with
        | nothing => rfl
        | made new => simp [failed] at new
        | refused => rw [if_pos is]
        | rootless missing | stuck missing | below missing =>
            rw [failed] at missing
            exact absurd (Except.error.inj missing) other

/-! ## The path above -/

/-- Every name of the path but the last is found in a directory. -/
structure Passes (tree : FileTree) (path : Path) : Prop where
  checked : checkPath path = .ok ()
  inside : ∀ front last back, Path.segments path = front ++ last :: back →
    ∃ l, tree.walk (tree.origin path) front = .ok l ∧ tree.get? l = some .directory

theorem passes_of_isDirectory (is : tree.isDirectory path = true) : Passes tree path := by
  obtain ⟨checked, l, walked, -⟩ := isDirectory_iff.1 is
  exact ⟨checked, fun front last back parts => inside_of_walk (parts ▸ walked)⟩

theorem passes_of_makeDirectory? (made : tree.makeDirectory? path = .ok after) :
    Passes tree path := by
  obtain ⟨above, name, placed, -⟩ := of_makeDirectory? made
  obtain ⟨checked, all, parts, -, -, walked, directory⟩ := of_place_eq_some placed
  refine ⟨checked, fun front last back cut => ?_⟩
  rcases List.eq_nil_or_concat' back with rfl | ⟨back, final, rfl⟩
  · obtain ⟨rfl, -⟩ := List.append_inj' (parts.symm.trans cut) rfl
    exact ⟨above, walked, directory⟩
  · rw [parts, ← List.cons_append, ← List.append_assoc] at cut
    obtain ⟨rfl, -⟩ := List.append_inj' cut rfl
    exact inside_of_walk walked

theorem passes_of_makeLast (made : tree.makeLast path = (.ok (), after)) : Passes tree path := by
  unfold makeLast at made
  split at made
  · next new => exact passes_of_makeDirectory? new
  · cases is : tree.isDirectory path with
    | false => simp [is] at made
    | true => exact passes_of_isDirectory is

/-- Where a path leads to a directory, so does the one above it. -/
theorem ready_above {up : Path} (passes : Passes tree path) (above : Path.IsAbove up path) :
    Ready tree up := by
  by_cases empty : up = []
  · exact .inl empty
  · refine .inr (isDirectory_iff.2 ⟨?_, ?_⟩)
    · obtain ⟨zero, -, short⟩ := checkPath_eq_ok_iff.1 passes.checked
      refine checkPath_eq_ok_iff.2 ⟨fun member => zero (above.sublist.subset member), empty, ?_⟩
      exact Nat.le_trans above.sublist.length_le short
    · obtain ⟨front, last, back, parts, thins⟩ :=
        (Path.thins_components path).dropLast above.filled
      obtain ⟨l, walked, directory⟩ := passes.inside front last back parts
      have origin : tree.origin up = tree.origin path := by
        rw [FileTree.origin, FileTree.origin, above.root empty]
      refine ⟨l, ?_, directory⟩
      rw [origin, above.parts]
      exact walk_thins thins walked

/-- An attempt succeeds at the path itself or at the one above it first. -/
theorem makeLast_or_above {levels : Nat} {up : Path} (parent : Path.parent? path = some up)
    (made : makeLevels (levels + 1) tree path = (.ok (), after)) :
    tree.makeLast path = (.ok (), after) ∨
      ∃ middle, makeLevels levels tree up = (.ok (), middle) ∧
        middle.makeLast path = (.ok (), after) := by
  generalize result : Except.ok () = r at made
  cases attempt_of_makeLevels made with
  | nothing empty =>
      rw [empty] at parent
      cases parent
  | made new => exact .inl (by rw [makeLast, new])
  | refused failed =>
      split at result
      · next is => exact .inl (by simp [makeLast, failed, is])
      · cases result
  | rootless | stuck => cases result
  | below _ same above last =>
      obtain rfl := Option.some.inj (parent.symm.trans same)
      subst result
      exact .inr ⟨_, above, last⟩

/-- What could not be made is not made by another attempt. -/
theorem makeLevels_fails_again {levels : Nat} {e : FileError} (enough : path.length < levels)
    (failed : makeLevels levels tree path = (.error e, after)) :
    ∃ again later, makeLevels levels after path = (.error again, later) := by
  induction levels generalizing path e after with
  | zero => exact absurd enough (Nat.not_lt_zero _)
  | succ levels ih =>
      generalize result : Except.error e = r at failed
      cases attempt : makeLevels (levels + 1) after path with
      | mk second later =>
      cases second with
      | error again => exact ⟨again, later, rfl⟩
      | ok _ =>
          exfalso
          cases attempt_of_makeLevels failed with
          | nothing | made => cases result
          | refused =>
              rw [failed, ← result] at attempt
              cases attempt
          | rootless =>
              rw [failed] at attempt
              cases attempt
          | @stuck up _ _ _ parent above =>
              -- the path above fails again, so it is no directory
              have shorter := (Path.isAbove_of_parent? parent).length_lt
              obtain ⟨again, last, stuck⟩ := ih (by omega) above
              rcases makeLast_or_above parent attempt with made | ⟨middle, made, -⟩
              · have ready := ready_above (passes_of_makeLast made) (Path.isAbove_of_parent? parent)
                obtain ⟨n, rfl⟩ : ∃ n, levels = n + 1 := ⟨levels - 1, by omega⟩
                rw [makeLevels_of_ready n ready] at stuck
                cases stuck
              · rw [made] at stuck
                cases stuck
          | @below up middle _ _ _ parent above last =>
              -- the path above is ready, so only the last step is tried again
              have shorter := (Path.isAbove_of_parent? parent).length_lt
              subst result
              obtain rfl := eq_of_makeLast_error last
              obtain ⟨n, rfl⟩ : ∃ n, levels = n + 1 := ⟨levels - 1, by omega⟩
              rcases makeLast_or_above parent attempt with made | ⟨middle, made, second⟩
              · rw [last] at made
                cases made
              · rw [makeLevels_of_ready n (ready_of_makeLevels above)] at made
                cases made
                rw [last] at second
                cases second

/-! ## Writing files -/

theorem overlaid_put {above : Location} {name : Path} (may : written (above ++ [name]))
    (plain : (tree.get? (above ++ [name])).any Entry.isDirectory = false)
    (noSink : tree.get? (above ++ [name]) ≠ some .sink) (content : ByteArray) :
    Overlaid written tree (tree.put (above ++ [name]) (.file content)) := by
  refine ⟨rfl, fun l => ?_⟩
  rw [get?_put]
  by_cases here : l = above ++ [name]
  · subst here
    rw [if_pos rfl]
    refine .inr ⟨may, ?_, content, rfl⟩
    cases entry : tree.get? (above ++ [name]) with
    | none => exact .inl rfl
    | some e =>
        rw [entry] at plain noSink
        cases e with
        | file old => exact .inr ⟨old, rfl⟩
        | directory => cases plain
        | sink => exact absurd rfl noSink
  · exact .inl (if_neg here)

/-- Whether a file can be written does not depend on files written before. -/
theorem Overlaid.write?_join {directory name : Path} {l : Location}
    (overlaid : Overlaid written before after) (isName : Path.IsName name)
    (leads : before.LeadsTo directory l) (text : String) :
    (∃ e, before.write? (Path.join directory name) text = .error e ∧
        after.write? (Path.join directory name) text = .error e) ∨
      ∃ first second, before.write? (Path.join directory name) text = .ok first ∧
        after.write? (Path.join directory name) text = .ok second := by
  have same : after.writable? (Path.join directory name) =
      before.writable? (Path.join directory name) := by
    rw [writable?_join isName leads, writable?_join isName (overlaid.keeps.leadsTo leads),
      overlaid.any_isDirectory]
  rw [write?, write?, writeBytes?, writeBytes?, same]
  cases before.writable? (Path.join directory name) with
  | error e => exact .inl ⟨e, rfl, rfl⟩
  | ok location => exact .inr ⟨_, _, rfl, rfl⟩

end FileTree

end Linewise
