/-
# Linewise.Proofs.FileWalk -- where a path leads

Looking a path up, reading, writing and making a directory all walk along its names. This
module says once what a walk does (`walk_append`, `walk_cons_eq_ok_iff`) and in its terms
what a path leads to (`resolve_eq_ok_iff`), where its last name lies (`of_place_eq_some`)
and where a directory is made (`of_makeDirectory?`).

For a name that is joined to a directory this comes down to one entry: what the path leads
to, whether it can be written and what writing does are read off that entry
(`resolve_join_eq_ok_iff`, `writable?_join`, `of_write?_join`).
-/
import Linewise.Files.Tree
import Linewise.Proofs.Pass
import Linewise.Proofs.PathParts

namespace Linewise

set_option autoImplicit false

namespace FileTree

variable {tree after : FileTree} {path : Path} {location : Location}

/-! ## Entries -/

theorem lookup_cons_eq_if (l k : Location) (entry : Entry) (rest : List (Location × Entry)) :
    ((k, entry) :: rest).lookup l = if l = k then some entry else rest.lookup l := by
  rw [List.lookup_cons]
  by_cases same : l = k
  · simp [same]
  · simp [same, beq_eq_false_iff_ne.2 same]

theorem lookup_putEntry (location l : Location) (entry : Entry)
    (entries : List (Location × Entry)) :
    (putEntry location entry entries).lookup l =
      if l = location then some entry else entries.lookup l := by
  induction entries with
  | nil => rw [putEntry, lookup_cons_eq_if]
  | cons head rest ih =>
      obtain ⟨k, e⟩ := head
      by_cases here : k = location
      · subst here
        rw [putEntry, if_pos rfl, lookup_cons_eq_if, lookup_cons_eq_if]
        by_cases same : l = k <;> simp [same]
      · rw [putEntry, if_neg here, lookup_cons_eq_if, lookup_cons_eq_if, ih]
        by_cases same : l = k
        · subst same
          simp [here]
        · simp [same]

theorem get?_put (tree : FileTree) (above : Location) (name : Path) (entry : Entry)
    (l : Location) :
    (tree.put (above ++ [name]) entry).get? l =
      if l = above ++ [name] then some entry else tree.get? l := by
  unfold get? put
  dsimp only
  rw [lookup_putEntry]
  by_cases root : l = []
  · subst root
    simp
  · simp [root]

/-! ## Walking -/

theorem walk_append (tree : FileTree) (l : Location) (front back : List Path) :
    tree.walk l (front ++ back) = tree.walk l front >>= fun l => tree.walk l back := by
  induction front generalizing l with
  | nil => rfl
  | cons name rest ih =>
      rw [List.cons_append, walk, walk]
      split
      · rfl
      · split
        · exact ih _
        · split
          · exact ih _
          · split
            · rfl
            · dsimp only
              split
              · rfl
              · exact ih _
      · rfl

/-- A step is taken in a directory: it stays, goes up, or leads to an entry. -/
theorem walk_cons_eq_ok_iff {l target : Location} {name : Path} {rest : List Path} :
    tree.walk l (name :: rest) = .ok target ↔
      tree.get? l = some .directory ∧
        ((name = "." ∧ tree.walk l rest = .ok target) ∨
          (name = ".." ∧ tree.walk l.dropLast rest = .ok target) ∨
          (name ≠ "." ∧ name ≠ ".." ∧ nameFits name = true ∧
            (tree.get? (l ++ [name])).isSome ∧ tree.walk (l ++ [name]) rest = .ok target)) := by
  rw [walk]
  split
  · next absent => simp [absent]
  · next directory =>
      have apart : Path.ofString "." ≠ ".." := by decide
      by_cases here : name = "."
      · simp [directory, here, apart]
      · by_cases up : name = ".."
        · simp [directory, up, apart.symm]
        · by_cases fits : nameFits name = true
          · cases entry : tree.get? (l ++ [name]) <;> simp [directory, here, up, fits, entry]
          · simp [directory, here, up, fits]
  · next e other found =>
      simp only [found, reduceCtorEq, Option.some.injEq, false_iff, not_and]
      intro same
      exact absurd same other

/-- Names `.` on the way may be left out. -/
theorem walk_thins {names thinned : List Path} (thins : Path.Thins names thinned)
    {l target : Location} (walks : tree.walk l names = .ok target) :
    tree.walk l thinned = .ok target := by
  induction thins generalizing l with
  | nil => exact walks
  | keep name _ ih =>
      obtain ⟨directory, step⟩ := walk_cons_eq_ok_iff.1 walks
      refine walk_cons_eq_ok_iff.2 ⟨directory, ?_⟩
      rcases step with ⟨here, rest⟩ | ⟨up, rest⟩ | ⟨here, up, fits, found, rest⟩
      · exact .inl ⟨here, ih rest⟩
      · exact .inr (.inl ⟨up, ih rest⟩)
      · exact .inr (.inr ⟨here, up, fits, found, ih rest⟩)
  | drop _ ih =>
      rcases (walk_cons_eq_ok_iff.1 walks).2 with ⟨-, rest⟩ | ⟨up, -⟩ | ⟨here, -⟩
      · exact ih rest
      · exact absurd up (by decide)
      · exact absurd rfl here

theorem inside_of_walk {origin l : Location} {front back : List Path} {last : Path}
    (walked : tree.walk origin (front ++ last :: back) = .ok l) :
    ∃ above, tree.walk origin front = .ok above ∧ tree.get? above = some .directory := by
  rw [walk_append] at walked
  obtain ⟨above, first, step⟩ := bind_eq_ok_iff.1 walked
  exact ⟨above, first, (walk_cons_eq_ok_iff.1 step).1⟩

theorem checkPath_eq_ok_iff :
    checkPath path = .ok () ↔
      0 ∉ path ∧ path ≠ [] ∧ path.length ≤ longestPath := by
  unfold checkPath
  split
  · simp_all
  · split
    · simp_all
    · split <;> simp_all

theorem resolve_eq_ok_iff {entry : Entry} :
    tree.resolve path = .ok (location, entry) ↔
      checkPath path = .ok () ∧
        tree.walk (tree.origin path) (Path.segments path) = .ok location ∧
        tree.get? location = some entry ∧
        (entry = .directory ∨ Path.endsInSlash path = false) := by
  unfold resolve
  simp only [bind_eq_ok_iff]
  constructor
  · rintro ⟨_, checked, l, walked, found⟩
    split at found
    · cases found
    · next directory =>
        cases found
        exact ⟨checked, walked, directory, .inl rfl⟩
    · next e other entry =>
        split at found
        · cases found
        · next plain =>
            cases found
            exact ⟨checked, walked, entry, .inr (by simpa using plain)⟩
  · rintro ⟨checked, walked, found, kind⟩
    refine ⟨(), checked, location, walked, ?_⟩
    rw [found]
    rcases kind with rfl | plain
    · rfl
    · cases entry <;> simp [plain]

/-- The names of the path lead to a directory. -/
structure LeadsTo (tree : FileTree) (path : Path) (location : Location) : Prop where
  walk : tree.walk (tree.origin path) (Path.segments path) = .ok location
  directory : tree.get? location = some .directory

theorem leadsTo_of_resolve (found : tree.resolve path = .ok (location, .directory)) :
    tree.LeadsTo path location := by
  obtain ⟨-, walk, directory, -⟩ := resolve_eq_ok_iff.1 found
  exact ⟨walk, directory⟩

theorem isDirectory_iff :
    tree.isDirectory path = true ↔ checkPath path = .ok () ∧ ∃ l, tree.LeadsTo path l := by
  constructor
  · intro is
    unfold isDirectory at is
    split at is
    · next l found =>
        obtain ⟨checked, walk, directory, -⟩ := resolve_eq_ok_iff.1 found
        exact ⟨checked, l, walk, directory⟩
    · cases is
  · rintro ⟨checked, l, leads⟩
    have found := resolve_eq_ok_iff.2 ⟨checked, leads.walk, leads.directory, .inl rfl⟩
    rw [isDirectory, found]

theorem place_of_segments {front : List Path} {last : Path} (checked : checkPath path = .ok ())
    (parts : Path.segments path = front ++ [last]) :
    tree.place path = tree.walk (tree.origin path) front >>= fun above =>
      match tree.get? above with
      | some .directory => .ok (if last = "." || last = ".." then none else some (above, last))
      | some _ => .error .notADirectory
      | none => .error .notFound := by
  rw [place, checked, parts, List.getLast?_concat, List.dropLast_concat]
  rfl

theorem place_of_no_segments (checked : checkPath path = .ok ()) (bare : Path.segments path = []) :
    tree.place path = .ok none := by
  rw [place, checked, bare]
  rfl

/-- A place is found in a directory, and its name is no dots. -/
theorem of_place_eq_some {above : Location} {name : Path}
    (found : tree.place path = .ok (some (above, name))) :
    checkPath path = .ok () ∧ ∃ front, Path.segments path = front ++ [name] ∧
      name ≠ "." ∧ name ≠ ".." ∧
      tree.walk (tree.origin path) front = .ok above ∧ tree.get? above = some .directory := by
  obtain ⟨_, checked, -⟩ := bind_eq_ok_iff.1 found
  refine ⟨checked, ?_⟩
  rcases List.eq_nil_or_concat' (Path.segments path) with bare | ⟨front, last, parts⟩
  · rw [place_of_no_segments checked bare] at found
    cases found
  · rw [place_of_segments checked parts] at found
    obtain ⟨l, walked, inside⟩ := bind_eq_ok_iff.1 found
    split at inside
    · next directory =>
        split at inside
        · cases inside
        · next named =>
            cases inside
            simp only [Bool.or_eq_true, decide_eq_true_eq, not_or] at named
            exact ⟨front, parts, named.1, named.2, walked, directory⟩
    · cases inside
    · cases inside

/-- A directory is made where nothing was. -/
theorem of_makeDirectory? (made : tree.makeDirectory? path = .ok after) :
    ∃ above name, tree.place path = .ok (some (above, name)) ∧ nameFits name = true ∧
      tree.get? (above ++ [name]) = none ∧ after = tree.put (above ++ [name]) .directory := by
  obtain ⟨found, placed, made⟩ := bind_eq_ok_iff.1 made
  split at made
  · cases made
  · next above name =>
      split at made
      · cases made
      · next fits =>
          split at made
          · cases made
          · next absent =>
              cases made
              exact ⟨above, name, placed, by simpa using fits, by simpa using absent, rfl⟩

/-! ## Files of a directory -/

theorem overwrite_of_ne_sink {content : ByteArray} {old : Option Entry}
    (noSink : old ≠ some .sink) : Entry.overwrite content old = .file content := by
  unfold Entry.overwrite
  split
  · exact absurd rfl noSink
  · rfl

theorem fromUTF8?_toUTF8 (text : String) : String.fromUTF8? text.toUTF8 = some text :=
  dif_pos text.isValidUTF8

theorem read?_of_readBytes {text : String} (bytes : tree.readBytes path = .ok text.toUTF8) :
    tree.read? path = .ok text := by
  rw [read?, bytes]
  simp only [bind, Except.bind, fromUTF8?_toUTF8]
  rfl

section Join

variable {directory name : Path} {l : Location} (isName : Path.IsName name)
  (leads : tree.LeadsTo directory l)

include isName

theorem origin_join : tree.origin (Path.join directory name) = tree.origin directory := by
  rw [origin, origin, Path.isAbsolute_join isName.slash]

include leads

theorem resolve_join_eq_ok_iff {entry : Entry} :
    tree.resolve (Path.join directory name) = .ok (location, entry) ↔
      checkPath (Path.join directory name) = .ok () ∧ nameFits name = true ∧
        location = l ++ [name] ∧ tree.get? (l ++ [name]) = some entry := by
  have step : tree.walk (tree.origin (Path.join directory name))
      (Path.segments (Path.join directory name)) = tree.walk l [name] := by
    rw [origin_join isName, Path.segments_join isName.nonempty isName.slash, walk_append,
      leads.walk]
    rfl
  rw [resolve_eq_ok_iff, step, walk_cons_eq_ok_iff]
  constructor
  · rintro ⟨checked, ⟨-, ⟨here, -⟩ | ⟨above, -⟩ | ⟨-, -, fits, -, arrived⟩⟩, found, -⟩
    · exact absurd here isName.here
    · exact absurd above isName.above
    · obtain rfl := Except.ok.inj arrived
      exact ⟨checked, fits, rfl, found⟩
  · rintro ⟨checked, fits, rfl, found⟩
    have present : (tree.get? (l ++ [name])).isSome := by simp [found]
    exact ⟨checked, ⟨leads.directory, .inr (.inr ⟨isName.here, isName.above, fits, present, rfl⟩)⟩,
      found, .inr (Path.endsInSlash_join isName.nonempty isName.slash)⟩

theorem writable?_join :
    tree.writable? (Path.join directory name) =
      checkPath (Path.join directory name) >>= fun _ =>
        if !nameFits name then .error .nameTooLong
        else if (tree.get? (l ++ [name])).any Entry.isDirectory then .error .isADirectory
        else .ok (l ++ [name]) := by
  cases checked : checkPath (Path.join directory name) with
  | error e =>
      rw [writable?, place, checked]
      rfl
  | ok _ =>
      have parts : Path.segments (Path.join directory name) = Path.segments directory ++ [name] :=
        Path.segments_join isName.nonempty isName.slash
      have named : (decide (name = ".") || decide (name = "..")) = false := by
        simp [isName.here, isName.above]
      rw [writable?, place_of_segments checked parts, origin_join isName, leads.walk]
      simp only [bind, Except.bind, leads.directory, named, pure, Except.pure,
        Path.endsInSlash_join isName.nonempty isName.slash]
      rfl

/-- Writing a file of a directory changes that file alone. -/
theorem of_write?_join {text : String} (noSink : tree.get? (l ++ [name]) ≠ some .sink)
    (wrote : tree.write? (Path.join directory name) text = .ok after) :
    checkPath (Path.join directory name) = .ok () ∧ nameFits name = true ∧
      (tree.get? (l ++ [name])).any Entry.isDirectory = false ∧
      after = tree.put (l ++ [name]) (.file text.toUTF8) := by
  obtain ⟨target, writable, put⟩ := bind_eq_ok_iff.1 wrote
  rw [writable?_join isName leads] at writable
  obtain ⟨_, checked, outcome⟩ := bind_eq_ok_iff.1 writable
  split at outcome
  · cases outcome
  · next fits =>
      split at outcome
      · cases outcome
      · next plain =>
          cases outcome
          cases put
          refine ⟨checked, by simpa using fits, by simpa using plain, ?_⟩
          rw [overwrite_of_ne_sink noSink]

end Join

end FileTree

end Linewise
