import ClientGen.Files.Tree
import ClientGen.Proofs.Path.Steps
import ClientGen.Proofs.Results

/-!
# Where a path leads

Without links the place that a path means can be read off its names. The tree only decides whether
it can be reached.

* `Path.destination` — the place of a path by its names alone.
* `locate_eq` — a path that can be followed leads to its destination, whatever the tree.
* `FileTree.Sound` — the trees that can be: everything stands in a directory, and so does the work.
-/

namespace ClientGen

namespace Path

/-- Where a step leads by its name. -/
def move (place : List String) (step : List Char) : List String :=
  if isVoid step then place
  else if step = ['.', '.'] then place.dropLast
  else place ++ [String.ofList step]

/-- **The place of a path by its names**, from a working directory. -/
def destination (here : List String) (path : String) : List String :=
  (solidSteps path).foldl move (if isAbsolute path then [] else here)

theorem move_void {step : List Char} (void : isVoid step = true) (place : List String) :
    move place step = place :=
  if_pos void

/-- A name leads one level down. -/
theorem move_name {name : String} (isName : IsName name) (place : List String) :
    move place name.toList = place ++ [name] := by
  simp [move, isName.solid, isName.notUp]

/-- Void steps lead nowhere. -/
theorem foldl_move_filter (steps : List (List Char)) (place : List String) :
    (steps.filter (!isVoid ·)).foldl move place = steps.foldl move place := by
  induction steps generalizing place with
  | nil => rfl
  | cons step steps ih =>
      by_cases void : isVoid step = true
      · rw [List.filter_cons_of_neg (by simp [void]), ih, List.foldl_cons, move_void void]
      · rw [List.filter_cons_of_pos (by simpa using void), List.foldl_cons, List.foldl_cons, ih]

/-- Names lead down, one level each. -/
theorem foldl_move_names {names : List String} (all : ∀ name ∈ names, IsName name)
    (place : List String) : (names.map String.toList).foldl move place = place ++ names := by
  induction names generalizing place with
  | nil => simp
  | cons name names ih =>
      rw [List.map_cons, List.foldl_cons, move_name (all name (List.mem_cons_self ..)),
        ih fun other member => all other (List.mem_cons_of_mem _ member), List.append_assoc,
        List.singleton_append]

/-- **Names joined to a directory are names below its place.** -/
theorem destination_join (here : List String) (dir : String) {names : List String}
    (nonempty : names ≠ []) (all : ∀ name ∈ names, IsName name) :
    destination here (join dir (ofNames names)) = destination here dir ++ names := by
  obtain ⟨relative, kept⟩ := steps_ofNames nonempty all
  have kind := (steps_join dir relative).1
  rw [destination, kind, solidSteps_join dir relative, List.foldl_append, ← destination]
  rw [solidSteps, kept, filter_names all, foldl_move_names all]

/-- **A text that can be a path.** -/
structure Fits (path : String) : Prop where
  /-- Something is named. -/
  nonempty : path ≠ ""
  /-- There is no null character. -/
  clean : path.toList.contains '\x00' = false
  /-- There are not too many bytes. -/
  short : path.utf8ByteSize < 4096

end Path

namespace FileTree

open ClientGen.Path

/-! ## A path that can be followed leads to its destination -/

/-- A step that can be made starts in a directory and moves by the names alone. -/
theorem step_eq_ok {t : FileTree} {place next : List String} {step : List Char}
    (stepped : t.step place step = .ok next) :
    t.lookup? place = some .directory ∧ next = move place step := by
  unfold FileTree.step at stepped
  split at stepped
  · cases stepped
  · cases stepped
  · rename_i directory
    refine ⟨directory, ?_⟩
    have void : isVoid step = true ↔ step = [] ∨ step = ['.'] := by simp [isVoid]
    unfold move
    split at stepped
    · rename_i dot
      cases stepped
      rw [if_pos (void.mpr dot)]
    · rename_i dot
      rw [if_neg (fun isVoid => dot (void.mp isVoid))]
      split at stepped
      · rename_i up
        cases stepped
        rw [if_pos up]
      · rename_i up
        rw [if_neg up]
        split at stepped
        · cases stepped
        · cases stepped
          rfl

theorem foldlM_step_eq_ok {t : FileTree} {place last : List String} {steps : List (List Char)}
    (walked : steps.foldlM t.step place = .ok last) : last = steps.foldl move place := by
  induction steps generalizing place with
  | nil =>
      cases walked
      rfl
  | cons step steps ih =>
      rw [List.foldlM_cons, bind_eq_ok_iff] at walked
      obtain ⟨next, stepped, walked⟩ := walked
      rw [List.foldl_cons, ← (step_eq_ok stepped).2]
      exact ih walked

/-- Climbing does what the steps upwards would do. -/
theorem climb_eq_ok {levels : Nat} {place last : List String} {steps rest : List (List Char)}
    (climbed : climb levels place steps = .ok (last, rest)) :
    rest.foldl move last = steps.foldl move place ∧ last = place.take (place.length - levels) := by
  induction steps generalizing levels place with
  | nil =>
      cases levels with
      | zero =>
          cases climbed
          simp
      | succ levels => cases climbed
  | cons step steps ih =>
      cases levels with
      | zero =>
          cases climbed
          simp
      | succ levels =>
          rw [climb] at climbed
          split at climbed
          · rename_i void
            obtain ⟨same, home⟩ := ih climbed
            rw [List.foldl_cons, move_void void]
            exact ⟨same, home⟩
          · rename_i solid
            split at climbed
            · rename_i up
              obtain ⟨same, home⟩ := ih climbed
              rw [List.foldl_cons, move, if_neg solid, if_pos up]
              refine ⟨same, home.trans ?_⟩
              rw [List.length_dropLast, List.dropLast_eq_take, List.take_take]
              congr 1
              omega
            · cases climbed

/-- Where the steps of a path start, by the names of the working directory. -/
def origin (t : FileTree) (path : String) : List String :=
  if isAbsolute path then [] else t.here

theorem start_eq_ok {t : FileTree} {path : String} {steps rest : List (List Char)}
    {place : List String} (started : t.start path steps = .ok (place, rest)) :
    rest.foldl move place = steps.foldl move (t.origin path) ∧ (place = [] ∨ place = t.home) := by
  unfold start at started
  unfold origin
  split at started
  · rename_i absolute
    cases started
    rw [if_pos absolute]
    exact ⟨rfl, .inl rfl⟩
  · rename_i relative
    rw [if_neg relative]
    obtain ⟨same, home⟩ := climb_eq_ok started
    exact ⟨same, .inr home⟩

/-- What can be followed moves from the start of the path, step by step. -/
theorem route_eq_ok {t : FileTree} {path : String} {steps : List (List Char)}
    {place : List String} (routed : t.route path steps = .ok place) :
    place = steps.foldl move (t.origin path) := by
  obtain ⟨⟨first, rest⟩, started, walked⟩ := bind_eq_ok_iff.mp routed
  rw [foldlM_step_eq_ok walked]
  exact (start_eq_ok started).1

theorem walk_eq_ok_iff {t : FileTree} {path : String} {steps : List (List Char)}
    {place : List String} :
    t.walk path steps = .ok place ↔ Fits path ∧ t.route path steps = .ok place := by
  unfold walk
  split
  · rename_i empty
    exact ⟨nofun, fun ⟨fits, _⟩ => absurd empty fits.nonempty⟩
  · rename_i nonempty
    split
    · rename_i bad
      refine ⟨nofun, fun ⟨fits, _⟩ => ?_⟩
      rw [fits.clean, Bool.false_or, decide_eq_true_eq] at bad
      exact absurd fits.short (Nat.not_lt.mpr bad)
    · rename_i good
      rw [Bool.not_eq_true, Bool.or_eq_false_iff, decide_eq_false_iff_not, Nat.not_le] at good
      exact ⟨fun routed => ⟨⟨nonempty, good.1, good.2⟩, routed⟩, fun ⟨_, routed⟩ => routed⟩

/-- **A path that can be followed leads to its destination.** -/
theorem locate_eq {t : FileTree} {path : String} {place : List String}
    (located : t.locate path = .ok place) : place = destination t.here path := by
  rw [route_eq_ok (walk_eq_ok_iff.mp located).2, ← foldl_move_filter]
  rfl

theorem dropWhile_reverse_filter (steps : List (List Char)) :
    ((steps.reverse.dropWhile (· == [])).reverse).filter (!isVoid ·) =
      steps.filter (!isVoid ·) := by
  induction steps using List.reverseRecOn with
  | nil => rfl
  | append_singleton steps last ih =>
      rw [List.reverse_append, List.reverse_singleton, List.singleton_append]
      by_cases empty : last = []
      · subst empty
        have void : isVoid [] = true := rfl
        rw [List.dropWhile_cons_of_pos (by rfl), ih, List.filter_append]
        simp [void]
      · rw [List.dropWhile_cons_of_neg (by simpa using empty)]
        simp

/-- A path to something new leads to its destination, too. -/
theorem locateNew_eq {t : FileTree} {path : String} {place : List String}
    (located : t.locateNew path = .ok place) : place = destination t.here path := by
  rw [route_eq_ok (walk_eq_ok_iff.mp located).2, ← foldl_move_filter, dropWhile_reverse_filter]
  rfl

/-! ## Trees that can be -/

/-- **A tree that can be**: everything stands in a directory, and what is left of the working
directory is one. -/
structure Sound (t : FileTree) : Prop where
  /-- What stands at a place stands in a directory. -/
  parent : ∀ place, place ≠ [] → t.lookup? place ≠ none →
    t.lookup? place.dropLast = some .directory
  /-- What is left of the working directory is a directory. -/
  home : t.lookup? t.home = some .directory

/-- Whether a tree can be is seen from its entries. -/
theorem Sound.of_entries {t : FileTree}
    (parent : ∀ entry ∈ t.entries, t.lookup? entry.1.dropLast = some .directory)
    (home : t.lookup? t.home = some .directory) : t.Sound := by
  refine ⟨fun place inner present => ?_, home⟩
  rw [lookup?, if_neg inner] at present
  obtain ⟨entry, found⟩ := Option.ne_none_iff_exists'.mp present
  obtain ⟨before, after, split, -⟩ := List.lookup_eq_some_iff.mp found
  exact parent (place, entry) (split ▸ List.mem_append_right _ (List.mem_cons_self ..))

/-- Above a directory there are directories only. -/
theorem Sound.directory_of_append {t : FileTree} (sound : t.Sound) {place rest : List String}
    (found : t.lookup? (place ++ rest) ≠ none) (nonempty : rest ≠ []) :
    t.lookup? place = some .directory := by
  induction rest using List.reverseRecOn with
  | nil => exact absurd rfl nonempty
  | append_singleton rest last ih =>
      have above := sound.parent (place ++ (rest ++ [last])) (by simp) found
      rw [← List.append_assoc, List.dropLast_concat] at above
      by_cases empty : rest = []
      · simpa [empty] using above
      · exact ih (by simp [above]) empty

/-- A place where something stands, or where something can be put. -/
def IsOpen (t : FileTree) (place : List String) : Prop :=
  t.lookup? place ≠ none ∨ t.lookup? place.dropLast = some .directory

/-- One step from a directory something stands, or something can be put. -/
theorem Sound.isOpen_move {t : FileTree} (sound : t.Sound) {place : List String}
    (directory : t.lookup? place = some .directory) (step : List Char) :
    t.IsOpen (move place step) := by
  unfold move IsOpen
  split
  · exact .inl (by simp [directory])
  · split
    · by_cases root : place = []
      · exact .inl (by simp [root])
      · exact .inl (by simp [sound.parent place root (by simp [directory])])
    · exact .inr (by simpa using directory)

theorem Sound.isOpen_foldlM {t : FileTree} (sound : t.Sound) {place last : List String}
    {steps : List (List Char)} (first : t.IsOpen place)
    (walked : steps.foldlM t.step place = .ok last) : t.IsOpen last := by
  induction steps generalizing place with
  | nil =>
      cases walked
      exact first
  | cons step steps ih =>
      rw [List.foldlM_cons, bind_eq_ok_iff] at walked
      obtain ⟨next, stepped, walked⟩ := walked
      obtain ⟨directory, rfl⟩ := step_eq_ok stepped
      exact ih (sound.isOpen_move directory step) walked

/-- **Where a path leads, something stands or can be put.** -/
theorem Sound.isOpen_route {t : FileTree} (sound : t.Sound) {path : String}
    {steps : List (List Char)} {place : List String} (routed : t.route path steps = .ok place) :
    t.IsOpen place := by
  obtain ⟨⟨first, rest⟩, started, walked⟩ := bind_eq_ok_iff.mp routed
  refine sound.isOpen_foldlM (.inl ?_) walked
  rcases (start_eq_ok started).2 with rfl | rfl
  · simp
  · simp [sound.home]

end FileTree

end ClientGen
