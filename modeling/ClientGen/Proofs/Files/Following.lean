import ClientGen.Proofs.Files.Destination

/-!
# Following paths in related trees

Whether a path can be followed depends on the directories along it. Void steps matter only at its
end, so paths are followed along their solid steps here (`FileTree.follow`), and `locate` and
`locateNew` are read off that.

* `route_names` — names behind other steps: where those lead, the names are followed.
* `Grown` — a tree with all the directories of another one: every path still leads to its place
  (`Grown.route`).
* `Within` — a tree in which some things of another one are missing: a path of the other tree leads
  to the same place, or something is missing on its way (`Within.route`). It is never refused.
-/

namespace ClientGen

theorem Path.Fits.of_beginning {path front : String} (fits : Fits path)
    (beginning : front.toList <+: path.toList) (nonempty : front ≠ "") : Fits front := by
  obtain ⟨rest, split⟩ := beginning
  have whole : path = front ++ String.ofList rest := by
    rw [← String.toList_inj, String.toList_append, String.toList_ofList, split]
  refine ⟨nonempty, ?_, ?_⟩
  · have clean := fits.clean
    rw [← split, List.contains_eq_mem, decide_eq_false_iff_not, List.mem_append, not_or] at clean
    rw [List.contains_eq_mem, decide_eq_false_iff_not]
    exact clean.1
  · have short := fits.short
    rw [whole, String.utf8ByteSize_append] at short
    omega

namespace FileTree

open ClientGen.Path

/-! ## The way out of directories that are gone -/

theorem climb_zero (place : List String) (steps : List (List Char)) :
    climb 0 place steps = .ok (place, steps) := by
  rw [climb]

/-- A way out is not found, and it is never refused. -/
theorem climb_eq_error {levels : Nat} {place : List String} {steps : List (List Char)}
    {fault : FileFault} (failed : climb levels place steps = .error fault) : fault = .missing := by
  induction steps generalizing levels place with
  | nil =>
      cases levels with
      | zero => cases failed
      | succ levels =>
          cases failed
          rfl
  | cons step steps ih =>
      cases levels with
      | zero => cases failed
      | succ levels =>
          rw [climb] at failed
          split at failed
          · exact ih failed
          · split at failed
            · exact ih failed
            · cases failed
              rfl

/-- The way out is a beginning of the steps. -/
theorem climb_split {levels : Nat} {place last : List String} {steps rest : List (List Char)}
    (climbed : climb levels place steps = .ok (last, rest)) :
    ∃ front, steps = front ++ rest ∧ front.foldl move place = last := by
  induction steps generalizing levels place with
  | nil =>
      cases levels with
      | zero =>
          cases climbed
          exact ⟨[], rfl, rfl⟩
      | succ levels => cases climbed
  | cons step steps ih =>
      cases levels with
      | zero =>
          cases climbed
          exact ⟨[], rfl, rfl⟩
      | succ levels =>
          rw [climb] at climbed
          split at climbed
          · rename_i void
            obtain ⟨front, rfl, led⟩ := ih climbed
            exact ⟨step :: front, rfl, by rw [List.foldl_cons, move_void void, led]⟩
          · rename_i solid
            split at climbed
            · rename_i up
              obtain ⟨front, rfl, led⟩ := ih climbed
              refine ⟨step :: front, rfl, ?_⟩
              rw [List.foldl_cons, move, if_neg solid, if_pos up, led]
            · cases climbed

/-- More steps behind a way out are left for later. -/
theorem climb_append {levels : Nat} {place last : List String} {steps rest : List (List Char)}
    (climbed : climb levels place steps = .ok (last, rest)) (more : List (List Char)) :
    climb levels place (steps ++ more) = .ok (last, rest ++ more) := by
  induction steps generalizing levels place with
  | nil =>
      cases levels with
      | zero =>
          cases climbed
          exact climb_zero ..
      | succ levels => cases climbed
  | cons step steps ih =>
      cases levels with
      | zero =>
          cases climbed
          exact climb_zero ..
      | succ levels =>
          rw [List.cons_append, climb]
          rw [climb] at climbed
          split at climbed
          · rename_i void
            rw [if_pos void, ih climbed]
          · rename_i solid
            split at climbed
            · rename_i up
              rw [if_neg solid, if_pos up, ih climbed]
            · cases climbed

/-- Names are no way out. -/
theorem climb_names {levels : Nat} {place : List String} {steps : List (List Char)}
    {names : List String} (all : ∀ name ∈ names, IsName name)
    (failed : climb levels place steps = .error .missing) :
    climb levels place (steps ++ names.map String.toList) = .error .missing := by
  induction steps generalizing levels place with
  | nil =>
      cases levels with
      | zero => cases failed
      | succ levels =>
          cases names with
          | nil => rfl
          | cons name names =>
              have isName := all name (List.mem_cons_self ..)
              simp [climb, isName.solid, isName.notUp]
  | cons step steps ih =>
      cases levels with
      | zero => cases failed
      | succ levels =>
          rw [List.cons_append, climb]
          rw [climb] at failed
          split at failed
          · rename_i void
            rw [if_pos void, ih failed]
          · rename_i solid
            rw [if_neg solid]
            split at failed
            · rename_i up
              rw [if_pos up, ih failed]
            · rename_i other
              rw [if_neg other]

/-- Names behind a way out that is not found are not found either. -/
theorem start_names {t : FileTree} {path : String} {steps : List (List Char)}
    {names : List String} (all : ∀ name ∈ names, IsName name)
    (failed : t.start path steps = .error .missing) :
    t.start path (steps ++ names.map String.toList) = .error .missing := by
  unfold start at *
  split
  · rename_i absolute
    rw [if_pos absolute] at failed
    cases failed
  · rename_i relative
    rw [if_neg relative] at failed
    exact climb_names all failed

/-- Void steps are no part of a way out. -/
theorem climb_filter (levels : Nat) (place : List String) (steps : List (List Char)) :
    climb levels place (steps.filter (!isVoid ·)) =
      (climb levels place steps).map fun (last, rest) => (last, rest.filter (!isVoid ·)) := by
  induction steps generalizing levels place with
  | nil => cases levels <;> rfl
  | cons step steps ih =>
      cases levels with
      | zero =>
          rw [climb_zero, climb_zero]
          rfl
      | succ levels =>
          rw [climb]
          by_cases void : isVoid step = true
          · rw [List.filter_cons_of_neg (by simp [void]), if_pos void, ih]
          · rw [List.filter_cons_of_pos (by simpa using void), climb, if_neg void, if_neg void]
            split
            · exact ih ..
            · rfl

/-! ## Void steps -/

/-- A void step in a directory stays there. -/
theorem step_void {step : List Char} (void : isVoid step = true) {t : FileTree}
    {place : List String} (directory : t.lookup? place = some .directory) :
    t.step place step = .ok place := by
  have dot : step = [] ∨ step = ['.'] := by simpa [isVoid] using void
  rw [FileTree.step, directory]
  exact if_pos dot

/-- Void steps can be put in, if there is a directory at the end. -/
theorem foldlM_step_filter {t : FileTree} {place last : List String} {steps : List (List Char)}
    (walked : (steps.filter (!isVoid ·)).foldlM t.step place = .ok last)
    (directory : t.lookup? last = some .directory) : steps.foldlM t.step place = .ok last := by
  induction steps generalizing place with
  | nil => exact walked
  | cons step steps ih =>
      rw [List.foldlM_cons]
      by_cases void : isVoid step = true
      · rw [List.filter_cons_of_neg (by simp [void])] at walked
        refine bind_eq_ok_iff.mpr ⟨place, step_void void ?_, ih walked⟩
        -- the place is the last one, or the next solid step is made in it
        cases solid : steps.filter (!isVoid ·) with
        | nil =>
            rw [solid] at walked
            cases walked
            exact directory
        | cons next rest =>
            rw [solid, List.foldlM_cons] at walked
            obtain ⟨_, stepped, -⟩ := bind_eq_ok_iff.mp walked
            exact (step_eq_ok stepped).1
      · rw [List.filter_cons_of_pos (by simpa using void), List.foldlM_cons] at walked
        obtain ⟨next, stepped, walked⟩ := bind_eq_ok_iff.mp walked
        exact bind_eq_ok_iff.mpr ⟨next, stepped, ih walked⟩

theorem foldlM_step_of_void {t : FileTree} {place : List String} {step : List Char}
    (void : isVoid step = true) (next : List Char) (steps : List (List Char)) :
    (step :: next :: steps).foldlM t.step place = (next :: steps).foldlM t.step place := by
  have dot : step = [] ∨ step = ['.'] := by simpa [isVoid] using void
  rw [List.foldlM_cons, List.foldlM_cons]
  cases found : t.lookup? place with
  | none => simp [FileTree.step, found, Except.bind, bind]
  | some entry =>
      cases entry with
      | file text => simp [FileTree.step, found, Except.bind, bind]
      | directory =>
          rw [step_void void found]
          rfl

/-- Behind the last solid step nothing is left out. -/
theorem foldlM_step_trim {t : FileTree} {place : List String} {front : List (List Char)}
    {part : List Char} (solid : isVoid part = false) :
    ((front ++ [part]).filter (!isVoid ·)).foldlM t.step place =
      (front ++ [part]).foldlM t.step place := by
  induction front generalizing place with
  | nil => simp [solid]
  | cons step front ih =>
      by_cases void : isVoid step = true
      · rw [List.cons_append, List.filter_cons_of_neg (by simp [void]), ih]
        cases front with
        | nil => exact (foldlM_step_of_void void part []).symm
        | cons next front => exact (foldlM_step_of_void void next (front ++ [part])).symm
      · rw [List.cons_append, List.filter_cons_of_pos (by simpa using void), List.foldlM_cons,
          List.foldlM_cons]
        exact bind_congr fun next => ih

theorem start_filter (t : FileTree) (path : String) (steps : List (List Char)) :
    t.start path (steps.filter (!isVoid ·)) =
      (t.start path steps).map fun (place, rest) => (place, rest.filter (!isVoid ·)) := by
  unfold start
  split
  · rfl
  · exact climb_filter ..

theorem start_split {t : FileTree} {path : String} {steps rest : List (List Char)}
    {place : List String} (started : t.start path steps = .ok (place, rest)) :
    ∃ front, steps = front ++ rest ∧ front.foldl move (t.origin path) = place := by
  unfold start at started
  unfold origin
  split at started
  · rename_i absolute
    cases started
    exact ⟨[], rfl, by rw [if_pos absolute]; rfl⟩
  · rename_i relative
    rw [if_neg relative]
    exact climb_split started

/-- Void steps can be left out of a walk. -/
theorem foldlM_step_of_ok {t : FileTree} {place last : List String} {steps : List (List Char)}
    (walked : steps.foldlM t.step place = .ok last) :
    (steps.filter (!isVoid ·)).foldlM t.step place = .ok last := by
  induction steps generalizing place with
  | nil => exact walked
  | cons step steps ih =>
      rw [List.foldlM_cons] at walked
      obtain ⟨next, stepped, walked⟩ := bind_eq_ok_iff.mp walked
      by_cases void : isVoid step = true
      · rw [List.filter_cons_of_neg (by simp [void])]
        rw [(step_eq_ok stepped).2, move_void void] at walked
        exact ih walked
      · rw [List.filter_cons_of_pos (by simpa using void), List.foldlM_cons]
        exact bind_eq_ok_iff.mpr ⟨next, stepped, ih walked⟩

/-- Void steps can be left out. -/
theorem route_filter {t : FileTree} {path : String} {steps : List (List Char)}
    {place : List String} (routed : t.route path steps = .ok place) :
    t.route path (steps.filter (!isVoid ·)) = .ok place := by
  obtain ⟨⟨first, rest⟩, started, walked⟩ := bind_eq_ok_iff.mp routed
  refine bind_eq_ok_iff.mpr ⟨(first, rest.filter (!isVoid ·)), ?_, foldlM_step_of_ok walked⟩
  rw [start_filter, started]
  rfl

/-- Void steps can be put in, if there is a directory at the end. -/
theorem route_of_filter {t : FileTree} {path : String} {steps : List (List Char)}
    {place : List String} (routed : t.route path (steps.filter (!isVoid ·)) = .ok place)
    (directory : t.lookup? place = some .directory) : t.route path steps = .ok place := by
  obtain ⟨⟨first, solid⟩, started, walked⟩ := bind_eq_ok_iff.mp routed
  rw [start_filter] at started
  cases whole : t.start path steps with
  | error fault =>
      rw [whole] at started
      cases started
  | ok found =>
      rw [whole] at started
      cases started
      exact bind_eq_ok_iff.mpr ⟨found, whole, foldlM_step_filter walked directory⟩

/-- Void steps before the last one make no difference. -/
theorem route_trim (t : FileTree) (path : String) {front : List (List Char)} {part : List Char}
    (solid : isVoid part = false) :
    t.route path ((front ++ [part]).filter (!isVoid ·)) = t.route path (front ++ [part]) := by
  unfold route
  rw [start_filter]
  cases started : t.start path (front ++ [part]) with
  | error fault => rfl
  | ok found =>
      obtain ⟨place, rest⟩ := found
      show (rest.filter (!isVoid ·)).foldlM t.step place = rest.foldlM t.step place
      obtain ⟨before, split, -⟩ := start_split started
      rcases List.eq_nil_or_concat rest with rfl | ⟨rest, last, rfl⟩
      · rfl
      · rw [List.concat_eq_append, ← List.append_assoc] at split
        obtain ⟨-, same⟩ := List.append_inj' split rfl
        obtain rfl := List.singleton_inj.mp same
        rw [List.concat_eq_append]
        exact foldlM_step_trim solid

/-! ## Following solid steps -/

/-- **The place after the solid steps of a path.** -/
def follow (t : FileTree) (path : String) : Except FileFault (List String) :=
  t.route path (solidSteps path)

theorem route_congr (t : FileTree) {path other : String}
    (kind : isAbsolute path = isAbsolute other) (steps : List (List Char)) :
    t.route path steps = t.route other steps := by
  unfold route start
  rw [kind]

/-- A path that is located is followed along its solid steps. -/
theorem follow_of_locate {t : FileTree} {path : String} {place : List String}
    (located : t.locate path = .ok place) : Fits path ∧ t.follow path = .ok place := by
  obtain ⟨fits, routed⟩ := walk_eq_ok_iff.mp located
  exact ⟨fits, route_filter routed⟩

/-- The solid steps decide where they lead to a directory. -/
theorem locate_of_follow {t : FileTree} {path : String} {place : List String} (fits : Fits path)
    (followed : t.follow path = .ok place) (directory : t.lookup? place = some .directory) :
    t.locate path = .ok place :=
  walk_eq_ok_iff.mpr ⟨fits, route_of_filter followed directory⟩

theorem follow_of_locateNew {t : FileTree} {path : String} {place : List String}
    (located : t.locateNew path = .ok place) : Fits path ∧ t.follow path = .ok place := by
  obtain ⟨fits, routed⟩ := walk_eq_ok_iff.mp located
  have followed := route_filter routed
  rw [dropWhile_reverse_filter] at followed
  exact ⟨fits, followed⟩

theorem locateNew_of_follow {t : FileTree} {path : String} {place : List String}
    (fits : Fits path) (followed : t.follow path = .ok place)
    (directory : t.lookup? place = some .directory) : t.locateNew path = .ok place := by
  refine walk_eq_ok_iff.mpr ⟨fits, route_of_filter ?_ directory⟩
  rw [dropWhile_reverse_filter]
  exact followed

theorem walk_of_fits {path : String} (fits : Fits path) (t : FileTree)
    (steps : List (List Char)) : t.walk path steps = t.route path steps := by
  have short := fits.short
  rw [walk, if_neg fits.nonempty, fits.clean, Bool.false_or, if_neg (by simpa using short)]

/-- The solid steps decide where the last step is one of them. -/
theorem locate_trim {path : String} (fits : Fits path) (t : FileTree) {front : List (List Char)}
    {part : List Char} (split : steps path = front ++ [part]) (solid : isVoid part = false) :
    t.locate path = t.follow path ∧ t.locateNew path = t.follow path := by
  have kept : ((steps path).reverse.dropWhile (· == [])).reverse = steps path := by
    rw [split, List.reverse_append, List.reverse_singleton, List.singleton_append,
      List.dropWhile_cons_of_neg ?_, List.reverse_cons, List.reverse_reverse]
    intro empty
    rw [beq_iff_eq.mp empty] at solid
    cases solid
  rw [locateNew, kept, locate, walk_of_fits fits, follow, solidSteps, split,
    route_trim t path solid]
  exact ⟨rfl, rfl⟩

/-! ## Names behind other steps -/

/-- **Names behind other steps** are followed from where those lead. -/
theorem route_names (t : FileTree) (path : String) (steps : List (List Char))
    {names : List String} (all : ∀ name ∈ names, IsName name) :
    t.route path (steps ++ names.map String.toList) =
      t.route path steps >>= fun place => (names.map String.toList).foldlM t.step place := by
  have started : t.start path (steps ++ names.map String.toList) =
      (t.start path steps).map fun (place, rest) => (place, rest ++ names.map String.toList) := by
    unfold start
    split
    · rfl
    · cases climbed : climb t.gone t.here steps with
      | ok found => exact climb_append climbed _
      | error fault =>
          obtain rfl := climb_eq_error climbed
          exact climb_names all climbed
  unfold route
  rw [started]
  cases t.start path steps with
  | error fault => rfl
  | ok found =>
      obtain ⟨place, rest⟩ := found
      show (rest ++ names.map String.toList).foldlM t.step place = _
      rw [List.foldlM_append]
      rfl

/-- **Names joined to a directory** are followed from where the directory is. -/
theorem follow_join (t : FileTree) (dir : String) {names : List String} (nonempty : names ≠ [])
    (all : ∀ name ∈ names, IsName name) :
    t.follow (join dir (ofNames names)) =
      t.follow dir >>= fun place => (names.map String.toList).foldlM t.step place := by
  obtain ⟨relative, kept⟩ := steps_ofNames nonempty all
  have kind := (steps_join dir relative).1
  unfold follow
  rw [route_congr t kind, solidSteps_join dir relative, solidSteps, solidSteps, kept,
    filter_names all, route_names t dir _ all]

/-- The path of names below a directory ends with the last name. -/
theorem steps_join_names (dir : String) {names : List String} (nonempty : names ≠ [])
    (all : ∀ name ∈ names, IsName name) :
    ∃ front part, steps (join dir (ofNames names)) = front ++ [part] ∧ isVoid part = false := by
  obtain ⟨relative, kept⟩ := steps_ofNames nonempty all
  obtain ⟨-, front, joined, -⟩ := steps_join dir relative
  obtain ⟨names, last, rfl⟩ := (List.eq_nil_or_concat names).resolve_left nonempty
  refine ⟨front ++ names.map String.toList, last.toList, ?_, ?_⟩
  · rw [joined, kept]
    simp
  · exact (all last (by simp)).solid

/-- Names joined to a directory are located from where the directory is. -/
theorem locate_join (t : FileTree) (dir : String) {names : List String} (nonempty : names ≠ [])
    (all : ∀ name ∈ names, IsName name) (fits : Fits (join dir (ofNames names))) :
    t.locate (join dir (ofNames names)) =
      t.follow dir >>= fun place => (names.map String.toList).foldlM t.step place := by
  obtain ⟨front, part, split, solid⟩ := steps_join_names dir nonempty all
  rw [(locate_trim fits t split solid).1, follow_join t dir nonempty all]

/-- A name leads down from a directory, unless it is too long. -/
theorem step_name {t : FileTree} {place : List String}
    (directory : t.lookup? place = some .directory) {name : String} (isName : IsName name) :
    t.step place name.toList =
      if isLongName name then .error .refused else .ok (place ++ [name]) := by
  have solid : ¬(name.toList = [] ∨ name.toList = ['.']) := by
    simpa [isVoid] using isName.solid
  rw [FileTree.step, directory]
  simp only [if_neg solid, if_neg isName.notUp, String.ofList_toList]

/-- Where something stands below a directory, nothing is missing on the way to it. -/
theorem Sound.foldlM_names {t : FileTree} (sound : t.Sound) {place : List String}
    {names : List String} (all : ∀ name ∈ names, IsName name)
    (found : t.lookup? (place ++ names) ≠ none) :
    (names.map String.toList).foldlM t.step place ≠ .error .missing := by
  induction names generalizing place with
  | nil => nofun
  | cons name names ih =>
      have directory := sound.directory_of_append found (List.cons_ne_nil _ _)
      rw [List.map_cons, List.foldlM_cons, step_name directory (all name (List.mem_cons_self ..))]
      split
      · nofun
      · refine ih (fun other member => all other (List.mem_cons_of_mem _ member)) ?_
        rwa [List.append_assoc, List.singleton_append]

/-! ## Trees with more directories -/

/-- **A tree with all the directories of another one.** -/
structure Grown (t t' : FileTree) : Prop where
  /-- The working directory is the same. -/
  here : t'.here = t.here
  /-- As much of it has been removed. -/
  gone : t'.gone = t.gone
  /-- All directories are there. -/
  directory : ∀ place, t.lookup? place = some .directory → t'.lookup? place = some .directory

namespace Grown

variable {t t' t'' : FileTree}

theorem refl (t : FileTree) : Grown t t := ⟨rfl, rfl, fun _ directory => directory⟩

theorem trans (first : Grown t t') (second : Grown t' t'') : Grown t t'' :=
  ⟨second.here.trans first.here, second.gone.trans first.gone,
    fun place directory => second.directory place (first.directory place directory)⟩

/-- A file takes no place of a directory. -/
theorem put_file {place : List String} (inner : place ≠ [])
    (other : t.lookup? place ≠ some .directory) (text : String) :
    Grown t (t.put place (.file text)) := by
  refine ⟨rfl, rfl, fun p directory => ?_⟩
  rw [lookup?_put inner, if_neg, directory]
  rintro rfl
  exact other directory

/-- A step that can be made can still be made. -/
theorem step (grown : Grown t t') {place next : List String} {step : List Char}
    (stepped : t.step place step = .ok next) : t'.step place step = .ok next := by
  have directory := (step_eq_ok stepped).1
  rw [FileTree.step, directory] at stepped
  rw [FileTree.step, grown.directory place directory]
  exact stepped

theorem foldlM (grown : Grown t t') {place last : List String} {steps : List (List Char)}
    (walked : steps.foldlM t.step place = .ok last) : steps.foldlM t'.step place = .ok last := by
  induction steps generalizing place with
  | nil => exact walked
  | cons step steps ih =>
      rw [List.foldlM_cons] at walked
      obtain ⟨next, stepped, walked⟩ := bind_eq_ok_iff.mp walked
      rw [List.foldlM_cons]
      exact bind_eq_ok_iff.mpr ⟨next, grown.step stepped, ih walked⟩

/-- **Paths still lead to their places.** -/
theorem route (grown : Grown t t') {path : String} {steps : List (List Char)}
    {place : List String} (routed : t.route path steps = .ok place) :
    t'.route path steps = .ok place := by
  obtain ⟨⟨first, rest⟩, started, walked⟩ := bind_eq_ok_iff.mp routed
  refine bind_eq_ok_iff.mpr ⟨(first, rest), ?_, grown.foldlM walked⟩
  rw [start, grown.here, grown.gone]
  exact started

/-- A path that is located is still located at its place. -/
theorem locate (grown : Grown t t') {path : String} {place : List String}
    (located : t.locate path = .ok place) : t'.locate path = .ok place := by
  obtain ⟨fits, routed⟩ := walk_eq_ok_iff.mp located
  exact walk_eq_ok_iff.mpr ⟨fits, grown.route routed⟩

end Grown

/-! ## More directories that are gone -/

/-- The way out of more directories is longer, or it is not found. -/
theorem climb_of_le {levels more : Nat} (le : levels ≤ more) {place last : List String}
    {steps rest : List (List Char)} (climbed : climb levels place steps = .ok (last, rest)) :
    climb more place steps = .error .missing ∨
      ∃ front rest' last', climb more place steps = .ok (last', rest') ∧ rest = front ++ rest' ∧
        front.foldl move last = last' := by
  induction steps generalizing levels more place with
  | nil =>
      cases levels with
      | zero =>
          cases climbed
          cases more with
          | zero => exact .inr ⟨[], [], last, rfl, rfl, rfl⟩
          | succ more => exact .inl rfl
      | succ levels => cases climbed
  | cons step steps ih =>
      cases levels with
      | zero =>
          rw [climb_zero] at climbed
          cases climbed
          cases further : climb more last (step :: steps) with
          | error fault =>
              left
              rw [climb_eq_error further]
          | ok found =>
              obtain ⟨last', rest'⟩ := found
              obtain ⟨front, split, led⟩ := climb_split further
              exact .inr ⟨front, rest', last', rfl, split, led⟩
      | succ levels =>
          obtain ⟨more, rfl⟩ := Nat.exists_eq_add_of_le' (Nat.le_trans (Nat.le_add_left 1 _) le)
          rw [climb] at climbed ⊢
          split at climbed
          · rename_i void
            rw [if_pos void]
            exact ih le climbed
          · rename_i solid
            rw [if_neg solid]
            split at climbed
            · rename_i up
              rw [if_pos up]
              exact ih (Nat.le_of_succ_le_succ le) climbed
            · cases climbed

/-- Where a path starts, it starts further on once more of the working directory is gone, or the way
out is not found. -/
theorem start_of_le {t more : FileTree} (here : more.here = t.here) (gone : t.gone ≤ more.gone)
    {path : String} {steps rest : List (List Char)} {place : List String}
    (started : t.start path steps = .ok (place, rest)) :
    more.start path steps = .error .missing ∨
      ∃ front rest' place', more.start path steps = .ok (place', rest') ∧ rest = front ++ rest' ∧
        front.foldl move place = place' := by
  unfold FileTree.start at *
  split
  · rename_i absolute
    rw [if_pos absolute] at started
    cases started
    exact .inr ⟨[], _, [], rfl, rfl, rfl⟩
  · rename_i relative
    rw [if_neg relative] at started
    rw [here]
    exact climb_of_le gone started

/-! ## Trees with something missing -/

/-- **A tree in which some things of another one are missing.** -/
structure Within (t whole : FileTree) : Prop where
  /-- The working directory is the same. -/
  here : t.here = whole.here
  /-- At least as much of it has been removed. -/
  gone : whole.gone ≤ t.gone
  /-- What is there is the same. -/
  part : ∀ place, t.lookup? place = none ∨ t.lookup? place = whole.lookup? place

namespace Within

variable {t whole : FileTree}

theorem refl (t : FileTree) : Within t t := ⟨rfl, Nat.le_refl _, fun _ => .inr rfl⟩

theorem foldlM (within : Within t whole) {place last : List String} {steps : List (List Char)}
    (walked : steps.foldlM whole.step place = .ok last) :
    steps.foldlM t.step place = .ok last ∨ steps.foldlM t.step place = .error .missing := by
  induction steps generalizing place with
  | nil => exact .inl walked
  | cons step steps ih =>
      rw [List.foldlM_cons] at walked
      obtain ⟨next, stepped, walked⟩ := bind_eq_ok_iff.mp walked
      rw [List.foldlM_cons]
      rcases within.part place with absent | same
      · right
        rw [FileTree.step, absent]
        rfl
      · have stepped' : t.step place step = .ok next := by
          rw [FileTree.step, same]
          exact stepped
        rw [stepped']
        exact ih walked

/-- Where a path starts in the whole tree, it starts further on in the smaller one, or the way out
is not found. -/
theorem start (within : Within t whole) {path : String} {steps rest : List (List Char)}
    {place : List String} (started : whole.start path steps = .ok (place, rest)) :
    t.start path steps = .error .missing ∨
      ∃ front rest' place', t.start path steps = .ok (place', rest') ∧ rest = front ++ rest' ∧
        front.foldl move place = place' :=
  start_of_le within.here within.gone started

/-- **Paths lead to their places, or something is missing.** -/
theorem route (within : Within t whole) {path : String} {steps : List (List Char)}
    {place : List String} (routed : whole.route path steps = .ok place) :
    t.route path steps = .ok place ∨ t.route path steps = .error .missing := by
  obtain ⟨⟨first, rest⟩, started, walked⟩ := bind_eq_ok_iff.mp routed
  unfold FileTree.route
  rcases within.start started with failed | ⟨front, rest', first', started, split, led⟩
  · exact .inr (by rw [failed]; rfl)
  · dsimp only at walked
    rw [split, List.foldlM_append] at walked
    obtain ⟨middle, walkedFront, walked⟩ := bind_eq_ok_iff.mp walked
    rw [foldlM_step_eq_ok walkedFront, led] at walked
    rw [started]
    exact within.foldlM walked

end Within

end FileTree

end ClientGen
