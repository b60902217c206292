import ClientGen.Output.Plan
import ClientGen.Proofs.Files.Directories

/-!
# Parts of a tree

A tree from which something has been taken away and may be put back. A request that was possible in
the whole tree meets in a part of it what is in the whole one, or nothing. So it is never refused,
and what is missing can be made again.

* `climb_of_concat`, `start_of_concat`, `route_append` — the beginning of a path, and how it goes
  on.
* `directory_of_locateNew` — nothing has to be made on the way to a directory that could be reached.
* `FileTree.Part` — a part of a tree from which a directory can still be headed for, even if the
  working directory is gone.
* `Part.put`, `Part.erase`, `Part.vacate` — what is put back or taken away leaves a part.
* `Part.makes` — a directory of the whole tree can be made again, with everything above it.

Taking away the working directory is the hard case: from then on only double dots lead out of it.
The directory that goes is empty, so a path through it to something below the other directory leads
up from it.
-/

namespace ClientGen

open ClientGen.Path

namespace FileTree

/-! ## The beginning of a path -/

theorem climb_of_concat {levels : Nat} {place last : List String} {steps rest : List (List Char)}
    {step : List Char}
    (climbed : climb levels place (steps ++ [step]) = .ok (last, rest ++ [step])) :
    climb levels place steps = .ok (last, rest) := by
  induction steps generalizing levels place with
  | nil =>
      cases levels with
      | zero =>
          rw [climb_zero, Except.ok.injEq, Prod.mk.injEq] at climbed
          obtain ⟨rfl, same⟩ := climbed
          obtain ⟨rfl, -⟩ := List.append_inj' same rfl
          exact climb_zero ..
      | succ levels =>
          -- one step cannot both lead out of a directory and be left for later
          obtain ⟨front, split, -⟩ := climb_split climbed
          obtain ⟨nothing, -⟩ := List.append_inj' (split.trans (List.append_assoc ..).symm) rfl
          obtain ⟨rfl, rfl⟩ := List.append_eq_nil_iff.mp nothing.symm
          simp only [List.nil_append, climb] at climbed
          split at climbed
          · cases climbed
          · split at climbed
            · cases levels <;> cases climbed
            · cases climbed
  | cons first steps ih =>
      cases levels with
      | zero =>
          rw [climb_zero, Except.ok.injEq, Prod.mk.injEq] at climbed
          obtain ⟨rfl, same⟩ := climbed
          have whole : (first :: steps) ++ [step] = rest ++ [step] := same
          obtain ⟨rfl, -⟩ := List.append_inj' whole rfl
          exact climb_zero ..
      | succ levels =>
          rw [List.cons_append, climb] at climbed
          rw [climb]
          split at climbed
          · rename_i void
            rw [if_pos void, ih climbed]
          · rename_i solid
            rw [if_neg solid]
            split at climbed
            · rename_i up
              rw [if_pos up, ih climbed]
            · cases climbed

/-- One more directory is left by a double dot. -/
theorem climb_succ {levels : Nat} {place last : List String} {steps rest : List (List Char)}
    (climbed : climb levels place steps = .ok (last, ['.', '.'] :: rest)) :
    climb (levels + 1) place steps = .ok (last.dropLast, rest) := by
  induction steps generalizing levels place with
  | nil => cases levels <;> cases climbed
  | cons step steps ih =>
      cases levels with
      | zero =>
          rw [climb_zero] at climbed
          cases climbed
          rw [climb, if_neg (by decide), if_pos rfl, climb_zero]
      | succ levels =>
          rw [climb]
          rw [climb] at climbed
          split at climbed
          · rename_i void
            rw [if_pos void, ih climbed]
          · rename_i solid
            rw [if_neg solid]
            split at climbed
            · rename_i up
              rw [if_pos up, ih climbed]
            · cases climbed

theorem start_append {t : FileTree} {path : String} {steps rest : List (List Char)}
    {place : List String} (started : t.start path steps = .ok (place, rest))
    (more : List (List Char)) : t.start path (steps ++ more) = .ok (place, rest ++ more) := by
  unfold start at *
  split
  · rename_i absolute
    rw [if_pos absolute] at started
    cases started
    rfl
  · rename_i relative
    rw [if_neg relative] at started
    exact climb_append started more

theorem start_of_concat {t : FileTree} {path : String} {steps rest : List (List Char)}
    {place : List String} {step : List Char}
    (started : t.start path (steps ++ [step]) = .ok (place, rest ++ [step])) :
    t.start path steps = .ok (place, rest) := by
  unfold start at *
  split
  · rename_i absolute
    rw [if_pos absolute, Except.ok.injEq, Prod.mk.injEq] at started
    obtain ⟨rfl, same⟩ := started
    obtain ⟨rfl, -⟩ := List.append_inj' same rfl
    rfl
  · rename_i relative
    rw [if_neg relative] at started
    exact climb_of_concat started

theorem start_congr (t : FileTree) {path other : String}
    (kind : isAbsolute path = isAbsolute other) (steps : List (List Char)) :
    t.start path steps = t.start other steps := by
  unfold start
  rw [kind]

/-- Where some steps lead, the next one goes on. -/
theorem route_append {t : FileTree} {path : String} {steps : List (List Char)}
    {place : List String} (routed : t.route path steps = .ok place) (more : List (List Char)) :
    t.route path (steps ++ more) = more.foldlM t.step place := by
  obtain ⟨⟨first, rest⟩, started, walked⟩ := bind_eq_ok_iff.mp routed
  have both : t.start path (steps ++ more) = .ok (first, rest ++ more) := start_append started more
  dsimp only at walked
  unfold route
  rw [both]
  show (rest ++ more).foldlM t.step first = _
  rw [List.foldlM_append, walked]
  rfl

theorem step_ne_missing {t : FileTree} {place : List String}
    (directory : t.lookup? place = some .directory) (step : List Char) :
    t.step place step ≠ .error .missing := by
  rw [FileTree.step, directory]
  dsimp only
  split
  · simp
  · split
    · simp
    · split <;> simp

/-- A path starts in a directory. -/
theorem Sound.directory_of_start {t : FileTree} (sound : t.Sound) {path : String}
    {steps rest : List (List Char)} {place : List String}
    (started : t.start path steps = .ok (place, rest)) : t.lookup? place = some .directory := by
  rcases (start_eq_ok started).2 with rfl | rfl
  · rfl
  · exact sound.home

/-- What can be made on the way to a directory is there already, if the directory could be reached
before more of the working directory was gone. -/
theorem directory_of_locateNew {t u : FileTree} {dir : String} {base : List String}
    (followed : t.follow dir = .ok base) (here : u.here = t.here) (gone : t.gone ≤ u.gone)
    {path : String} (kind : isAbsolute path = isAbsolute dir) {more : List (List Char)}
    (nonempty : more ≠ []) (split : solidSteps dir = solidSteps path ++ more)
    {place : List String} (located : u.locateNew path = .ok place) :
    t.lookup? place = some .directory := by
  obtain ⟨⟨first, rest⟩, started, walked⟩ := bind_eq_ok_iff.mp (follow_of_locateNew located).2
  obtain ⟨⟨outer, steps⟩, startedDir, walkedDir⟩ := bind_eq_ok_iff.mp followed
  have later : u.start dir (solidSteps dir) = .ok (first, rest ++ more) := by
    rw [split, ← start_congr u kind]
    exact start_append started more
  rcases start_of_le here gone startedDir with missing | ⟨front, _, _, same, rfl, led⟩
  · rw [later] at missing
    cases missing
  · rw [later] at same
    cases same
    dsimp only at walked walkedDir
    rw [← List.append_assoc, List.foldlM_append] at walkedDir
    obtain ⟨middle, walkedFront, walkedMore⟩ := bind_eq_ok_iff.mp walkedDir
    obtain rfl : middle = place := by
      rw [foldlM_step_eq_ok walkedFront, List.foldl_append, led, foldlM_step_eq_ok walked]
    -- the way to the directory goes on, with a step that is made there
    obtain ⟨step, later, rfl⟩ := List.exists_cons_of_ne_nil nonempty
    rw [List.foldlM_cons] at walkedMore
    obtain ⟨_, stepped, -⟩ := bind_eq_ok_iff.mp walkedMore
    exact (step_eq_ok stepped).1

/-! ## Parts -/

/-- **A part of a tree** from which a directory can still be headed for. -/
structure Part (whole : FileTree) (dir : String) (t : FileTree) : Prop where
  /-- The tree can be. -/
  sound : t.Sound
  /-- It is a part of the whole tree. -/
  within : Within t whole
  /-- The path of the directory leads out of directories that are gone. -/
  starts : ∃ found, t.start dir (solidSteps dir) = .ok found

namespace Part

variable {whole t : FileTree} {dir : String}

/-- With something of the whole tree put back. -/
theorem put (part : Part whole dir t) {place : List String} (inner : place ≠ [])
    (other : t.lookup? place ≠ some .directory)
    (parent : t.lookup? place.dropLast = some .directory) {entry : Entry}
    (same : whole.lookup? place = some entry) : Part whole dir (t.put place entry) := by
  refine ⟨part.sound.put inner other parent entry,
    ⟨part.within.here, part.within.gone, fun p => ?_⟩, part.starts⟩
  rw [lookup?_put inner]
  split
  · rename_i here
    exact .inr (by rw [here, same])
  · exact part.within.part p

/-- Without a file. -/
theorem erase (part : Part whole dir t) {place : List String} {text : String}
    (file : t.lookup? place = some (.file text)) : Part whole dir (t.erase place) := by
  have inner := ne_nil_of_file file
  refine ⟨part.sound.erase_file file,
    ⟨part.within.here, part.within.gone, fun p => ?_⟩, part.starts⟩
  rw [lookup?_erase inner]
  split
  · exact .inl rfl
  · exact part.within.part p

/-- Something that stands is the same in the whole tree. -/
theorem lookup?_of_some (part : Part whole dir t) {place : List String} {entry : Entry}
    (found : t.lookup? place = some entry) : whole.lookup? place = some entry := by
  rcases part.within.part place with absent | same
  · rw [found] at absent
    cases absent
  · rw [← same, found]

/-- A path that leads on from a directory leads where it led before. -/
theorem follow_of_front (part : Part whole dir t) {path : String} {place last : List String}
    {front : List (List Char)} {step : List Char} (followed : whole.follow path = .ok last)
    (split : solidSteps path = front ++ [step]) (routed : t.route path front = .ok place)
    (directory : t.lookup? place = some .directory) : t.follow path = .ok last := by
  rcases part.within.route followed with found | missing
  · exact found
  · rw [split, route_append routed, List.foldlM_cons] at missing
    cases stepped : t.step place step with
    | ok next =>
        rw [stepped] at missing
        cases missing
    | error fault =>
        rw [stepped] at missing
        cases missing
        exact absurd stepped (step_ne_missing directory step)

end Part

/-- A directory that is there is not made again. -/
theorem made_of_directory {t : FileTree} {path : String} {place : List String}
    (located : t.locate path = .ok place) (locatedNew : t.locateNew path = .ok place)
    (directory : t.lookup? place = some .directory) :
    t.makeDirectory path = .error .refused ∧ t.made path = (.ok (), t) := by
  have making : t.makeDirectory path = .error .refused := by
    simp only [makeDirectory, locatedNew, directory, bind, Except.bind]
  have present : t.isDirectory path = true := by
    simp [isDirectory, find, located, directory, bind, Except.bind, pure, Except.pure,
      Except.toOption]
  refine ⟨making, ?_⟩
  rw [made, making, present]
  rfl

/-- A directory that is found is not made again. -/
theorem made_of_isDirectory {t : FileTree} {path : String} (there : t.isDirectory path = true) :
    t.makeDirectory path = .error .refused ∧ t.made path = (.ok (), t) := by
  unfold isDirectory at there
  cases found : t.find path with
  | error fault =>
      rw [found] at there
      cases there
  | ok result =>
      obtain ⟨place, entry⟩ := result
      rw [found] at there
      obtain rfl : entry = .directory := of_decide_eq_true there
      obtain ⟨_, located, -⟩ := bind_eq_ok_iff.mp found
      obtain ⟨same, directory⟩ := find_eq_ok found
      rw [locate_eq located, ← same] at located
      obtain ⟨fits, followed⟩ := follow_of_locate located
      exact made_of_directory located (locateNew_of_follow fits followed directory) directory

/-- A trimmed path is located where its solid steps lead. -/
theorem Sound.locate_of_trim {t : FileTree} (sound : t.Sound) {path : String} (fits : Fits path)
    (trim : IsTrim path) {place : List String} (followed : t.follow path = .ok place) :
    t.locate path = .ok place ∧ t.locateNew path = .ok place := by
  rcases trim with bare | ⟨front, step, split, solid⟩
  · have directory : t.lookup? place = some .directory := by
      obtain ⟨⟨first, rest⟩, started, walked⟩ := bind_eq_ok_iff.mp followed
      rw [bare] at started
      obtain ⟨_, nothing, -⟩ := start_split started
      obtain ⟨-, rfl⟩ := List.append_eq_nil_iff.mp nothing.symm
      cases walked
      exact sound.directory_of_start started
    exact ⟨locate_of_follow fits followed directory, locateNew_of_follow fits followed directory⟩
  · obtain ⟨located, locatedNew⟩ := locate_trim fits t split solid
    exact ⟨located.trans followed, locatedNew.trans followed⟩

namespace Part

variable {whole t : FileTree} {dir : String}

/-- A directory of the whole tree is there or can be made where its path leads. -/
theorem makes_of_follow (part : Part whole dir t) {path : String} (fits : Fits path)
    (trim : IsTrim path) {place : List String} (followed : t.follow path = .ok place)
    (directory : whole.lookup? place = some .directory) :
    t.makeDirectory path ≠ .error .missing ∧
      ∃ t', t.made path = (.ok (), t') ∧ Part whole dir t' ∧ t'.follow path = .ok place ∧
        t'.lookup? place = some .directory := by
  obtain ⟨located, locatedNew⟩ := part.sound.locate_of_trim fits trim followed
  cases found : t.lookup? place with
  | none =>
      have inner : place ≠ [] := by
        rintro rfl
        cases found
      have parent : t.lookup? place.dropLast = some .directory :=
        (part.sound.isOpen_route followed).resolve_left (by simp [found])
      have making : t.makeDirectory path = .ok (t.put place .directory) := by
        simp only [makeDirectory, locatedNew, found, bind, Except.bind, pure, Except.pure]
      have built : Built t (t.put place .directory) := (Built.refl t).put inner found
      refine ⟨by simp [making], t.put place .directory, by rw [made, making], ?_, ?_, ?_⟩
      · exact part.put inner (by simp [found]) parent directory
      · exact built.grown.route followed
      · rw [lookup?_put inner, if_pos rfl]
  | some entry =>
      obtain rfl : entry = .directory :=
        Option.some.inj ((part.lookup?_of_some found).symm.trans directory)
      obtain ⟨making, done⟩ := made_of_directory located locatedNew found
      exact ⟨by simp [making], t, done, part, followed, found⟩

/-- Where a path leads in the whole tree, its parent leads to a directory there. -/
theorem follow_parent (part : Part whole dir t) {path parent : String}
    (kind : isAbsolute parent = isAbsolute path) {step : List Char}
    (split : solidSteps path = solidSteps parent ++ [step]) {first : List String}
    {rest : List (List Char)}
    (started : t.start path (solidSteps parent ++ [step]) = .ok (first, rest ++ [step]))
    {place : List String} (followed : whole.follow path = .ok place) :
    ∃ middle, whole.follow parent = .ok middle ∧ whole.lookup? middle = some .directory := by
  obtain ⟨⟨first', rest'⟩, startedWhole, walked⟩ := bind_eq_ok_iff.mp followed
  rw [split] at startedWhole
  -- the last step comes after the way out of the smaller tree, so it does in the whole one
  rcases part.within.start startedWhole with missing | ⟨front, later, place', same, whole_eq, -⟩
  · rw [started] at missing
    cases missing
  · rw [started] at same
    cases same
    rw [← List.append_assoc] at whole_eq
    subst whole_eq
    dsimp only at walked
    rw [List.foldlM_append] at walked
    obtain ⟨middle, walkedFront, walked⟩ := bind_eq_ok_iff.mp walked
    rw [List.foldlM_cons] at walked
    obtain ⟨_, stepped, -⟩ := bind_eq_ok_iff.mp walked
    refine ⟨middle, ?_, (step_eq_ok stepped).1⟩
    rw [follow, route_congr whole kind]
    exact bind_eq_ok_iff.mpr ⟨_, start_of_concat startedWhole, walkedFront⟩

theorem length_lt_of_beginning {path parent : String} {step : List Char}
    (split : solidSteps path = solidSteps parent ++ [step])
    (beginning : parent.toList <+: path.toList) : parent.length < path.length := by
  rw [← String.length_toList, ← String.length_toList]
  refine Nat.lt_of_le_of_ne beginning.length_le fun same => ?_
  rw [String.toList_inj.mp (beginning.eq_of_length same)] at split
  simp at split

/-- **What has to be made for a path**: nothing, if it is a single step, and otherwise its parent,
from which the path leads on. -/
theorem parent_of_follow (part : Part whole dir t) {path parent : String} (fits : Fits path)
    {front rest : List (List Char)} {step : List Char} (split : solidSteps path = front ++ [step])
    {first : List String} (started : t.start path (front ++ [step]) = .ok (first, rest ++ [step]))
    {place : List String} (followed : whole.follow path = .ok place)
    (above : parent? path = some parent) :
    parent = "" ∧ t.follow path = .ok place ∨
      ∃ found middle, Fits parent ∧ IsTrim parent ∧
        t.start parent (solidSteps parent) = .ok found ∧ whole.follow parent = .ok middle ∧
        whole.lookup? middle = some .directory ∧ parent.length < path.length ∧
        ∀ t', Part whole dir t' → t'.follow parent = .ok middle →
          t'.lookup? middle = some .directory → t'.follow path = .ok place := by
  have startedFront := start_of_concat started
  cases parent_of_parent? above with
  | single relative few =>
      obtain rfl : front = [] := by
        rw [split, List.length_append, List.length_singleton] at few
        exact List.eq_nil_of_length_eq_zero (by omega)
      obtain ⟨way, nothing, -⟩ := start_split startedFront
      obtain ⟨-, rfl⟩ := List.append_eq_nil_iff.mp nothing.symm
      exact .inl ⟨rfl, part.follow_of_front followed split
        (bind_eq_ok_iff.mpr ⟨_, startedFront, rfl⟩) (part.sound.directory_of_start startedFront)⟩
  | inside kind last solid trim nonempty beginning =>
      obtain ⟨steps, same⟩ := List.append_inj' (solid.symm.trans split) rfl
      obtain rfl := List.singleton_inj.mp same
      rw [← steps] at started startedFront
      obtain ⟨middle, followedParent, inside⟩ := part.follow_parent kind solid started followed
      refine .inr ⟨_, middle, fits.of_beginning beginning nonempty, trim,
        (start_congr t kind _).trans startedFront, followedParent, inside,
        length_lt_of_beginning solid beginning, fun t' part' reached there => ?_⟩
      exact part'.follow_of_front followed solid ((route_congr t' kind.symm _).trans reached) there

/-- **A directory can be made again**, with everything above it. Where its path is missing, its
parent is made first, and the path leads on from there. -/
theorem makes (part : Part whole dir t) {path : String} (fits : Fits path) (trim : IsTrim path)
    {found : List String × List (List Char)} (started : t.start path (solidSteps path) = .ok found)
    {place : List String} (followed : whole.follow path = .ok place)
    (directory : whole.lookup? place = some .directory) {count : Nat}
    (enough : path.length < count) :
    ∃ t', t.madeFrom (ancestorsUpTo count path) = (.ok (), t') ∧ Part whole dir t' ∧
      t'.follow path = .ok place ∧ t'.lookup? place = some .directory := by
  induction count generalizing path found place with
  | zero => exact absurd enough (Nat.not_lt_zero _)
  | succ count ih =>
      rw [ancestorsUpTo, madeFrom, if_neg fits.nonempty]
      rcases part.within.route followed with reached | missing
      · obtain ⟨possible, t', done, rest⟩ := part.makes_of_follow fits trim reached directory
        refine ⟨t', ?_, rest⟩
        split
        · rename_i missing
          exact absurd missing possible
        · exact done
      · -- the last step is left for after the way out, or the path would lead there
        obtain ⟨first, rest⟩ := found
        obtain ⟨way, split, -⟩ := start_split started
        rcases List.eq_nil_or_concat rest with rfl | ⟨rest, step, rfl⟩
        · have reached : t.follow path = .ok first := bind_eq_ok_iff.mpr ⟨_, started, rfl⟩
          rw [follow, missing] at reached
          cases reached
        rw [List.concat_eq_append, ← List.append_assoc] at split
        rw [List.concat_eq_append, split] at started
        have making : t.makeDirectory path = .error .missing := by
          rcases trim with bare | ⟨front, part, ends, solid⟩
          · rw [split] at bare
            simp at bare
          · rw [makeDirectory, (locate_trim fits t ends solid).2, follow, missing]
            rfl
        cases above : parent? path with
        | none =>
            have bare := solidSteps_of_parent? above
            rw [split] at bare
            simp at bare
        | some parent =>
            rcases part.parent_of_follow fits split started followed above with
              ⟨-, reached⟩ | ⟨_, middle, fits', trim', started', followed', inside, shorter, leads⟩
            · rw [follow, missing] at reached
              cases reached
            · obtain ⟨t', made, part', reached, there⟩ := ih fits' trim' started' followed' inside
                (Nat.lt_of_lt_of_le shorter (Nat.le_of_lt_succ enough))
              obtain ⟨-, t'', done, rest⟩ :=
                part'.makes_of_follow fits trim (leads t' part' reached there) directory
              refine ⟨t'', ?_, rest⟩
              simp only [making, made, done]

/-- Solid steps and then names lead from an empty directory back to it only if they go up first. -/
theorem up_of_empty {place : List String} (empty : ∀ name, t.lookup? (place ++ [name]) = none)
    {steps : List (List Char)} (solid : ∀ step ∈ steps, isVoid step = false) {names : List String}
    (nonempty : names ≠ []) (all : ∀ name ∈ names, IsName name)
    (walked : (steps ++ names.map String.toList).foldlM t.step place = .ok place) :
    ∃ rest, steps = ['.', '.'] :: rest := by
  cases steps with
  | nil =>
      have led := foldlM_step_eq_ok walked
      rw [List.nil_append, foldl_move_names all] at led
      exact absurd (List.self_eq_append_right.mp led) nonempty
  | cons step rest =>
      by_cases up : step = ['.', '.']
      · exact ⟨rest, by rw [up]⟩
      · rw [List.cons_append, List.foldlM_cons] at walked
        obtain ⟨next, stepped, walked⟩ := bind_eq_ok_iff.mp walked
        obtain rfl : next = place ++ [String.ofList step] := by
          rw [(step_eq_ok stepped).2, move, solid step (List.mem_cons_self ..),
            if_neg Bool.false_ne_true, if_neg up]
        -- something comes after the name, and it is looked for in the empty directory
        obtain ⟨after, later, split⟩ : ∃ after later, rest ++ names.map String.toList =
            after :: later := List.exists_cons_of_ne_nil (by simp [nonempty])
        rw [split, List.foldlM_cons] at walked
        obtain ⟨_, stepped, -⟩ := bind_eq_ok_iff.mp walked
        have directory := (step_eq_ok stepped).1
        rw [empty] at directory
        cases directory

/-- **The way out of a directory that goes**: it is empty, so a path through it to some names below
the output directory leads up from it. -/
theorem starts_vacate (part : Part whole dir t) {names : List String} (nonempty : names ≠ [])
    (all : ∀ name ∈ names, IsName name) {place : List String}
    (followed : t.follow (OutputPlan.target dir names) = .ok place)
    (empty : ∀ name, t.lookup? (place ++ [name]) = none) :
    ∃ found, (t.vacate place).start dir (solidSteps dir) = .ok found := by
  obtain ⟨⟨first, rest⟩, started⟩ := part.starts
  by_cases same : place = t.home
  · have more : (t.vacate place).gone = t.gone + 1 := by rw [FileTree.vacate, if_pos same]
    unfold FileTree.start at *
    split
    · exact ⟨_, rfl⟩
    · rename_i relative
      rw [if_neg relative] at started
      obtain rfl : first = place := (climb_eq_ok started).2.trans same.symm
      have walked : (rest ++ names.map String.toList).foldlM t.step first = .ok first := by
        have whole : t.follow dir >>= (names.map String.toList).foldlM t.step = .ok first :=
          (follow_join t dir nonempty all).symm.trans followed
        obtain ⟨middle, walkedDir, walked⟩ := bind_eq_ok_iff.mp whole
        rw [follow, FileTree.route, FileTree.start, if_neg relative, started] at walkedDir
        rw [List.foldlM_append]
        exact bind_eq_ok_iff.mpr ⟨middle, walkedDir, walked⟩
      have solid : ∀ step ∈ rest, isVoid step = false := by
        intro step member
        obtain ⟨way, split, -⟩ := climb_split started
        exact isVoid_of_mem_solidSteps (split ▸ List.mem_append_right _ member)
      obtain ⟨rest, rfl⟩ := up_of_empty empty solid nonempty all walked
      rw [more]
      exact ⟨_, climb_succ started⟩
  · refine ⟨(first, rest), ?_⟩
    unfold FileTree.start at *
    rw [FileTree.vacate, if_neg same]
    exact started

/-- **An empty directory can go**, also if it is what is left of the working directory. -/
theorem vacate (part : Part whole dir t) {names : List String} (nonempty : names ≠ [])
    (all : ∀ name ∈ names, IsName name) {place : List String}
    (followed : t.follow (OutputPlan.target dir names) = .ok place) (inner : place ≠ [])
    (directory : t.lookup? place = some .directory)
    (empty : ∀ name, t.lookup? (place ++ [name]) = none) : Part whole dir (t.vacate place) := by
  refine ⟨part.sound.vacate inner directory empty, ⟨part.within.here, ?_, fun p => ?_⟩,
    part.starts_vacate nonempty all followed empty⟩
  · exact Nat.le_trans part.within.gone (gone_le_vacate place t)
  · rw [lookup?_vacate inner]
    split
    · exact .inl rfl
    · exact part.within.part p

end Part

end FileTree

end ClientGen
