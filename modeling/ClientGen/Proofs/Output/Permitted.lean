import ClientGen.Proofs.Output.Repeating
import ClientGen.Proofs.Output.Tracking

/-!
# Commits that may do everything

Where no right is missing at the output directory and below it, a commit does in a file system what
it does in the tree, errors included. In particular a commit that has succeeded can be repeated.

* `FileSystem.Unhindered` — no right is missing on the way to a directory, at it and below it.
* `FileSystem.Later` — the file systems that a commit goes through.
* `Later.passes` — every path of the commit can be followed in each of them.
* `FileSystem.Mirrors` — a step that does in a file system whatever it does in the tree.
* `mirrors_commit` — a commit does so.
* `unhindered_of_commit` — the way to the directory was no hindrance if the manifest was written.
* `commit_repeats` — the second commit succeeds.

While a commit runs, more of the working directory may go, so that paths start elsewhere. They start
further on, and no directory is searched then that was not searched before. What is made is made
below the output directory: whatever else a path leads through was there before, and it stays.
-/

namespace ClientGen

open ClientGen.Path

namespace FileSystem

open OutputPlan

/-! ## File systems in which nothing is in the way -/

/-- **Nothing is in the way** of a commit below a directory, which stands at a place. -/
structure Unhindered (dir : String) (base : List String) (s : FileSystem) : Prop where
  /-- The path of the directory leads there. -/
  followed : s.tree.follow dir = .ok base
  /-- There is a directory. -/
  directory : s.tree.lookup? base = some .directory
  /-- The directories on the way may be searched. -/
  search : ∀ first rest, s.tree.start dir (solidSteps dir) = .ok (first, rest) →
    ∀ front, front <+: rest → (s.rightsAt (front.foldl move first)).search = true
  /-- Everything may be done in the directory and below it. -/
  below : ∀ names, s.rightsAt (base ++ names) = {}
  /-- Everything may be done with what is made. -/
  fresh : s.fresh = {}

/-- **A file system on the way**: things have come and gone below a place, and nowhere else. -/
structure Later (whole : FileSystem) (base : List String) (places : List (List String))
    (s : FileSystem) : Prop extends Single whole.tree.here places s where
  /-- More of the working directory may be gone. -/
  gone : whole.tree.gone ≤ s.tree.gone
  /-- The rights are the same. -/
  rights : ∀ place, s.rightsAt place = whole.rightsAt place
  /-- New things get the same rights. -/
  fresh : s.fresh = whole.fresh
  /-- The directories that are not below the place are there. -/
  stands : ∀ place, whole.tree.lookup? place = some .directory →
    s.tree.lookup? place = some .directory ∨ ∃ names ≠ [], place = base ++ names

/-- A path on the way to names below a directory. -/
def Along (dir : String) (names : List String) (path : String) : Prop :=
  isAbsolute path = isAbsolute dir ∧
    ∃ more, solidSteps dir ++ names.map String.toList = solidSteps path ++ more

/-- The path of names below a directory leads along them. -/
theorem along_target (dir : String) {names : List String} (nonempty : names ≠ [])
    (all : ∀ name ∈ names, IsName name) : Along dir names (target dir names) := by
  obtain ⟨kind, steps⟩ := solidSteps_target dir nonempty all
  exact ⟨kind, [], by rw [steps, List.append_nil]⟩

variable {whole s s' : FileSystem} {dir path : String} {base names : List String}
  {places : List (List String)}

/-- **Every path on the way can be followed.** -/
theorem Later.passes (later : Later whole base places s) (free : Unhindered dir base whole)
    (all : ∀ name ∈ names, IsName name) (along : Along dir names path) : s.passes path = true := by
  obtain ⟨kind, more, steps⟩ := along
  obtain ⟨⟨first, rest⟩, started, walked⟩ := bind_eq_ok_iff.mp free.followed
  refine passes_of_search fun origin rest' found front beginning => ?_
  have reached : s.tree.start dir (solidSteps dir ++ names.map String.toList) =
      .ok (origin, rest' ++ more) := by
    rw [steps, FileTree.start_congr s.tree kind.symm]
    exact FileTree.start_append found more
  rcases FileTree.start_of_le later.here later.gone started with missing | further
  · rw [FileTree.start_names all missing] at reached
    cases reached
  obtain ⟨gone, left, origin', sooner, rfl, led⟩ := further
  have same := (FileTree.start_append sooner (names.map String.toList)).symm.trans reached
  obtain ⟨rfl, joined⟩ := Prod.mk.inj (Except.ok.inj same)
  have led_on (steps : List (List Char)) :
      steps.foldl move origin' = (gone ++ steps).foldl move first := by
    rw [List.foldl_append, led]
  obtain ⟨tail, split⟩ := beginning.trans (List.prefix_append rest' more)
  rw [← joined, List.append_eq_append_iff] at split
  rw [later.rights]
  -- the beginning ends on the way to the directory, or at some of the names
  rcases split with ⟨_, rfl, -⟩ | ⟨inner, rfl, inside⟩
  · rw [led_on]
    refine free.search first _ started _ ?_
    rw [← List.append_assoc]
    exact List.prefix_append ..
  · obtain ⟨front, _, rfl, rfl, -⟩ := List.map_eq_append_iff.mp inside
    rw [List.foldl_append, led_on, ← FileTree.foldlM_step_eq_ok walked,
      foldl_move_names fun name member => all name (List.mem_append_left _ member), free.below]

/-- Names below the directory are reached, and everything may be done there. -/
theorem Later.reaches (later : Later whole base places s) (free : Unhindered dir base whole)
    (nonempty : names ≠ []) (all : ∀ name ∈ names, IsName name) :
    s.passes (target dir names) = true ∧
      destination s.tree.here (target dir names) = base ++ names ∧
      s.opens (base ++ names) = true ∧ s.rightsAt (base ++ names) = {} := by
  refine ⟨later.passes free all (along_target dir nonempty all), ?_, ?_, ?_⟩
  · rw [later.here]
    exact destination_target_of_follow nonempty all free.followed
  · rw [opens, List.dropLast_append_of_ne_nil nonempty, later.rights, free.below]
  · rw [later.rights, free.below]

/-- What happens below the directory leads to a later file system. -/
theorem Later.next (later : Later whole base places s) (free : Unhindered dir base whole)
    (single : Single whole.tree.here places s') (nonempty : names ≠ [])
    (gone : s.tree.gone ≤ s'.tree.gone) (fresh : s'.fresh = s.fresh)
    (rights : ∀ place, s'.rightsAt place = s.rightsAt place ∨
      place = base ++ names ∧ s'.rightsAt place = {})
    (stands : ∀ place, s.tree.lookup? place = some .directory →
      s'.tree.lookup? place = some .directory ∨ place = base ++ names) :
    Later whole base places s' := by
  refine ⟨single, later.gone.trans gone, fun place => ?_, fresh.trans later.fresh,
    fun place directory => ?_⟩
  · rcases rights place with same | ⟨rfl, all⟩
    · exact same.trans (later.rights place)
    · rw [all, free.below]
  · rcases later.stands place directory with there | below
    · exact (stands place there).imp_right fun same => ⟨names, nonempty, same⟩
    · exact .inr below

/-! ## Steps that do what they do in the tree -/

/-- **A step does in a file system whatever it does in the tree**, errors included. A condition that
holds before holds afterwards. -/
def Mirrors (Q : FileSystem → Prop) {ε α : Type} (step : StateM FileSystem (Except ε α))
    (inTree : StateM FileTree (Except ε α)) : Prop :=
  ∀ s, Q s → ∃ s', StateT.run step s = ((StateT.run inTree s.tree).1, s') ∧
    s'.tree = (StateT.run inTree s.tree).2 ∧ Q s'

variable {Q : FileSystem → Prop} {α β : Type}

/-- Steps do so one after the other. An error ends both sequences at one place. -/
theorem sequential_mirrors (Q : FileSystem → Prop) :
    Sequential fun _ step inTree => Mirrors Q (ExceptT.run step) (ExceptT.run inTree) where
  pure a := fun s holds => ⟨s, rfl, rfl, holds⟩
  bind {α β step inTree next nextInTree} first rest := by
    intro s holds
    obtain ⟨middle, stepped, same, holds⟩ := first s holds
    show ∃ s', runOn s (step >>= next) = ((runOn s.tree (inTree >>= nextInTree)).1, s') ∧
      s'.tree = (runOn s.tree (inTree >>= nextInTree)).2 ∧ Q s'
    rcases ran : runOn s.tree inTree with ⟨e | a, t⟩
    · rw [show StateT.run (ExceptT.run inTree) s.tree = _ from ran] at stepped same
      rw [runOn_bind_of_error stepped, runOn_bind_of_error ran]
      exact ⟨middle, rfl, same, holds⟩
    · rw [show StateT.run (ExceptT.run inTree) s.tree = _ from ran] at stepped same
      obtain rfl := same
      rw [runOn_bind_of_ok stepped, runOn_bind_of_ok ran]
      exact rest a middle holds

/-- A request as a step. -/
theorem Mirrors.attempt {request : StateM FileSystem (Except FileFault α)}
    {inTree : StateM FileTree (Except FileFault α)} (mirrors : Mirrors Q request inTree)
    (action : OutputAction) (path : String) :
    Mirrors Q (ExceptT.run (attempt action path request))
      (ExceptT.run (attempt action path inTree)) := by
  intro s holds
  obtain ⟨s', asked, same, holds⟩ := mirrors s holds
  show ∃ s', runOn s (OutputPlan.attempt action path request) =
    ((runOn s.tree (OutputPlan.attempt action path inTree)).1, s') ∧
      s'.tree = (runOn s.tree (OutputPlan.attempt action path inTree)).2 ∧ Q s'
  rw [runOn_attempt, runOn_attempt, asked]
  exact ⟨s', rfl, same, holds⟩

/-- A change that fails as in the tree, and otherwise makes the same tree. -/
theorem mirrors_change {f : FileSystem → Except FileFault FileSystem}
    {g : FileTree → Except FileFault FileTree}
    (failed : ∀ s, Q s → ∀ fault, g s.tree = .error fault → f s = .error fault)
    (changed : ∀ s, Q s → ∀ t, g s.tree = .ok t → ∃ s', f s = .ok s' ∧ s'.tree = t ∧ Q s') :
    Mirrors Q (FileStore.change f) (FileStore.change g) := by
  intro s holds
  show ∃ s', FileStore.changed s (f s) = ((FileStore.changed s.tree (g s.tree)).1, s') ∧
    s'.tree = (FileStore.changed s.tree (g s.tree)).2 ∧ Q s'
  cases result : g s.tree with
  | error fault =>
      rw [failed s holds fault result]
      exact ⟨s, rfl, rfl, holds⟩
  | ok t =>
      obtain ⟨s', done, same, holds⟩ := changed s holds t result
      rw [done]
      exact ⟨s', rfl, same, holds⟩

/-! ## Requests -/

section Requests

variable (free : Unhindered dir base whole) (nonempty : names ≠ [])
  (all : ∀ name ∈ names, IsName name)

include free nonempty all

/-- What the tree removes below the directory is removed. -/
theorem mirrors_removing {change : String → FileTree → Except FileFault FileTree}
    (passed_on : ∀ t : FileTree, ∀ path fault, t.find path = .error fault →
      change path t = .error fault)
    (removed : ∀ t t' : FileTree, ∀ path, change path t = .ok t' → t.gone ≤ t'.gone ∧
      ∀ place, t.lookup? place = some .directory →
        t'.lookup? place = some .directory ∨ place = destination t.here path)
    (single : ∀ s s' : FileSystem, Single whole.tree.here places s →
      s.removing change (target dir names) = .ok s' → Single whole.tree.here places s') :
    Mirrors (Later whole base places) (FileStore.change (removing change (target dir names)))
      (FileStore.change (change (target dir names))) := by
  have mirrored (s : FileSystem) (later : Later whole base places s) :
      s.removing change (target dir names) = (change (target dir names) s.tree).map fun tree =>
        { s.forget (base ++ names) with tree } := by
    obtain ⟨passes, led, opens, rights⟩ := later.reaches free nonempty all
    rw [← led] at opens rights ⊢
    exact removing_of_passes (passed_on s.tree _) passes opens (by rw [rights])
  refine mirrors_change (fun s later fault failed => ?_) fun s later t done => ?_
  · rw [mirrored s later, failed]
    rfl
  · have same := mirrored s later
    rw [done] at same
    obtain ⟨gone, stands⟩ := removed s.tree t _ done
    obtain ⟨-, led, -, -⟩ := later.reaches free nonempty all
    rw [led] at stands
    refine ⟨_, same, rfl, later.next free (single s _ later.toSingle same) nonempty gone rfl
      (fun place => ?_) stands⟩
    by_cases here : place = base ++ names
    · exact .inr ⟨here, (rightsAt_forget ..).trans (if_pos here)⟩
    · exact .inl ((rightsAt_forget ..).trans (if_neg here))

/-- A file is removed as in the tree. -/
theorem mirrors_removeFile :
    Mirrors (Later whole base places) (FileStore.removeFile (target dir names))
      (FileStore.removeFile (target dir names)) := by
  refine mirrors_removing free nonempty all ?_ (fun t t' path done => ?_)
    fun s s' single done => (removeFile_eq_ok single done).2
  · intro t path fault failed
    rw [FileTree.removeFile, failed]
    rfl
  · obtain ⟨⟨text, file⟩, rfl⟩ := FileTree.removeFile_eq_ok done
    exact ⟨Nat.le_refl _, fun place directory =>
      .inl (FileTree.lookup?_erase_of_directory file directory)⟩

/-- A directory is removed as in the tree. -/
theorem mirrors_removeDirectory :
    Mirrors (Later whole base places) (FileStore.removeDirectory (target dir names))
      (FileStore.removeDirectory (target dir names)) := by
  refine mirrors_removing free nonempty all ?_ (fun t t' path done => ?_)
    fun s s' single done => (removeDirectory_eq_ok single done).2
  · intro t path fault failed
    rw [FileTree.removeDirectory, failed]
    rfl
  · obtain ⟨inner, -, -, rfl⟩ := FileTree.removeDirectory_eq_ok done
    refine ⟨FileTree.gone_le_vacate _ t, fun place directory => ?_⟩
    rw [FileTree.lookup?_vacate inner]
    split
    · exact .inr ‹_›
    · exact .inl directory

/-- A directory is as empty as in the tree. -/
theorem mirrors_isEmpty :
    Mirrors (Later whole base places) (FileReader.isEmpty (target dir names))
      (FileReader.isEmpty (target dir names)) := by
  intro s later
  obtain ⟨passes, led, -, rights⟩ := later.reaches free nonempty all
  have answer : s.isEmpty (target dir names) = s.tree.isEmpty (target dir names) := by
    refine reading_of_passes (fun fault failed => ?_) passes (by rw [led, rights])
    rw [FileTree.isEmpty, failed]
    rfl
  rw [run_isEmpty, answer]
  exact ⟨s, rfl, rfl, later⟩

/-- A file is written as in the tree, if its place is alone. -/
theorem mirrors_writeText (inside : base ++ names ∈ places) (text : String) :
    Mirrors (Later whole base places) (FileStore.writeText (target dir names) text)
      (FileStore.writeText (target dir names) text) := by
  have mirrored (s : FileSystem) (later : Later whole base places s) := by
    obtain ⟨passes, led, opens, rights⟩ := later.reaches free nonempty all
    rw [← led] at opens rights inside
    exact writeText_of_passes text (later.alone _ inside) passes opens (by rw [rights])
  refine mirrors_change (fun s later => (mirrored s later).1) fun s later t done => ?_
  obtain ⟨s', same, rfl, fresh, renewed⟩ := (mirrored s later).2 t done
  obtain ⟨-, led, -, rights⟩ := later.reaches free nonempty all
  have single := (writeText_eq_ok later.toSingle (led.symm ▸ inside) same).2
  obtain ⟨-, inner, other, -, put⟩ := FileTree.writeText_eq_ok later.sound done
  have grown : FileTree.Grown s.tree s'.tree := put ▸ .put_file inner other text
  refine ⟨s', same, rfl, later.next free single nonempty (Nat.le_of_eq grown.gone.symm) fresh
    (fun place => ?_) fun place directory => .inl (grown.directory place directory)⟩
  by_cases here : place = base ++ names
  · refine .inr ⟨here, ?_⟩
    rw [here, ← led]
    rcases renewed with kept | new
    · rw [kept, led, rights]
    · rw [new, later.fresh, free.fresh]
  · exact .inl (rightsAt_of_writeText same (led.symm ▸ here))

end Requests

/-! ## Directories -/

/-- What is missing on the way is missing below the directory. -/
theorem Later.below_of_locateNew (later : Later whole base places s)
    (free : Unhindered dir base whole) (all : ∀ name ∈ names, IsName name)
    (along : Along dir names path) {place : List String}
    (located : s.tree.locateNew path = .ok place) (absent : s.tree.lookup? place = none) :
    ∃ front ≠ [], place = base ++ front := by
  obtain ⟨kind, more, steps⟩ := along
  have stood (directory : whole.tree.lookup? place = some .directory) :
      ∃ front ≠ [], place = base ++ front := by
    refine (later.stands place directory).resolve_left fun there => ?_
    rw [absent] at there
    cases there
  rcases directory_of_along free.followed later.here later.gone all kind steps located with
    directory | ⟨front, _, -, -, rfl⟩
  · exact stood directory
  · by_cases outermost : front = []
    · refine stood ?_
      rw [outermost, List.append_nil]
      exact free.directory
    · exact ⟨front, outermost, rfl⟩

/-- One directory is made as in the tree. -/
theorem mirrors_makeDirectory (free : Unhindered dir base whole)
    (all : ∀ name ∈ names, IsName name) (along : Along dir names path) :
    Mirrors (Later whole base places) (FileStore.makeDirectory path)
      (FileStore.makeDirectory path) := by
  have below (s : FileSystem) (later : Later whole base places s) (t : FileTree)
      (made : s.tree.makeDirectory path = .ok t) :
      ∃ front ≠ [], destination s.tree.here path = base ++ front := by
    obtain ⟨-, absent, -⟩ := FileTree.makeDirectory_eq_ok later.sound made
    obtain ⟨place, located, -⟩ := bind_eq_ok_iff.mp made
    obtain rfl := FileTree.locateNew_eq located
    exact later.below_of_locateNew free all along located absent
  have mirrored (s : FileSystem) (later : Later whole base places s) :=
    makeDirectory_of_passes (later.passes free all along) fun t made => by
      obtain ⟨front, inner, led⟩ := below s later t made
      rw [led, opens, List.dropLast_append_of_ne_nil inner, later.rights, free.below]
  refine mirrors_change (fun s later fault failed => ?_) fun s later t done => ?_
  · exact (mirrored s later).trans (by rw [failed]; rfl)
  · obtain ⟨front, inner, led⟩ := below s later t done
    have same := mirrored s later
    rw [done] at same
    obtain ⟨nonempty, absent, -, put⟩ := FileTree.makeDirectory_eq_ok later.sound done
    have grown : FileTree.Grown s.tree t :=
      put ▸ ((FileTree.Built.refl s.tree).put nonempty absent).grown
    refine ⟨_, same, rfl, later.next free (makeDirectory_eq_ok later.toSingle same).2 inner
      (Nat.le_of_eq grown.gone.symm) rfl (fun place => ?_)
      fun place directory => .inl (grown.directory place directory)⟩
    by_cases here : place = destination s.tree.here path
    · refine .inr ⟨here.trans led, ?_⟩
      exact (rightsAt_renew ..).trans ((if_pos here).trans (later.fresh.trans free.fresh))
    · exact .inl ((rightsAt_renew ..).trans (if_neg here))

/-- A directory that may be there is made as in the tree. -/
theorem mirrors_made (free : Unhindered dir base whole) (all : ∀ name ∈ names, IsName name)
    (along : Along dir names path) (later : Later whole base places s) :
    ∃ s', FileStore.madeOne s path = ((s.tree.made path).1, s') ∧ s'.tree = (s.tree.made path).2 ∧
      Later whole base places s' := by
  obtain ⟨s', asked, same, later'⟩ := mirrors_makeDirectory free all along s later
  rw [FileStore.madeOne, asked, FileTree.run_makeDirectory, FileTree.made]
  rw [FileTree.run_makeDirectory] at same
  cases made : s.tree.makeDirectory path with
  | ok t =>
      rw [made] at same
      exact ⟨s', rfl, same, later'⟩
  | error fault =>
      rw [made] at same
      have there : s'.isDirectory path = s.tree.isDirectory path := by
        rw [isDirectory, later'.passes free all along, Bool.true_and, same]
        rfl
      refine ⟨s', ?_, same, later'⟩
      show StateT.run (FileStore.unlessDirectory path fault : StateM FileSystem _) s' = _
      rw [FileStore.run_unlessDirectory, run_isDirectory, there]

/-- Directories are made as in the tree. -/
theorem mirrors_makeDirectoriesFrom (free : Unhindered dir base whole)
    (all : ∀ name ∈ names, IsName name) {paths : List String}
    (along : ∀ path ∈ paths, path ≠ "" → Along dir names path) :
    Mirrors (Later whole base places) (FileStore.makeDirectoriesFrom paths)
      (FileStore.makeDirectoriesFrom paths) := by
  induction paths with
  | nil => exact fun s later => ⟨s, rfl, rfl, later⟩
  | cons path above ih =>
      rw [List.forall_mem_cons] at along
      intro s later
      rw [FileTree.run_makeDirectoriesFrom, FileTree.madeFrom]
      by_cases empty : path = ""
      · rw [if_pos empty, FileStore.makeDirectoriesFrom, if_pos empty]
        exact ⟨s, rfl, rfl, later⟩
      · have here := along.1 empty
        rw [if_neg empty, FileStore.run_makeDirectoriesFrom_cons s empty]
        obtain ⟨s', asked, same, later'⟩ := mirrors_makeDirectory free all here s later
        rw [FileTree.run_makeDirectory] at asked same
        rw [asked]
        rcases made : s.tree.makeDirectory path with (_ | _) | t <;> rw [made] at same
        · obtain ⟨outer, done, sameOuter, laterOuter⟩ := ih along.2 s' later'
          rw [FileTree.run_makeDirectoriesFrom, show s'.tree = s.tree from same] at done sameOuter
          simp only [FileStore.changed, done]
          rcases ran : s.tree.madeFrom above with ⟨fault | _, u⟩
          · rw [ran] at sameOuter
            exact ⟨outer, rfl, sameOuter, laterOuter⟩
          · rw [ran] at sameOuter
            obtain rfl : outer.tree = u := sameOuter
            exact mirrors_made free all here laterOuter
        · exact mirrors_made free all here later
        · exact mirrors_made free all here later

/-! ## A commit -/

section Commit

variable (free : Unhindered dir base whole)

include free

theorem mirrors_removeListed (nonempty : names ≠ []) (all : ∀ name ∈ names, IsName name) :
    Mirrors (Later whole base places) (ExceptT.run (removeListed (target dir names)))
      (ExceptT.run (removeListed (target dir names))) := by
  intro s later
  obtain ⟨s', asked, same, later'⟩ := mirrors_removeFile free nonempty all s later
  show ∃ s', runOn s (removeListed _) = ((runOn s.tree (removeListed _)).1, s') ∧
    s'.tree = (runOn s.tree (removeListed _)).2 ∧ _
  rw [runOn_removeListed, runOn_removeListed, asked]
  rcases ran : StateT.run (FileStore.removeFile (target dir names) : StateM FileTree _) s.tree with
    ⟨(_ | _) | _, t⟩ <;> rw [ran] at same <;> exact ⟨s', rfl, same, later'⟩

theorem mirrors_isEmptied (nonempty : names ≠ []) (all : ∀ name ∈ names, IsName name) :
    Mirrors (Later whole base places) (ExceptT.run (isEmptied (target dir names)))
      (ExceptT.run (isEmptied (target dir names))) := by
  intro s later
  obtain ⟨s', asked, same, later'⟩ := mirrors_isEmpty free nonempty all s later
  show ∃ s', runOn s (isEmptied _) = ((runOn s.tree (isEmptied _)).1, s') ∧
    s'.tree = (runOn s.tree (isEmptied _)).2 ∧ _
  rw [runOn_isEmptied, runOn_isEmptied, asked]
  rcases ran : StateT.run (FileReader.isEmpty (target dir names) : StateM FileTree _) s.tree with
    ⟨(_ | _) | _, t⟩ <;> rw [ran] at same <;> exact ⟨s', rfl, same, later'⟩

theorem mirrors_prune (nonempty : names ≠ []) (all : ∀ name ∈ names, IsName name) :
    Mirrors (Later whole base places) (ExceptT.run (prune (target dir names)))
      (ExceptT.run (prune (target dir names))) :=
  (sequential_mirrors _).prune (mirrors_isEmptied free nonempty all)
    ((mirrors_removeDirectory free nonempty all).attempt _ _)

/-- A file is written as in the tree, with the directories above it. -/
theorem mirrors_writeFile (nonempty : names ≠ []) (all : ∀ name ∈ names, IsName name)
    (inside : base ++ names ∈ places) (text : String) :
    Mirrors (Later whole base places) (ExceptT.run (writeFile (target dir names) text))
      (ExceptT.run (writeFile (target dir names) text)) := by
  refine (sequential_mirrors _).writeFile (fun parent without => ?_)
    ((mirrors_writeText free nonempty all inside text).attempt .write (target dir names))
  refine (mirrors_makeDirectoriesFrom free all fun above member named => ?_).attempt
    .createDirectory parent
  obtain ⟨kind, steps⟩ := solidSteps_target dir nonempty all
  obtain ⟨same, more, -, split⟩ := beginning_of_parent? without member named
  exact ⟨same.trans kind, more, steps ▸ split⟩

/-- The manifest is read as in the tree: it may be read, like everything below the directory. -/
theorem Later.manifest?_eq (later : Later whole base places s) :
    s.manifest? dir = s.tree.manifest? dir := by
  have named : ∀ name ∈ [Manifest.fileName], IsName name :=
    List.forall_mem_singleton.mpr isName_fileName
  obtain ⟨passes, led, -, rights⟩ := later.reaches free (List.cons_ne_nil _ _) named
  rw [manifest?, FileTree.manifest?, ← target_fileName]
  refine congrArg (·.toOption.bind Manifest.parse?) (reading_of_passes ?_ passes ?_)
  · intro fault failed
    rw [FileTree.readText, failed]
    rfl
  · rw [led, rights]

/-- Cleaning up does what it does in the tree. -/
theorem mirrors_clean :
    Mirrors (Later whole base places) (ExceptT.run (clean dir)) (ExceptT.run (clean dir)) := by
  intro s later
  show ∃ s', runOn s (clean dir) = ((runOn s.tree (clean dir)).1, s') ∧
    s'.tree = (runOn s.tree (clean dir)).2 ∧ _
  rw [runOn_clean, runOn_clean, run_read?, FileTree.run_read?, later.manifest?_eq free]
  cases s.tree.manifest? dir with
  | none => exact ⟨s, rfl, rfl, later⟩
  | some manifest =>
      have all : ∀ names ∈ listedNames manifest, names ≠ [] ∧ ∀ name ∈ names, IsName name := by
        intro names member
        obtain ⟨_, -, inside⟩ := List.mem_filterMap.mp member
        exact isName_of_contained? inside
      refine (sequential_mirrors _).clear (fun names member => ?_) (fun names member => ?_) s later
      · exact mirrors_removeListed free (all names member).1 (all names member).2
      · obtain ⟨nonempty, named⟩ := isName_of_mem_emptied all member
        exact mirrors_prune free nonempty named

end Commit

variable {plan : OutputPlan}

/-- **A commit does in a file system what it does in the tree**, if nothing is in its way and the
places that it writes are alone. -/
theorem mirrors_commit (free : Unhindered plan.dir base whole) (valid : plan.Valid)
    (inside : ∀ file ∈ plan.outcomes, base ++ file.1 ∈ places) :
    Mirrors (Later whole base places) (ExceptT.run plan.commit) (ExceptT.run plan.commit) := by
  obtain ⟨manifest, files⟩ := List.forall_mem_cons.mp inside
  obtain ⟨named, all⟩ := List.forall_mem_cons.mp valid.isName_outcomes
  have sequential := sequential_mirrors (Later whole base places)
  have writing := mirrors_writeText free named.1 named.2 manifest plan.manifest.text
  rw [target_fileName] at writing
  refine sequential.bind (mirrors_clean free) fun removed =>
    sequential.finish removed (fun file member => ?_) ?_ (writing.attempt .write _)
  · exact mirrors_writeFile free (all file member).1 (all file member).2 (files file member) file.2
  · have nameless : ∀ name ∈ [], IsName name := List.forall_mem_nil _
    refine (mirrors_makeDirectoriesFrom free nameless fun above member nonempty => ?_).attempt
      .createDirectory plan.dir
    obtain ⟨kind, more, steps⟩ := beginning_of_mem_ancestors member nonempty
    exact ⟨kind, more, by rw [List.map_nil, List.append_nil, steps]⟩

/-! ## The second commit -/

/-- **Nothing is in the way of the second commit** if no right is missing at the directory and below
it: the way there could be followed when the manifest was written. -/
theorem unhindered_of_commit (valid : plan.Valid) (sound : s.tree.Sound)
    (alone : ∀ file ∈ plan.outcomes, file.1 ∉ s.listed plan.dir →
      s.IsAlone (destination s.tree.here plan.dir ++ file.1)) {summary : Summary}
    (committed : s.run plan.commit = (.ok summary, s'))
    (below : ∀ names, s'.rightsAt (destination s.tree.here plan.dir ++ names) = {})
    (fresh : s'.fresh = {}) : Unhindered plan.dir (destination s.tree.here plan.dir) s' := by
  have done := (commit_eq_ok valid sound alone committed).1
  have passes := passes_of_commit valid sound alone committed
  obtain ⟨followed, directory⟩ := done.follow_dir
  obtain ⟨kind, steps⟩ := solidSteps_target plan.dir (List.cons_ne_nil Manifest.fileName [])
    (List.forall_mem_singleton.mpr isName_fileName)
  refine ⟨followed, directory, fun first rest started front beginning => ?_, below, fresh⟩
  obtain ⟨left, rfl⟩ := beginning
  have reached := FileTree.start_append started ([Manifest.fileName].map String.toList)
  rw [FileTree.start_congr s'.tree kind.symm, ← steps, List.append_assoc] at reached
  -- the name of the manifest comes after every beginning of the way
  obtain ⟨next, later, split⟩ : ∃ next later,
      left ++ [Manifest.fileName].map String.toList = next :: later :=
    List.exists_cons_of_ne_nil (by simp)
  rw [split] at reached
  rw [target_fileName] at passes reached
  exact search_of_passes passes done.locatedManifest reached

/-- **The second commit succeeds** if no right is missing at the directory and below it. -/
theorem commit_repeats (valid : plan.Valid) (sound : s.tree.Sound)
    (alone : ∀ file ∈ plan.outcomes, file.1 ∉ s.listed plan.dir →
      s.IsAlone (destination s.tree.here plan.dir ++ file.1)) {summary : Summary}
    (committed : s.run plan.commit = (.ok summary, s'))
    (below : ∀ names, s'.rightsAt (destination s.tree.here plan.dir ++ names) = {})
    (fresh : s'.fresh = {}) : ∃ summary' s'', s'.run plan.commit = (.ok summary', s'') := by
  have free := unhindered_of_commit valid sound alone committed below fresh
  obtain ⟨done, single, -⟩ := commit_eq_ok valid sound alone committed
  have later : Later s' (destination s.tree.here plan.dir) (written s.tree.here plan) s' :=
    ⟨⟨single.sound, rfl, single.alone⟩, Nat.le_refl _, fun _ => rfl, rfl, fun _ => .inl⟩
  obtain ⟨summary', u, again⟩ := OutputPlan.commit_repeats valid done
  obtain ⟨s'', ran, -⟩ := mirrors_commit free valid (append_mem_written s.tree.here) s' later
  rw [show StateT.run (ExceptT.run plan.commit) s'.tree = _ from again] at ran
  exact ⟨summary', s'', ran⟩

end FileSystem

end ClientGen
