import ClientGen.Proofs.Files.Rights
import ClientGen.Proofs.Output.Committing

/-!
# Commits in a file system

A commit that succeeds in a file system succeeds in its tree, with the same result and the same tree
in the end. A right that is missing makes a request fail, and then the commit fails, with one
exception: a manifest that may not be read lists nothing.

* `OutputPlan.Sequential` — a relation between steps on two stores that respects sequences; it holds
  of the steps of a commit as soon as it holds of the requests.
* `FileSystem.Tracks` — a step that does in the tree whatever it does in the file system.
* `tracks_removeListed`, `tracks_prune`, `tracks_makeDirectories`, `tracks_writeText` — the requests
  of a commit do so.
* `FileSystem.listed` — the names that the manifest lists which can be read.
* `commit_eq_ok` — what a commit that succeeds leaves behind.

Places that are written have to be alone, but only when they are written: a listed file with other
names loses one of them when it is removed, and the file that is written in its place is a new one.
-/

namespace ClientGen

open ClientGen.Path

/-! ## Steps on two stores -/

namespace OutputPlan

variable {σ τ : Type}

/-- **A relation between steps on two stores that respects sequences.** What holds of the requests
of a commit then holds of the commit. -/
structure Sequential
    (R : (α : Type) → Writing (StateM σ) α → Writing (StateM τ) α → Prop) : Prop where
  /-- Doing nothing on both stores is related. -/
  pure : ∀ {α : Type} (a : α), R α (pure a) (pure a)
  /-- Two steps are related if both parts are. -/
  bind : ∀ {α β : Type} {step : Writing (StateM σ) α} {step' : Writing (StateM τ) α}
    {next : α → Writing (StateM σ) β} {next' : α → Writing (StateM τ) β},
    R α step step' → (∀ a, R β (next a) (next' a)) → R β (step >>= next) (step' >>= next')

namespace Sequential

variable [FileStore (StateM σ)] [FileStore (StateM τ)]
  {R : (α : Type) → Writing (StateM σ) α → Writing (StateM τ) α → Prop}
  (sequential : Sequential R) {dir path : String}

include sequential

/-- Pruning a directory is looking into it and removing it. -/
theorem prune (emptied : R _ (isEmptied path) (isEmptied path))
    (removed : R _ (attempt .removeDirectory path (FileStore.removeDirectory path))
      (attempt .removeDirectory path (FileStore.removeDirectory path))) :
    R _ (OutputPlan.prune path) (OutputPlan.prune path) := by
  refine sequential.bind emptied fun empty => ?_
  cases empty with
  | false => exact sequential.pure ()
  | true => exact removed

/-- Several files are removed one after the other. -/
theorem removeAll {listed : List (List String)}
    (each : ∀ names ∈ listed,
      R _ (removeListed (target dir names)) (removeListed (target dir names))) :
    R _ (OutputPlan.removeAll dir listed) (OutputPlan.removeAll dir listed) := by
  induction listed with
  | nil => exact sequential.pure 0
  | cons names rest ih =>
      rw [List.forall_mem_cons] at each
      exact sequential.bind each.1 fun found =>
        sequential.bind (ih each.2) fun count => sequential.pure _

/-- Several directories are pruned one after the other. -/
theorem pruneAll {above : List (List String)}
    (each : ∀ names ∈ above,
      R _ (OutputPlan.prune (target dir names)) (OutputPlan.prune (target dir names))) :
    R _ (OutputPlan.pruneAll dir above) (OutputPlan.pruneAll dir above) := by
  induction above with
  | nil => exact sequential.pure ()
  | cons names rest ih =>
      rw [List.forall_mem_cons] at each
      exact sequential.bind each.1 fun _ => ih each.2

/-- Files are removed, and then the directories above them are pruned. -/
theorem clear {listed : List (List String)}
    (removed : ∀ names ∈ listed,
      R _ (removeListed (target dir names)) (removeListed (target dir names)))
    (pruned : ∀ names ∈ emptied listed,
      R _ (OutputPlan.prune (target dir names)) (OutputPlan.prune (target dir names))) :
    R Nat (do
        let count ← OutputPlan.removeAll dir listed
        OutputPlan.pruneAll dir (emptied listed)
        return count) (do
        let count ← OutputPlan.removeAll dir listed
        OutputPlan.pruneAll dir (emptied listed)
        return count) :=
  sequential.bind (sequential.removeAll removed) fun count =>
    sequential.bind (sequential.pruneAll pruned) fun _ => sequential.pure count

/-- A file is written once the directories above it are made. -/
theorem writeFile {text : String}
    (made : ∀ parent, parent? path = some parent →
      R _ (attempt .createDirectory parent (FileStore.makeDirectories parent))
        (attempt .createDirectory parent (FileStore.makeDirectories parent)))
    (written : R _ (attempt .write path (FileStore.writeText path text))
      (attempt .write path (FileStore.writeText path text))) :
    R _ (OutputPlan.writeFile path text) (OutputPlan.writeFile path text) := by
  unfold OutputPlan.writeFile
  cases without : parent? path with
  | none => exact written
  | some parent => exact sequential.bind (made parent without) fun _ => written

/-- Several files are written one after the other. -/
theorem writeAll {files : List (List String × String)}
    (each : ∀ file ∈ files, R _ (OutputPlan.writeFile (target dir file.1) file.2)
      (OutputPlan.writeFile (target dir file.1) file.2)) :
    R _ (OutputPlan.writeAll dir files) (OutputPlan.writeAll dir files) := by
  induction files with
  | nil => exact sequential.pure ()
  | cons file rest ih =>
      rw [List.forall_mem_cons] at each
      exact sequential.bind each.1 fun _ => ih each.2

/-- The files are written, and then the manifest. -/
theorem finish {plan : OutputPlan} (removed : Nat)
    (files : ∀ file ∈ plan.files, R _ (OutputPlan.writeFile (target plan.dir file.1) file.2)
      (OutputPlan.writeFile (target plan.dir file.1) file.2))
    (made : R _ (attempt .createDirectory plan.dir (FileStore.makeDirectories plan.dir))
      (attempt .createDirectory plan.dir (FileStore.makeDirectories plan.dir)))
    (manifest : R _ (attempt .write (join plan.dir Manifest.fileName)
        (FileStore.writeText (join plan.dir Manifest.fileName) plan.manifest.text))
      (attempt .write (join plan.dir Manifest.fileName)
        (FileStore.writeText (join plan.dir Manifest.fileName) plan.manifest.text))) :
    R _ (plan.finish removed) (plan.finish removed) := by
  refine sequential.bind (sequential.writeAll files) fun _ => ?_
  refine sequential.bind made fun _ => ?_
  exact sequential.bind manifest fun _ => sequential.pure _

end Sequential

end OutputPlan

namespace FileSystem

open OutputPlan

/-- **The result of a step of writing on a file system, and the file system after it.** -/
def run {α : Type} (s : FileSystem) (step : Writing (StateM FileSystem) α) :
    Except OutputError α × FileSystem :=
  runOn s step

/-- **A step does in the tree whatever it does in a file system**, as long as it succeeds there. A
condition that holds before holds afterwards. -/
def Tracks (Q : FileSystem → Prop) {ε α : Type} (step : StateM FileSystem (Except ε α))
    (inTree : StateM FileTree (Except ε α)) : Prop :=
  ∀ s, Q s → ∀ a s', StateT.run step s = (.ok a, s') →
    StateT.run inTree s.tree = (.ok a, s'.tree) ∧ Q s'

variable {Q : FileSystem → Prop} {α β : Type}

/-- Steps do so one after the other. -/
theorem sequential_tracks (Q : FileSystem → Prop) :
    Sequential fun _ step inTree => Tracks Q (ExceptT.run step) (ExceptT.run inTree) where
  pure a := by
    intro s holds b s' done
    cases done
    exact ⟨rfl, holds⟩
  bind first rest := by
    intro s holds b s' done
    obtain ⟨a, middle, stepped, done⟩ := runOn_bind_eq_ok done
    obtain ⟨steppedInTree, holds⟩ := first s holds a middle stepped
    obtain ⟨doneInTree, holds⟩ := rest a middle holds b s' done
    exact ⟨(runOn_bind_of_ok steppedInTree).trans doneInTree, holds⟩

/-! ## Requests -/

/-- A request as a step. -/
theorem Tracks.attempt {request : StateM FileSystem (Except FileFault α)}
    {inTree : StateM FileTree (Except FileFault α)} (tracks : Tracks Q request inTree)
    (action : OutputAction) (path : String) :
    Tracks Q (ExceptT.run (attempt action path request))
      (ExceptT.run (attempt action path inTree)) := by
  intro s holds a s' done
  have done : runOn s (OutputPlan.attempt action path request) = (.ok a, s') := done
  show runOn s.tree (OutputPlan.attempt action path inTree) = _ ∧ _
  rw [runOn_attempt] at done ⊢
  rcases asked : StateT.run request s with ⟨fault | b, u⟩
  · rw [asked] at done
    cases done
  · rw [asked] at done
    cases done
    obtain ⟨same, holds⟩ := tracks s holds _ _ asked
    rw [same]
    exact ⟨rfl, holds⟩

/-- A change that succeeds in the tree whenever it succeeds. -/
theorem tracks_change {f : FileSystem → Except FileFault FileSystem}
    {g : FileTree → Except FileFault FileTree}
    (same : ∀ s, Q s → ∀ s', f s = .ok s' → g s.tree = .ok s'.tree ∧ Q s') :
    Tracks Q (FileStore.change f) (FileStore.change g) := by
  intro s holds a s' done
  have done : FileStore.changed s (f s) = (.ok a, s') := done
  show FileStore.changed s.tree (g s.tree) = _ ∧ _
  cases changed : f s with
  | error fault =>
      rw [changed] at done
      cases done
  | ok u =>
      rw [changed] at done
      cases done
      obtain ⟨changed, holds⟩ := same s holds _ changed
      rw [changed]
      exact ⟨rfl, holds⟩

theorem run_readText (s : FileSystem) (path : String) :
    StateT.run (FileReader.readText path : StateM FileSystem _) s = (s.readText path, s) := rfl

theorem run_isDirectory (s : FileSystem) (path : String) :
    StateT.run (FileReader.isDirectory path : StateM FileSystem _) s = (s.isDirectory path, s) :=
  rfl

theorem run_isEmpty (s : FileSystem) (path : String) :
    StateT.run (FileReader.isEmpty path : StateM FileSystem _) s = (s.isEmpty path, s) := rfl

theorem run_makeDirectory (s : FileSystem) (path : String) :
    StateT.run (FileStore.makeDirectory path : StateM FileSystem _) s =
      FileStore.changed s (s.makeDirectory path) := rfl

theorem run_writeText (s : FileSystem) (path text : String) :
    StateT.run (FileStore.writeText path text : StateM FileSystem _) s =
      FileStore.changed s (s.writeText path text) := rfl

theorem run_removeFile (s : FileSystem) (path : String) :
    StateT.run (FileStore.removeFile path : StateM FileSystem _) s =
      FileStore.changed s (s.removeFile path) := rfl

variable {here : List String} {places : List (List String)}

/-- A file is removed in the tree too, and one that is not found is not found there. -/
theorem tracks_removeListed (path : String) :
    Tracks (Single here places) (ExceptT.run (removeListed path))
      (ExceptT.run (removeListed path)) := by
  intro s single found s' done
  have done : runOn s (removeListed path) = (.ok found, s') := done
  show runOn s.tree (removeListed path) = _ ∧ _
  rw [runOn_removeListed] at done ⊢
  rw [FileTree.run_removeFile]
  rw [run_removeFile] at done
  rcases removed : s.removeFile path with (_ | _) | u <;> rw [removed] at done <;> cases done
  · rw [removeFile_eq_missing removed]
    exact ⟨rfl, single⟩
  · obtain ⟨removed, single⟩ := removeFile_eq_ok single removed
    rw [removed]
    exact ⟨rfl, single⟩

/-- A directory is as empty as in the tree. -/
theorem tracks_isEmptied (path : String) :
    Tracks (Single here places) (ExceptT.run (isEmptied path)) (ExceptT.run (isEmptied path)) := by
  intro s single empty s' done
  have done : runOn s (isEmptied path) = (.ok empty, s') := done
  show runOn s.tree (isEmptied path) = _ ∧ _
  rw [runOn_isEmptied] at done ⊢
  rw [FileTree.run_isEmpty]
  rw [run_isEmpty] at done
  rcases found : s.isEmpty path with (_ | _) | _ <;> rw [found] at done <;> cases done
  · rw [isEmpty_eq_missing found]
    exact ⟨rfl, single⟩
  · rw [show s.tree.isEmpty path = _ from reading_eq_ok found]
    exact ⟨rfl, single⟩

/-- A directory is pruned in the tree too. -/
theorem tracks_prune (path : String) :
    Tracks (Single here places) (ExceptT.run (prune path)) (ExceptT.run (prune path)) :=
  (sequential_tracks _).prune (tracks_isEmptied path)
    ((tracks_change fun _ single _ removed =>
      removeDirectory_eq_ok single removed).attempt .removeDirectory path)

/-- One directory is made in the tree too, or it is there already. Nothing is missing then. -/
theorem made_of_madeOne {s s' : FileSystem} (single : Single here places s) {path : String}
    (done : FileStore.madeOne s path = (.ok (), s')) :
    s.tree.makeDirectory path ≠ .error .missing ∧ s.tree.made path = (.ok (), s'.tree) ∧
      Single here places s' := by
  rw [FileStore.madeOne, run_makeDirectory] at done
  cases made : s.makeDirectory path with
  | ok u =>
      rw [made] at done
      cases done
      obtain ⟨made, single⟩ := makeDirectory_eq_ok single made
      exact ⟨by simp [made], by rw [FileTree.made, made], single⟩
  | error fault =>
      rw [made] at done
      have done : StateT.run (FileStore.unlessDirectory path fault : StateM FileSystem _) s =
          (.ok (), s') := done
      rw [FileStore.run_unlessDirectory, run_isDirectory] at done
      have there : s.isDirectory path = true := by
        by_contra absent
        simp only [absent] at done
        cases done
      obtain rfl : s = s' := (Prod.mk.inj done).2
      obtain ⟨refused, same⟩ := FileTree.made_of_isDirectory (isDirectory_eq_true there)
      exact ⟨by simp [refused], same, single⟩

/-- Directories are made in the tree too. -/
theorem tracks_makeDirectoriesFrom (paths : List String) :
    Tracks (Single here places) (FileStore.makeDirectoriesFrom paths)
      (FileStore.makeDirectoriesFrom paths) := by
  induction paths with
  | nil =>
      intro s single a s' done
      cases done
  | cons path above ih =>
      intro s single a s' done
      rw [FileTree.run_makeDirectoriesFrom]
      by_cases empty : path = ""
      · rw [FileTree.madeFrom, if_pos empty]
        rw [FileStore.makeDirectoriesFrom, if_pos empty] at done
        cases done
        exact ⟨rfl, single⟩
      · have directly (done : FileStore.madeOne s path = (.ok a, s')) :
            s.tree.madeFrom (path :: above) = (.ok a, s'.tree) ∧ Single here places s' := by
          obtain ⟨found, made, single⟩ := made_of_madeOne single done
          exact ⟨(FileTree.madeFrom_of_ne_missing empty found above).trans made, single⟩
        rw [FileStore.run_makeDirectoriesFrom_cons s empty, run_makeDirectory] at done
        rcases made : s.makeDirectory path with (_ | _) | u <;> rw [made] at done
        · rcases outer :
              StateT.run (FileStore.makeDirectoriesFrom above : StateM FileSystem _) s with
            ⟨fault | _, u⟩
          · simp only [FileStore.changed, outer] at done
            cases done
          · simp only [FileStore.changed, outer] at done
            obtain ⟨outer, single⟩ := ih s single _ u outer
            rw [FileTree.run_makeDirectoriesFrom] at outer
            obtain ⟨-, again, single⟩ := made_of_madeOne single done
            have missing := makeDirectory_eq_missing made
            exact ⟨(FileTree.madeFrom_of_missing empty missing outer).trans again, single⟩
        · exact directly done
        · exact directly done

/-! ## The steps of a commit -/

/-- A directory is made in the tree too, with everything above it. -/
theorem tracks_makeDirectories (path : String) :
    Tracks (Single here places)
      (ExceptT.run (attempt .createDirectory path (FileStore.makeDirectories path)))
      (ExceptT.run (attempt .createDirectory path (FileStore.makeDirectories path))) :=
  (tracks_makeDirectoriesFrom (ancestors path)).attempt .createDirectory path

/-- A file is written in the tree too, if its place is alone. -/
theorem tracks_writeText {path : String} (inside : destination here path ∈ places)
    (text : String) :
    Tracks (Single here places) (ExceptT.run (attempt .write path (FileStore.writeText path text)))
      (ExceptT.run (attempt .write path (FileStore.writeText path text))) :=
  (tracks_change fun _ single _ written =>
    writeText_eq_ok single (single.here.symm ▸ inside) written).attempt .write path

/-- A file is written in the tree too, with the directories above it, if its place is alone. -/
theorem tracks_writeFile {path : String} (inside : destination here path ∈ places)
    (text : String) :
    Tracks (Single here places) (ExceptT.run (writeFile path text))
      (ExceptT.run (writeFile path text)) :=
  (sequential_tracks _).writeFile (fun parent _ => tracks_makeDirectories parent)
    (tracks_writeText inside text)

/-- The files and the manifest are written in the tree too, if their places are alone. -/
theorem tracks_finish {plan : OutputPlan}
    (inside : ∀ file ∈ plan.outcomes, destination here (target plan.dir file.1) ∈ places)
    (removed : Nat) :
    Tracks (Single here places) (ExceptT.run (plan.finish removed))
      (ExceptT.run (plan.finish removed)) := by
  obtain ⟨manifest, files⟩ := List.forall_mem_cons.mp inside
  rw [target_fileName] at manifest
  exact (sequential_tracks _).finish removed
    (fun file member => tracks_writeFile (files file member) file.2)
    (tracks_makeDirectories plan.dir) (tracks_writeText manifest plan.manifest.text)

/-! ## Cleaning -/

/-- The manifest in a directory, if one is there that can be read and may be read. -/
def manifest? (s : FileSystem) (dir : String) : Option Manifest :=
  (s.readText (join dir Manifest.fileName)).toOption.bind Manifest.parse?

/-- Reading a manifest leaves a file system as it is. -/
theorem run_read? (s : FileSystem) (dir : String) :
    StateT.run (Manifest.read? dir : StateM FileSystem (Option Manifest)) s =
      (s.manifest? dir, s) := by
  unfold Manifest.read? manifest?
  rw [StateT.run_bind, run_readText]
  rcases s.readText (join dir Manifest.fileName) with _ | text <;> rfl

/-- A manifest that may be read is the one in the tree. -/
theorem manifest?_tree {s : FileSystem} {dir : String} {manifest : Manifest}
    (read : s.manifest? dir = some manifest) : s.tree.manifest? dir = some manifest := by
  obtain ⟨text, read, parsed⟩ := Option.bind_eq_some_iff.mp read
  cases asked : s.readText (join dir Manifest.fileName) with
  | error fault =>
      rw [asked] at read
      cases read
  | ok contents =>
      rw [asked] at read
      cases read
      rw [FileTree.manifest?, show s.tree.readText _ = _ from reading_eq_ok asked]
      exact parsed

/-- A manifest that is found is read if it may be read. -/
theorem manifest?_of_passes {s : FileSystem} {dir : String} {manifest : Manifest}
    {place : List String} (passes : s.passes (join dir Manifest.fileName) = true)
    (located : s.tree.locate (join dir Manifest.fileName) = .ok place)
    (text : s.tree.text? place = some manifest.text) :
    s.manifest? dir = if (s.rightsAt place).read then some manifest else none := by
  have found : s.tree.find (join dir Manifest.fileName) = .ok (place, .file manifest.text) := by
    have file := FileTree.text?_eq_some.mp text
    simp only [FileTree.find, located, file, bind, Except.bind, pure, Except.pure]
  have asked : s.readText (join dir Manifest.fileName) =
      allow (s.rightsAt place).read (.ok manifest.text) := by
    rw [readText, reading, passes, allow_true, found]
    show allow (s.rightsAt place).read (s.tree.readText _) = _
    rw [FileTree.readText_of_locate located text]
  rw [manifest?, asked]
  cases (s.rightsAt place).read with
  | false => rfl
  | true => exact manifest.parse?_text

/-- **The names that the manifest of a directory lists**, if it may be read. -/
def listed (s : FileSystem) (dir : String) : List (List String) :=
  match s.manifest? dir with
  | some manifest => listedNames manifest
  | none => []

/-- A manifest that can be read lists what it lists in the tree. -/
theorem listed_of_some {s : FileSystem} {dir : String} {manifest : Manifest}
    (read : s.manifest? dir = some manifest) : s.listed dir = s.tree.listed dir := by
  unfold listed
  rw [FileTree.listed_of_some (manifest?_tree read), read]

/-- A manifest that cannot be read lists nothing. -/
theorem listed_of_none {s : FileSystem} {dir : String} (read : s.manifest? dir = none) :
    s.listed dir = [] := by
  unfold listed
  rw [read]

/-- No more is listed than in the tree. -/
theorem mem_listed_tree {s : FileSystem} {dir : String} {names : List String}
    (member : names ∈ s.listed dir) : names ∈ s.tree.listed dir := by
  cases read : s.manifest? dir with
  | some manifest => exact listed_of_some read ▸ member
  | none =>
      rw [listed_of_none read] at member
      cases member

/-- **A cleaning that succeeds** clears the directory of what the manifest lists, if it may be
read, and counts the listed files that were there. -/
theorem clean_eq_ok {s s' : FileSystem} (single : Single here places s) {dir : String} {count : Nat}
    (cleaned : s.run (clean dir) = (.ok count, s')) :
    Single here places s' ∧ Cleared dir (s.listed dir) s.tree s'.tree ∧
      count = ((s.listed dir).toFinset.filter fun names =>
        (s.tree.text? (destination s.tree.here dir ++ names)).isSome).card := by
  rw [run, runOn_clean, run_read?] at cleaned
  cases read : s.manifest? dir with
  | none =>
      rw [read] at cleaned
      cases cleaned
      rw [listed_of_none read]
      exact ⟨single, .refl single.sound dir, rfl⟩
  | some manifest =>
      rw [read] at cleaned
      obtain ⟨cleanedInTree, single'⟩ := (sequential_tracks (Single here places)).clear
        (fun names _ => tracks_removeListed (target dir names))
        (fun names _ => tracks_prune (target dir names)) s single count s' cleaned
      have inTree : s.tree.run (clean dir) = (.ok count, s'.tree) := by
        rw [run_clean, manifest?_tree read, FileTree.listed_of_some (manifest?_tree read)]
        exact cleanedInTree
      rw [listed_of_some read]
      exact ⟨single', cleared_of_clean single.sound inTree,
        (OutputPlan.clean_eq_ok single.sound inTree).2.2.2⟩

/-! ## Commits -/

/-- The places that the commit of a plan writes. -/
def written (here : List String) (plan : OutputPlan) : List (List String) :=
  plan.outcomes.map fun file => destination here plan.dir ++ file.1

section Commit

variable {plan : OutputPlan} {s s' : FileSystem}

theorem append_mem_written (here : List String) :
    ∀ file ∈ plan.outcomes, destination here plan.dir ++ file.1 ∈ written here plan :=
  fun _ member => List.mem_map_of_mem member

theorem destination_mem_written (valid : plan.Valid) (here : List String) :
    ∀ file ∈ plan.outcomes, destination here (target plan.dir file.1) ∈ written here plan := by
  intro file member
  obtain ⟨nonempty, all⟩ := valid.isName_outcomes file member
  rw [destination_target _ _ nonempty all]
  exact append_mem_written here file member

/-- After cleaning, the places that are written are alone: where a file was listed there is nothing
any more. -/
theorem single_of_clean (sound : s.tree.Sound)
    (alone : ∀ file ∈ plan.outcomes, file.1 ∉ s.listed plan.dir →
      s.IsAlone (destination s.tree.here plan.dir ++ file.1)) {count : Nat}
    (cleaned : s.run (clean plan.dir) = (.ok count, s')) :
    Single s.tree.here (written s.tree.here plan) s' := by
  have before : Single s.tree.here ((plan.outcomes.filter fun file =>
      file.1 ∉ s.listed plan.dir).map fun file =>
        destination s.tree.here plan.dir ++ file.1) s := by
    refine ⟨sound, rfl, List.forall_mem_map.mpr fun file member => ?_⟩
    obtain ⟨member, unlisted⟩ := List.mem_filter.mp member
    exact alone file member (of_decide_eq_true unlisted)
  obtain ⟨kept, cleared, -⟩ := clean_eq_ok before cleaned
  refine ⟨kept.sound, kept.here, List.forall_mem_map.mpr fun file member => ?_⟩
  by_cases listed : file.1 ∈ s.listed plan.dir
  · exact .inl ((cleared.texts _).trans (if_pos ⟨file.1, listed, rfl⟩))
  · exact kept.alone _ (List.mem_map_of_mem (List.mem_filter.mpr ⟨member, decide_eq_true listed⟩))

/-- **Every commit that succeeds leaves exactly the right files** if the places are alone that it
writes, and reports their numbers. A listed file is removed before another one is written in its
place, so it may have other names. -/
theorem commit_eq_ok (valid : plan.Valid) (sound : s.tree.Sound)
    (alone : ∀ file ∈ plan.outcomes, file.1 ∉ s.listed plan.dir →
      s.IsAlone (destination s.tree.here plan.dir ++ file.1)) {summary : Summary}
    (committed : s.run plan.commit = (.ok summary, s')) :
    plan.Committed (s.listed plan.dir) s.tree s'.tree ∧
      Single s.tree.here (written s.tree.here plan) s' ∧ summary.written = plan.files.length ∧
      summary.removed = ((s.listed plan.dir).toFinset.filter fun names =>
        (s.tree.text? (destination s.tree.here plan.dir ++ names)).isSome).card := by
  obtain ⟨removed, cleaned, cleaning, finished⟩ := runOn_bind_eq_ok committed
  obtain ⟨-, cleared, counted⟩ :=
    clean_eq_ok (⟨sound, rfl, nofun⟩ : Single s.tree.here [] s) cleaning
  obtain ⟨finishedInTree, single⟩ := tracks_finish (destination_mem_written valid _) removed
    cleaned (single_of_clean sound alone cleaning) summary s' finished
  obtain ⟨done, rfl⟩ := finish_eq_ok valid (fun names member =>
    (FileTree.isName_of_mem_listed (mem_listed_tree member)).1) cleared finishedInTree
  exact ⟨done, single, rfl, counted⟩

/-- The path of the manifest can be followed afterwards. -/
theorem passes_of_commit (valid : plan.Valid) (sound : s.tree.Sound)
    (alone : ∀ file ∈ plan.outcomes, file.1 ∉ s.listed plan.dir →
      s.IsAlone (destination s.tree.here plan.dir ++ file.1)) {summary : Summary}
    (committed : s.run plan.commit = (.ok summary, s')) :
    s'.passes (target plan.dir [Manifest.fileName]) = true := by
  obtain ⟨removed, cleaned, cleaning, finished⟩ := runOn_bind_eq_ok committed
  obtain ⟨_, wrote, writing, finished⟩ := runOn_bind_eq_ok finished
  obtain ⟨_, made, making, finished⟩ := runOn_bind_eq_ok finished
  obtain ⟨_, last, finishing, same⟩ := runOn_bind_eq_ok finished
  cases same
  obtain ⟨manifest, files⟩ := List.forall_mem_cons.mp (destination_mem_written valid s.tree.here)
  have single := single_of_clean sound alone cleaning
  obtain ⟨-, single⟩ := (sequential_tracks (Single s.tree.here (written s.tree.here plan))).writeAll
    (fun file member => tracks_writeFile (files file member) file.2) cleaned single _ wrote writing
  obtain ⟨-, single⟩ := tracks_makeDirectories plan.dir wrote single _ made making
  rw [target_fileName] at manifest ⊢
  have written := attempt_eq_ok finishing
  rw [run_writeText] at written
  exact passes_of_writeText single (single.here.symm ▸ manifest) (changed_eq_ok written)

end Commit

end FileSystem

end ClientGen
