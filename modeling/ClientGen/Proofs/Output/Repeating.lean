import ClientGen.Proofs.Files.Parts
import ClientGen.Proofs.Output.Committing

/-!
# Committing again

A commit can be repeated: the second one succeeds, and every file is as it was. While the second
commit runs, the tree is a part of the one that the first commit left (`FileTree.Part`), so a
request meets what the first commit left, or nothing. It is never refused, and what is missing is
made again.

* `removeAll_repeats`, `pruneAll_repeats` — what the first commit left is removed and pruned.
* `writeAll_repeats` — the files are written again, with the directories above them.
* `commit_repeats` — the second commit succeeds.
* `texts_of_second_commit` — it changes no file.
-/

namespace ClientGen

open ClientGen.Path

namespace OutputPlan

variable {plan : OutputPlan} {t whole u : FileTree} {dir : String}
  {listed : List (List String)}

/-! ## Removing and pruning again -/

/-- What stands above a file below a directory is located too. -/
theorem locate_front {names rest : List String} (nonempty : names ≠ []) (proper : rest ≠ [])
    (all : ∀ name ∈ names ++ rest, IsName name) {place : List String}
    (located : t.locate (target dir (names ++ rest)) = .ok place) :
    t.locate (target dir names) = .ok (destination t.here dir ++ names) ∧
      t.lookup? (destination t.here dir ++ names) = some .directory := by
  have front : ∀ name ∈ names, IsName name := fun name member =>
    all name (List.mem_append_left _ member)
  obtain ⟨fits, followed⟩ := FileTree.follow_of_locate located
  rw [target, FileTree.follow_join t dir (by simp [nonempty]) all, List.map_append] at followed
  obtain ⟨base, followedDir, walked⟩ := bind_eq_ok_iff.mp followed
  rw [List.foldlM_append] at walked
  obtain ⟨middle, walkedFront, walked⟩ := bind_eq_ok_iff.mp walked
  have directory : t.lookup? middle = some .directory := by
    obtain ⟨name, later, rfl⟩ := List.exists_cons_of_ne_nil proper
    rw [List.map_cons, List.foldlM_cons] at walked
    obtain ⟨_, stepped, -⟩ := bind_eq_ok_iff.mp walked
    exact (FileTree.step_eq_ok stepped).1
  have beginning : (target dir names).toList <+: (target dir (names ++ rest)).toList := by
    obtain ⟨before, -, joined⟩ := exists_join_eq dir
    rw [target, target, joined (steps_ofNames nonempty front).1,
      joined (steps_ofNames (by simp [nonempty]) all).1, ofNames_eq, ofNames_eq,
      String.toList_ofList, String.toList_ofList, List.map_append]
    exact (List.prefix_append_right_inj _).mpr (intercalate_begins _ _)
  have followedFront : t.follow (target dir names) = .ok middle := by
    rw [target, FileTree.follow_join t dir nonempty front, followedDir]
    exact walkedFront
  have located := FileTree.locate_of_follow
    (fits.of_beginning beginning (target_ne_empty dir nonempty front)) followedFront directory
  have led := FileTree.locate_eq located
  rw [destination_target t.here dir nonempty front] at led
  exact ⟨led ▸ located, led ▸ directory⟩

/-- A file of the first commit is removed, unless it is gone already. -/
theorem removeListed_repeats {names place : List String} {text : String}
    (located : whole.locate (target dir names) = .ok place)
    (file : whole.lookup? place = some (.file text)) (part : FileTree.Part whole dir u)
    (grown : FileTree.Grown whole u) :
    ∃ found u', u.run (removeListed (target dir names)) = (.ok found, u') ∧
      FileTree.Part whole dir u' ∧ FileTree.Grown whole u' := by
  rw [FileTree.run_removeListed, FileTree.removeFile, FileTree.find, grown.locate located]
  cases found : u.lookup? place with
  | none =>
      simp only [bind, Except.bind, found]
      exact ⟨false, u, rfl, part, grown⟩
  | some entry =>
      obtain rfl : entry = .file text :=
        Option.some.inj ((part.lookup?_of_some found).symm.trans file)
      simp only [bind, Except.bind, found, pure, Except.pure]
      refine ⟨true, u.erase place, rfl, part.erase found, grown.here, grown.gone, ?_⟩
      intro other directory
      have inner : place ≠ [] := by
        rintro rfl
        cases found
      rw [FileTree.lookup?_erase inner, if_neg, grown.directory other directory]
      rintro rfl
      rw [file] at directory
      cases directory

/-- The files of the first commit are removed, unless they are gone already. -/
theorem removeAll_repeats {listed : List (List String)}
    (present : ∀ names ∈ listed, ∃ place text, whole.locate (target dir names) = .ok place ∧
      whole.lookup? place = some (.file text))
    (part : FileTree.Part whole dir u) (grown : FileTree.Grown whole u) :
    ∃ count u', u.run (removeAll dir listed) = (.ok count, u') ∧ FileTree.Part whole dir u' := by
  induction listed generalizing u with
  | nil => exact ⟨0, u, rfl, part⟩
  | cons names rest ih =>
      rw [List.forall_mem_cons] at present
      obtain ⟨⟨place, text, located, file⟩, others⟩ := present
      obtain ⟨found, middle, removed, part, grown⟩ := removeListed_repeats located file part grown
      obtain ⟨count, last, removedAll, part⟩ := ih others part grown
      refine ⟨if found then count + 1 else count, last, ?_, part⟩
      rw [removeAll, FileTree.run_bind_of_ok removed, FileTree.run_bind_of_ok removedAll]
      rfl

/-- A directory above files of the first commit is pruned, unless it is gone already. -/
theorem prune_repeats {names place : List String} (nonempty : names ≠ [])
    (all : ∀ name ∈ names, IsName name) (inner : place ≠ [])
    (located : whole.locate (target dir names) = .ok place)
    (directory : whole.lookup? place = some .directory) (part : FileTree.Part whole dir u) :
    ∃ u', u.run (prune (target dir names)) = (.ok (), u') ∧ FileTree.Part whole dir u' := by
  obtain ⟨fits, followed⟩ := FileTree.follow_of_locate located
  obtain ⟨front, last, split, solid⟩ := FileTree.steps_join_names dir nonempty all
  have same : u.locate (target dir names) = u.follow (target dir names) :=
    (FileTree.locate_trim fits u split solid).1
  rw [FileTree.run_prune, FileTree.isEmpty, FileTree.find, same]
  rcases part.within.route followed with reached | missing
  · rw [FileTree.follow, reached]
    cases found : u.lookup? place with
    | none =>
        simp only [bind, Except.bind, found]
        exact ⟨u, rfl, part⟩
    | some entry =>
        obtain rfl : entry = .directory :=
          Option.some.inj ((part.lookup?_of_some found).symm.trans directory)
        simp only [bind, Except.bind, found, pure, Except.pure]
        cases empty : u.isEmptyAt place with
        | false => exact ⟨u, rfl, part⟩
        | true =>
            have removed : u.removeDirectory (target dir names) = .ok (u.vacate place) := by
              rw [FileTree.removeDirectory, FileTree.find, same, FileTree.follow, reached]
              simp [bind, Except.bind, found, empty, pure, Except.pure, inner]
            refine ⟨u.vacate place, ?_, part.vacate nonempty all reached inner found
              (FileTree.lookup?_of_isEmptyAt empty)⟩
            rw [FileTree.run_attempt, FileTree.run_removeDirectory, removed]
            rfl
  · rw [FileTree.follow, missing]
    exact ⟨u, rfl, part⟩

/-- The directories above the files of the first commit are pruned, unless they are gone already. -/
theorem pruneAll_repeats {above : List (List String)}
    (present : ∀ names ∈ above, (names ≠ [] ∧ ∀ name ∈ names, IsName name) ∧
      ∃ place, place ≠ [] ∧ whole.locate (target dir names) = .ok place ∧
        whole.lookup? place = some .directory)
    (part : FileTree.Part whole dir u) :
    ∃ u', u.run (pruneAll dir above) = (.ok (), u') ∧ FileTree.Part whole dir u' := by
  induction above generalizing u with
  | nil => exact ⟨u, rfl, part⟩
  | cons names rest ih =>
      rw [List.forall_mem_cons] at present
      obtain ⟨⟨⟨nonempty, all⟩, place, inner, located, directory⟩, others⟩ := present
      obtain ⟨middle, pruned, part⟩ := prune_repeats nonempty all inner located directory part
      obtain ⟨last, prunedAll, part⟩ := ih others part
      refine ⟨last, ?_, part⟩
      rw [pruneAll, FileTree.run_bind_of_ok pruned]
      exact prunedAll

/-! ## Writing again -/

theorem run_attempt_of_ok {α : Type} {action : OutputAction} {path : String}
    {request : StateM FileTree (Except FileFault α)} {a : α} {u' : FileTree}
    (done : StateT.run request u = (.ok a, u')) :
    u.run (attempt action path request) = (.ok a, u') := by
  rw [FileTree.run_attempt, done]
  rfl

theorem madeFrom_ancestors_empty (u : FileTree) : u.madeFrom (ancestors "") = (.ok (), u) := by
  rfl

/-- The directory of a file is made again, and then the path leads to the file. -/
theorem exists_run_writeFile (part : FileTree.Part whole dir u) {path text : String}
    (fits : Fits path) {front rest : List (List Char)} {step : List Char}
    (split : solidSteps path = front ++ [step]) {first : List String}
    (started : u.start path (front ++ [step]) = .ok (first, rest ++ [step]))
    {place : List String} (followed : whole.follow path = .ok place) :
    ∃ middle, FileTree.Part whole dir middle ∧ middle.follow path = .ok place ∧
      u.run (writeFile path text) =
        middle.run (attempt .write path (FileStore.writeText path text)) := by
  cases above : parent? path with
  | none =>
      have nothing := solidSteps_of_parent? above
      rw [split] at nothing
      simp at nothing
  | some parent =>
      have continues {middle : FileTree} (done : u.madeFrom (ancestors parent) = (.ok (), middle)) :
          u.run (writeFile path text) =
            middle.run (attempt .write path (FileStore.writeText path text)) := by
        rw [writeFile, above]
        exact FileTree.run_bind_of_ok
          (run_attempt_of_ok ((FileTree.run_makeDirectories u parent).trans done))
      rcases part.parent_of_follow fits split started followed above with
        ⟨rfl, reached⟩ | ⟨_, _, fits', trim', started', followed', inside, -, leads⟩
      · exact ⟨u, part, reached, continues (madeFrom_ancestors_empty u)⟩
      · obtain ⟨middle, done, part', reached, there⟩ :=
          part.makes fits' trim' started' followed' inside (Nat.lt_succ_self _)
        exact ⟨middle, part', leads middle part' reached there, continues done⟩

/-- A text is written again where its path leads. -/
theorem writeText_repeats (part : FileTree.Part whole dir u) {path text : String}
    {place : List String} (located : u.locate path = .ok place)
    (file : whole.lookup? place = some (.file text)) :
    ∃ u', u.run (attempt .write path (FileStore.writeText path text)) = (.ok (), u') ∧
      FileTree.Part whole dir u' := by
  have inner := FileTree.ne_nil_of_file file
  have other : u.lookup? place ≠ some .directory := by
    intro directory
    rw [part.lookup?_of_some directory] at file
    cases file
  have parent : u.lookup? place.dropLast = some .directory := by
    rcases part.sound.isOpen_route (FileTree.walk_eq_ok_iff.mp located).2 with present | directory
    · exact part.sound.parent _ inner present
    · exact directory
  refine ⟨u.put place (.file text), run_attempt_of_ok ?_, part.put inner other parent file⟩
  rw [FileTree.run_writeText, FileTree.writeText_of_locate located other]
  rfl

/-- A file of the first commit is written again. -/
theorem writeFile_repeats {names place : List String} {text : String} (nonempty : names ≠ [])
    (all : ∀ name ∈ names, IsName name)
    (located : whole.locate (target dir names) = .ok place)
    (file : whole.lookup? place = some (.file text)) (part : FileTree.Part whole dir u) :
    ∃ u', u.run (writeFile (target dir names) text) = (.ok (), u') ∧
      FileTree.Part whole dir u' := by
  obtain ⟨fits, followed⟩ := FileTree.follow_of_locate located
  obtain ⟨_, _, ends, solid⟩ := FileTree.steps_join_names dir nonempty all
  obtain ⟨kind, whole_eq⟩ := solidSteps_target dir nonempty all
  obtain ⟨⟨first, rest⟩, started⟩ := part.starts
  have startedPath := FileTree.start_append started (names.map String.toList)
  rw [FileTree.start_congr u kind.symm] at startedPath
  -- the last name is the last step
  obtain ⟨before, last, split⟩ : ∃ before last, names.map String.toList = before ++ [last] := by
    obtain ⟨front, name, rfl⟩ := (List.eq_nil_or_concat names).resolve_left nonempty
    exact ⟨front.map String.toList, name.toList, by simp⟩
  rw [split, ← List.append_assoc] at whole_eq
  rw [split, ← List.append_assoc, ← List.append_assoc] at startedPath
  obtain ⟨middle, part, reached, continues⟩ :=
    exists_run_writeFile part fits whole_eq startedPath followed
  rw [continues]
  exact writeText_repeats part ((FileTree.locate_trim fits middle ends solid).1.trans reached) file

/-- The files of the first commit are written again. -/
theorem writeAll_repeats {files : List (List String × String)}
    (present : ∀ file ∈ files, (file.1 ≠ [] ∧ ∀ name ∈ file.1, IsName name) ∧
      ∃ place, whole.locate (target dir file.1) = .ok place ∧
        whole.lookup? place = some (.file file.2))
    (part : FileTree.Part whole dir u) :
    ∃ u', u.run (writeAll dir files) = (.ok (), u') ∧ FileTree.Part whole dir u' := by
  induction files generalizing u with
  | nil => exact ⟨u, rfl, part⟩
  | cons file rest ih =>
      rw [List.forall_mem_cons] at present
      obtain ⟨⟨⟨nonempty, all⟩, place, located, file⟩, others⟩ := present
      obtain ⟨middle, written, part⟩ := writeFile_repeats nonempty all located file part
      obtain ⟨last, writtenAll, part⟩ := ih others part
      refine ⟨last, ?_, part⟩
      rw [writeAll, FileTree.run_bind_of_ok written]
      exact writtenAll

/-- A directory that is there is not made again, nor is anything above it. -/
theorem makeDirectories_of_follow {path : String} (fits : path ≠ "" → Fits path)
    {place : List String} (followed : u.follow path = .ok place)
    (directory : u.lookup? place = some .directory) :
    u.run (attempt .createDirectory path (FileStore.makeDirectories path)) = (.ok (), u) := by
  refine run_attempt_of_ok ?_
  rw [FileTree.run_makeDirectories]
  by_cases empty : path = ""
  · rw [empty]
    rfl
  · have located := FileTree.locate_of_follow (fits empty) followed directory
    have locatedNew := FileTree.locateNew_of_follow (fits empty) followed directory
    obtain ⟨making, done⟩ := FileTree.made_of_directory located locatedNew directory
    rw [ancestors, ancestorsUpTo, FileTree.madeFrom, if_neg empty]
    simp only [making, done]

/-! ## The second commit -/

/-- Where the first commit has left a file, the path of the directory leads to it. -/
theorem follow_dir {names : List String} (nonempty : names ≠ [])
    (all : ∀ name ∈ names, IsName name) (sound : u.Sound) {base : List String}
    (located : u.locate (target dir names) = .ok (base ++ names))
    (present : u.lookup? (base ++ names) ≠ none) :
    u.follow dir = .ok base ∧ u.lookup? base = some .directory := by
  have followed := follow_of_locate_target nonempty all located
  have led := FileTree.locate_eq located
  rw [destination_target u.here dir nonempty all, List.append_cancel_right_eq] at led
  exact ⟨led ▸ followed, sound.directory_of_append present nonempty⟩

/-- A planned file is where the plan places it. -/
theorem Committed.present (committed : plan.Committed listed t whole) :
    ∀ file ∈ plan.files,
      whole.locate (target plan.dir file.1) = .ok (destination t.here plan.dir ++ file.1) ∧
        whole.lookup? (destination t.here plan.dir ++ file.1) = some (.file file.2) :=
  fun file member =>
    ⟨committed.located file member, FileTree.text?_eq_some.mp (committed.file file member)⟩

/-- The path of the directory leads to the place of the manifest. -/
theorem Committed.follow_dir (committed : plan.Committed listed t whole) :
    whole.follow plan.dir = .ok (destination t.here plan.dir) ∧
      whole.lookup? (destination t.here plan.dir) = some .directory := by
  refine OutputPlan.follow_dir (List.cons_ne_nil Manifest.fileName [])
    (List.forall_mem_singleton.mpr isName_fileName) committed.sound committed.locatedManifest ?_
  rw [FileTree.text?_eq_some.mp committed.manifest]
  nofun

/-- The second commit starts with all that the first one left. -/
theorem Committed.part (committed : plan.Committed listed t whole) :
    FileTree.Part whole plan.dir whole := by
  obtain ⟨found, started, -⟩ := bind_eq_ok_iff.mp committed.follow_dir.1
  exact ⟨committed.sound, .refl whole, found, started⟩

/-- **The second commit cleans up what the first one left.** Without files there is nothing to
clean up. -/
theorem clean_repeats (valid : plan.Valid) (committed : plan.Committed listed t whole) :
    ∃ count cleaned, whole.run (clean plan.dir) = (.ok count, cleaned) ∧
      FileTree.Part whole plan.dir cleaned ∧ (plan.files = [] → cleaned = whole) := by
  have planned : ∀ names ∈ whole.listed plan.dir, ∃ file ∈ plan.files, file.1 = names :=
    fun names member => List.mem_map.mp ((committed.mem_listed valid).mp member)
  obtain ⟨count, removed, removing, part⟩ : ∃ count removed,
      whole.run (removeAll plan.dir (whole.listed plan.dir)) = (.ok count, removed) ∧
        FileTree.Part whole plan.dir removed := by
    refine removeAll_repeats (fun names member => ?_) committed.part (.refl whole)
    obtain ⟨file, inside, rfl⟩ := planned names member
    exact ⟨_, _, committed.present file inside⟩
  obtain ⟨cleaned, pruning, part⟩ : ∃ cleaned,
      removed.run (pruneAll plan.dir (emptied (whole.listed plan.dir))) = (.ok (), cleaned) ∧
        FileTree.Part whole plan.dir cleaned := by
    refine pruneAll_repeats (fun names member => ?_) part
    obtain ⟨nonempty, rest, proper, listed⟩ := mem_emptied.mp member
    obtain ⟨file, member, same⟩ := planned _ listed
    have all := (valid.isName file member).2
    have located := (committed.present file member).1
    rw [same] at all located
    obtain ⟨locatedFront, directory⟩ := locate_front nonempty proper all located
    exact ⟨⟨nonempty, fun name inside => all name (List.mem_append_left _ inside)⟩, _,
      by simp [nonempty], locatedFront, directory⟩
  refine ⟨count, cleaned, ?_, part, fun files => ?_⟩
  · rw [run_clean, committed.manifest?]
    show whole.run (_ >>= _) = _
    rw [FileTree.run_bind_of_ok removing, FileTree.run_bind_of_ok pruning]
    rfl
  · have nothing : whole.listed plan.dir = [] := by
      rw [List.eq_nil_iff_forall_not_mem]
      intro names member
      obtain ⟨file, inside, -⟩ := planned names member
      rw [files] at inside
      cases inside
    have unpruned : emptied [] = [] := by
      rw [List.eq_nil_iff_forall_not_mem]
      simp [mem_emptied]
    rw [nothing] at removing pruning
    rw [unpruned] at pruning
    cases removing
    cases pruning
    rfl

/-- Once the files are written again, the path of the directory leads there again. -/
theorem follow_dir_of_rewritten (valid : plan.Valid) (committed : plan.Committed listed t whole)
    {cleaned wrote : FileTree} (part : FileTree.Part whole plan.dir cleaned)
    (unchanged : plan.files = [] → cleaned = whole)
    (writing : cleaned.run (writeAll plan.dir plan.files) = (.ok (), wrote)) :
    wrote.follow plan.dir = .ok (destination t.here plan.dir) ∧
      wrote.lookup? (destination t.here plan.dir) = some .directory := by
  cases files : plan.files with
  | nil =>
      rw [files, unchanged files] at writing
      cases writing
      exact committed.follow_dir
  | cons file rest =>
      have member : file ∈ plan.files := files ▸ List.mem_cons_self ..
      obtain ⟨sound, -, located, texts, -⟩ :=
        writeAll_eq_ok valid.isName valid.distinct part.sound writing
      rw [part.within.here.trans committed.here] at located texts
      obtain ⟨nonempty, all⟩ := valid.isName file member
      refine follow_dir nonempty all sound (located file member) ?_
      rw [FileTree.text?_eq_some.mp (texts file member)]
      nofun

/-- The manifest is written again in a directory that is there. -/
theorem finish_repeats (committed : plan.Committed listed t whole)
    (part : FileTree.Part whole plan.dir u)
    (followed : u.follow plan.dir = .ok (destination t.here plan.dir))
    (directory : u.lookup? (destination t.here plan.dir) = some .directory) :
    u.run (attempt .createDirectory plan.dir (FileStore.makeDirectories plan.dir)) = (.ok (), u) ∧
      ∃ last, u.run (attempt .write (join plan.dir Manifest.fileName)
        (FileStore.writeText (join plan.dir Manifest.fileName) plan.manifest.text)) =
          (.ok (), last) := by
  have manifestName : ∀ name ∈ [Manifest.fileName], IsName name :=
    List.forall_mem_singleton.mpr isName_fileName
  have one : [Manifest.fileName] ≠ [] := List.cons_ne_nil _ _
  have fits : Fits (target plan.dir [Manifest.fileName]) :=
    (FileTree.follow_of_locate committed.locatedManifest).1
  have fitsDir (nonempty : plan.dir ≠ "") : Fits plan.dir := by
    obtain ⟨front, beginning, joined⟩ := exists_join_eq plan.dir
    refine fits.of_beginning (beginning.trans ?_) nonempty
    rw [target, joined (steps_ofNames one manifestName).1]
    exact List.prefix_append _ _
  have located : u.locate (join plan.dir Manifest.fileName) =
      .ok (destination t.here plan.dir ++ [Manifest.fileName]) := by
    rw [← target_fileName, target, FileTree.locate_join u plan.dir one manifestName fits,
      followed]
    show [Manifest.fileName.toList].foldlM u.step _ = _
    rw [List.foldlM_cons, FileTree.step_name directory isName_fileName, if_neg (by decide)]
    rfl
  obtain ⟨last, finishing, -⟩ :=
    writeText_repeats part located (FileTree.text?_eq_some.mp committed.manifest)
  exact ⟨makeDirectories_of_follow fitsDir followed directory, last, finishing⟩

/-- **The second commit succeeds.** -/
theorem commit_repeats (valid : plan.Valid) (committed : plan.Committed listed t whole) :
    ∃ summary u, whole.run plan.commit = (.ok summary, u) := by
  obtain ⟨count, cleaned, cleaning, part, unchanged⟩ := clean_repeats valid committed
  obtain ⟨wrote, writing, partWrote⟩ := writeAll_repeats
    (fun file member => ⟨valid.isName file member, _, committed.present file member⟩) part
  obtain ⟨followed, directory⟩ :=
    follow_dir_of_rewritten valid committed part unchanged writing
  obtain ⟨making, last, finishing⟩ := finish_repeats committed partWrote followed directory
  refine ⟨{ removed := count, written := plan.files.length }, last, ?_⟩
  rw [commit, FileTree.run_bind_of_ok cleaning, FileTree.run_bind_of_ok writing,
    FileTree.run_bind_of_ok making, FileTree.run_bind_of_ok finishing]
  rfl

/-- Committing again changes no file, if no more is listed than the first commit has written. -/
theorem texts_of_second_commit (committed : plan.Committed listed t whole)
    {listed' : List (List String)} (again : plan.Committed listed' whole u)
    (less : ∀ names ∈ listed', names ∈ plan.files.map (·.1)) (place : List String) :
    u.text? place = whole.text? place := by
  have here := committed.here
  by_cases planned : ∃ file ∈ plan.files, place = destination t.here plan.dir ++ file.1
  · obtain ⟨file, member, rfl⟩ := planned
    rw [committed.file file member, ← here, again.file file member]
  by_cases manifest : place = destination t.here plan.dir ++ [Manifest.fileName]
  · rw [manifest, committed.manifest, ← here, again.manifest]
  have unplanned : ∀ file ∈ plan.files, place ≠ destination t.here plan.dir ++ file.1 :=
    fun file member same => planned ⟨file, member, same⟩
  rw [← here] at manifest unplanned
  refine again.kept place (fun names member => ?_) manifest unplanned
  obtain ⟨file, inside, rfl⟩ := List.mem_map.mp (less names member)
  exact unplanned file inside

end OutputPlan

end ClientGen
