import ClientGen.Proofs.Files.Parts
import ClientGen.Proofs.Output.Cleaning
import ClientGen.Proofs.Output.Plans

/-!
# What a commit leaves behind

A commit cleans, writes the files of a plan and then their manifest. Directories come and go on the
way, but every file ends as the plan, the old manifest and the tree before say.

* `writeFile_eq_ok`, `writeAll_eq_ok` — what has been written stands where it was to stand.
* `OutputPlan.Committed` — the tree that a commit leaves behind, file by file.
* `directory_of_writeAll` — the directories that are made for files are on the way to them.
* `finish_eq_ok`, `commit_eq_ok` — every commit that succeeds leaves such a tree.
-/

namespace ClientGen

open ClientGen.Path

namespace OutputPlan

/-! ## Writing -/

/-- **A file has been written**: it stands where its path leads, and every other file is as it
was. -/
structure Wrote (t t' : FileTree) (path text : String) : Prop where
  /-- The tree can be. -/
  sound : t'.Sound
  /-- All directories are there still. -/
  grown : FileTree.Grown t t'
  /-- The path leads to the file. -/
  located : t'.locate path = .ok (destination t.here path)
  /-- What has become of the files. -/
  texts : ∀ place, t'.text? place =
    if place = destination t.here path then some text else t.text? place

theorem wrote_of_writeText {t t' : FileTree} (sound : t.Sound) {path text : String}
    (written : t.writeText path text = .ok t') : Wrote t t' path text := by
  obtain ⟨located, inner, other, parent, rfl⟩ := FileTree.writeText_eq_ok sound written
  have grown := FileTree.Grown.put_file inner other text
  exact ⟨sound.put inner other parent _, grown, grown.locate located,
    FileTree.text?_put_file inner text t⟩

/-- A file is written as well after directories have been added. -/
theorem Wrote.of_built {t middle t' : FileTree} {path text : String}
    (built : FileTree.Built t middle) (wrote : Wrote middle t' path text) :
    Wrote t t' path text := by
  obtain ⟨sound, grown, located, texts⟩ := wrote
  rw [built.here] at located texts
  refine ⟨sound, built.grown.trans grown, located, fun place => ?_⟩
  rw [texts, built.text?_eq]

theorem wrote_of_attempt {t t' : FileTree} (sound : t.Sound) {path text : String}
    (written : t.run (attempt .write path (FileStore.writeText path text)) = (.ok (), t')) :
    Wrote t t' path text := by
  have done := attempt_eq_ok written
  rw [FileTree.run_writeText] at done
  exact wrote_of_writeText sound (changed_eq_ok done)

/-- Directories are made, or some of them, and nothing else happens. -/
theorem built_makeDirectories {t : FileTree} (sound : t.Sound) (path : String) :
    let t' := (t.run (attempt .createDirectory path (FileStore.makeDirectories path))).2
    t'.Sound ∧ FileTree.Built t t' := by
  rw [FileTree.run_attempt, FileTree.run_makeDirectories]
  exact FileTree.built_madeFrom sound (ancestors path)

theorem built_of_attempt {t t' : FileTree} (sound : t.Sound) {path : String}
    (made : t.run (attempt .createDirectory path (FileStore.makeDirectories path)) = (.ok (), t')) :
    t'.Sound ∧ FileTree.Built t t' := by
  have built := built_makeDirectories sound path
  rwa [made] at built

theorem writeFile_eq_ok {t t' : FileTree} (sound : t.Sound) {path text : String}
    (written : t.run (writeFile path text) = (.ok (), t')) : Wrote t t' path text := by
  unfold writeFile at written
  split at written
  · obtain ⟨_, middle, made, written⟩ := FileTree.run_bind_eq_ok written
    obtain ⟨soundMiddle, built⟩ := built_of_attempt sound made
    exact (wrote_of_attempt soundMiddle written).of_built built
  · exact wrote_of_attempt sound written

/-- Other names than those of some files lead to other places. -/
theorem append_ne_of_notMem {names : List String} {files : List (List String × String)}
    (base : List String) (other : names ∉ files.map (·.1)) :
    ∀ file ∈ files, base ++ names ≠ base ++ file.1 := by
  intro file member same
  rw [List.append_cancel_left_eq] at same
  exact other (same ▸ List.mem_map_of_mem (f := (·.1)) member)

/-- **Files have been written**: each stands at its names, and every other file is as it was. -/
theorem writeAll_eq_ok {dir : String} {files : List (List String × String)}
    (all : ∀ file ∈ files, file.1 ≠ [] ∧ ∀ name ∈ file.1, IsName name)
    (distinct : (files.map (·.1)).Nodup) {t t' : FileTree} (sound : t.Sound)
    (written : t.run (writeAll dir files) = (.ok (), t')) :
    t'.Sound ∧ FileTree.Grown t t' ∧
      (∀ file ∈ files, t'.locate (target dir file.1) = .ok (destination t.here dir ++ file.1)) ∧
      (∀ file ∈ files, t'.text? (destination t.here dir ++ file.1) = some file.2) ∧
      ∀ place, (∀ file ∈ files, place ≠ destination t.here dir ++ file.1) →
        t'.text? place = t.text? place := by
  induction files generalizing t with
  | nil =>
      cases written
      exact ⟨sound, .refl _, nofun, nofun, fun _ _ => rfl⟩
  | cons file files ih =>
      obtain ⟨names, text⟩ := file
      rw [List.forall_mem_cons] at all
      rw [List.map_cons, List.nodup_cons] at distinct
      obtain ⟨⟨nonempty, isName⟩, others⟩ := all
      obtain ⟨_, middle, first, rest⟩ := FileTree.run_bind_eq_ok written
      have wrote := writeFile_eq_ok sound first
      have led := destination_target t.here dir nonempty isName
      obtain ⟨soundLast, grown, located, texts, kept⟩ := ih others distinct.2 wrote.sound rest
      rw [wrote.grown.here] at located texts kept
      -- the first file is not written again
      have once := append_ne_of_notMem (destination t.here dir) distinct.1
      refine ⟨soundLast, wrote.grown.trans grown, ?_, ?_, ?_⟩
      · refine List.forall_mem_cons.mpr ⟨?_, located⟩
        exact grown.locate (led ▸ wrote.located)
      · refine List.forall_mem_cons.mpr ⟨?_, texts⟩
        rw [kept _ once, wrote.texts, led, if_pos rfl]
      · intro place other
        rw [List.forall_mem_cons] at other
        rw [kept place other.2, wrote.texts, led, if_neg other.1]

/-! ## Directories on the way

A directory that is made is on the way to the output directory, where it has to be already if
anything is listed, or it is above a file that is written. -/

section Directories

variable {t u u' : FileTree} {dir : String} {base place : List String}

/-- What is made with everything above it stands where a path above it leads. -/
theorem exists_locateNew_of_attempt (sound : u.Sound) {path : String}
    (made : u.run (attempt .createDirectory path (FileStore.makeDirectories path)) = (.ok (), u'))
    (absent : u.lookup? place ≠ some .directory) (there : u'.lookup? place = some .directory) :
    ∃ above ∈ ancestors path, above ≠ "" ∧
      ∃ v, FileTree.Built u v ∧ v.locateNew above = .ok place := by
  have done := attempt_eq_ok made
  rw [FileTree.run_makeDirectories] at done
  exact FileTree.exists_locateNew_of_madeFrom sound absent (by rw [done]; exact there)

/-- A file takes no place of a directory. -/
theorem lookup?_of_wrote (sound : u.Sound) {path text : String}
    (written : u.run (attempt .write path (FileStore.writeText path text)) = (.ok (), u'))
    (there : u'.lookup? place = some .directory) : u.lookup? place = some .directory := by
  have done := attempt_eq_ok written
  rw [FileTree.run_writeText] at done
  obtain ⟨-, inner, -, -, rfl⟩ := FileTree.writeText_eq_ok sound (changed_eq_ok done)
  rw [FileTree.lookup?_put inner] at there
  split at there
  · cases there
  · exact there

/-- What can be made on the way to names below the output directory is on the way to this directory,
or it is above the names. -/
theorem directory_of_along (followed : t.follow dir = .ok base) (here : u.here = t.here)
    (gone : t.gone ≤ u.gone) {names : List String} (all : ∀ name ∈ names, IsName name)
    {path : String} (kind : isAbsolute path = isAbsolute dir) {more : List (List Char)}
    (split : solidSteps dir ++ names.map String.toList = solidSteps path ++ more)
    (located : u.locateNew path = .ok place) :
    t.lookup? place = some .directory ∨
      ∃ front back, names = front ++ back ∧ back.map String.toList = more ∧
        place = base ++ front := by
  have led {front : List String} (all : ∀ name ∈ front, IsName name)
      (steps : solidSteps path = solidSteps dir ++ front.map String.toList) :
      place = base ++ front := by
    rw [FileTree.locateNew_eq located, destination, steps, List.foldl_append, kind, here,
      FileTree.route_eq_ok followed]
    exact foldl_move_names all _
  rw [List.append_eq_append_iff] at split
  rcases split with ⟨_, steps, inside⟩ | ⟨later, steps, rfl⟩
  · obtain ⟨front, back, rfl, rfl, rfl⟩ := List.map_eq_append_iff.mp inside
    exact .inr ⟨front, back, rfl, rfl,
      led (fun name member => all name (List.mem_append_left _ member)) steps⟩
  · by_cases nothing : later = []
    · subst nothing
      refine .inr ⟨[], names, rfl, rfl, led (List.forall_mem_nil _) ?_⟩
      rw [steps, List.append_nil, List.map_nil, List.append_nil]
    · exact .inl (FileTree.directory_of_locateNew followed here gone kind nothing steps located)

/-- The directories that are made for a file are on the way to it. -/
theorem directory_of_writeFile (followed : t.follow dir = .ok base) (here : u.here = t.here)
    (gone : t.gone ≤ u.gone) (sound : u.Sound) {names : List String} (nonempty : names ≠ [])
    (all : ∀ name ∈ names, IsName name) {text : String}
    (written : u.run (writeFile (target dir names) text) = (.ok (), u'))
    (absent : u.lookup? place ≠ some .directory) (there : u'.lookup? place = some .directory) :
    t.lookup? place = some .directory ∨
      ∃ front back, names = front ++ back ∧ back ≠ [] ∧ place = base ++ front := by
  unfold writeFile at written
  split at written
  · rename_i parent without
    obtain ⟨_, middle, made, written⟩ := FileTree.run_bind_eq_ok written
    have there := lookup?_of_wrote (built_of_attempt sound made).1 written there
    obtain ⟨above, member, named, v, built, located⟩ :=
      exists_locateNew_of_attempt sound made absent there
    obtain ⟨kind, more, proper, split⟩ := beginning_of_parent? without member named
    obtain ⟨same, whole⟩ := solidSteps_target dir nonempty all
    rw [whole] at split
    refine (directory_of_along followed (built.here.trans here) (built.gone ▸ gone) all
      (kind.trans same) split located).imp_right ?_
    rintro ⟨front, back, names_eq, rfl, place_eq⟩
    exact ⟨front, back, names_eq, fun nothing => proper (by rw [nothing, List.map_nil]), place_eq⟩
  · exact absurd (lookup?_of_wrote sound written there) absent

/-- The directories that are made for several files are on the way to them. -/
theorem directory_of_writeAll (followed : t.follow dir = .ok base)
    {files : List (List String × String)}
    (all : ∀ file ∈ files, file.1 ≠ [] ∧ ∀ name ∈ file.1, IsName name) (here : u.here = t.here)
    (gone : t.gone ≤ u.gone) (sound : u.Sound)
    (written : u.run (writeAll dir files) = (.ok (), u'))
    (absent : u.lookup? place ≠ some .directory) (there : u'.lookup? place = some .directory) :
    t.lookup? place = some .directory ∨
      ∃ file ∈ files, ∃ front back, file.1 = front ++ back ∧ back ≠ [] ∧ place = base ++ front := by
  induction files generalizing u with
  | nil =>
      cases written
      exact absurd there absent
  | cons file files ih =>
      rw [List.forall_mem_cons] at all
      obtain ⟨⟨nonempty, isName⟩, others⟩ := all
      obtain ⟨_, middle, first, rest⟩ := FileTree.run_bind_eq_ok written
      by_cases present : middle.lookup? place = some .directory
      · rcases directory_of_writeFile followed here gone sound nonempty isName first absent present
          with before | ⟨front, back, split⟩
        · exact .inl before
        · exact .inr ⟨file, List.mem_cons_self .., front, back, split⟩
      · have wrote := writeFile_eq_ok sound first
        rcases ih others (wrote.grown.here.trans here) (wrote.grown.gone ▸ gone) wrote.sound rest
          present with before | ⟨other, member, split⟩
        · exact .inl before
        · exact .inr ⟨other, List.mem_cons_of_mem _ member, split⟩

/-- For the output directory itself nothing else is made, unless it is on the way there. -/
theorem directory_of_output (followed : t.follow dir = .ok base) (here : u.here = t.here)
    (gone : t.gone ≤ u.gone) (sound : u.Sound)
    (made : u.run (attempt .createDirectory dir (FileStore.makeDirectories dir)) = (.ok (), u'))
    (absent : u.lookup? place ≠ some .directory) (there : u'.lookup? place = some .directory) :
    t.lookup? place = some .directory ∨ place = base := by
  obtain ⟨above, inside, named, v, built, located⟩ :=
    exists_locateNew_of_attempt sound made absent there
  obtain ⟨kind, more, split⟩ := beginning_of_mem_ancestors inside named
  have whole : solidSteps dir ++ [].map String.toList = solidSteps above ++ more := by
    rw [List.map_nil, List.append_nil, split]
  refine (directory_of_along followed (built.here.trans here) (built.gone ▸ gone)
    (fun _ nothing => absurd nothing List.not_mem_nil) kind whole located).imp_right ?_
  rintro ⟨front, back, nothing, -, rfl⟩
  rw [(List.append_eq_nil_iff.mp nothing.symm).1, List.append_nil]

end Directories

/-! ## Committing -/

/-- What a commit writes: the manifest and the files, by their names. -/
def outcomes (plan : OutputPlan) : List (List String × String) :=
  ([Manifest.fileName], plan.manifest.text) :: plan.files

/-- **The tree that a commit of a plan leaves behind**, where an old manifest listed some files. -/
structure Committed (plan : OutputPlan) (listed : List (List String)) (t t' : FileTree) : Prop where
  /-- The tree can be. -/
  sound : t'.Sound
  /-- The working directory is the same. -/
  here : t'.here = t.here
  /-- The path of every planned file leads to it. -/
  located : ∀ file ∈ plan.files,
    t'.locate (target plan.dir file.1) = .ok (destination t.here plan.dir ++ file.1)
  /-- The path of the manifest leads to it. -/
  locatedManifest : t'.locate (join plan.dir Manifest.fileName) =
    .ok (destination t.here plan.dir ++ [Manifest.fileName])
  /-- A planned file has the planned text. -/
  file : ∀ file ∈ plan.files,
    t'.text? (destination t.here plan.dir ++ file.1) = some file.2
  /-- The manifest is there. -/
  manifest : t'.text? (destination t.here plan.dir ++ [Manifest.fileName]) =
    some plan.manifest.text
  /-- A file that was listed before and is not planned is gone. At most a directory is in its place,
  with a planned file below it. -/
  removed : ∀ names ∈ listed, names ≠ [Manifest.fileName] → names ∉ plan.files.map (·.1) →
    t'.lookup? (destination t.here plan.dir ++ names) = none ∨
      t'.lookup? (destination t.here plan.dir ++ names) = some .directory ∧
        ∃ file ∈ plan.files, ∃ rest ≠ [], file.1 = names ++ rest
  /-- Every other file is as it was. -/
  kept : ∀ place, (∀ names ∈ listed, place ≠ destination t.here plan.dir ++ names) →
    place ≠ destination t.here plan.dir ++ [Manifest.fileName] →
    (∀ file ∈ plan.files, place ≠ destination t.here plan.dir ++ file.1) →
      t'.text? place = t.text? place

/-- A manifest is found where its text is read. -/
theorem manifest?_of_readText {t : FileTree} {dir : String} {manifest : Manifest}
    (read : t.readText (join dir Manifest.fileName) = .ok manifest.text) :
    t.manifest? dir = some manifest := by
  rw [FileTree.manifest?, read]
  exact manifest.parse?_text

section Committed

variable {plan : OutputPlan} {listed : List (List String)} {t t' : FileTree}

/-- What is written has proper names. -/
theorem Valid.isName_outcomes (valid : plan.Valid) :
    ∀ file ∈ plan.outcomes, file.1 ≠ [] ∧ ∀ name ∈ file.1, IsName name :=
  List.forall_mem_cons.mpr ⟨⟨List.cons_ne_nil _ _,
    List.forall_mem_singleton.mpr isName_fileName⟩, valid.isName⟩

/-- Nothing is written twice. -/
theorem Valid.distinct_outcomes (valid : plan.Valid) : (plan.outcomes.map (·.1)).Nodup := by
  refine List.nodup_cons.mpr ⟨fun member => ?_, valid.distinct⟩
  obtain ⟨file, listed, same⟩ := List.mem_map.mp member
  exact valid.free file listed same

/-- A listed file that is not planned is no file any more. -/
theorem Committed.text?_removed (committed : plan.Committed listed t t') {names : List String}
    (member : names ∈ listed) (free : names ≠ [Manifest.fileName])
    (unplanned : names ∉ plan.files.map (·.1)) :
    t'.text? (destination t.here plan.dir ++ names) = none := by
  rcases committed.removed names member free unplanned with absent | ⟨directory, -⟩
  · rw [FileTree.text?, absent]
  · exact FileTree.text?_eq_none_of_directory directory

/-- The manifest that a commit leaves behind is the one of its plan. -/
theorem Committed.manifest? (committed : plan.Committed listed t t') :
    t'.manifest? plan.dir = some plan.manifest :=
  manifest?_of_readText
    (FileTree.readText_of_locate committed.locatedManifest committed.manifest)

/-- What a commit leaves behind lists the planned files. -/
theorem Committed.mem_listed (valid : plan.Valid) (committed : plan.Committed listed t t')
    {names : List String} : names ∈ t'.listed plan.dir ↔ names ∈ plan.files.map (·.1) := by
  rw [FileTree.listed_of_some committed.manifest?]
  exact valid.listed names

/-- What a commit does when the directory is clean: it writes the files and the manifest. -/
def finish {m : Type → Type} [Monad m] [FileStore m] (plan : OutputPlan) (removed : Nat) :
    Writing m Summary := do
  writeAll plan.dir plan.files
  attempt .createDirectory plan.dir (FileStore.makeDirectories plan.dir)
  let path := join plan.dir Manifest.fileName
  attempt .write path (FileStore.writeText path plan.manifest.text)
  return { removed, written := plan.files.length }

/-- What is made for the files and the manifest at the place of a listed file is above one of the
files. -/
theorem directory_of_finish (valid : plan.Valid) {cleaned : FileTree}
    (cleared : Cleared plan.dir listed t cleaned) {removed : Nat} {summary : Summary}
    (finished : cleaned.run (plan.finish removed) = (.ok summary, t')) {names : List String}
    (member : names ∈ listed) (nonempty : names ≠ [])
    (there : t'.lookup? (destination t.here plan.dir ++ names) = some .directory) :
    ∃ file ∈ plan.files, ∃ rest ≠ [], file.1 = names ++ rest := by
  obtain ⟨_, wrote, writing, finished⟩ := FileTree.run_bind_eq_ok finished
  obtain ⟨_, made, making, finished⟩ := FileTree.run_bind_eq_ok finished
  obtain ⟨_, last, finishing, same⟩ := FileTree.run_bind_eq_ok finished
  cases same
  obtain ⟨soundWrote, grown, -⟩ :=
    writeAll_eq_ok valid.isName valid.distinct cleared.sound writing
  have followed := cleared.followed (List.ne_nil_of_mem member)
  obtain ⟨before, after⟩ := cleared.absent names member
  have there := lookup?_of_wrote (built_of_attempt soundWrote making).1 finishing there
  by_cases present : wrote.lookup? (destination t.here plan.dir ++ names) = some .directory
  · rcases directory_of_writeAll followed valid.isName cleared.here cleared.gone cleared.sound
      writing (by rw [after]; nofun) present with
      old | ⟨file, planned, front, rest, split, proper, at_⟩
    · exact absurd old before
    · obtain rfl := List.append_cancel_left at_
      exact ⟨file, planned, rest, proper, split⟩
  · rcases directory_of_output followed (grown.here.trans cleared.here)
      (grown.gone ▸ cleared.gone) soundWrote making present there with old | same
    · exact absurd old before
    · exact absurd (List.self_eq_append_right.mp same.symm) nonempty

/-- **What is written into a clean directory** makes it the tree that a commit leaves behind. -/
theorem finish_eq_ok (valid : plan.Valid) {cleaned : FileTree}
    (proper : ∀ names ∈ listed, names ≠ []) (cleared : Cleared plan.dir listed t cleaned)
    {removed : Nat} {summary : Summary}
    (finished : cleaned.run (plan.finish removed) = (.ok summary, t')) :
    plan.Committed listed t t' ∧ summary = { removed, written := plan.files.length } := by
  have directories := fun names (member : names ∈ listed) =>
    directory_of_finish valid cleared finished member (proper names member)
  obtain ⟨_, wrote, writing, finished⟩ := FileTree.run_bind_eq_ok finished
  obtain ⟨_, made, making, finished⟩ := FileTree.run_bind_eq_ok finished
  obtain ⟨_, last, finishing, same⟩ := FileTree.run_bind_eq_ok finished
  cases same
  have here := cleared.here
  obtain ⟨soundWrote, grown, located, texts, kept⟩ :=
    writeAll_eq_ok valid.isName valid.distinct cleared.sound writing
  obtain ⟨soundMade, built⟩ := built_of_attempt soundWrote making
  have manifest := (wrote_of_attempt soundMade finishing).of_built built
  have led : destination wrote.here (join plan.dir Manifest.fileName) =
      destination t.here plan.dir ++ [Manifest.fileName] := by
    rw [← target_fileName, destination_target _ _ (List.cons_ne_nil _ _)
      (List.forall_mem_singleton.mpr isName_fileName), grown.here, here]
  rw [here] at located texts kept
  refine ⟨⟨manifest.sound, ?_, ?_, ?_, ?_, ?_, ?_, ?_⟩, rfl⟩
  · rw [manifest.grown.here, grown.here, here]
  · exact fun file member => manifest.grown.locate (located file member)
  · rw [manifest.located, led]
  · intro file member
    have apart : destination t.here plan.dir ++ file.1 ≠
        destination t.here plan.dir ++ [Manifest.fileName] := by
      rw [ne_eq, List.append_cancel_left_eq]
      exact valid.free file member
    rw [manifest.texts, led, if_neg apart, texts file member]
  · rw [manifest.texts, led, if_pos rfl]
  · intro names member free unplanned
    have apart : destination t.here plan.dir ++ names ≠
        destination t.here plan.dir ++ [Manifest.fileName] := by
      rwa [ne_eq, List.append_cancel_left_eq]
    have text := manifest.texts (destination t.here plan.dir ++ names)
    rw [led, if_neg apart, kept _ (append_ne_of_notMem _ unplanned), cleared.texts,
      if_pos ⟨names, member, rfl⟩] at text
    rcases stands : t'.lookup? (destination t.here plan.dir ++ names) with _ | text' | _
    · exact .inl rfl
    · rw [FileTree.text?_eq_some.mpr stands] at text
      cases text
    · exact .inr ⟨rfl, directories names member stands⟩
  · intro place unlisted free unplanned
    rw [manifest.texts, led, if_neg free, kept place unplanned, cleared.texts, if_neg]
    rintro ⟨names, member, same⟩
    exact unlisted names member same

/-- **Every commit that succeeds leaves exactly the right files**, and reports their numbers. -/
theorem commit_eq_ok (valid : plan.Valid) (sound : t.Sound) {summary : Summary}
    (committed : t.run plan.commit = (.ok summary, t')) :
    plan.Committed (t.listed plan.dir) t t' ∧ summary.written = plan.files.length ∧
      summary.removed = ((t.listed plan.dir).toFinset.filter fun names =>
        (t.text? (destination t.here plan.dir ++ names)).isSome).card := by
  obtain ⟨removed, cleaned, cleaning, finished⟩ := FileTree.run_bind_eq_ok committed
  obtain ⟨-, -, -, counted⟩ := clean_eq_ok sound cleaning
  obtain ⟨done, rfl⟩ := finish_eq_ok valid
    (fun names member => (FileTree.isName_of_mem_listed member).1) (cleared_of_clean sound cleaning)
    finished
  exact ⟨done, rfl, counted⟩

end Committed

end OutputPlan

end ClientGen
