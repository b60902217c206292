import ClientGen.Proofs.Output.Permitted

/-!
# Exactly the right files

What a commit in a file system comes to, for all file systems: the planned files and their manifest,
nothing of the last run that is not planned again, and everything else as it was.

* `FileSystem.commit_leaves_exactly` — every commit that succeeds leaves exactly the right files.
* `commit_oldSystem` — a commit that replaces one file.
* `commit_not_exact` — what can be different where something stands in the way of the conditions.

Four things are up to the file system. A directory can stand where a listed file was, above a
planned file. Writing a file changes all of its names, so a planned path must not be one of several
names, unless the last run has listed it and it is removed first. A manifest that may be written may
be one that may not be read. And the second commit removes what the first one could only overwrite,
for which it needs more rights.
-/

namespace ClientGen

open ClientGen.Path

namespace FileSystem

open OutputPlan

/-- What an accepted plan writes is planned by a file, or it is the manifest. -/
theorem mem_outcomes_of_placed {files : List SourceFile} {plan : OutputPlan}
    (all : List.Forall₂ Places files plan.files) {file : List String × String}
    (member : file ∈ plan.outcomes) : file.1 = [Manifest.fileName] ∨
      ∃ source ∈ files, contained? source.path = some file.1 := by
  rcases List.mem_cons.mp member with rfl | planned
  · exact .inl rfl
  · obtain ⟨source, inside, places, -⟩ := exists_related_of_mem all.flip planned
    exact .inr ⟨source, inside, places⟩

/-- **A commit leaves exactly the right files**, if the files have no other names that it
overwrites. A commit that succeeds leaves every planned file with its text, and the manifest of the
plan. What the old manifest listed and the plan does not contain is gone, or there is a directory in
its place that is above a planned file. Every other file is as it was, inside and outside the
directory. The manifest is read back as that of the plan, if it may be read, and the numbers of
files are right. Whenever the same commit succeeds again it changes no file, and it does succeed if
no right is missing at the directory and below it. -/
theorem commit_leaves_exactly {dir : String} {files : List SourceFile} {plan : OutputPlan}
    (planned : ofFiles dir files = .ok plan) {s s' : FileSystem} (sound : s.tree.Sound)
    (alone : ∀ names, (names = [Manifest.fileName] ∨
        ∃ file ∈ files, contained? file.path = some names) → names ∉ s.listed dir →
      s.IsAlone (destination s.tree.here dir ++ names))
    {summary : Summary} (committed : s.run plan.commit = (.ok summary, s')) :
    let base := destination s.tree.here dir
    (∀ file ∈ files, ∃ names, contained? file.path = some names ∧
        s'.tree.text? (base ++ names) = some file.contents) ∧
      s'.tree.text? (base ++ [Manifest.fileName]) = some plan.manifest.text ∧
      (∀ names ∈ s.listed dir, names ≠ [Manifest.fileName] →
        (∀ file ∈ files, contained? file.path ≠ some names) →
          s'.tree.lookup? (base ++ names) = none ∨
            s'.tree.lookup? (base ++ names) = some .directory ∧
              ∃ file ∈ files, ∃ rest ≠ [], contained? file.path = some (names ++ rest)) ∧
      (∀ place, (∀ names ∈ s.listed dir, place ≠ base ++ names) →
        place ≠ base ++ [Manifest.fileName] →
        (∀ file ∈ files, ∀ names, contained? file.path = some names → place ≠ base ++ names) →
          s'.tree.text? place = s.tree.text? place) ∧
      StateT.run (Manifest.read? dir : StateM FileSystem (Option Manifest)) s' =
        (if (s'.rightsAt (base ++ [Manifest.fileName])).read then some plan.manifest else none,
          s') ∧
      summary.written = files.length ∧
      summary.removed = ((s.listed dir).toFinset.filter fun names =>
        (s.tree.text? (base ++ names)).isSome).card ∧
      (∀ summary' s'', s'.run plan.commit = (.ok summary', s'') →
        ∀ place, s''.tree.text? place = s'.tree.text? place) ∧
      ((∀ names, s'.rightsAt (base ++ names) = {}) → s'.fresh = {} →
        ∃ summary' s'', s'.run plan.commit = (.ok summary', s'')) := by
  intro base
  have valid := valid_ofFiles planned
  obtain ⟨rfl, -, placing⟩ := ofFiles_eq_ok planned
  obtain ⟨all, -, -⟩ := placed_eq_ok_iff.mp placing
  have alone : ∀ file ∈ plan.outcomes, file.1 ∉ s.listed plan.dir → s.IsAlone (base ++ file.1) :=
    fun file member => alone file.1 (mem_outcomes_of_placed all member)
  obtain ⟨done, single, written, removed⟩ := commit_eq_ok valid sound alone committed
  refine ⟨?_, done.manifest, ?_, ?_, ?_, ?_, removed, fun summary' s'' again => ?_,
    commit_repeats valid sound alone committed⟩
  · intro file member
    obtain ⟨entry, inside, found, same⟩ := exists_related_of_mem all member
    exact ⟨entry.1, found, same ▸ done.file entry inside⟩
  · intro names member free unplanned
    refine (done.removed names member free fun inside => ?_).imp_right ?_
    · obtain ⟨entry, listed, rfl⟩ := List.mem_map.mp inside
      obtain ⟨file, inFiles, places, -⟩ := exists_related_of_mem all.flip listed
      exact unplanned file inFiles places
    · rintro ⟨directory, entry, inside, rest, proper, split⟩
      obtain ⟨file, inFiles, places, -⟩ := exists_related_of_mem all.flip inside
      exact ⟨directory, file, inFiles, rest, proper, split ▸ places⟩
  · intro place unlisted free unplanned
    refine done.kept place unlisted free fun entry listed => ?_
    obtain ⟨file, inFiles, places, -⟩ := exists_related_of_mem all.flip listed
    exact unplanned file inFiles entry.1 places
  · have passes := passes_of_commit valid sound alone committed
    rw [target_fileName] at passes
    rw [run_read?, manifest?_of_passes passes done.locatedManifest done.manifest]
  · rw [written, all.length_eq]
  · have here := done.here
    obtain ⟨twice, -⟩ := commit_eq_ok valid single.sound (fun file member _ =>
      here.symm ▸ single.alone _ (append_mem_written s.tree.here file member)) again
    exact texts_of_second_commit done twice fun names member =>
      (done.mem_listed valid).mp (mem_listed_tree member)

/-! ## A commit that replaces one file -/

/-- What a run comes to, with the file system after it. -/
theorem run_eq_of_fst {α : Type} {s : FileSystem} {step : Writing (StateM FileSystem) α}
    {result : Except OutputError α} (ran : (s.run step).1 = result) :
    s.run step = (result, (s.run step).2) :=
  ran ▸ rfl

/-- A manifest that lists a file of the last run, and a path that leads out of the directory. -/
def oldManifest : Manifest :=
  { files := ["../keep.txt", "old.ts"] }

/-- A directory with that manifest, with the listed file and with one of somebody else. The listed
file has another name outside, where nothing can be written. -/
def oldSystem : FileSystem :=
  { tree :=
      { here := ["work"]
        entries :=
          [(["work"], .directory), (["work", "keep.txt"], .file "old"),
            (["work", "sdk"], .directory), (["work", "sdk", "old.ts"], .file "old"),
            (["work", "sdk", "notes.txt"], .file "mine"),
            (["work", "sdk", ".gen-manifest.json"], .file oldManifest.text)] }
    rights := [(["work"], { write := false })]
    numbers := [(["work", "keep.txt"], 0), (["work", "sdk", "old.ts"], 0)] }

/-- The files of the next run. -/
def newFiles : List SourceFile :=
  [⟨"client/pets.ts", "new"⟩]

/-- Their plan. -/
def newPlan : OutputPlan :=
  { dir := "sdk", files := [(["client", "pets.ts"], "new")], manifest := manifestOf newFiles }

/-- What is stated about rights decides what may be done below a place. -/
theorem rightsAt_below {s : FileSystem} {base : List String}
    (all : ∀ e ∈ s.rights, base <+: e.1 → e.2 = {}) (names : List String) :
    s.rightsAt (base ++ names) = {} := by
  unfold rightsAt
  cases found : s.rights.lookup (base ++ names) with
  | none => rfl
  | some rights =>
      obtain ⟨before, after, split, -⟩ := List.lookup_eq_some_iff.mp found
      exact all (base ++ names, rights) (split ▸ by simp) (List.prefix_append ..)

/-- The listed file is replaced by the planned one, and those of somebody else stay, the other name
of the listed file included. -/
theorem commit_oldSystem :
    ∃ s', ofFiles "sdk" newFiles = .ok newPlan ∧ oldSystem.tree.Sound ∧
      oldSystem.run newPlan.commit = (.ok { removed := 1, written := 1 }, s') ∧
      s'.tree.text? ["work", "sdk", "client", "pets.ts"] = some "new" ∧
      s'.tree.lookup? ["work", "sdk", "old.ts"] = none ∧
      s'.tree.text? ["work", "sdk", "notes.txt"] = some "mine" ∧
      s'.tree.text? ["work", "keep.txt"] = some "old" ∧
      ∃ summary s'', s'.run newPlan.commit = (.ok summary, s'') ∧
        ∀ place, s''.tree.text? place = s'.tree.text? place := by
  have planned : ofFiles "sdk" newFiles = .ok newPlan := ofFiles_of_placed "sdk" rfl
  have sound : oldSystem.tree.Sound := .of_entries (by decide) rfl
  have base : destination oldSystem.tree.here "sdk" = ["work", "sdk"] := rfl
  have listed : oldSystem.listed "sdk" = [["old.ts"]] := by decide +kernel
  have path : contained? "client/pets.ts" = some ["client", "pets.ts"] := rfl
  obtain ⟨ran, rights, fresh⟩ :
      (oldSystem.run newPlan.commit).1 = .ok { removed := 1, written := 1 } ∧
        (∀ e ∈ (oldSystem.run newPlan.commit).2.rights, ["work", "sdk"] <+: e.1 → e.2 = {}) ∧
        (oldSystem.run newPlan.commit).2.fresh = {} := by
    decide +kernel
  have committed : oldSystem.run newPlan.commit =
      (.ok { removed := 1, written := 1 }, (oldSystem.run newPlan.commit).2) := run_eq_of_fst ran
  have alone : ∀ names, (names = [Manifest.fileName] ∨
      ∃ file ∈ newFiles, contained? file.path = some names) → names ∉ oldSystem.listed "sdk" →
        oldSystem.IsAlone (["work", "sdk"] ++ names) := by
    rintro names (rfl | ⟨file, member, places⟩) -
    · exact .inr (by decide +kernel)
    · obtain rfl := List.mem_singleton.mp member
      cases path.symm.trans places
      exact .inl (by decide +kernel)
  obtain ⟨files, -, gone, kept, -, -, -, same, again⟩ :=
    commit_leaves_exactly planned sound alone committed
  rw [base, listed] at gone kept
  rw [base] at files again
  simp only [newFiles, List.forall_mem_singleton, path, Option.some.injEq, forall_eq']
    at files gone kept
  obtain ⟨names, rfl, pets⟩ := files
  obtain ⟨summary, s'', again⟩ := again (rightsAt_below rights) fresh
  refine ⟨_, planned, sound, committed, pets, ?_, ?_, ?_, summary, s'', again,
    same summary s'' again⟩
  · refine (gone (by decide) (by decide)).resolve_right ?_
    rintro ⟨-, file, member, rest, -, places⟩
    obtain rfl := List.mem_singleton.mp member
    have same := Option.some.inj (path.symm.trans places)
    exact absurd (List.cons.inj same).1 (by decide)
  · exact kept _ (by decide) (by decide) (by decide)
  · exact kept _ (by decide) (by decide) (by decide)

/-! ## What can be different -/

/-- A directory with something in it. -/
def smallTree (entries : List (List String × FileTree.Entry)) : FileTree :=
  { here := ["work"]
    entries := [(["work"], .directory), (["work", "gen"], .directory)] ++ entries }

/-- The plan of one file. -/
def singlePlan : OutputPlan :=
  { dir := "gen", files := [(["a"], "x")], manifest := manifestOf [⟨"a", "x"⟩] }

/-- The plan of a file in a directory that could be a file of the same name. -/
def innerPlan : OutputPlan :=
  { dir := "gen", files := [(["a", "b"], "x")], manifest := manifestOf [⟨"a/b", "x"⟩] }

/-- A manifest that lists a file. -/
def listedSystem : FileSystem :=
  { tree := smallTree [(["work", "gen", "a"], .file "old"),
      (["work", "gen", ".gen-manifest.json"], .file (Manifest.text { files := ["a"] }))] }

/-- A listed file that is not planned is replaced by a directory. -/
theorem commit_listedSystem :
    ofFiles "gen" [⟨"a/b", "x"⟩] = .ok innerPlan ∧ listedSystem.tree.Sound ∧
      listedSystem.listed "gen" = [["a"]] ∧
      ∃ s', listedSystem.run innerPlan.commit = (.ok { removed := 1, written := 1 }, s') ∧
        s'.tree.lookup? ["work", "gen", "a"] = some .directory := by
  obtain ⟨ran, inside⟩ :
      (listedSystem.run innerPlan.commit).1 = .ok { removed := 1, written := 1 } ∧
        (listedSystem.run innerPlan.commit).2.tree.lookup? ["work", "gen", "a"] =
          some .directory := by
    decide +kernel
  exact ⟨ofFiles_of_placed "gen" rfl, .of_entries (by decide) rfl, by decide +kernel, _,
    run_eq_of_fst ran, inside⟩

/-- A file with two names. -/
def linkedSystem : FileSystem :=
  { tree := smallTree [(["work", "gen", "a"], .file "old"), (["work", "gen", "b"], .file "old")]
    numbers := [(["work", "gen", "a"], 0), (["work", "gen", "b"], 0)] }

/-- The other name of a planned file changes. -/
theorem commit_linkedSystem :
    ofFiles "gen" [⟨"a", "x"⟩] = .ok singlePlan ∧ linkedSystem.tree.Sound ∧
      linkedSystem.listed "gen" = [] ∧
      linkedSystem.tree.text? ["work", "gen", "b"] = some "old" ∧
      ∃ s', linkedSystem.run singlePlan.commit = (.ok { removed := 0, written := 1 }, s') ∧
        s'.tree.text? ["work", "gen", "b"] = some "x" := by
  obtain ⟨ran, text⟩ :
      (linkedSystem.run singlePlan.commit).1 = .ok { removed := 0, written := 1 } ∧
        (linkedSystem.run singlePlan.commit).2.tree.text? ["work", "gen", "b"] = some "x" := by
    decide +kernel
  exact ⟨ofFiles_of_placed "gen" rfl, .of_entries (by decide) rfl, by decide +kernel, rfl, _,
    run_eq_of_fst ran, text⟩

/-- A manifest that may be written and not be read. -/
def hiddenSystem : FileSystem :=
  { tree := smallTree [(["work", "gen", ".gen-manifest.json"], .file "")]
    rights := [(["work", "gen", ".gen-manifest.json"], { read := false })] }

/-- The manifest is not read back. -/
theorem commit_hiddenSystem :
    ofFiles "gen" [⟨"a", "x"⟩] = .ok singlePlan ∧ hiddenSystem.tree.Sound ∧
      ∃ s', hiddenSystem.run singlePlan.commit = (.ok { removed := 0, written := 1 }, s') ∧
        s'.manifest? "gen" = none := by
  obtain ⟨ran, unread⟩ :
      (hiddenSystem.run singlePlan.commit).1 = .ok { removed := 0, written := 1 } ∧
        (hiddenSystem.run singlePlan.commit).2.manifest? "gen" = none := by
    decide +kernel
  exact ⟨ofFiles_of_placed "gen" rfl, .of_entries (by decide) rfl, _, run_eq_of_fst ran, unread⟩

/-- A directory in which only the files that are there may be written. -/
def lockedSystem : FileSystem :=
  { tree := smallTree [(["work", "gen", "a"], .file "old"),
      (["work", "gen", ".gen-manifest.json"], .file "")]
    rights := [(["work", "gen"], { write := false })] }

/-- The second commit fails. -/
theorem commit_lockedSystem :
    ofFiles "gen" [⟨"a", "x"⟩] = .ok singlePlan ∧ lockedSystem.tree.Sound ∧
      ∃ s' s'', lockedSystem.run singlePlan.commit = (.ok { removed := 0, written := 1 }, s') ∧
        s'.run singlePlan.commit = (.error (.store .remove "gen/a" .refused), s'') := by
  obtain ⟨ran, again⟩ :
      (lockedSystem.run singlePlan.commit).1 = .ok { removed := 0, written := 1 } ∧
        ((lockedSystem.run singlePlan.commit).2.run singlePlan.commit).1 =
          .error (.store .remove "gen/a" .refused) := by
    decide +kernel
  exact ⟨ofFiles_of_placed "gen" rfl, .of_entries (by decide) rfl, _, _, run_eq_of_fst ran,
    run_eq_of_fst again⟩

/-- **Where exactly the right files are not left**: a listed file that is not planned is replaced by
a directory; another name of a planned file changes; the manifest is not read back; and the second
commit fails. -/
theorem commit_not_exact :
    (∃ s', ofFiles "gen" [⟨"a/b", "x"⟩] = .ok innerPlan ∧ listedSystem.tree.Sound ∧
        listedSystem.run innerPlan.commit = (.ok { removed := 1, written := 1 }, s') ∧
        ["a"] ∈ listedSystem.listed "gen" ∧ ["a"] ∉ innerPlan.files.map (·.1) ∧
        s'.tree.lookup? ["work", "gen", "a"] ≠ none) ∧
      ofFiles "gen" [⟨"a", "x"⟩] = .ok singlePlan ∧
      (∃ s', linkedSystem.tree.Sound ∧
        linkedSystem.run singlePlan.commit = (.ok { removed := 0, written := 1 }, s') ∧
        ["b"] ∉ linkedSystem.listed "gen" ∧ ["b"] ∉ singlePlan.files.map (·.1) ∧
        s'.tree.text? ["work", "gen", "b"] ≠ linkedSystem.tree.text? ["work", "gen", "b"]) ∧
      (∃ s', hiddenSystem.tree.Sound ∧
        hiddenSystem.run singlePlan.commit = (.ok { removed := 0, written := 1 }, s') ∧
        s'.manifest? "gen" ≠ some singlePlan.manifest) ∧
      ∃ s', lockedSystem.tree.Sound ∧
        lockedSystem.run singlePlan.commit = (.ok { removed := 0, written := 1 }, s') ∧
        ¬∃ summary s'', s'.run singlePlan.commit = (.ok summary, s'') := by
  obtain ⟨inner, soundListed, listed, t, ranListed, directory⟩ := commit_listedSystem
  obtain ⟨single, soundLinked, unlisted, old, u, ranLinked, text⟩ := commit_linkedSystem
  obtain ⟨-, soundHidden, v, ranHidden, unread⟩ := commit_hiddenSystem
  obtain ⟨-, soundLocked, w, w', ranLocked, failed⟩ := commit_lockedSystem
  refine ⟨⟨t, inner, soundListed, ranListed, ?_, by decide, ?_⟩, single,
    ⟨u, soundLinked, ranLinked, ?_, by decide, ?_⟩, ⟨v, soundHidden, ranHidden, ?_⟩,
    w, soundLocked, ranLocked, ?_⟩
  · rw [listed]
    exact List.mem_singleton_self _
  · rw [directory]
    nofun
  · rw [unlisted]
    exact List.not_mem_nil
  · rw [text, old]
    decide
  · rw [unread]
    nofun
  · rintro ⟨summary, s'', again⟩
    rw [failed] at again
    cases again

end FileSystem

end ClientGen
