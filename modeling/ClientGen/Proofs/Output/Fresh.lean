import ClientGen.Proofs.Output.Repeating

/-!
# Committing into an empty directory

A plan is checked path by path: each is below the directory, and no two are the same. That does not
keep a path from being the beginning of another one, and a file cannot be a directory too. Where no
path is a beginning of another one, nothing else can go wrong in an empty directory.

* `OutputPlan.Unnested` — no path of a plan is the beginning of another one.
* `OutputPlan.Permits` — a tree permits each file of a plan on its own.
* `FileTree.planted` — a tree with some files, and all directories above them.
* `commit_fresh_iff` — a commit into an empty directory succeeds exactly if its plan is unnested.

The files are written one after the other, and each finds those before it. That they find nothing
else in their way is seen from the tree that holds all of them: every tree on the way to it is a
part of it (`FileTree.Part`).
-/

namespace ClientGen

open ClientGen.Path

namespace FileTree

/-! ## A tree with some files -/

/-- The tree with files below a place, and the directories above them. -/
def planted (base : List String) (files : List (List String × String)) (t : FileTree) : FileTree :=
  { t with entries :=
      files.map (fun file => (base ++ file.1, .file file.2)) ++
        ((OutputPlan.emptied (files.map (·.1))).map fun names => (base ++ names, .directory)) ++
        t.entries }

/-- **Files can be planted** in an empty directory, if none is in the way of another one. -/
structure Plantable (base : List String) (files : List (List String × String)) (t : FileTree) :
    Prop where
  /-- The tree can be. -/
  sound : t.Sound
  /-- There is a directory. -/
  directory : t.lookup? base = some .directory
  /-- Nothing is in it. -/
  empty : ∀ name, t.lookup? (base ++ [name]) = none
  /-- The files have proper names. -/
  isName : ∀ file ∈ files, file.1 ≠ [] ∧ ∀ name ∈ file.1, IsName name
  /-- No names stand twice. -/
  distinct : (files.map (·.1)).Nodup
  /-- No names are the beginning of others. -/
  unnested : ∀ a ∈ files.map (·.1), ∀ b ∈ files.map (·.1), a <+: b → a = b

theorem lookup_eq_some_of_mem {α : Type} {entries : List (List String × α)}
    {entry : List String × α} (member : entry ∈ entries)
    (same : ∀ other ∈ entries, other.1 = entry.1 → other = entry) :
    entries.lookup entry.1 = some entry.2 := by
  cases found : entries.lookup entry.1 with
  | none =>
      have absent := List.lookup_eq_none_iff.mp found entry member
      simp at absent
  | some value =>
      obtain ⟨before, after, split, -⟩ := List.lookup_eq_some_iff.mp found
      have inside : (entry.1, value) ∈ entries := split ▸ by simp
      rw [← same _ inside rfl]

namespace Plantable

variable {base : List String} {files : List (List String × String)} {t : FileTree}

/-- Nothing stands below an empty directory. -/
theorem lookup?_below (plantable : Plantable base files t) {names : List String}
    (nonempty : names ≠ []) : t.lookup? (base ++ names) = none := by
  obtain ⟨name, rest, rfl⟩ := List.exists_cons_of_ne_nil nonempty
  by_contra present
  rw [List.append_cons] at present
  by_cases last : rest = []
  · rw [last, List.append_nil] at present
    exact present (plantable.empty name)
  · have directory := plantable.sound.directory_of_append present last
    rw [plantable.empty name] at directory
    cases directory

/-- The planted files stand. -/
theorem lookup?_file (plantable : Plantable base files t) {file : List String × String}
    (member : file ∈ files) :
    (t.planted base files).lookup? (base ++ file.1) = some (.file file.2) := by
  have inner : base ++ file.1 ≠ [] := by simp [(plantable.isName file member).1]
  have found := lookup_eq_some_of_mem
    (List.mem_map_of_mem (f := fun file => (base ++ file.1, Entry.file file.2)) member) <| by
      rintro _ listed same
      obtain ⟨other, inside, rfl⟩ := List.mem_map.mp listed
      rw [List.inj_on_of_nodup_map plantable.distinct inside member (List.append_cancel_left same)]
  rw [lookup?, if_neg inner, planted, List.append_assoc, List.lookup_append, found]
  rfl

/-- The directories above planted files stand. -/
theorem lookup?_directory (plantable : Plantable base files t) {names rest : List String}
    (nonempty : names ≠ []) (proper : rest ≠ []) (above : names ++ rest ∈ files.map (·.1)) :
    (t.planted base files).lookup? (base ++ names) = some .directory := by
  have inner : base ++ names ≠ [] := by simp [nonempty]
  have noFile : (files.map fun file => (base ++ file.1, Entry.file file.2)).lookup
      (base ++ names) = none := by
    refine lookup_eq_none_of_forall fun entry listed same => proper ?_
    obtain ⟨file, inside, rfl⟩ := List.mem_map.mp listed
    have inPlaces : names ∈ files.map (·.1) :=
      List.append_cancel_left same ▸ List.mem_map_of_mem (f := (·.1)) inside
    exact List.self_eq_append_right.mp
      (plantable.unnested names inPlaces _ above (List.prefix_append ..))
  have listed : names ∈ OutputPlan.emptied (files.map (·.1)) :=
    OutputPlan.mem_emptied.mpr ⟨nonempty, rest, proper, above⟩
  have found := lookup_eq_some_of_mem
    (List.mem_map_of_mem (f := fun names => (base ++ names, Entry.directory)) listed) <| by
      rintro _ listed same
      obtain ⟨other, -, rfl⟩ := List.mem_map.mp listed
      rw [List.append_cancel_left same]
  rw [lookup?, if_neg inner, planted, List.append_assoc, List.lookup_append, noFile,
    Option.none_or, List.lookup_append, found]
  rfl

/-- Every place is on the way to a planted file, or it is as it was. -/
theorem covered_or_same (plantable : Plantable base files t) (place : List String) :
    (∃ names rest, names ≠ [] ∧ names ++ rest ∈ files.map (·.1) ∧ place = base ++ names) ∨
      (t.planted base files).lookup? place = t.lookup? place := by
  refine or_iff_not_imp_left.mpr fun uncovered => ?_
  have noFile : (files.map fun file => (base ++ file.1, Entry.file file.2)).lookup place =
      none := by
    refine lookup_eq_none_of_forall fun entry listed same => uncovered ?_
    obtain ⟨file, inside, rfl⟩ := List.mem_map.mp listed
    refine ⟨file.1, [], (plantable.isName file inside).1, ?_, same.symm⟩
    exact (List.append_nil _).symm ▸ List.mem_map_of_mem (f := (·.1)) inside
  have noDirectory : ((OutputPlan.emptied (files.map (·.1))).map fun names =>
      (base ++ names, Entry.directory)).lookup place = none := by
    refine lookup_eq_none_of_forall fun entry listed same => uncovered ?_
    obtain ⟨names, inside, rfl⟩ := List.mem_map.mp listed
    obtain ⟨nonempty, rest, -, above⟩ := OutputPlan.mem_emptied.mp inside
    exact ⟨names, rest, nonempty, above, same.symm⟩
  simp only [lookup?, planted, List.lookup_append, noFile, noDirectory, Option.none_or]

/-- What stood stands still. -/
theorem lookup?_of_some (plantable : Plantable base files t) {place : List String} {entry : Entry}
    (found : t.lookup? place = some entry) :
    (t.planted base files).lookup? place = some entry := by
  rcases plantable.covered_or_same place with ⟨names, _, nonempty, -, rfl⟩ | same
  · rw [plantable.lookup?_below nonempty] at found
    cases found
  · rw [same, found]

theorem grown (plantable : Plantable base files t) : Grown t (t.planted base files) :=
  ⟨rfl, rfl, fun _ directory => plantable.lookup?_of_some directory⟩

/-- **The tree with planted files can be.** -/
theorem sound_planted (plantable : Plantable base files t) : (t.planted base files).Sound := by
  refine ⟨fun place inner present => ?_, plantable.lookup?_of_some plantable.sound.home⟩
  rcases plantable.covered_or_same place with ⟨names, rest, nonempty, listed, rfl⟩ | same
  · obtain ⟨front, last, rfl⟩ := (List.eq_nil_or_concat names).resolve_left nonempty
    rw [List.concat_eq_append] at listed ⊢
    rw [← List.append_assoc, List.dropLast_concat]
    by_cases outermost : front = []
    · rw [outermost, List.append_nil]
      exact plantable.lookup?_of_some plantable.directory
    · rw [List.append_assoc] at listed
      exact plantable.lookup?_directory outermost (by simp) listed
  · rw [same] at present
    exact plantable.lookup?_of_some (plantable.sound.parent place inner present)

end Plantable

/-! ## Names that are not too long -/

/-- Names can be followed if they are not too long and nothing but directories is on the way. -/
theorem foldlM_names {t : FileTree} {place names : List String}
    (all : ∀ name ∈ names, IsName name) (short : ∀ name ∈ names, isLongName name = false)
    (directories : ∀ front rest, rest ≠ [] → names = front ++ rest →
      t.lookup? (place ++ front) = some .directory) :
    (names.map String.toList).foldlM t.step place = .ok (place ++ names) := by
  induction names generalizing place with
  | nil => rw [List.append_nil]; rfl
  | cons name names ih =>
      rw [List.forall_mem_cons] at all short
      have directory := directories [] (name :: names) (List.cons_ne_nil _ _) rfl
      rw [List.append_nil] at directory
      rw [List.map_cons, List.foldlM_cons, step_name directory all.1, short.1,
        if_neg Bool.false_ne_true, List.append_cons place name names]
      refine ih all.2 short.2 fun front rest proper split => ?_
      rw [← List.append_cons]
      exact directories (name :: front) rest proper (by rw [split, List.cons_append])

/-- Names that can be followed are not too long. -/
theorem short_of_foldlM {t : FileTree} {place last names : List String}
    (all : ∀ name ∈ names, IsName name)
    (walked : (names.map String.toList).foldlM t.step place = .ok last) :
    ∀ name ∈ names, isLongName name = false := by
  induction names generalizing place with
  | nil => nofun
  | cons name names ih =>
      rw [List.forall_mem_cons] at all ⊢
      rw [List.map_cons, List.foldlM_cons] at walked
      obtain ⟨next, stepped, walked⟩ := bind_eq_ok_iff.mp walked
      refine ⟨?_, ih all.2 walked⟩
      rw [step_name (step_eq_ok stepped).1 all.1] at stepped
      cases long : isLongName name with
      | false => rfl
      | true =>
          rw [long] at stepped
          cases stepped

namespace Plantable

variable {base : List String} {files : List (List String × String)} {t : FileTree}

/-- The path of a planted file leads to it, if its text and its names are not too long. -/
theorem locate_planted (plantable : Plantable base files t) {dir : String}
    (followed : t.follow dir = .ok base) {file : List String × String} (member : file ∈ files)
    (fits : Fits (OutputPlan.target dir file.1))
    (short : ∀ name ∈ file.1, isLongName name = false) :
    (t.planted base files).locate (OutputPlan.target dir file.1) = .ok (base ++ file.1) := by
  obtain ⟨nonempty, all⟩ := plantable.isName file member
  have reached : (t.planted base files).follow dir = .ok base := plantable.grown.route followed
  rw [OutputPlan.target, locate_join _ dir nonempty all fits, reached]
  refine foldlM_names all short fun front rest proper split => ?_
  by_cases outermost : front = []
  · rw [outermost, List.append_nil]
    exact plantable.lookup?_of_some plantable.directory
  · refine plantable.lookup?_directory outermost proper ?_
    exact split ▸ List.mem_map_of_mem (f := (·.1)) member

/-- Only planted files are new. -/
theorem text?_other (plantable : Plantable base files t) {place : List String}
    (other : ∀ file ∈ files, place ≠ base ++ file.1) :
    (t.planted base files).text? place = t.text? place := by
  rcases plantable.covered_or_same place with ⟨names, rest, nonempty, listed, rfl⟩ | same
  · have proper : rest ≠ [] := by
      rintro rfl
      obtain ⟨file, inside, same⟩ := List.mem_map.mp listed
      rw [List.append_nil] at same
      exact other file inside (by rw [same])
    rw [text?_eq_none_of_directory (plantable.lookup?_directory nonempty proper listed), text?,
      plantable.lookup?_below nonempty]
  · exact text?_congr same

/-- A tree in which only directories are missing is on the way to the planted files. -/
theorem part (plantable : Plantable base files t) {before : FileTree} (sound : before.Sound)
    (built : Built before t) {dir : String} (followed : t.follow dir = .ok base) :
    Part (t.planted base files) dir before := by
  refine ⟨sound, ⟨built.here.symm, Nat.le_of_eq built.gone, fun place => ?_⟩, ?_⟩
  · rcases built.place place with same | ⟨absent, -⟩
    · cases found : before.lookup? place with
      | none => exact .inl rfl
      | some entry =>
          rw [found] at same
          exact .inr (plantable.lookup?_of_some same).symm
    · exact .inl absent
  · obtain ⟨found, started, -⟩ := bind_eq_ok_iff.mp followed
    rw [start, built.here, built.gone] at started
    exact ⟨found, started⟩

end Plantable

end FileTree

namespace OutputPlan

variable {plan : OutputPlan} {t made : FileTree}

/-! ## Plans for an empty directory -/

/-- **No path of a plan is the beginning of another one**, the path of the manifest included. -/
def Unnested (plan : OutputPlan) : Prop :=
  ∀ a ∈ plan.outcomes.map (·.1), ∀ b ∈ plan.outcomes.map (·.1), a <+: b → a = b

/-- **A tree permits a plan**: the directory can be made, it is empty then, and each file and the
manifest can be written there on its own. -/
structure Permits (plan : OutputPlan) (t made : FileTree) : Prop where
  /-- The directory can be made, or it is there. -/
  directory : t.run (attempt .createDirectory plan.dir (FileStore.makeDirectories plan.dir)) =
    (.ok (), made)
  /-- Nothing is in it. -/
  empty : ∀ name, made.lookup? (destination t.here plan.dir ++ [name]) = none
  /-- Each file can be written. -/
  file : ∀ file ∈ plan.files, ∃ t', made.run (writeFile (target plan.dir file.1) file.2) =
    (.ok (), t')
  /-- The manifest can be written. -/
  manifest : ∃ t', made.run (attempt .write (join plan.dir Manifest.fileName)
    (FileStore.writeText (join plan.dir Manifest.fileName) plan.manifest.text)) = (.ok (), t')

namespace Permits

theorem built (permits : plan.Permits t made) (sound : t.Sound) :
    made.Sound ∧ FileTree.Built t made :=
  built_of_attempt sound permits.directory

/-- The path leads to the directory. -/
theorem follow_dir (permits : plan.Permits t made) (sound : t.Sound) :
    made.follow plan.dir = .ok (destination t.here plan.dir) ∧
      made.lookup? (destination t.here plan.dir) = some .directory := by
  obtain ⟨soundMade, built⟩ := permits.built sound
  obtain ⟨t', written⟩ := permits.manifest
  have done := attempt_eq_ok written
  rw [FileTree.run_writeText] at done
  obtain ⟨located, -, -, parent, -⟩ := FileTree.writeText_eq_ok soundMade (changed_eq_ok done)
  have one := List.cons_ne_nil Manifest.fileName []
  have proper : ∀ name ∈ [Manifest.fileName], IsName name :=
    List.forall_mem_singleton.mpr isName_fileName
  rw [← target_fileName, destination_target made.here plan.dir one proper,
    List.dropLast_concat] at parent
  rw [← built.here]
  exact ⟨follow_of_locate_target one proper located, parent⟩

/-- The names are not too long, and neither are the texts of the paths. -/
theorem short (permits : plan.Permits t made) (valid : plan.Valid) (sound : t.Sound) :
    ∀ file ∈ plan.outcomes, Fits (target plan.dir file.1) ∧
      ∀ name ∈ file.1, FileTree.isLongName name = false := by
  have short_of_wrote {names : List String} {text : String} {t' : FileTree} (nonempty : names ≠ [])
      (all : ∀ name ∈ names, IsName name) (wrote : Wrote made t' (target plan.dir names) text) :
      Fits (target plan.dir names) ∧ ∀ name ∈ names, FileTree.isLongName name = false := by
    have fits := (FileTree.follow_of_locate wrote.located).1
    refine ⟨fits, ?_⟩
    have located := wrote.located
    rw [target, FileTree.locate_join t' plan.dir nonempty all fits] at located
    obtain ⟨_, -, walked⟩ := bind_eq_ok_iff.mp located
    exact FileTree.short_of_foldlM all walked
  have soundMade := (permits.built sound).1
  refine List.forall_mem_cons.mpr ⟨?_, fun file member => ?_⟩
  · obtain ⟨t', written⟩ := permits.manifest
    exact short_of_wrote (List.cons_ne_nil _ _) (List.forall_mem_singleton.mpr isName_fileName)
      (wrote_of_attempt soundMade written)
  · obtain ⟨t', written⟩ := permits.file file member
    obtain ⟨nonempty, all⟩ := valid.isName file member
    exact short_of_wrote nonempty all (writeFile_eq_ok soundMade written)

/-- The files of an unnested plan can be planted. -/
theorem plantable (permits : plan.Permits t made) (valid : plan.Valid) (sound : t.Sound)
    (unnested : plan.Unnested) :
    FileTree.Plantable (destination t.here plan.dir) plan.outcomes made :=
  { sound := (permits.built sound).1
    directory := (permits.follow_dir sound).2
    empty := permits.empty
    isName := valid.isName_outcomes
    distinct := valid.distinct_outcomes
    unnested }

/-- There is no manifest yet. -/
theorem manifest?_eq_none (permits : plan.Permits t made) (sound : t.Sound) :
    t.manifest? plan.dir = none := by
  cases read : t.manifest? plan.dir with
  | none => rfl
  | some manifest =>
      obtain ⟨-, text, stands, -⟩ := locate_of_manifest? read
      rw [← (permits.built sound).2.text?_eq, FileTree.text?, permits.empty] at stands
      cases stands

/-- **The tree with all files is the one that a commit leaves behind.** -/
theorem committed (permits : plan.Permits t made) (valid : plan.Valid) (sound : t.Sound)
    (unnested : plan.Unnested) :
    plan.Committed (t.listed plan.dir) t
      (made.planted (destination t.here plan.dir) plan.outcomes) := by
  have plantable := permits.plantable valid sound unnested
  have built := (permits.built sound).2
  have short := permits.short valid sound
  have followed := (permits.follow_dir sound).1
  have listed := FileTree.listed_of_none (permits.manifest?_eq_none sound)
  have first : ([Manifest.fileName], plan.manifest.text) ∈ plan.outcomes := List.mem_cons_self ..
  have others {file : List String × String} (member : file ∈ plan.files) :
      file ∈ plan.outcomes := List.mem_cons_of_mem _ member
  refine
    { sound := plantable.sound_planted, here := built.here
      located := fun file member => ?located, locatedManifest := ?locatedManifest
      file := fun file member => ?file, manifest := ?manifest
      removed := fun names member => ?removed, kept := fun place _ free unplanned => ?kept }
  case located =>
    obtain ⟨fits, short⟩ := short file (others member)
    exact plantable.locate_planted followed (others member) fits short
  case locatedManifest =>
    obtain ⟨fits, short⟩ := short _ first
    exact plantable.locate_planted followed first fits short
  case file => exact FileTree.text?_eq_some.mpr (plantable.lookup?_file (others member))
  case manifest => exact FileTree.text?_eq_some.mpr (plantable.lookup?_file first)
  case removed =>
    rw [listed] at member
    cases member
  case kept =>
    rw [plantable.text?_other (List.forall_mem_cons.mpr ⟨free, unplanned⟩), built.text?_eq]

end Permits

/-! ## Committing -/

/-- **An unnested plan is committed.** -/
theorem commit_of_unnested (valid : plan.Valid) (sound : t.Sound) (permits : plan.Permits t made)
    (unnested : plan.Unnested) : ∃ summary t', t.run plan.commit = (.ok summary, t') := by
  have plantable := permits.plantable valid sound unnested
  have committed := permits.committed valid sound unnested
  have part := plantable.part sound (permits.built sound).2 (permits.follow_dir sound).1
  have cleaning : t.run (clean plan.dir) = (.ok 0, t) := by
    rw [run_clean, permits.manifest?_eq_none sound]
  by_cases nothing : plan.files = []
  -- without files, the directory has not been made yet
  · have writing : t.run (writeAll plan.dir plan.files) = (.ok (), t) := by
      rw [nothing]
      rfl
    obtain ⟨last, finishing⟩ := permits.manifest
    refine ⟨{ removed := 0, written := plan.files.length }, last, ?_⟩
    rw [commit, FileTree.run_bind_of_ok cleaning, FileTree.run_bind_of_ok writing,
      FileTree.run_bind_of_ok permits.directory, FileTree.run_bind_of_ok finishing]
    rfl
  · obtain ⟨wrote, writing, partWrote⟩ := writeAll_repeats
      (fun file member => ⟨valid.isName file member, _, committed.present file member⟩) part
    obtain ⟨followed, directory⟩ := follow_dir_of_rewritten valid committed part
      (fun none => absurd none nothing) writing
    obtain ⟨making, last, finishing⟩ := finish_repeats committed partWrote followed directory
    refine ⟨{ removed := 0, written := plan.files.length }, last, ?_⟩
    rw [commit, FileTree.run_bind_of_ok cleaning, FileTree.run_bind_of_ok writing,
      FileTree.run_bind_of_ok making, FileTree.run_bind_of_ok finishing]
    rfl

/-- **A plan that is committed is unnested**: no file stands where a directory has to be. -/
theorem Committed.unnested {t' : FileTree} {listed : List (List String)}
    (committed : plan.Committed listed t t') :
    plan.Unnested := by
  have stands : ∀ file ∈ plan.outcomes,
      t'.lookup? (destination t.here plan.dir ++ file.1) = some (.file file.2) :=
    List.forall_mem_cons.mpr ⟨FileTree.text?_eq_some.mp committed.manifest,
      fun file member => FileTree.text?_eq_some.mp (committed.file file member)⟩
  rintro a inA b inB ⟨rest, rfl⟩
  obtain ⟨first, member, rfl⟩ := List.mem_map.mp inA
  obtain ⟨second, member', same⟩ := List.mem_map.mp inB
  by_contra differ
  have proper : rest ≠ [] := by
    rintro rfl
    exact differ (List.append_nil _).symm
  have present := stands second member'
  rw [same, ← List.append_assoc] at present
  have directory := committed.sound.directory_of_append (by rw [present]; nofun) proper
  rw [stands first member] at directory
  cases directory

/-- **What is below the directory after a commit**: the manifest and the files, and no other
file. -/
theorem Committed.text?_iff {t' : FileTree}
    (committed : plan.Committed (t.listed plan.dir) t t') (valid : plan.Valid) (sound : t.Sound)
    (permits : plan.Permits t made) {names : List String} {text : String} :
    t'.text? (destination t.here plan.dir ++ names) = some text ↔
      (names, text) ∈ plan.outcomes := by
  have plantable := permits.plantable valid sound committed.unnested
  have stands : ∀ file ∈ plan.outcomes,
      t'.text? (destination t.here plan.dir ++ file.1) = some file.2 :=
    List.forall_mem_cons.mpr ⟨committed.manifest, committed.file⟩
  constructor
  · intro found
    by_cases planned : names ∈ plan.outcomes.map (·.1)
    · obtain ⟨file, member, rfl⟩ := List.mem_map.mp planned
      rw [stands file member, Option.some.injEq] at found
      rwa [← found]
    · -- a file that is not planned would have been in the empty directory
      obtain ⟨free, others⟩ := List.forall_mem_cons.mp
        (append_ne_of_notMem (destination t.here plan.dir) planned)
      have unlisted : ∀ listed ∈ t.listed plan.dir, destination t.here plan.dir ++ names ≠
          destination t.here plan.dir ++ listed := by
        rw [FileTree.listed_of_none (permits.manifest?_eq_none sound)]
        nofun
      rw [committed.kept _ unlisted free others, ← (permits.built sound).2.text?_eq] at found
      have file := FileTree.text?_eq_some.mp found
      by_cases outermost : names = []
      · rw [outermost, List.append_nil, plantable.directory] at file
        cases file
      · rw [plantable.lookup?_below outermost] at file
        cases file
  · exact stands (names, text)

/-- **Which plans can be written into an empty directory.** Where the directory can be made, is
empty then, and each file and the manifest can be written there on its own, the commit of an
accepted plan succeeds exactly if no path is the beginning of another one. It has removed nothing
then, the planned files and the manifest are below the directory and no other file, and every file
elsewhere is as it was. -/
theorem commit_fresh_iff {dir : String} {files : List SourceFile}
    (planned : ofFiles dir files = .ok plan) (sound : t.Sound) (permits : plan.Permits t made) :
    ((∃ summary t', t.run plan.commit = (.ok summary, t')) ↔ plan.Unnested) ∧
      ∀ summary t', t.run plan.commit = (.ok summary, t') →
        summary = { removed := 0, written := files.length } ∧
          (∀ names text, t'.text? (destination t.here dir ++ names) = some text ↔
            names = [Manifest.fileName] ∧ text = plan.manifest.text ∨
              ∃ file ∈ files, contained? file.path = some names ∧ text = file.contents) ∧
          ∀ place, ¬destination t.here dir <+: place → t'.text? place = t.text? place := by
  have valid := valid_ofFiles planned
  obtain ⟨rfl, -, placing⟩ := ofFiles_eq_ok planned
  obtain ⟨all, -, -⟩ := placed_eq_ok_iff.mp placing
  refine ⟨⟨?_, commit_of_unnested valid sound permits⟩, fun summary t' done => ?_⟩
  · rintro ⟨summary, t', done⟩
    exact (commit_eq_ok valid sound done).1.unnested
  obtain ⟨committed, written, removed⟩ := commit_eq_ok valid sound done
  have unlisted := FileTree.listed_of_none (permits.manifest?_eq_none sound)
  refine ⟨?_, fun names text => ?_, fun place outside => ?_⟩
  · obtain ⟨_, _⟩ := summary
    rw [unlisted] at removed
    exact congr (congrArg Summary.mk removed) (written.trans all.length_eq.symm)
  · rw [committed.text?_iff valid sound permits, outcomes, List.mem_cons, Prod.mk.injEq]
    refine or_congr_right ⟨fun member => ?_, ?_⟩
    · obtain ⟨file, inFiles, places, same⟩ := exists_related_of_mem all.flip member
      exact ⟨file, inFiles, places, same⟩
    · rintro ⟨file, inFiles, places, rfl⟩
      obtain ⟨⟨_, _⟩, member, found, same⟩ := exists_related_of_mem all inFiles
      rw [places, Option.some.injEq] at found
      dsimp only at found same
      rwa [found, ← same]
  · have apart (names : List String) : place ≠ destination t.here plan.dir ++ names := by
      rintro rfl
      exact outside (List.prefix_append ..)
    refine committed.kept place ?_ (apart _) fun file _ => apart file.1
    exact fun names _ => apart names

/-! ## A file where a directory has to be -/

/-- A tree without the directory. -/
def bareTree : FileTree :=
  { here := ["work"], entries := [(["work"], .directory)] }

/-- The same with the directory. -/
def madeTree : FileTree :=
  bareTree.put ["work", "sdk"] .directory

theorem sound_bareTree : bareTree.Sound :=
  .of_entries (by decide) rfl

theorem exists_eq_of_fst {α β : Type} {x : Except OutputError α × β} {a : α} (same : x.1 = .ok a) :
    ∃ b, x = (.ok a, b) :=
  ⟨x.2, by rw [← same]⟩

/-- What has to be seen of a plan, so that the tree permits it. -/
theorem permits_bareTree {plan : OutputPlan} (dir : plan.dir = "sdk")
    (file : ∀ file ∈ plan.files, (madeTree.run (writeFile (target "sdk" file.1) file.2)).1 = .ok ()) :
    plan.Permits bareTree madeTree := by
  have base : destination bareTree.here "sdk" = ["work", "sdk"] := rfl
  have located : madeTree.locate (join "sdk" Manifest.fileName) =
      .ok ["work", "sdk", ".gen-manifest.json"] := rfl
  have written := FileTree.writeText_of_locate located (by decide) plan.manifest.text
  refine
    { directory := ?_, empty := fun name => ?_
      file := fun found member => dir ▸ exists_eq_of_fst (file found member), manifest := ?_ }
  · rw [dir]
    rfl
  · rw [dir, base]
    exact FileTree.lookup?_of_isEmptyAt (by decide) name
  · rw [dir]
    refine ⟨madeTree.put ["work", "sdk", ".gen-manifest.json"] (.file plan.manifest.text), ?_⟩
    rw [FileTree.run_attempt, FileTree.run_writeText, written]
    rfl

/-- A file, and another one in a directory of the same name. -/
def nestedFiles : List SourceFile :=
  [⟨"a", "x"⟩, ⟨"a/b", "y"⟩]

/-- Their plan. -/
def nestedPlan : OutputPlan :=
  { dir := "sdk", files := [(["a"], "x"), (["a", "b"], "y")], manifest := manifestOf nestedFiles }

/-- The plan is accepted, and each file can be written on its own, but both of them cannot. -/
theorem not_commit_nestedPlan :
    ofFiles "sdk" nestedFiles = .ok nestedPlan ∧ bareTree.Sound ∧
      nestedPlan.Permits bareTree madeTree ∧
      ¬∃ summary t', bareTree.run nestedPlan.commit = (.ok summary, t') := by
  have failing : (bareTree.run nestedPlan.commit).1 =
      .error (.store .createDirectory "sdk/a" .refused) := by decide +kernel
  refine ⟨ofFiles_of_placed "sdk" rfl, sound_bareTree, permits_bareTree rfl ?_, ?_⟩
  · exact List.forall_mem_cons.mpr ⟨rfl, List.forall_mem_singleton.mpr rfl⟩
  rintro ⟨summary, t', done⟩
  rw [done] at failing
  cases failing

/-- Two files side by side. -/
def freshFiles : List SourceFile :=
  [⟨"client/pets.ts", "x"⟩, ⟨"index.ts", "y"⟩]

/-- Their plan. -/
def freshPlan : OutputPlan :=
  { dir := "sdk", files := [(["client", "pets.ts"], "x"), (["index.ts"], "y")]
    manifest := manifestOf freshFiles }

/-- Both files are written into a new directory. -/
theorem commit_freshPlan :
    ofFiles "sdk" freshFiles = .ok freshPlan ∧ bareTree.Sound ∧
      freshPlan.Permits bareTree madeTree ∧ freshPlan.Unnested ∧
      ∃ t', bareTree.run freshPlan.commit = (.ok { removed := 0, written := 2 }, t') ∧
        t'.text? (destination bareTree.here "sdk" ++ ["client", "pets.ts"]) = some "x" := by
  have planned : ofFiles "sdk" freshFiles = .ok freshPlan :=
    ofFiles_of_placed "sdk" rfl
  have permits : freshPlan.Permits bareTree madeTree :=
    permits_bareTree rfl (List.forall_mem_cons.mpr ⟨rfl, List.forall_mem_singleton.mpr rfl⟩)
  have unnested : freshPlan.Unnested := by
    unfold Unnested
    decide
  obtain ⟨succeeds, leaves⟩ := commit_fresh_iff planned sound_bareTree permits
  obtain ⟨summary, t', done⟩ := succeeds.mpr unnested
  obtain ⟨rfl, texts, -⟩ := leaves summary t' done
  refine ⟨planned, sound_bareTree, permits, unnested, t', done, ?_⟩
  exact (texts _ _).mpr (.inr ⟨⟨"client/pets.ts", "x"⟩, List.mem_cons_self .., rfl, rfl⟩)

end OutputPlan

end ClientGen
