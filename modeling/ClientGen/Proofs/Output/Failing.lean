import ClientGen.Proofs.Output.Committing

/-!
# What a failed commit leaves behind

Nothing is undone when a commit fails: what has been cleaned is gone, and what has been written
stands. The new manifest is written last, so it never lists these files. They are found again only
if the old manifest lists them and has survived the cleaning.

* `OutputPlan.written` — the files that a commit writes before it fails.
* `OutputPlan.Failed` — the tree that a failed commit leaves behind, file by file.
* `commit_eq_error` — every commit that fails leaves such a tree.
* `OutputPlan.OrphanFree` — every file that is new is listed in the manifest on disk.
* `orphanFree_iff` — when a failed commit leaves no other files.
-/

namespace ClientGen

open ClientGen.Path

/-- The names that the manifest at a place lists, without the path that leads there. -/
def FileTree.listedAt (t : FileTree) (base : List String) : List (List String) :=
  ((t.text? (base ++ [Manifest.fileName])).bind Manifest.parse?).elim [] OutputPlan.listedNames

theorem FileTree.listedAt_congr {t t' : FileTree} {base : List String}
    (same : t'.text? (base ++ [Manifest.fileName]) = t.text? (base ++ [Manifest.fileName])) :
    t'.listedAt base = t.listedAt base := by
  rw [listedAt, same, listedAt]

/-- Where the manifest can be read, it lists the same names. -/
theorem FileTree.listedAt_of_manifest? {t : FileTree} {dir : String} {manifest : Manifest}
    (read : t.manifest? dir = some manifest) :
    t.listedAt (destination t.here dir) = t.listed dir := by
  obtain ⟨-, text, stands, parsed⟩ := OutputPlan.locate_of_manifest? read
  rw [listed_of_some read, listedAt, stands, Option.bind_some, parsed]
  rfl

namespace OutputPlan

/-! ## Steps that fail -/

/-- A request that fails changes nothing. -/
theorem changed_eq_error {t t' : FileTree} {result : Except FileFault FileTree} {fault : FileFault}
    (failed : FileStore.changed t result = (.error fault, t')) : t' = t := by
  cases result with
  | error _ =>
      cases failed
      rfl
  | ok u => cases failed

theorem writeText_eq_error {t t' : FileTree} {path text : String} {e : OutputError}
    (failed : t.run (attempt .write path (FileStore.writeText path text)) = (.error e, t')) :
    t' = t := by
  rw [FileTree.run_attempt, FileTree.run_writeText] at failed
  rcases changed : FileStore.changed t (t.writeText path text) with ⟨fault | _, u⟩ <;>
    rw [changed] at failed <;> cases failed
  exact changed_eq_error changed

/-- **A file that cannot be written** leaves some of the directories above it. -/
theorem writeFile_eq_error {t t' : FileTree} (sound : t.Sound) {path text : String}
    {e : OutputError} (failed : t.run (writeFile path text) = (.error e, t')) :
    t'.Sound ∧ FileTree.Built t t' := by
  unfold writeFile at failed
  split at failed
  · rename_i parent _
    have built := built_makeDirectories sound parent
    rcases FileTree.run_bind_cases t _ _ with ⟨_, _, made, whole⟩ | ⟨_, _, made, whole⟩
    · rw [whole] at failed
      cases failed
      rwa [made] at built
    · rw [whole] at failed
      rw [made] at built
      rwa [writeText_eq_error failed]
  · rw [writeText_eq_error failed]
    exact ⟨sound, .refl t⟩

/-! ## Writing that stops -/

/-- The files that are written below a directory, one after the other, until one cannot be
written. -/
def writtenFrom (dir : String) :
    FileTree → List (List String × String) → List (List String × String)
  | _, [] => []
  | t, file :: files =>
    let outcome := t.run (writeFile (target dir file.1) file.2)
    if outcome.1.isOk then file :: writtenFrom dir outcome.2 files else []

theorem writtenFrom_of_error {dir text : String} {names : List String} {t t' : FileTree}
    {e : OutputError} (failed : t.run (writeFile (target dir names) text) = (.error e, t'))
    (files : List (List String × String)) : writtenFrom dir t ((names, text) :: files) = [] := by
  simp only [writtenFrom, failed, Except.isOk, Except.toBool, Bool.false_eq_true, if_false]

theorem writtenFrom_of_ok {dir text : String} {names : List String} {t t' : FileTree}
    (written : t.run (writeFile (target dir names) text) = (.ok (), t'))
    (files : List (List String × String)) :
    writtenFrom dir t ((names, text) :: files) = (names, text) :: writtenFrom dir t' files := by
  simp only [writtenFrom, written, Except.isOk, Except.toBool, if_true]

theorem writtenFrom_isPrefix (dir : String) (files : List (List String × String)) (t : FileTree) :
    writtenFrom dir t files <+: files := by
  induction files generalizing t with
  | nil => exact List.prefix_refl _
  | cons file files ih =>
      simp only [writtenFrom]
      split
      · exact (List.prefix_cons_inj file).mpr (ih _)
      · exact List.nil_prefix

/-- Where all files are written, these are all files. -/
theorem writtenFrom_of_writeAll {dir : String} {files : List (List String × String)}
    {t t' : FileTree} (written : t.run (writeAll dir files) = (.ok (), t')) :
    writtenFrom dir t files = files := by
  induction files generalizing t with
  | nil => rfl
  | cons file files ih =>
      obtain ⟨_, middle, first, rest⟩ := FileTree.run_bind_eq_ok written
      rw [writtenFrom_of_ok first, ih rest]

/-- **Writing stops at one file**: those before it are written, and those after it are not tried. -/
theorem writeAll_eq_error {dir : String} {files : List (List String × String)} {t t' : FileTree}
    {e : OutputError} (failed : t.run (writeAll dir files) = (.error e, t')) :
    ∃ middle path text, t.run (writeAll dir (writtenFrom dir t files)) = (.ok (), middle) ∧
      middle.run (writeFile path text) = (.error e, t') := by
  induction files generalizing t with
  | nil => cases failed
  | cons file files ih =>
      obtain ⟨names, text⟩ := file
      rcases FileTree.run_bind_cases t (writeFile (target dir names) text)
          fun _ => writeAll dir files with ⟨_, _, first, whole⟩ | ⟨_, middle, first, whole⟩
      · rw [writeAll, whole] at failed
        cases failed
        refine ⟨t, target dir names, text, ?_, first⟩
        rw [writtenFrom_of_error first]
        rfl
      · rw [writeAll, whole] at failed
        obtain ⟨last, path, text', before, stopped⟩ := ih failed
        refine ⟨last, path, text', ?_, stopped⟩
        rw [writtenFrom_of_ok first, writeAll, FileTree.run_bind_of_ok first, before]

/-- **The files that have been written stand**, and every other file is as it was, whether the
others are written too or not. -/
theorem writeAll_leaves (dir : String) {files : List (List String × String)}
    (all : ∀ file ∈ files, file.1 ≠ [] ∧ ∀ name ∈ file.1, IsName name)
    (distinct : (files.map (·.1)).Nodup) {t : FileTree} (sound : t.Sound) :
    let t' := (t.run (writeAll dir files)).2
    t'.Sound ∧
      (∀ file ∈ writtenFrom dir t files,
        t'.text? (destination t.here dir ++ file.1) = some file.2) ∧
      ∀ place, (∀ file ∈ writtenFrom dir t files, place ≠ destination t.here dir ++ file.1) →
        t'.text? place = t.text? place := by
  rcases ran : t.run (writeAll dir files) with ⟨e | _, t'⟩
  · obtain ⟨middle, path, text, before, stopped⟩ := writeAll_eq_error ran
    have front := writtenFrom_isPrefix dir files t
    obtain ⟨soundMiddle, -, -, texts, kept⟩ := writeAll_eq_ok
      (fun file member => all file (front.subset member))
      (distinct.sublist (front.sublist.map _)) sound before
    obtain ⟨soundLast, built⟩ := writeFile_eq_error soundMiddle stopped
    refine ⟨soundLast, fun file member => ?_, fun place other => ?_⟩
    · rw [built.text?_eq, texts file member]
    · rw [built.text?_eq, kept place other]
  · obtain ⟨soundLast, -, -, texts, kept⟩ := writeAll_eq_ok all distinct sound ran
    rw [writtenFrom_of_writeAll ran]
    exact ⟨soundLast, texts, kept⟩

/-! ## Commits that fail -/

/-- **The files that a commit writes** before it fails, if it does. -/
def written (plan : OutputPlan) (t : FileTree) : List (List String × String) :=
  let outcome := t.run (clean plan.dir)
  if outcome.1.isOk then writtenFrom plan.dir outcome.2 plan.files else []

theorem written_of_clean_error {plan : OutputPlan} {t t' : FileTree} {e : OutputError}
    (cleaning : t.run (clean plan.dir) = (.error e, t')) : plan.written t = [] := by
  simp only [written, cleaning, Except.isOk, Except.toBool, Bool.false_eq_true, if_false]

theorem written_of_clean {plan : OutputPlan} {t t' : FileTree} {removed : Nat}
    (cleaning : t.run (clean plan.dir) = (.ok removed, t')) :
    plan.written t = writtenFrom plan.dir t' plan.files := by
  simp only [written, cleaning, Except.isOk, Except.toBool, if_true]

/-- **The tree that a failed commit of a plan leaves behind.** -/
structure Failed (plan : OutputPlan) (t t' : FileTree) : Prop where
  /-- The files that have been written stand. -/
  file : ∀ file ∈ plan.written t, t'.text? (destination t.here plan.dir ++ file.1) = some file.2
  /-- Every other file is as it was, or it was listed and is gone. -/
  kept : ∀ place, (∀ file ∈ plan.written t, place ≠ destination t.here plan.dir ++ file.1) →
    t'.text? place = t.text? place ∨ t'.text? place = none ∧
      ∃ names ∈ t.listed plan.dir, place = destination t.here plan.dir ++ names
  /-- If any file has been written, then all that were listed are gone. -/
  cleaned : plan.written t ≠ [] → ∀ names ∈ t.listed plan.dir,
    names ∉ (plan.written t).map (·.1) → t'.text? (destination t.here plan.dir ++ names) = none

theorem written_subset (plan : OutputPlan) (t : FileTree) : plan.written t ⊆ plan.files := by
  simp only [written]
  split
  · exact (writtenFrom_isPrefix ..).subset
  · exact List.nil_subset _

/-- What happens after the files have been written changes no text, if it fails. -/
theorem text?_of_finish {t t' : FileTree} (sound : t.Sound) {dir path text : String}
    {summary : Summary} {e : OutputError}
    (failed : t.run (do
      attempt .createDirectory dir (FileStore.makeDirectories dir)
      attempt .write path (FileStore.writeText path text)
      return summary) = (.error e, t')) (place : List String) :
    t'.text? place = t.text? place := by
  have built := (built_makeDirectories sound dir).2
  rcases FileTree.run_bind_cases t _ _ with ⟨_, _, made, whole⟩ | ⟨_, middle, made, whole⟩
  · rw [whole] at failed
    cases failed
    rw [made] at built
    exact built.text?_eq place
  · rw [made] at built
    rw [whole] at failed
    rcases FileTree.run_bind_cases middle _ _ with ⟨_, _, writing, last⟩ | ⟨_, _, _, last⟩
    · rw [last] at failed
      cases failed
      rw [writeText_eq_error writing]
      exact built.text?_eq place
    · rw [last] at failed
      cases failed

/-- A cleaning that fails has at most taken away what was listed. -/
theorem failed_of_clean_error {plan : OutputPlan} {t t' : FileTree} {e : OutputError}
    (cleaning : t.run (clean plan.dir) = (.error e, t')) : plan.Failed t t' := by
  have nothing := written_of_clean_error cleaning
  have outcome := FileTree.outcome_of_removals (removals_of_clean t plan.dir)
  rw [cleaning] at outcome
  refine ⟨by simp [nothing], fun place _ => ?_, fun something => absurd nothing something⟩
  cases outcome place with
  | same same => exact .inl (FileTree.text?_congr same)
  | file absent before member same =>
      exact .inr ⟨by rw [FileTree.text?, absent], _, member, same⟩
  | directory absent before =>
      left
      rw [FileTree.text?_eq_none_of_directory before, FileTree.text?, absent]

/-- After a cleaning, the texts are those that writing leaves. -/
theorem failed_of_clean {plan : OutputPlan} (valid : plan.Valid) {t cleaned t' : FileTree}
    (sound : t.Sound) {removed : Nat} (cleaning : t.run (clean plan.dir) = (.ok removed, cleaned))
    (same : ∀ place,
      t'.text? place = (cleaned.run (writeAll plan.dir plan.files)).2.text? place) :
    plan.Failed t t' := by
  obtain ⟨soundCleaned, here, gone, -⟩ := clean_eq_ok sound cleaning
  obtain ⟨-, texts, kept⟩ :=
    writeAll_leaves plan.dir valid.isName valid.distinct soundCleaned
  rw [here, ← written_of_clean cleaning] at texts kept
  refine ⟨fun file member => ?_, fun place other => ?_, fun _ names member unwritten => ?_⟩
  · rw [same, texts file member]
  · rw [same, kept place other, gone]
    split
    · rename_i listed
      exact .inr ⟨rfl, listed⟩
    · exact .inl rfl
  · rw [same, kept, gone, if_pos ⟨names, member, rfl⟩]
    exact append_ne_of_notMem _ unwritten

/-- **Every commit that fails leaves the files it has written**, and takes away at most what was
listed. -/
theorem commit_eq_error {plan : OutputPlan} (valid : plan.Valid) {t t' : FileTree}
    (sound : t.Sound) {e : OutputError} (failed : t.run plan.commit = (.error e, t')) :
    plan.Failed t t' := by
  unfold commit at failed
  rcases FileTree.run_bind_cases t (clean plan.dir) _ with
    ⟨_, last, cleaning, whole⟩ | ⟨removed, cleaned, cleaning, whole⟩
  · rw [whole] at failed
    cases failed
    exact failed_of_clean_error cleaning
  · rw [whole] at failed
    refine failed_of_clean valid sound cleaning fun place => ?_
    obtain ⟨soundCleaned, -, -, -⟩ := clean_eq_ok sound cleaning
    obtain ⟨soundWrote, -⟩ :=
      writeAll_leaves plan.dir valid.isName valid.distinct soundCleaned
    rcases FileTree.run_bind_cases cleaned (writeAll plan.dir plan.files) _ with
      ⟨_, _, writing, rest⟩ | ⟨_, wrote, writing, rest⟩
    · rw [rest] at failed
      cases failed
      rw [writing]
    -- the steps after the files change no text
    · rw [rest] at failed
      rw [writing] at soundWrote ⊢
      exact text?_of_finish soundWrote failed place

/-! ## Orphans -/

/-- **Every new file below the directory is listed** in the manifest that is on disk. -/
def OrphanFree (plan : OutputPlan) (t t' : FileTree) : Prop :=
  ∀ names, t.text? (destination t.here plan.dir ++ names) = none →
    t'.text? (destination t.here plan.dir ++ names) ≠ none →
      names ∈ t'.listedAt (destination t.here plan.dir)

/-- The manifest after a commit that failed is the old one, or there is none. -/
theorem Failed.listedAt_eq {plan : OutputPlan} (valid : plan.Valid) {t t' : FileTree}
    (failed : plan.Failed t t') (wrote : plan.written t ≠ []) :
    t'.listedAt (destination t.here plan.dir) =
      if [Manifest.fileName] ∈ t.listed plan.dir then []
      else t.listedAt (destination t.here plan.dir) := by
  have free : ∀ file ∈ plan.written t, file.1 ≠ [Manifest.fileName] := fun file member =>
    valid.free file (plan.written_subset t member)
  split
  · rename_i listed
    have gone := failed.cleaned wrote _ listed fun member => by
      obtain ⟨file, present, same⟩ := List.mem_map.mp member
      exact free file present same
    rw [FileTree.listedAt, gone]
    rfl
  · rename_i unlisted
    refine FileTree.listedAt_congr ?_
    rcases failed.kept _ fun file member same => free file member
      (List.append_cancel_left same).symm with same | ⟨-, names, listed, same⟩
    · exact same
    · rw [List.append_cancel_left_eq] at same
      exact absurd (same ▸ listed) unlisted

/-- **A failed commit leaves no orphan** exactly if every file that it has written either stood
there before or is listed in an old manifest that does not list itself. -/
theorem orphanFree_iff {dir : String} {files : List SourceFile} {plan : OutputPlan}
    (planned : ofFiles dir files = .ok plan) {t t' : FileTree} (sound : t.Sound) {e : OutputError}
    (failing : t.run plan.commit = (.error e, t')) :
    plan.OrphanFree t t' ↔
      ∀ file ∈ plan.written t, t.text? (destination t.here plan.dir ++ file.1) = none →
        file.1 ∈ t.listedAt (destination t.here plan.dir) ∧
          [Manifest.fileName] ∉ t.listed plan.dir := by
  have valid := valid_ofFiles planned
  have failed := commit_eq_error valid sound failing
  constructor
  · intro orphanFree file member new
    have stands := failed.file file member
    have listed := orphanFree file.1 new (by rw [stands]; nofun)
    rw [failed.listedAt_eq valid (List.ne_nil_of_mem member)] at listed
    split at listed
    · cases listed
    · rename_i unlisted
      exact ⟨listed, unlisted⟩
  · intro known names new stands
    by_cases member : names ∈ (plan.written t).map (·.1)
    · obtain ⟨file, present, rfl⟩ := List.mem_map.mp member
      obtain ⟨listed, unlisted⟩ := known file present new
      rwa [failed.listedAt_eq valid (List.ne_nil_of_mem present), if_neg unlisted]
    · -- a file that has not been written is not new
      rcases failed.kept _ (append_ne_of_notMem _ member) with same | ⟨gone, -⟩
      · rw [same] at stands
        exact absurd new stands
      · exact absurd gone stands

/-! ## A directory in the way -/

/-- Two files. -/
def twoFiles : List SourceFile :=
  [⟨"a.ts", "a"⟩, ⟨"b.ts", "b"⟩]

/-- Their plan. -/
def twoPlan : OutputPlan :=
  { dir := "sdk", files := [(["a.ts"], "a"), (["b.ts"], "b")], manifest := manifestOf twoFiles }

theorem ofFiles_twoFiles : ofFiles "sdk" twoFiles = .ok twoPlan :=
  ofFiles_of_placed "sdk" rfl

theorem destination_twoPlan : destination ["work"] twoPlan.dir = ["work", "sdk"] :=
  rfl

/-- A directory of the name of the second file. -/
def blockedTree : FileTree :=
  { here := ["work"]
    entries := [(["work"], .directory), (["work", "sdk"], .directory),
      (["work", "sdk", "b.ts"], .directory)] }

theorem sound_blockedTree : blockedTree.Sound :=
  .of_entries (by decide) rfl

/-- One file is there then, and no manifest. -/
theorem commit_blockedTree :
    let outcome := blockedTree.run twoPlan.commit
    outcome.1 = .error (.store .write "sdk/b.ts" .refused) ∧
      outcome.2.text? ["work", "sdk", "a.ts"] = some "a" ∧
      outcome.2.text? ["work", "sdk", ".gen-manifest.json"] = none := by
  decide +kernel

/-- The first file is written, the second one is not, and nothing tells the next run about it. -/
theorem not_orphanFree_blockedTree :
    ofFiles "sdk" twoFiles = .ok twoPlan ∧ blockedTree.Sound ∧
      (blockedTree.run twoPlan.commit).1 = .error (.store .write "sdk/b.ts" .refused) ∧
      ¬twoPlan.OrphanFree blockedTree (blockedTree.run twoPlan.commit).2 := by
  have absent : blockedTree.text? ["work", "sdk", "a.ts"] = none := by decide
  obtain ⟨failing, stands, manifest⟩ := commit_blockedTree
  refine ⟨ofFiles_twoFiles, sound_blockedTree, failing, fun orphanFree => ?_⟩
  generalize (blockedTree.run twoPlan.commit).2 = t' at stands manifest orphanFree
  have new : t'.text? ["work", "sdk", "a.ts"] ≠ none := by
    rw [stands]
    nofun
  have nothing : t'.listedAt ["work", "sdk"] = [] := by
    rw [FileTree.listedAt]
    exact manifest ▸ rfl
  have base : destination blockedTree.here twoPlan.dir = ["work", "sdk"] := destination_twoPlan
  unfold OrphanFree at orphanFree
  rw [base, nothing] at orphanFree
  exact List.not_mem_nil (orphanFree ["a.ts"] absent new)

/-- A manifest that lists the first file. -/
def firstManifest : Manifest :=
  { files := ["a.ts"] }

/-- The same directory with this manifest. -/
def listedTree : FileTree :=
  blockedTree.put ["work", "sdk", ".gen-manifest.json"] (.file firstManifest.text)

theorem sound_listedTree : listedTree.Sound :=
  .of_entries (by decide) rfl

theorem manifest?_listedTree : listedTree.manifest? twoPlan.dir = some firstManifest :=
  manifest?_of_readText rfl

theorem listed_listedTree : listedTree.listed twoPlan.dir = [["a.ts"]] := by
  rw [FileTree.listed_of_some manifest?_listedTree]
  rfl

theorem clean_listedTree : listedTree.run (clean twoPlan.dir) = (.ok 0, listedTree) := by
  have unpruned : emptied [["a.ts"]] = [] := by simp [emptied, above]
  rw [run_clean, manifest?_listedTree, listed_listedTree, unpruned]
  rfl

theorem commit_listedTree : (listedTree.run twoPlan.commit).1 =
    .error (.store .write "sdk/b.ts" .refused) := by
  rw [commit, FileTree.run_bind_of_ok clean_listedTree]
  decide +kernel

theorem written_listedTree : twoPlan.written listedTree = [(["a.ts"], "a")] := by
  rw [written_of_clean clean_listedTree]
  rfl

/-- The first file is written again, and the old manifest tells the next run about it. -/
theorem orphanFree_listedTree :
    ∃ t', ofFiles "sdk" twoFiles = .ok twoPlan ∧ listedTree.Sound ∧
      listedTree.run twoPlan.commit = (.error (.store .write "sdk/b.ts" .refused), t') ∧
      twoPlan.OrphanFree listedTree t' := by
  have failing := commit_listedTree
  rcases ran : listedTree.run twoPlan.commit with ⟨result, t'⟩
  rw [ran] at failing
  cases failing
  refine ⟨t', ofFiles_twoFiles, sound_listedTree, rfl, ?_⟩
  rw [orphanFree_iff ofFiles_twoFiles sound_listedTree ran]
  rw [FileTree.listedAt_of_manifest? manifest?_listedTree, listed_listedTree, written_listedTree]
  simp only [List.forall_mem_singleton]
  exact fun _ => ⟨by decide, by decide⟩

end OutputPlan

end ClientGen
