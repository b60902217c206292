import ClientGen.Proofs.Files.Changes
import ClientGen.Proofs.Files.Following
import ClientGen.Proofs.Files.Running
import Mathlib.Data.Finset.Card
import Mathlib.Logic.Relation

/-!
# What cleaning removes

Whatever the manifest of a directory says, cleaning is a chain of removals: a file that the manifest
lists, or an empty directory above one. The chain is the same thing for a cleaning that stops with
an error, since nothing is undone.

* `FileTree.listed` — the names that the manifest of a directory lists.
* `FileTree.Removal` — one thing is removed.
* `clean_invariant` — what single removals preserve, cleaning preserves.
* `cleaning_removes_listed_only` — the chain, and what it leaves alone.
* `clean_eq_ok` — a cleaning that succeeds has removed every listed file, and has counted them.
* `Cleared`, `cleared_of_clean` — what a cleaning leaves behind that succeeds.

A listed file that is not found is passed over. That it is really not there needs an argument: the
directory was found when its manifest was read, and removing files takes no directory away.
-/

namespace ClientGen

open ClientGen.Path

namespace FileTree

/-- **The names that the manifest of a directory lists**: those of the listed paths that stay below
the directory. Without a readable manifest there are none. -/
def listed (t : FileTree) (dir : String) : List (List String) :=
  match t.manifest? dir with
  | some manifest => OutputPlan.listedNames manifest
  | none => []

theorem listed_of_some {t : FileTree} {dir : String} {manifest : Manifest}
    (read : t.manifest? dir = some manifest) :
    t.listed dir = OutputPlan.listedNames manifest := by
  unfold listed
  rw [read]

theorem listed_of_none {t : FileTree} {dir : String} (read : t.manifest? dir = none) :
    t.listed dir = [] := by
  unfold listed
  rw [read]

theorem mem_listed {t : FileTree} {dir : String} {names : List String} :
    names ∈ t.listed dir ↔
      ∃ manifest, t.manifest? dir = some manifest ∧
        ∃ path ∈ manifest.files, contained? path = some names := by
  unfold listed OutputPlan.listedNames
  cases t.manifest? dir with
  | none => simp
  | some manifest => simp

theorem isName_of_mem_listed {t : FileTree} {dir : String} {names : List String}
    (member : names ∈ t.listed dir) : names ≠ [] ∧ ∀ name ∈ names, IsName name := by
  obtain ⟨_, -, _, -, inside⟩ := mem_listed.mp member
  exact isName_of_contained? inside

/-- **One thing is removed**: a listed file, or an empty directory above one, but not the outermost
directory. -/
inductive Removal (base : List String) (listed : List (List String)) (t : FileTree) :
    FileTree → Prop where
  /-- A listed file. -/
  | file {names : List String} (member : names ∈ listed) {text : String}
      (file : t.lookup? (base ++ names) = some (.file text)) :
      Removal base listed t (t.erase (base ++ names))
  /-- A directory above a listed file, in which nothing is left. -/
  | directory {names rest : List String} (inner : names ≠ []) (proper : rest ≠ [])
      (member : names ++ rest ∈ listed) (directory : t.lookup? (base ++ names) = some .directory)
      (empty : ∀ name, t.lookup? (base ++ names ++ [name]) = none) :
      Removal base listed t (t.vacate (base ++ names))

/-! ## What a chain of removals leaves alone -/

/-- **What has become of a place** when some things have been removed: it is as it was, or nothing
is there any more. -/
inductive Outcome (base : List String) (listed : List (List String)) (t t' : FileTree)
    (place : List String) : Prop where
  /-- Nothing has happened. -/
  | same (same : t'.lookup? place = t.lookup? place)
  /-- A listed file is gone. -/
  | file (absent : t'.lookup? place = none) {text : String}
      (before : t.lookup? place = some (.file text)) {names : List String} (member : names ∈ listed)
      (place_eq : place = base ++ names)
  /-- A directory above a listed file is gone. -/
  | directory (absent : t'.lookup? place = none) (before : t.lookup? place = some .directory)
      {names rest : List String} (inner : names ≠ []) (proper : rest ≠ [])
      (member : names ++ rest ∈ listed) (place_eq : place = base ++ names)

theorem Removal.here_eq {base : List String} {listed : List (List String)} {t t' : FileTree}
    (removal : Removal base listed t t') : t'.here = t.here := by
  cases removal <;> rfl

theorem Removal.outcome {base : List String} {listed : List (List String)} {t t' : FileTree}
    (removal : Removal base listed t t') (place : List String) :
    Outcome base listed t t' place := by
  cases removal with
  | @file names member text file =>
      have inner : base ++ names ≠ [] := by
        intro root
        rw [root] at file
        cases file
      by_cases same : place = base ++ names
      · refine .file ?_ (same ▸ file) member same
        rw [lookup?_erase inner, if_pos same]
      · exact .same (by rw [lookup?_erase inner, if_neg same])
  | @directory names rest nonempty proper member directory empty =>
      have inner : base ++ names ≠ [] := by simp [nonempty]
      by_cases same : place = base ++ names
      · refine .directory ?_ (same ▸ directory) nonempty proper member same
        rw [lookup?_vacate inner, if_pos same]
      · exact .same (by rw [lookup?_vacate inner, if_neg same])

/-- What is gone stays away, so a chain of removals comes to one outcome for each place. -/
theorem outcome_of_removals {base : List String} {listed : List (List String)} {t t' : FileTree}
    (removals : Relation.ReflTransGen (Removal base listed) t t') (place : List String) :
    Outcome base listed t t' place := by
  induction removals with
  | refl => exact .same rfl
  | @tail middle last _ removal ih =>
      cases removal.outcome place with
      | same same =>
          cases ih with
          | same before => exact .same (same.trans before)
          | file absent before member place_eq =>
              exact .file (same.trans absent) before member place_eq
          | directory absent before inner proper member place_eq =>
              exact .directory (same.trans absent) before inner proper member place_eq
      | file absent before member place_eq =>
          cases ih with
          | same earlier => exact .file absent (earlier ▸ before) member place_eq
          | file gone => exact absurd before (by simp [gone])
          | directory gone => exact absurd before (by simp [gone])
      | directory absent before inner proper member place_eq =>
          cases ih with
          | same earlier => exact .directory absent (earlier ▸ before) inner proper member place_eq
          | file gone => exact absurd before (by simp [gone])
          | directory gone => exact absurd before (by simp [gone])

end FileTree

namespace OutputPlan

variable {P : FileTree → Prop} {dir : String}

/-! ## Cleaning step by step -/

/-- The place of names below a directory. -/
theorem destination_target (here : List String) (dir : String) {names : List String}
    (nonempty : names ≠ []) (all : ∀ name ∈ names, IsName name) :
    destination here (target dir names) = destination here dir ++ names :=
  destination_join here dir nonempty all

/-- The steps of names below a directory. -/
theorem solidSteps_target (dir : String) {names : List String} (nonempty : names ≠ [])
    (all : ∀ name ∈ names, IsName name) :
    isAbsolute (target dir names) = isAbsolute dir ∧
      solidSteps (target dir names) = solidSteps dir ++ names.map String.toList := by
  obtain ⟨relative, kept⟩ := steps_ofNames nonempty all
  refine ⟨(steps_join dir relative).1, ?_⟩
  rw [target, solidSteps_join dir relative]
  rw [solidSteps, solidSteps, kept, filter_names all]

/-- Removing one file preserves what the removal of a file preserves. -/
theorem removeListed_invariant {t : FileTree} {path : String} (holds : P t)
    (file : ∀ text, t.lookup? (destination t.here path) = some (.file text) →
      P (t.erase (destination t.here path))) :
    P (t.run (removeListed path)).2 := by
  rw [FileTree.run_removeListed]
  cases removed : t.removeFile path with
  | error fault => cases fault <;> exact holds
  | ok t' =>
      obtain ⟨⟨text, found⟩, rfl⟩ := FileTree.removeFile_eq_ok removed
      exact file text found

/-- Removing files preserves what the removal of each of them preserves. -/
theorem removeAll_invariant {here : List String} {listed : List (List String)}
    (start : ∀ t, P t → t.here = here)
    (all : ∀ names ∈ listed, names ≠ [] ∧ ∀ name ∈ names, IsName name)
    (file : ∀ t, P t → ∀ names ∈ listed, ∀ text,
      t.lookup? (destination here dir ++ names) = some (.file text) →
        P (t.erase (destination here dir ++ names)))
    {t : FileTree} (holds : P t) : P (t.run (removeAll dir listed)).2 := by
  induction listed generalizing t with
  | nil => exact holds
  | cons names rest ih =>
      obtain ⟨nonempty, isName⟩ := all names (List.mem_cons_self ..)
      refine FileTree.run_bind_invariant (removeListed_invariant holds ?_) fun found t' kept =>
        FileTree.run_bind_invariant (ih ?_ ?_ kept) fun count t'' done => done
      · rw [start t holds, destination_target here dir nonempty isName]
        exact file t holds names (List.mem_cons_self ..)
      · exact fun other member => all other (List.mem_cons_of_mem _ member)
      · exact fun t holds other member => file t holds other (List.mem_cons_of_mem _ member)

/-- Pruning one directory preserves what the removal of an empty directory preserves. -/
theorem prune_invariant {t : FileTree} {path : String} (holds : P t)
    (directory : destination t.here path ≠ [] →
      t.lookup? (destination t.here path) = some .directory →
      (∀ name, t.lookup? (destination t.here path ++ [name]) = none) →
        P (t.vacate (destination t.here path))) :
    P (t.run (prune path)).2 := by
  rw [FileTree.run_prune]
  split
  · rw [FileTree.run_attempt, FileTree.run_removeDirectory]
    cases removed : t.removeDirectory path with
    | error fault => exact holds
    | ok t' =>
        obtain ⟨inner, found, empty, rfl⟩ := FileTree.removeDirectory_eq_ok removed
        exact directory inner found empty
  all_goals exact holds

/-- Pruning directories preserves what the removal of each of them preserves, if it is empty. -/
theorem pruneAll_invariant {here : List String} {above : List (List String)}
    (start : ∀ t, P t → t.here = here)
    (all : ∀ names ∈ above, names ≠ [] ∧ ∀ name ∈ names, IsName name)
    (directory : ∀ t, P t → ∀ names ∈ above,
      t.lookup? (destination here dir ++ names) = some .directory →
      (∀ name, t.lookup? (destination here dir ++ names ++ [name]) = none) →
        P (t.vacate (destination here dir ++ names)))
    {t : FileTree} (holds : P t) : P (t.run (pruneAll dir above)).2 := by
  induction above generalizing t with
  | nil => exact holds
  | cons names rest ih =>
      obtain ⟨nonempty, isName⟩ := all names (List.mem_cons_self ..)
      refine FileTree.run_bind_invariant (prune_invariant holds ?_) fun _ t' kept => ih ?_ ?_ kept
      · rw [start t holds, destination_target here dir nonempty isName]
        exact fun _ => directory t holds names (List.mem_cons_self ..)
      · exact fun other member => all other (List.mem_cons_of_mem _ member)
      · exact fun t holds other member => directory t holds other (List.mem_cons_of_mem _ member)

/-- The directories that may be left empty are above listed files, and below the output
directory. -/
theorem mem_emptied {listed : List (List String)} {names : List String} :
    names ∈ emptied listed ↔ names ≠ [] ∧ ∃ rest ≠ [], names ++ rest ∈ listed := by
  have single {whole : List String} : names ∈ above whole ↔
      names ≠ [] ∧ ∃ rest ≠ [], names ++ rest = whole := by
    unfold above
    rw [List.mem_map]
    constructor
    · rintro ⟨count, member, rfl⟩
      rw [List.mem_range'_1] at member
      refine ⟨?_, whole.drop count, ?_, List.take_append_drop ..⟩
      · rw [← List.length_pos_iff, List.length_take]
        omega
      · rw [← List.length_pos_iff, List.length_drop]
        omega
    · rintro ⟨nonempty, rest, proper, rfl⟩
      refine ⟨names.length, ?_, List.take_left ..⟩
      have short := List.length_pos_iff.mpr nonempty
      have long := List.length_pos_iff.mpr proper
      rw [List.mem_range'_1, List.length_append]
      omega
  unfold emptied
  rw [List.mem_mergeSort, List.mem_eraseDups, List.mem_flatMap]
  constructor
  · rintro ⟨whole, member, inside⟩
    obtain ⟨nonempty, rest, proper, rfl⟩ := single.mp inside
    exact ⟨nonempty, rest, proper, member⟩
  · rintro ⟨nonempty, rest, proper, member⟩
    exact ⟨_, member, single.mpr ⟨nonempty, rest, proper, rfl⟩⟩

theorem isName_of_mem_emptied {listed : List (List String)}
    (all : ∀ names ∈ listed, names ≠ [] ∧ ∀ name ∈ names, IsName name) {names : List String}
    (member : names ∈ emptied listed) : names ≠ [] ∧ ∀ name ∈ names, IsName name := by
  obtain ⟨nonempty, rest, -, whole⟩ := mem_emptied.mp member
  exact ⟨nonempty, fun name inside => (all _ whole).2 name (List.mem_append_left _ inside)⟩

/-- Cleaning first asks for the manifest, and then removes what it lists. -/
theorem runOn_clean {σ : Type} [FileStore (StateM σ)] (s : σ) (dir : String) :
    runOn s (clean dir) =
      match StateT.run (Manifest.read? dir : StateM σ (Option Manifest)) s with
      | (none, s') => (.ok 0, s')
      | (some manifest, s') => runOn s' do
          let count ← removeAll dir (listedNames manifest)
          pruneAll dir (emptied (listedNames manifest))
          return count := by
  rcases read : StateT.run (Manifest.read? dir : StateM σ (Option Manifest)) s with ⟨found, s'⟩
  have asked : runOn s (liftM (Manifest.read? dir : StateM σ (Option Manifest))) =
      (.ok found, s') := by
    rw [runOn_lift, read]
  unfold clean
  rw [runOn_bind_of_ok asked]
  cases found <;> rfl

theorem run_clean (t : FileTree) (dir : String) :
    t.run (clean dir) =
      match t.manifest? dir with
      | none => (.ok 0, t)
      | some _ => t.run do
          let count ← removeAll dir (t.listed dir)
          pruneAll dir (emptied (t.listed dir))
          return count := by
  refine (runOn_clean t dir).trans ?_
  unfold FileTree.listed
  rw [FileTree.run_read?]
  cases t.manifest? dir <;> rfl

/-- **What single removals preserve, cleaning preserves**, whether it succeeds or fails. -/
theorem clean_invariant {t : FileTree} (start : ∀ t', P t' → t'.here = t.here)
    (step : ∀ t' t'', P t' →
      FileTree.Removal (destination t.here dir) (t.listed dir) t' t'' → P t'')
    (holds : P t) : P (t.run (clean dir)).2 := by
  rw [run_clean]
  cases t.manifest? dir with
  | none => exact holds
  | some manifest =>
      have all : ∀ names ∈ t.listed dir, names ≠ [] ∧ ∀ name ∈ names, IsName name :=
        fun names => FileTree.isName_of_mem_listed
      refine FileTree.run_bind_invariant ?_ fun count t' kept =>
        FileTree.run_bind_invariant ?_ fun _ t'' done => done
      · exact removeAll_invariant start all
          (fun t' holds names member text found => step _ _ holds (.file member found)) holds
      · refine pruneAll_invariant start (fun names => isName_of_mem_emptied all) ?_ kept
        intro t' holds names member found empty
        obtain ⟨nonempty, rest, proper, whole⟩ := mem_emptied.mp member
        exact step _ _ holds (.directory nonempty proper whole found empty)

theorem removals_of_clean (t : FileTree) (dir : String) :
    Relation.ReflTransGen (FileTree.Removal (destination t.here dir) (t.listed dir)) t
      (t.run (clean dir)).2 := by
  have both : (t.run (clean dir)).2.here = t.here ∧
      Relation.ReflTransGen (FileTree.Removal (destination t.here dir) (t.listed dir)) t
        (t.run (clean dir)).2 := by
    refine clean_invariant (P := fun t' => t'.here = t.here ∧ Relation.ReflTransGen
      (FileTree.Removal (destination t.here dir) (t.listed dir)) t t') ?_ ?_ ⟨rfl, .refl⟩
    · exact fun t' kept => kept.1
    · exact fun t' t'' kept removal => ⟨removal.here_eq.trans kept.1, kept.2.tail removal⟩
  exact both.2

/-- **Cleaning removes what the manifest lists, and nothing else**, whatever the manifest says, and
whether it succeeds or fails. It is a chain of removals of listed files and of empty directories
above them. So everything outside the directory stays as it is, and the directory itself too; no
file gets another text; a file that is not listed stays; and a directory goes only if it is above a
listed file. -/
theorem cleaning_removes_listed_only (t : FileTree) (dir : String) :
    let base := destination t.here dir
    let t' := (t.run (clean dir)).2
    Relation.ReflTransGen (FileTree.Removal base (t.listed dir)) t t' ∧
      (∀ place, ¬base <+: place → t'.lookup? place = t.lookup? place) ∧
      t'.lookup? base = t.lookup? base ∧
      (∀ place, t'.lookup? place = t.lookup? place ∨ t'.lookup? place = none) ∧
      (∀ place text, t.lookup? place = some (.file text) → t'.lookup? place = none →
        ∃ names ∈ t.listed dir, place = base ++ names) ∧
      ∀ place, t.lookup? place = some .directory → t'.lookup? place = none →
        ∃ names rest, names ≠ [] ∧ rest ≠ [] ∧ names ++ rest ∈ t.listed dir ∧
          place = base ++ names := by
  intro base t'
  have removals := removals_of_clean t dir
  have outcome := FileTree.outcome_of_removals removals
  refine ⟨removals, ?_, ?_, ?_, ?_, ?_⟩
  · intro place outside
    cases outcome place with
    | same same => exact same
    | file _ _ _ place_eq => exact absurd (place_eq ▸ List.prefix_append ..) outside
    | directory _ _ _ _ _ place_eq => exact absurd (place_eq ▸ List.prefix_append ..) outside
  · cases outcome base with
    | same same => exact same
    | @file _ _ _ names member place_eq =>
        exact absurd (List.self_eq_append_right.mp place_eq)
          (FileTree.isName_of_mem_listed member).1
    | directory _ _ inner _ _ place_eq =>
        exact absurd (List.self_eq_append_right.mp place_eq) inner
  · intro place
    cases outcome place with
    | same same => exact .inl same
    | file absent => exact .inr absent
    | directory absent => exact .inr absent
  · intro place text file absent
    cases outcome place with
    | same same => cases file.symm.trans (same.symm.trans absent)
    | @file _ _ _ names member place_eq => exact ⟨names, member, place_eq⟩
    | directory _ before => simp [before] at file
  · intro place directory absent
    cases outcome place with
    | same same => cases directory.symm.trans (same.symm.trans absent)
    | file _ before => simp [before] at directory
    | @directory _ _ names rest inner proper member place_eq =>
        exact ⟨names, rest, inner, proper, member, place_eq⟩

/-! ## Cleaning that succeeds -/

theorem isName_fileName : IsName Manifest.fileName := by
  decide

theorem target_fileName (dir : String) : target dir [Manifest.fileName] =
    join dir Manifest.fileName :=
  rfl

/-- Where a path below a directory leads somewhere, the directory is there. -/
theorem follow_of_locate_target {t : FileTree} {dir : String} {names : List String}
    (nonempty : names ≠ []) (all : ∀ name ∈ names, IsName name) {place : List String}
    (located : t.locate (target dir names) = .ok place) :
    t.follow dir = .ok (destination t.here dir) := by
  obtain ⟨fits, followed⟩ := FileTree.follow_of_locate located
  rw [target, FileTree.follow_join t dir nonempty all] at followed
  obtain ⟨base, found, -⟩ := bind_eq_ok_iff.mp followed
  rw [found, FileTree.route_eq_ok found]
  rfl

/-- Where a manifest is read, its path leads to its text. -/
theorem locate_of_manifest? {t : FileTree} {dir : String} {manifest : Manifest}
    (read : t.manifest? dir = some manifest) :
    t.locate (target dir [Manifest.fileName]) =
        .ok (destination t.here dir ++ [Manifest.fileName]) ∧
      ∃ text, t.text? (destination t.here dir ++ [Manifest.fileName]) = some text ∧
        Manifest.parse? text = some manifest := by
  rw [FileTree.manifest?, Option.bind_eq_some_iff] at read
  obtain ⟨text, read, parsed⟩ := read
  cases found : t.readText (join dir Manifest.fileName) with
  | error fault => simp [found, Except.toOption] at read
  | ok contents =>
      rw [found] at read
      cases read
      obtain ⟨⟨place, entry⟩, found, read⟩ := bind_eq_ok_iff.mp found
      obtain ⟨_, located, -⟩ := bind_eq_ok_iff.mp found
      obtain ⟨rfl, stands⟩ := FileTree.find_eq_ok found
      obtain rfl := FileTree.locate_eq located
      have led := destination_target t.here dir (List.cons_ne_nil Manifest.fileName [])
        (List.forall_mem_singleton.mpr isName_fileName)
      rw [target_fileName] at led ⊢
      rw [led] at located stands
      cases entry with
      | directory => cases read
      | file contents =>
          cases read
          exact ⟨located, _, FileTree.text?_eq_some.mpr stands, parsed⟩

/-- Where a manifest is read, its directory is there. -/
theorem follow_of_manifest? {t : FileTree} {dir : String} {manifest : Manifest}
    (read : t.manifest? dir = some manifest) : t.follow dir = .ok (destination t.here dir) :=
  follow_of_locate_target (List.cons_ne_nil _ _) (List.forall_mem_singleton.mpr isName_fileName)
    (locate_of_manifest? read).1

theorem target_ne_empty (dir : String) {names : List String} (nonempty : names ≠ [])
    (all : ∀ name ∈ names, IsName name) : target dir names ≠ "" := by
  intro empty
  obtain ⟨front, part, split, solid⟩ := FileTree.steps_join_names dir nonempty all
  have alone : steps "" = [[]] := rfl
  rw [← target, empty, alone] at split
  obtain ⟨-, same⟩ := List.append_inj' ((List.nil_append _).trans split) rfl
  rw [← List.singleton_inj.mp same] at solid
  cases solid

/-- A file that stands below a directory is found, or refused, but it is never missing. -/
theorem locate_target_ne_missing {t : FileTree} (sound : t.Sound) {dir : String}
    {names : List String} (nonempty : names ≠ []) (all : ∀ name ∈ names, IsName name)
    {base : List String} (followed : t.follow dir = .ok base)
    (found : t.lookup? (base ++ names) ≠ none) :
    t.locate (target dir names) ≠ .error .missing := by
  intro missing
  have fits : Fits (target dir names) := by
    unfold FileTree.locate FileTree.walk at missing
    rw [if_neg (target_ne_empty dir nonempty all)] at missing
    split at missing
    · cases missing
    · rename_i good
      rw [Bool.not_eq_true, Bool.or_eq_false_iff, decide_eq_false_iff_not, Nat.not_le] at good
      exact ⟨target_ne_empty dir nonempty all, good.1, good.2⟩
  rw [target, FileTree.locate_join t dir nonempty all fits, followed] at missing
  exact sound.foldlM_names all found missing

/-- Where the directory is followed, a path below it leads below its place. -/
theorem destination_target_of_follow {t : FileTree} {dir : String} {names : List String}
    (nonempty : names ≠ []) (all : ∀ name ∈ names, IsName name) {base : List String}
    (followed : t.follow dir = .ok base) :
    destination t.here (target dir names) = base ++ names := by
  rw [destination_target t.here dir nonempty all, FileTree.route_eq_ok followed]
  rfl

/-- What stands below a directory is not missing. -/
theorem find_target_ne_missing {t : FileTree} (sound : t.Sound) {dir : String}
    {names : List String} (nonempty : names ≠ []) (all : ∀ name ∈ names, IsName name)
    {base : List String} (followed : t.follow dir = .ok base)
    (present : t.lookup? (base ++ names) ≠ none) :
    t.find (target dir names) ≠ .error .missing := by
  have located := locate_target_ne_missing sound nonempty all followed present
  obtain ⟨entry, stands⟩ := Option.ne_none_iff_exists'.mp present
  intro missing
  rw [FileTree.find] at missing
  cases locating : t.locate (target dir names) with
  | error fault =>
      rw [locating] at missing located
      cases missing
      exact located rfl
  | ok place =>
      have same := FileTree.locate_eq locating
      rw [destination_target_of_follow nonempty all followed] at same
      subst same
      rw [locating] at missing
      simp only [bind, Except.bind, stands] at missing
      cases missing

/-- If nothing was found to remove then there was no file. -/
theorem text?_of_removeFile_missing {t : FileTree} (sound : t.Sound) {dir : String}
    {names : List String} (nonempty : names ≠ []) (all : ∀ name ∈ names, IsName name)
    {base : List String} (followed : t.follow dir = .ok base)
    (removing : t.removeFile (target dir names) = .error .missing) :
    t.text? (base ++ names) = none := by
  by_contra present
  obtain ⟨text, present⟩ := Option.ne_none_iff_exists'.mp present
  have file := FileTree.text?_eq_some.mp present
  have found := find_target_ne_missing sound nonempty all followed (by rw [file]; nofun)
  rw [FileTree.removeFile] at removing
  cases looked : t.find (target dir names) with
  | error fault =>
      rw [looked] at removing found
      cases removing
      exact found rfl
  | ok result =>
      rw [looked] at removing
      obtain ⟨place, entry⟩ := result
      cases entry <;> cases removing

/-- **Removing a file that may be there**: it is gone, nothing else has changed, and it is said
whether it was there. -/
theorem removeListed_eq_ok {t t' : FileTree} (sound : t.Sound) {dir : String}
    {names : List String} (nonempty : names ≠ []) (all : ∀ name ∈ names, IsName name)
    {base : List String} (followed : t.follow dir = .ok base) {found : Bool}
    (removed : t.run (removeListed (target dir names)) = (.ok found, t')) :
    t'.Sound ∧ FileTree.Grown t t' ∧
      (∀ place, t'.text? place = if place = base ++ names then none else t.text? place) ∧
      found = (t.text? (base ++ names)).isSome := by
  have led := destination_target_of_follow nonempty all followed
  rw [FileTree.run_removeListed] at removed
  cases removing : t.removeFile (target dir names) with
  | ok middle =>
      rw [removing] at removed
      cases removed
      obtain ⟨⟨text, file⟩, rfl⟩ := FileTree.removeFile_eq_ok removing
      rw [led] at file ⊢
      refine ⟨sound.erase_file file, ⟨rfl, rfl, ?_⟩,
        FileTree.text?_erase (FileTree.ne_nil_of_file file) t, ?_⟩
      · exact fun place directory => FileTree.lookup?_erase_of_directory file directory
      · rw [FileTree.text?_eq_some.mpr file]
        rfl
  | error fault =>
      rw [removing] at removed
      cases fault with
      | refused => cases removed
      | missing =>
          cases removed
          have absent := text?_of_removeFile_missing sound nonempty all followed removing
          refine ⟨sound, .refl _, fun place => ?_, by rw [absent]; rfl⟩
          split
          · rename_i same
            rw [same, absent]
          · rfl

theorem card_filter_cons {α : Type} [DecidableEq α] (p p' : α → Bool) {a : α} (rest : List α)
    (less : ∀ x, p' x = (x ≠ a && p x)) :
    ((a :: rest).toFinset.filter fun x => p x).card =
      (rest.toFinset.filter fun x => p' x).card + if p a then 1 else 0 := by
  have others : rest.toFinset.filter (fun x => p' x) =
      (rest.toFinset.filter fun x => p x).erase a := by
    ext x
    simp only [less, Finset.mem_filter, Finset.mem_erase]
    simp only [Bool.and_eq_true, decide_eq_true_eq, ne_eq]
    tauto
  rw [List.toFinset_cons, Finset.filter_insert, others]
  split
  · have again : insert a (rest.toFinset.filter fun x => p x) =
        insert a ((rest.toFinset.filter fun x => p x).erase a) := by
      ext x
      simp only [Finset.mem_insert, Finset.mem_erase]
      tauto
    rw [again, Finset.card_insert_of_notMem (Finset.notMem_erase a _)]
  · rename_i lacks
    rw [Finset.erase_eq_of_notMem, Nat.add_zero]
    simp [lacks]

/-- **Files are removed**: they are gone, nothing else has changed, and those that were there have
been counted. -/
theorem removeAll_eq_ok {dir : String} {listed : List (List String)}
    (all : ∀ names ∈ listed, names ≠ [] ∧ ∀ name ∈ names, IsName name)
    {t t' : FileTree} (sound : t.Sound) {base : List String} (followed : t.follow dir = .ok base)
    {count : Nat} (removed : t.run (removeAll dir listed) = (.ok count, t')) :
    t'.Sound ∧ FileTree.Grown t t' ∧
      (∀ place, t'.text? place =
        if ∃ names ∈ listed, place = base ++ names then none else t.text? place) ∧
      count = (listed.toFinset.filter fun names => (t.text? (base ++ names)).isSome).card := by
  induction listed generalizing t count with
  | nil =>
      cases removed
      exact ⟨sound, .refl _, by simp, rfl⟩
  | cons names rest ih =>
      rw [List.forall_mem_cons] at all
      obtain ⟨⟨nonempty, isName⟩, others⟩ := all
      obtain ⟨found, middle, first, removed⟩ := FileTree.run_bind_eq_ok removed
      obtain ⟨count, last, later, counted⟩ := FileTree.run_bind_eq_ok removed
      cases counted
      obtain ⟨soundMiddle, grown, texts, rfl⟩ :=
        removeListed_eq_ok sound nonempty isName followed first
      obtain ⟨soundLast, grownLast, textsLast, rfl⟩ :=
        ih others soundMiddle (grown.route followed) later
      refine ⟨soundLast, grown.trans grownLast, fun place => ?_, ?_⟩
      · rw [textsLast, texts]
        by_cases first : place = base ++ names <;>
          simp only [List.exists_mem_cons_iff, first, true_or, false_or, if_true, if_false,
            ite_self]
      · have less (other : List String) : (middle.text? (base ++ other)).isSome =
            (other ≠ names && (t.text? (base ++ other)).isSome) := by
          rw [texts]
          by_cases same : other = names <;> simp [same]
        rw [card_filter_cons (fun names => (t.text? (base ++ names)).isSome) _ rest less]
        cases (t.text? (base ++ names)).isSome <;> rfl

/-- Pruning keeps every file. -/
theorem pruneAll_keeps (dir : String) {above : List (List String)}
    (all : ∀ names ∈ above, names ≠ [] ∧ ∀ name ∈ names, IsName name) {t : FileTree}
    (sound : t.Sound) :
    (t.run (pruneAll dir above)).2.Sound ∧ (t.run (pruneAll dir above)).2.here = t.here ∧
      ∀ place, (t.run (pruneAll dir above)).2.text? place = t.text? place := by
  refine pruneAll_invariant
    (P := fun u => u.Sound ∧ u.here = t.here ∧ ∀ place, u.text? place = t.text? place)
    (fun u kept => kept.2.1) all ?_ ⟨sound, rfl, fun _ => rfl⟩
  intro u ⟨soundHere, here, texts⟩ names member directory empty
  have inner : destination t.here dir ++ names ≠ [] := by simp [(all names member).1]
  refine ⟨soundHere.vacate inner directory empty, here, fun place => ?_⟩
  rw [FileTree.text?_vacate inner, ← texts]
  split
  · rename_i same
    rw [same, FileTree.text?_eq_none_of_directory directory]
  · rfl

/-- **A cleaning that succeeds** has removed every listed file and no other one, and it has counted
the listed files that were there. -/
theorem clean_eq_ok {t t' : FileTree} (sound : t.Sound) {dir : String} {count : Nat}
    (cleaned : t.run (clean dir) = (.ok count, t')) :
    t'.Sound ∧ t'.here = t.here ∧
      (∀ place, t'.text? place =
        if ∃ names ∈ t.listed dir, place = destination t.here dir ++ names then none
        else t.text? place) ∧
      count = ((t.listed dir).toFinset.filter fun names =>
        (t.text? (destination t.here dir ++ names)).isSome).card := by
  rw [run_clean] at cleaned
  cases read : t.manifest? dir with
  | none =>
      rw [read] at cleaned
      cases cleaned
      rw [FileTree.listed_of_none read]
      exact ⟨sound, rfl, by simp, rfl⟩
  | some manifest =>
      rw [read] at cleaned
      have all : ∀ names ∈ t.listed dir, names ≠ [] ∧ ∀ name ∈ names, IsName name :=
        fun names => FileTree.isName_of_mem_listed
      obtain ⟨removed, middle, removing, cleaned⟩ := FileTree.run_bind_eq_ok cleaned
      obtain ⟨_, last, pruned, same⟩ := FileTree.run_bind_eq_ok cleaned
      cases same
      obtain ⟨soundMiddle, grown, texts, counted⟩ :=
        removeAll_eq_ok all sound (follow_of_manifest? read) removing
      have keeps := pruneAll_keeps dir (fun names => isName_of_mem_emptied all) soundMiddle
      rw [pruned] at keeps
      obtain ⟨soundLast, here, kept⟩ := keeps
      exact ⟨soundLast, here.trans grown.here, fun place => (kept place).trans (texts place),
        counted⟩

/-- Where a directory stands, removing a file fails. -/
theorem not_directory_of_removeListed {t t' : FileTree} (sound : t.Sound) {dir : String}
    {names : List String} (nonempty : names ≠ []) (all : ∀ name ∈ names, IsName name)
    {base : List String} (followed : t.follow dir = .ok base) {found : Bool}
    (removed : t.run (removeListed (target dir names)) = (.ok found, t')) :
    t.lookup? (base ++ names) ≠ some .directory := by
  intro directory
  have led := destination_target_of_follow nonempty all followed
  have present := find_target_ne_missing sound nonempty all followed (by rw [directory]; nofun)
  rw [FileTree.run_removeListed] at removed
  cases looked : t.find (target dir names) with
  | error fault =>
      rw [FileTree.removeFile, looked] at removed
      cases fault with
      | missing => exact present looked
      | refused => cases removed
  | ok result =>
      obtain ⟨place, entry⟩ := result
      obtain ⟨rfl, stands⟩ := FileTree.find_eq_ok looked
      rw [led, directory] at stands
      cases stands
      rw [FileTree.removeFile, looked] at removed
      cases removed

/-- Where a directory stands, removing files fails. -/
theorem not_directory_of_removeAll {dir : String} {listed : List (List String)}
    (all : ∀ names ∈ listed, names ≠ [] ∧ ∀ name ∈ names, IsName name)
    {t t' : FileTree} (sound : t.Sound) {base : List String} (followed : t.follow dir = .ok base)
    {count : Nat} (removed : t.run (removeAll dir listed) = (.ok count, t')) :
    ∀ names ∈ listed, t.lookup? (base ++ names) ≠ some .directory := by
  induction listed generalizing t t' count with
  | nil => nofun
  | cons names rest ih =>
      rw [List.forall_mem_cons] at all
      obtain ⟨⟨nonempty, isName⟩, others⟩ := all
      obtain ⟨found, middle, first, removed⟩ := FileTree.run_bind_eq_ok removed
      obtain ⟨count, last, later, -⟩ := FileTree.run_bind_eq_ok removed
      obtain ⟨soundMiddle, grown, -, -⟩ :=
        removeListed_eq_ok sound nonempty isName followed first
      refine List.forall_mem_cons.mpr
        ⟨not_directory_of_removeListed sound nonempty isName followed first, ?_⟩
      intro names member directory
      exact ih others soundMiddle (grown.route followed) later names member
        (grown.directory _ directory)

/-- **A tree without listed files**, and without some of the directories above them. -/
structure Cleared (dir : String) (listed : List (List String)) (t t' : FileTree) : Prop where
  /-- The tree can be. -/
  sound : t'.Sound
  /-- The working directory is the same. -/
  here : t'.here = t.here
  /-- At least as much of it has been removed. -/
  gone : t.gone ≤ t'.gone
  /-- The listed files are gone, and every other file is as it was. -/
  texts : ∀ place, t'.text? place =
    if ∃ names ∈ listed, place = destination t.here dir ++ names then none else t.text? place
  /-- Where a file is listed there was no directory, and nothing is there now. -/
  absent : ∀ names ∈ listed, t.lookup? (destination t.here dir ++ names) ≠ some .directory ∧
    t'.lookup? (destination t.here dir ++ names) = none
  /-- If anything is listed then the path of the directory led to it. -/
  followed : listed ≠ [] → t.follow dir = .ok (destination t.here dir)

/-- Without listed files nothing has to change. -/
theorem Cleared.refl {t : FileTree} (sound : t.Sound) (dir : String) : Cleared dir [] t t :=
  ⟨sound, rfl, Nat.le_refl _, by simp, nofun, fun nonempty => absurd rfl nonempty⟩

theorem gone_of_clean (t : FileTree) (dir : String) : t.gone ≤ (t.run (clean dir)).2.gone := by
  refine (clean_invariant (P := fun u => u.here = t.here ∧ t.gone ≤ u.gone)
    (fun u kept => kept.1) ?_ ⟨rfl, Nat.le_refl _⟩).2
  rintro u u' ⟨here, gone⟩ removal
  refine ⟨removal.here_eq.trans here, gone.trans ?_⟩
  cases removal with
  | file => exact Nat.le_refl _
  | directory => exact FileTree.gone_le_vacate _ _

/-- **A cleaning that succeeds clears** the directory of what its manifest lists. -/
theorem cleared_of_clean {t t' : FileTree} (sound : t.Sound) {dir : String} {count : Nat}
    (cleaned : t.run (clean dir) = (.ok count, t')) : Cleared dir (t.listed dir) t t' := by
  obtain ⟨soundLast, here, texts, -⟩ := clean_eq_ok sound cleaned
  have gone := gone_of_clean t dir
  have outcome := FileTree.outcome_of_removals (removals_of_clean t dir)
  rw [cleaned] at gone outcome
  cases read : t.manifest? dir with
  | none =>
      rw [FileTree.listed_of_none read] at texts ⊢
      exact ⟨soundLast, here, gone, texts, nofun, fun nonempty => absurd rfl nonempty⟩
  | some manifest =>
      have followed := follow_of_manifest? read
      rw [run_clean, read] at cleaned
      obtain ⟨_, _, removing, -⟩ := FileTree.run_bind_eq_ok cleaned
      have apart := not_directory_of_removeAll
        (fun names => FileTree.isName_of_mem_listed) sound followed removing
      refine ⟨soundLast, here, gone, texts, fun names member => ⟨apart names member, ?_⟩,
        fun _ => followed⟩
      cases outcome (destination t.here dir ++ names) with
      | same same =>
          -- a file would still be there, and a directory would have been in the way
          have text := texts (destination t.here dir ++ names)
          rw [if_pos ⟨names, member, rfl⟩] at text
          rw [same]
          rcases stands : t.lookup? (destination t.here dir ++ names) with _ | text' | _
          · rfl
          · rw [FileTree.text?_eq_some.mpr (same.trans stands)] at text
            cases text
          · exact absurd stands (apart names member)
      | file absent => exact absent
      | directory absent => exact absent

end OutputPlan

end ClientGen
