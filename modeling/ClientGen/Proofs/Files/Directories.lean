import ClientGen.Proofs.Files.Changes
import ClientGen.Proofs.Files.Following
import ClientGen.Proofs.Files.Running

/-!
# Directories with everything above them

A directory is made along its path: where something is missing, the directory above it is made
first. Whether all of them could be made or not, the tree has more directories afterwards, and
nothing else has changed.

* `Path.beginning_of_mem_ancestors` — what is above a path has the first ones of its steps.
* `FileTree.made`, `FileTree.madeFrom` — what making one directory and making several come to.
* `FileTree.Built` — directories have been added.
* `madeFrom_invariant` — what a new directory preserves, making directories preserves.
* `exists_locateNew_of_madeFrom` — every new directory stands where one of the paths leads.
-/

namespace ClientGen

namespace Path

/-- What is above a path without its last step has fewer steps, and they are the first ones. -/
theorem beginning_of_parent? {count : Nat} {path parent above : String}
    (without : parent? path = some parent) (member : above ∈ ancestorsUpTo count parent)
    (nonempty : above ≠ "") :
    isAbsolute above = isAbsolute path ∧
      ∃ more ≠ [], solidSteps path = solidSteps above ++ more := by
  induction count generalizing path parent with
  | zero => cases member
  | succ count ih =>
      rw [ancestorsUpTo, List.mem_cons] at member
      cases parent_of_parent? without with
      | single =>
          rw [show parent? "" = none from rfl] at member
          exact absurd (member.resolve_right List.not_mem_nil) nonempty
      | inside kind step solid =>
          rcases member with rfl | member
          · exact ⟨kind, [step], List.cons_ne_nil _ _, solid⟩
          · cases without' : parent? parent with
            | none =>
                rw [without'] at member
                cases member
            | some next =>
                rw [without'] at member
                obtain ⟨same, more, -, whole⟩ := ih without' member
                exact ⟨same.trans kind, more ++ [step], by simp, by
                  rw [solid, whole, List.append_assoc]⟩

/-- What is above a path has the first ones of its steps. -/
theorem beginning_of_mem_ancestors {path above : String} (member : above ∈ ancestors path)
    (nonempty : above ≠ "") :
    isAbsolute above = isAbsolute path ∧ ∃ more, solidSteps path = solidSteps above ++ more := by
  rw [ancestors, ancestorsUpTo, List.mem_cons] at member
  rcases member with rfl | member
  · exact ⟨rfl, [], (List.append_nil _).symm⟩
  · cases without : parent? path with
    | none =>
        rw [without] at member
        cases member
    | some parent =>
        rw [without] at member
        obtain ⟨kind, more, -, whole⟩ := beginning_of_parent? without member nonempty
        exact ⟨kind, more, whole⟩

end Path

/-! ## Making directories -/

namespace FileStore

variable {σ : Type} [FileStore (StateM σ)]

theorem run_unlessDirectory (s : σ) (path : String) (fault : FileFault) :
    StateT.run (unlessDirectory path fault : StateM σ _) s =
      (if (StateT.run (FileReader.isDirectory path : StateM σ _) s).1 then .ok () else .error fault,
        (StateT.run (FileReader.isDirectory path : StateM σ _) s).2) := by
  unfold unlessDirectory
  rw [StateT.run_bind]
  rcases StateT.run (FileReader.isDirectory path : StateM σ _) s with ⟨_ | _, s'⟩ <;> rfl

/-- One directory is made, or it is there already. -/
def madeOne (s : σ) (path : String) : Except FileFault Unit × σ :=
  match StateT.run (makeDirectory path : StateM σ _) s with
  | (.ok (), s') => (.ok (), s')
  | (.error fault, s') => StateT.run (unlessDirectory path fault : StateM σ _) s'

/-- Where something is missing on the way to a directory, those above it are made first. -/
theorem run_makeDirectoriesFrom_cons (s : σ) {path : String} (nonempty : path ≠ "")
    (above : List String) :
    StateT.run (makeDirectoriesFrom (path :: above) : StateM σ _) s =
      match StateT.run (makeDirectory path : StateM σ _) s with
      | (.error .missing, s') =>
        match StateT.run (makeDirectoriesFrom above : StateM σ _) s' with
        | (.ok (), s'') => madeOne s'' path
        | failed => failed
      | _ => madeOne s path := by
  rw [makeDirectoriesFrom, if_neg nonempty, StateT.run_bind]
  rcases making : StateT.run (makeDirectory path : StateM σ _) s with ⟨(_ | _) | _, s'⟩
  · show (StateT.run (makeDirectoriesFrom above >>= _) s' : Id _) =
      match StateT.run (makeDirectoriesFrom above : StateM σ _) s' with
      | (.ok (), s'') => madeOne s'' path
      | failed => failed
    rw [StateT.run_bind]
    rcases StateT.run (makeDirectoriesFrom above : StateM σ _) s' with ⟨fault | _, s''⟩
    · rfl
    · show (StateT.run (makeDirectory path >>= _) s'' : Id _) = madeOne s'' path
      rw [StateT.run_bind, madeOne]
      rcases StateT.run (makeDirectory path : StateM σ _) s'' with ⟨fault | _, u⟩ <;> rfl
  · simp only [madeOne, making]
    rfl
  · simp only [madeOne, making]
    rfl

end FileStore

namespace FileTree

open ClientGen.Path

/-- The directory at a path may be made or be there already. -/
def made (t : FileTree) (path : String) : Except FileFault Unit × FileTree :=
  match t.makeDirectory path with
  | .ok t' => (.ok (), t')
  | .error fault => (if t.isDirectory path then .ok () else .error fault, t)

/-- The outcome of making directories, each of which is inside the next one. -/
def madeFrom (t : FileTree) : List String → Except FileFault Unit × FileTree
  | [] => (.error .refused, t)
  | path :: above =>
    if path = "" then (.ok (), t)
    else match t.makeDirectory path with
    | .error .missing =>
      match t.madeFrom above with
      | (.ok (), t') => t'.made path
      | failed => failed
    | _ => t.made path

/-- Where nothing is missing above, a directory is made by itself. -/
theorem madeFrom_of_ne_missing {t : FileTree} {path : String} (solid : path ≠ "")
    (found : t.makeDirectory path ≠ .error .missing) (above : List String) :
    t.madeFrom (path :: above) = t.made path := by
  rw [madeFrom, if_neg solid]
  split
  · exact absurd ‹_› found
  · rfl

/-- Where something is missing above, it is made first. -/
theorem madeFrom_of_missing {t t' : FileTree} {path : String} (solid : path ≠ "")
    (missing : t.makeDirectory path = .error .missing) {above : List String}
    (outer : t.madeFrom above = (.ok (), t')) : t.madeFrom (path :: above) = t'.made path := by
  rw [madeFrom, if_neg solid, missing]
  simp only [outer]

theorem run_makeDirectoriesFrom (t : FileTree) (paths : List String) :
    StateT.run (FileStore.makeDirectoriesFrom paths : StateM FileTree _) t = t.madeFrom paths := by
  have one (u : FileTree) (path : String) : FileStore.madeOne u path = u.made path := by
    rw [FileStore.madeOne, made, run_makeDirectory]
    rcases u.makeDirectory path with fault | u'
    · exact FileStore.run_unlessDirectory u path fault
    · rfl
  induction paths with
  | nil => rfl
  | cons path above ih =>
      by_cases empty : path = ""
      · simp only [FileStore.makeDirectoriesFrom, madeFrom, if_pos empty]
        rfl
      · rw [FileStore.run_makeDirectoriesFrom_cons t empty, madeFrom, if_neg empty,
          run_makeDirectory]
        simp only [one]
        rcases t.makeDirectory path with (_ | _) | t'
        · simp only [FileStore.changed, ih]
          rcases t.madeFrom above with ⟨_ | _, _⟩ <;> rfl
        · rfl
        · rfl

/-- **A directory with everything above it** is made along the path and everything above it. -/
theorem run_makeDirectories (t : FileTree) (path : String) :
    StateT.run (FileStore.makeDirectories path : StateM FileTree _) t =
      t.madeFrom (Path.ancestors path) :=
  run_makeDirectoriesFrom t _

/-! ## Adding directories -/

/-- **Directories have been added**, and nothing else has changed. -/
structure Built (t t' : FileTree) : Prop where
  /-- The working directory is the same. -/
  here : t'.here = t.here
  /-- As much of it has been removed. -/
  gone : t'.gone = t.gone
  /-- A place is as it was, or there is a directory now where nothing was. -/
  place : ∀ place, t'.lookup? place = t.lookup? place ∨
    t.lookup? place = none ∧ t'.lookup? place = some .directory

namespace Built

variable {t t' : FileTree}

theorem refl (t : FileTree) : Built t t := ⟨rfl, rfl, fun _ => .inl rfl⟩

theorem grown (built : Built t t') : Grown t t' := by
  refine ⟨built.here, built.gone, fun place directory => ?_⟩
  rcases built.place place with same | ⟨absent, -⟩
  · rw [same, directory]
  · rw [directory] at absent
    cases absent

theorem text?_eq (built : Built t t') (place : List String) : t'.text? place = t.text? place := by
  rcases built.place place with same | ⟨absent, directory⟩
  · exact text?_congr same
  · rw [text?_eq_none_of_directory directory, text?, absent]

theorem put (built : Built t t') {place : List String} (inner : place ≠ [])
    (absent : t'.lookup? place = none) : Built t (t'.put place .directory) := by
  refine ⟨built.here, built.gone, fun other => ?_⟩
  rw [lookup?_put inner]
  split
  · rename_i same
    subst same
    rcases built.place other with same | ⟨-, directory⟩
    · exact .inr ⟨same ▸ absent, rfl⟩
    · rw [absent] at directory
      cases directory
  · exact built.place other

end Built

variable {P : FileTree → Prop}

/-- Making one directory preserves what a new directory preserves. -/
theorem made_invariant (sound : ∀ t, P t → t.Sound)
    (put : ∀ t, P t → ∀ place, place ≠ [] → t.lookup? place = none →
      t.lookup? place.dropLast = some .directory → P (t.put place .directory))
    {t : FileTree} (holds : P t) (path : String) : P (t.made path).2 := by
  unfold made
  cases making : t.makeDirectory path with
  | error fault => exact holds
  | ok t' =>
      obtain ⟨inner, absent, parent, rfl⟩ := makeDirectory_eq_ok (sound t holds) making
      exact put t holds _ inner absent parent

/-- Making directories preserves what each new directory preserves. -/
theorem madeFrom_invariant (sound : ∀ t, P t → t.Sound)
    (put : ∀ t, P t → ∀ place, place ≠ [] → t.lookup? place = none →
      t.lookup? place.dropLast = some .directory → P (t.put place .directory))
    {t : FileTree} (holds : P t) (paths : List String) : P (t.madeFrom paths).2 := by
  induction paths with
  | nil => exact holds
  | cons path above ih =>
      unfold madeFrom
      split
      · exact holds
      · split
        · rcases made : t.madeFrom above with ⟨fault | _, t'⟩
          · rwa [made] at ih
          · rw [made] at ih
            exact made_invariant sound put ih path
        · exact made_invariant sound put holds path

/-- Making a directory with everything above it adds directories. -/
theorem built_madeFrom {t : FileTree} (sound : t.Sound) (paths : List String) :
    (t.madeFrom paths).2.Sound ∧ Built t (t.madeFrom paths).2 := by
  refine madeFrom_invariant (P := fun u => u.Sound ∧ Built t u) (fun u kept => kept.1) ?_
    ⟨sound, .refl t⟩ paths
  intro u ⟨soundHere, built⟩ place inner absent parent
  exact ⟨soundHere.put inner (by rw [absent]; nofun) parent .directory, built.put inner absent⟩

/-! ## Which directories are made -/

/-- A directory that is made stands where its path leads. -/
theorem locateNew_of_made {t : FileTree} {path : String} {place : List String}
    (absent : t.lookup? place ≠ some .directory)
    (there : (t.made path).2.lookup? place = some .directory) :
    t.locateNew path = .ok place := by
  unfold made at there
  cases making : t.makeDirectory path with
  | error fault =>
      rw [making] at there
      exact absurd there absent
  | ok t' =>
      rw [making] at there
      obtain ⟨located, locating, making⟩ := bind_eq_ok_iff.mp making
      split at making
      · rename_i nothing
        cases making
        have inner : located ≠ [] := by
          rintro rfl
          cases nothing
        rw [lookup?_put inner] at there
        split at there
        · rename_i same
          rw [same, locating]
        · exact absurd there absent
      · cases making

/-- Directories that are made stand where one of the paths leads once some of them are made. -/
theorem exists_locateNew_of_madeFrom {t : FileTree} (sound : t.Sound) {paths : List String}
    {place : List String} (absent : t.lookup? place ≠ some .directory)
    (there : (t.madeFrom paths).2.lookup? place = some .directory) :
    ∃ path ∈ paths, path ≠ "" ∧ ∃ u, Built t u ∧ u.locateNew path = .ok place := by
  induction paths with
  | nil => exact absurd there absent
  | cons path above ih =>
      unfold madeFrom at there
      split at there
      · exact absurd there absent
      · rename_i nonempty
        have direct (made : (t.made path).2.lookup? place = some .directory) :
            ∃ p ∈ path :: above, p ≠ "" ∧ ∃ u, Built t u ∧ u.locateNew p = .ok place :=
          ⟨path, List.mem_cons_self .., nonempty, t, .refl t, locateNew_of_made absent made⟩
        have above_ (made : (t.madeFrom above).2.lookup? place = some .directory) :
            ∃ p ∈ path :: above, p ≠ "" ∧ ∃ u, Built t u ∧ u.locateNew p = .ok place := by
          obtain ⟨p, member, rest⟩ := ih made
          exact ⟨p, List.mem_cons_of_mem _ member, rest⟩
        split at there
        · have built := (built_madeFrom sound above).2
          rcases made : t.madeFrom above with ⟨fault | _, u⟩
          · rw [made] at there above_
            exact above_ there
          · rw [made] at there above_ built
            by_cases present : u.lookup? place = some .directory
            · exact above_ present
            · exact ⟨path, List.mem_cons_self .., nonempty, u, built,
                locateNew_of_made present there⟩
        · exact direct there

end FileTree

end ClientGen
