import ClientGen.Files.System
import ClientGen.Proofs.Files.Parts

/-!
# Rights and names of files

A request to a file system does what it does in the tree, or it is refused. What it leaves is the
tree that it leaves there, as long as a file that is written has no other name.

* `FileSystem.IsAlone` — writing at a place changes no other place.
* `FileSystem.Single` — a tree that can be, with places that are alone.
* `removeFile_eq_ok`, `removeDirectory_eq_ok`, `makeDirectory_eq_ok`, `writeText_eq_ok` — a request
  that succeeds does so in the tree, and the places stay alone.
* `makeDirectory_eq_missing`, `removeFile_eq_missing`, `isEmpty_eq_missing` — what is said to be
  missing is missing in the tree.
* `passes_of_search`, `search_of_passes` — a path may be followed iff directories may be searched.
* `reading_of_passes`, `removing_of_passes`, `makeDirectory_of_passes`, `writeText_of_passes` — a
  request that no right is missing for does what it does in the tree, errors included.

The two directions are kept apart. From a request that has succeeded nothing has to be known about
rights, since the tree has succeeded too. That a request will succeed needs the rights along its
path and at its place, and then the answer of the tree is the answer of the file system.
-/

namespace ClientGen

open ClientGen.Path

namespace FileSystem

variable {α : Type} {s s' : FileSystem} {place other : List String} {path : String}

/-! ## What is stated about places -/

/-- Nothing is stated any more about a place that is forgotten. -/
theorem rightsAt_forget (place : List String) (s : FileSystem) (other : List String) :
    (s.forget place).rightsAt other = if other = place then {} else s.rightsAt other := by
  unfold rightsAt forget
  rw [FileTree.lookup_filter_ne]
  split <;> rfl

/-- What is new has the rights that new things get. -/
theorem rightsAt_renew (place : List String) (s : FileSystem) (other : List String) :
    (s.renew place).rightsAt other = if other = place then s.fresh else s.rightsAt other := by
  by_cases same : other = place
  · simp [rightsAt, renew, same]
  · have differs : (other == place) = false := by simpa using same
    have kept := rightsAt_forget place s other
    rw [if_neg same] at kept ⊢
    rw [← kept, rightsAt, renew, List.lookup_cons, differs]
    rfl

theorem others_congr (numbers : s'.numbers = s.numbers) (place : List String) :
    s'.others place = s.others place := by
  unfold others
  rw [numbers]

/-- A place has no other names if no other place has its number. -/
theorem others_eq_nil : s.others place = [] ↔
    ∀ number, s.numbers.lookup place = some number →
      ∀ other, other ≠ place → s.numbers.lookup other ≠ some number := by
  unfold others
  cases own : s.numbers.lookup place with
  | none => simp
  | some number =>
      simp only [List.filter_eq_nil_iff, Option.some.injEq, forall_eq']
      constructor
      · intro none other differs same
        obtain ⟨before, after, split, -⟩ := List.lookup_eq_some_iff.mp same
        refine none other ?_ (by simp [differs, same])
        rw [split]
        simp
      · intro alone other _ found
        simp only [Bool.and_eq_true, bne_iff_ne, beq_iff_eq] at found
        exact alone other found.1 found.2

theorem lookup_numbers_forget (place : List String) (s : FileSystem) (other : List String) :
    (s.forget place).numbers.lookup other =
      if other = place then none else s.numbers.lookup other :=
  FileTree.lookup_filter_ne ..

/-- What has no other names gets none when something is forgotten. -/
theorem others_forget (alone : s.others other = []) (place : List String) :
    (s.forget place).others other = [] := by
  rw [others_eq_nil] at alone ⊢
  intro number own third differs
  rw [lookup_numbers_forget] at own ⊢
  split at own
  · cases own
  · split
    · nofun
    · exact alone number own third differs

/-- What is forgotten has no other names. -/
theorem others_forget_self (place : List String) (s : FileSystem) :
    (s.forget place).others place = [] := by
  rw [others_eq_nil, lookup_numbers_forget, if_pos rfl]
  nofun

/-! ## Requests that are allowed -/

/-- A request that has a result is allowed. -/
theorem allow_eq_ok {allowed : Bool} {result : Except FileFault α} {a : α}
    (done : allow allowed result = .ok a) : allowed = true ∧ result = .ok a := by
  unfold allow at done
  split at done
  · exact ⟨‹_›, done⟩
  · cases done

/-- A request that finds nothing is allowed: what is not allowed is refused. -/
theorem allow_eq_missing {allowed : Bool} {result : Except FileFault α}
    (failed : allow allowed result = .error .missing) :
    allowed = true ∧ result = .error .missing := by
  unfold allow at failed
  split at failed
  · exact ⟨‹_›, failed⟩
  · cases failed

@[simp] theorem allow_true (result : Except FileFault α) : allow true result = result :=
  rfl

/-- What is found out is what is found out in the tree. -/
theorem reading_eq_ok {question : FileTree → String → Except FileFault α} {a : α}
    (asked : s.reading question path = .ok a) : question s.tree path = .ok a := by
  obtain ⟨_, _, asked⟩ := bind_eq_ok_iff.mp (allow_eq_ok asked).2
  exact (allow_eq_ok asked).2

/-- What is said to be missing is missing in the tree. -/
theorem reading_eq_missing {question : FileTree → String → Except FileFault α}
    (passed_on : s.tree.find path = .error .missing → question s.tree path = .error .missing)
    (asked : s.reading question path = .error .missing) :
    question s.tree path = .error .missing := by
  have failed := (allow_eq_missing asked).2
  cases found : s.tree.find path with
  | error fault =>
      rw [found] at failed
      cases failed
      exact passed_on found
  | ok result =>
      rw [found] at failed
      exact (allow_eq_missing failed).2

theorem isDirectory_eq_true (there : s.isDirectory path = true) :
    s.tree.isDirectory path = true :=
  (Bool.and_eq_true_iff.mp there).2

/-! ## Places that are alone -/

/-- **A place is alone** if writing there changes no other place: no file is there, or the file has
no other name. -/
def IsAlone (s : FileSystem) (place : List String) : Prop :=
  s.tree.text? place = none ∨ s.others place = []

/-- A file at a place that is alone has no other name. -/
theorem IsAlone.others_eq_nil (alone : s.IsAlone place) {text : String}
    (file : s.tree.lookup? place = some (.file text)) : s.others place = [] := by
  refine alone.resolve_left fun absent => ?_
  rw [FileTree.text?_eq_some.mpr file] at absent
  cases absent

/-- **A tree that can be, with places that are alone.** -/
structure Single (here : List String) (places : List (List String)) (s : FileSystem) : Prop where
  /-- The tree can be. -/
  sound : s.tree.Sound
  /-- The working directory. -/
  here : s.tree.here = here
  /-- The places are alone. -/
  alone : ∀ place ∈ places, s.IsAlone place

variable {here : List String} {places : List (List String)}

/-- Places stay alone where nothing becomes a file, and nothing but a place is forgotten. -/
theorem Single.forgotten (single : Single here places s) (sound : s'.tree.Sound)
    (same : s'.tree.here = s.tree.here)
    (texts : ∀ other, s.tree.text? other = none → s'.tree.text? other = none)
    (numbers : s'.numbers = (s.forget place).numbers) : Single here places s' := by
  refine ⟨sound, same.trans single.here, fun other member => ?_⟩
  rcases single.alone other member with absent | alone
  · exact .inl (texts other absent)
  · exact .inr ((others_congr numbers other).trans (others_forget alone place))

/-- What has been removed has been removed in the tree, and the place is forgotten. -/
theorem removing_eq_ok {change : String → FileTree → Except FileFault FileTree}
    (removed : s.removing change path = .ok s') :
    change path s.tree = .ok s'.tree ∧
      s' = { s.forget (destination s.tree.here path) with tree := s'.tree } := by
  obtain ⟨⟨place, entry⟩, found, removed⟩ := bind_eq_ok_iff.mp (allow_eq_ok removed).2
  obtain ⟨t, changed, removed⟩ := bind_eq_ok_iff.mp removed
  obtain ⟨rfl, -⟩ := FileTree.find_eq_ok found
  cases (allow_eq_ok removed).2
  exact ⟨changed, rfl⟩

/-- What cannot be removed because it is missing is missing in the tree. -/
theorem removing_eq_missing {change : String → FileTree → Except FileFault FileTree}
    (passed_on : s.tree.find path = .error .missing → change path s.tree = .error .missing)
    (failed : s.removing change path = .error .missing) :
    change path s.tree = .error .missing := by
  have failed := (allow_eq_missing failed).2
  cases found : s.tree.find path with
  | error fault =>
      rw [found] at failed
      cases failed
      exact passed_on found
  | ok result =>
      rw [found] at failed
      cases changed : change path s.tree with
      | error fault =>
          simp only [bind, Except.bind, changed] at failed
          cases failed
          rfl
      | ok t =>
          simp only [bind, Except.bind, changed] at failed
          cases (allow_eq_missing failed).2

theorem removeFile_eq_missing (failed : s.removeFile path = .error .missing) :
    s.tree.removeFile path = .error .missing :=
  removing_eq_missing (fun missing => by rw [FileTree.removeFile, missing]; rfl) failed

theorem isEmpty_eq_missing (failed : s.isEmpty path = .error .missing) :
    s.tree.isEmpty path = .error .missing :=
  reading_eq_missing (fun missing => by rw [FileTree.isEmpty, missing]; rfl) failed

/-- **A file that is removed** is removed in the tree. A file that has another name keeps it. -/
theorem removeFile_eq_ok (single : Single here places s) (removed : s.removeFile path = .ok s') :
    s.tree.removeFile path = .ok s'.tree ∧ Single here places s' := by
  obtain ⟨done, same⟩ := removing_eq_ok removed
  obtain ⟨⟨text, file⟩, erased⟩ := FileTree.removeFile_eq_ok done
  rw [same, erased]
  refine ⟨erased ▸ done, single.forgotten (single.sound.erase_file file) rfl ?_ rfl⟩
  intro other absent
  rw [FileTree.text?_erase (FileTree.ne_nil_of_file file), absent, ite_self]

/-- A directory that is removed is removed in the tree. -/
theorem removeDirectory_eq_ok (single : Single here places s)
    (removed : s.removeDirectory path = .ok s') :
    s.tree.removeDirectory path = .ok s'.tree ∧ Single here places s' := by
  obtain ⟨done, same⟩ := removing_eq_ok removed
  obtain ⟨inner, directory, empty, vacated⟩ := FileTree.removeDirectory_eq_ok done
  rw [same, vacated]
  refine ⟨vacated ▸ done,
    single.forgotten (single.sound.vacate inner directory empty) rfl ?_ rfl⟩
  intro other absent
  rw [FileTree.text?_vacate inner, absent, ite_self]

/-- A directory that cannot be made because something is missing cannot be made in the tree. -/
theorem makeDirectory_eq_missing (failed : s.makeDirectory path = .error .missing) :
    s.tree.makeDirectory path = .error .missing := by
  have failed := (allow_eq_missing failed).2
  cases located : s.tree.locateNew path with
  | error fault =>
      rw [located] at failed
      cases failed
      rw [FileTree.makeDirectory, located]
      rfl
  | ok place =>
      rw [located] at failed
      cases made : s.tree.makeDirectory path with
      | error fault =>
          simp only [bind, Except.bind, made] at failed
          cases failed
          rfl
      | ok t =>
          simp only [bind, Except.bind, made] at failed
          cases (allow_eq_missing failed).2

/-- A directory that is made is made in the tree. No place becomes a file by that. -/
theorem makeDirectory_eq_ok (single : Single here places s)
    (made : s.makeDirectory path = .ok s') :
    s.tree.makeDirectory path = .ok s'.tree ∧ Single here places s' := by
  obtain ⟨place, located, made⟩ := bind_eq_ok_iff.mp (allow_eq_ok made).2
  obtain ⟨t, done, made⟩ := bind_eq_ok_iff.mp made
  cases (allow_eq_ok made).2
  obtain ⟨inner, absent, parent, rfl⟩ := FileTree.makeDirectory_eq_ok single.sound done
  refine ⟨done, single.forgotten
    (single.sound.put inner (by rw [absent]; nofun) parent .directory) rfl ?_ rfl⟩
  intro other nothing
  exact (((FileTree.Built.refl s.tree).put inner absent).text?_eq other).trans nothing

/-- What is written where a place is alone is written in the tree. -/
theorem writeText_eq_ok {text : String} (single : Single here places s)
    (member : destination s.tree.here path ∈ places) (written : s.writeText path text = .ok s') :
    s.tree.writeText path text = .ok s'.tree ∧ Single here places s' := by
  obtain ⟨place, located, written⟩ := bind_eq_ok_iff.mp (allow_eq_ok written).2
  obtain ⟨t, done, written⟩ := bind_eq_ok_iff.mp written
  obtain rfl := FileTree.locate_eq located
  obtain ⟨-, inner, other, parent, rfl⟩ := FileTree.writeText_eq_ok single.sound done
  have sound := single.sound.put inner other parent (.file text)
  -- a place is alone that is not written, or if the file that is written has no other name
  have alone {u : FileSystem} (tree : u.tree = s.tree.put (destination s.tree.here path) (.file text))
      (own : u.others (destination s.tree.here path) = [])
      (kept : ∀ other, s.others other = [] → u.others other = []) :
      ∀ place ∈ places, u.IsAlone place := by
    intro place member
    by_cases same : place = destination s.tree.here path
    · exact .inr (same ▸ own)
    · rcases single.alone place member with absent | alone
      · refine .inl ?_
        rw [tree, FileTree.text?_put_file inner, if_neg same, absent]
      · exact .inr (kept place alone)
  cases stands : s.tree.lookup? (destination s.tree.here path) with
  | none =>
      rw [stands] at written
      cases (allow_eq_ok written).2
      exact ⟨done, sound, single.here, alone rfl (others_forget_self _ s)
        fun _ nothing => others_forget nothing _⟩
  | some entry =>
      rw [stands] at written
      obtain ⟨old, rfl⟩ : ∃ old, entry = .file old := by
        cases entry with
        | file old => exact ⟨old, rfl⟩
        | directory => exact absurd stands other
      have nothing := (single.alone _ member).others_eq_nil stands
      rw [nothing] at written
      cases (allow_eq_ok written).2
      exact ⟨done, sound, single.here, alone rfl nothing fun _ nothing => nothing⟩

/-- Writing changes the rights of no other place. -/
theorem rightsAt_of_writeText {text : String} (written : s.writeText path text = .ok s')
    (differs : other ≠ destination s.tree.here path) : s'.rightsAt other = s.rightsAt other := by
  obtain ⟨place, located, written⟩ := bind_eq_ok_iff.mp (allow_eq_ok written).2
  obtain ⟨t, -, written⟩ := bind_eq_ok_iff.mp written
  obtain rfl := FileTree.locate_eq located
  split at written
  · cases (allow_eq_ok written).2
    exact (rightsAt_renew ..).trans (if_neg differs)
  · cases (allow_eq_ok written).2
    rfl

/-! ## Paths that may be followed -/

/-- A path may be followed through directories that may be searched. -/
theorem passesFrom_of_search {steps : List (List Char)}
    (search : ∀ front, front <+: steps.filter (!isVoid ·) →
      (s.rightsAt (front.foldl move place)).search = true) :
    s.passesFrom place steps = true := by
  induction steps generalizing place with
  | nil => rfl
  | cons step steps ih =>
      have here : (s.rightsAt place).search = true := search [] List.nil_prefix
      rw [passesFrom, here, Bool.or_true, Bool.true_and]
      split
      · rename_i next stepped
        rw [(FileTree.step_eq_ok stepped).2]
        refine ih fun front beginning => ?_
        by_cases void : isVoid step = true
        · rw [move_void void]
          refine search front ?_
          rwa [List.filter_cons_of_neg (by simp [void])]
        · refine search (step :: front) ?_
          rw [List.filter_cons_of_pos (by simpa using void)]
          exact List.cons_prefix_cons.mpr ⟨rfl, beginning⟩
      · rfl

/-- A path may be followed where each directory may be searched from which a solid step is made. -/
theorem passes_of_search
    (search : ∀ first rest, s.tree.start path (solidSteps path) = .ok (first, rest) →
      ∀ front, front <+: rest → (s.rightsAt (front.foldl move first)).search = true) :
    s.passes path = true := by
  unfold passes
  split
  · rename_i first rest started
    refine passesFrom_of_search (search first _ ?_)
    rw [solidSteps, FileTree.start_filter, started]
    rfl
  · rfl

/-- Where a path has been followed, its solid steps were made in directories that may be
searched. -/
theorem search_of_passesFrom {steps : List (List Char)} (passes : s.passesFrom place steps = true)
    {last : List String} (walked : steps.foldlM s.tree.step place = .ok last)
    {front rest : List (List Char)} {next : List Char}
    (split : steps.filter (!isVoid ·) = front ++ next :: rest) :
    (s.rightsAt (front.foldl move place)).search = true := by
  induction steps generalizing place front with
  | nil => simp at split
  | cons step steps ih =>
      rw [List.foldlM_cons] at walked
      obtain ⟨_, stepped, walked⟩ := bind_eq_ok_iff.mp walked
      rw [passesFrom, stepped, Bool.and_eq_true] at passes
      rw [(FileTree.step_eq_ok stepped).2] at walked passes
      by_cases void : isVoid step = true
      · rw [List.filter_cons_of_neg (by simp [void])] at split
        rw [move_void void] at walked passes
        exact ih passes.2 walked split
      · rw [List.filter_cons_of_pos (by simpa using void)] at split
        cases front with
        | nil =>
            refine (Bool.or_eq_true_iff.mp passes.1).resolve_left fun empty => void ?_
            rw [beq_iff_eq.mp empty]
            rfl
        | cons first front =>
            rw [List.cons_append, List.cons_eq_cons] at split
            obtain ⟨rfl, split⟩ := split
            exact ih passes.2 walked split

/-- A directory along a path that may be followed may be searched, if the path goes on from it. -/
theorem search_of_passes (passes : s.passes path = true) (located : s.tree.locate path = .ok place)
    {first : List String} {front rest : List (List Char)} {next : List Char}
    (started : s.tree.start path (solidSteps path) = .ok (first, front ++ next :: rest)) :
    (s.rightsAt (front.foldl move first)).search = true := by
  obtain ⟨⟨origin, steps⟩, found, walked⟩ :=
    bind_eq_ok_iff.mp (FileTree.walk_eq_ok_iff.mp located).2
  rw [FileSystem.passes, found] at passes
  rw [solidSteps, FileTree.start_filter, found] at started
  obtain ⟨rfl, split⟩ := Prod.mk.inj (Except.ok.inj started)
  exact search_of_passesFrom passes walked split

/-- Steps may still be made where the rights of directories are the same. -/
theorem passesFrom_of_grown (grown : FileTree.Grown s.tree s'.tree)
    (rights : ∀ place, s.tree.lookup? place = some .directory →
      s'.rightsAt place = s.rightsAt place) {steps : List (List Char)} {last : List String}
    (walked : steps.foldlM s.tree.step place = .ok last) (passes : s.passesFrom place steps = true) :
    s'.passesFrom place steps = true := by
  induction steps generalizing place with
  | nil => rfl
  | cons step steps ih =>
      rw [List.foldlM_cons] at walked
      obtain ⟨_, stepped, walked⟩ := bind_eq_ok_iff.mp walked
      rw [passesFrom, stepped, Bool.and_eq_true] at passes
      rw [passesFrom, grown.step stepped, rights _ (FileTree.step_eq_ok stepped).1, passes.1]
      exact ih walked passes.2

/-- A path may still be followed where the rights of directories are the same. -/
theorem passes_of_grown (grown : FileTree.Grown s.tree s'.tree)
    (rights : ∀ place, s.tree.lookup? place = some .directory →
      s'.rightsAt place = s.rightsAt place)
    (located : s.tree.locate path = .ok place) (passes : s.passes path = true) :
    s'.passes path = true := by
  obtain ⟨⟨first, steps⟩, started, walked⟩ :=
    bind_eq_ok_iff.mp (FileTree.walk_eq_ok_iff.mp located).2
  have later : s'.tree.start path (Path.steps path) = .ok (first, steps) := by
    rw [FileTree.start, grown.here, grown.gone]
    exact started
  rw [FileSystem.passes, started] at passes
  rw [FileSystem.passes, later]
  exact passesFrom_of_grown grown rights walked passes

/-- The path of a file that has been written may be followed to it. -/
theorem passes_of_writeText {here : List String} {places : List (List String)} {text : String}
    (single : Single here places s) (member : destination s.tree.here path ∈ places)
    (written : s.writeText path text = .ok s') : s'.passes path = true := by
  obtain ⟨inTree, -⟩ := writeText_eq_ok single member written
  obtain ⟨located, inner, other, -, put⟩ := FileTree.writeText_eq_ok single.sound inTree
  have grown : FileTree.Grown s.tree s'.tree := put ▸ .put_file inner other text
  refine passes_of_grown grown (fun place directory => ?_) located (allow_eq_ok written).1
  refine rightsAt_of_writeText written ?_
  rintro rfl
  exact other directory

/-! ## Requests that nothing is in the way of -/

/-- A question about something that may be read has the answer that it has in the tree. -/
theorem reading_of_passes {question : FileTree → String → Except FileFault α}
    (passed_on : ∀ fault, s.tree.find path = .error fault → question s.tree path = .error fault)
    (passes : s.passes path = true)
    (readable : (s.rightsAt (destination s.tree.here path)).read = true) :
    s.reading question path = question s.tree path := by
  rw [reading, passes, allow_true]
  cases found : s.tree.find path with
  | error fault => exact (passed_on fault found).symm
  | ok result =>
      obtain ⟨place, entry⟩ := result
      obtain ⟨rfl, -⟩ := FileTree.find_eq_ok found
      show allow (s.rightsAt (destination s.tree.here path)).read _ = _
      rw [readable, allow_true]

/-- What may be removed is removed as in the tree. -/
theorem removing_of_passes {change : String → FileTree → Except FileFault FileTree}
    (passed_on : ∀ fault, s.tree.find path = .error fault → change path s.tree = .error fault)
    (passes : s.passes path = true) (opens : s.opens (destination s.tree.here path) = true)
    (removable : (s.rightsAt (destination s.tree.here path)).remove = true) :
    s.removing change path = (change path s.tree).map fun tree =>
      { s.forget (destination s.tree.here path) with tree } := by
  rw [removing, passes, allow_true]
  cases found : s.tree.find path with
  | error fault =>
      rw [passed_on fault found]
      rfl
  | ok result =>
      obtain ⟨place, entry⟩ := result
      obtain ⟨rfl, -⟩ := FileTree.find_eq_ok found
      cases changed : change path s.tree with
      | error fault => simp only [bind, Except.bind, Except.map]
      | ok t =>
          simp only [bind, Except.bind, Except.map, opens, removable, Bool.and_self, allow_true]

/-- What may be made is made as in the tree. -/
theorem makeDirectory_of_passes (passes : s.passes path = true)
    (opens : ∀ t, s.tree.makeDirectory path = .ok t →
      s.opens (destination s.tree.here path) = true) :
    s.makeDirectory path = (s.tree.makeDirectory path).map fun tree =>
      { s.renew (destination s.tree.here path) with tree } := by
  rw [makeDirectory, passes, allow_true]
  cases located : s.tree.locateNew path with
  | error fault =>
      rw [FileTree.makeDirectory, located]
      rfl
  | ok place =>
      obtain rfl := FileTree.locateNew_eq located
      cases made : s.tree.makeDirectory path with
      | error fault => simp only [bind, Except.bind, Except.map]
      | ok t => simp only [bind, Except.bind, Except.map, opens t made, allow_true]

/-- What may be written is written as in the tree, if it has no other name. -/
theorem writeText_of_passes (text : String) (alone : s.IsAlone (destination s.tree.here path))
    (passes : s.passes path = true) (opens : s.opens (destination s.tree.here path) = true)
    (writable : (s.rightsAt (destination s.tree.here path)).write = true) :
    (∀ fault, s.tree.writeText path text = .error fault → s.writeText path text = .error fault) ∧
      ∀ t, s.tree.writeText path text = .ok t → ∃ s', s.writeText path text = .ok s' ∧
        s'.tree = t ∧ s'.fresh = s.fresh ∧
        (s'.rightsAt (destination s.tree.here path) = s.rightsAt (destination s.tree.here path) ∨
          s'.rightsAt (destination s.tree.here path) = s.fresh) := by
  rw [writeText, passes, allow_true]
  cases located : s.tree.locate path with
  | error fault =>
      rw [FileTree.writeText, located]
      exact ⟨fun _ failed => by cases failed; rfl, fun _ done => by cases done⟩
  | ok place =>
      obtain rfl := FileTree.locate_eq located
      refine ⟨fun fault failed => ?_, fun t done => ?_⟩
      · simp only [bind, Except.bind, failed]
      · rcases stands : s.tree.lookup? (destination s.tree.here path) with _ | old | _
        · simp only [bind, Except.bind, done, stands, opens, allow_true]
          exact ⟨_, rfl, rfl, rfl, .inr ((rightsAt_renew ..).trans (if_pos rfl))⟩
        · simp only [bind, Except.bind, done, stands, writable, allow_true,
            alone.others_eq_nil stands, List.foldl_nil]
          exact ⟨_, rfl, rfl, rfl, .inl rfl⟩
        · simp only [FileTree.writeText, located, bind, Except.bind, stands] at done
          cases done

end FileSystem

end ClientGen
