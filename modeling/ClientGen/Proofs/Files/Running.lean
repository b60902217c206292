import ClientGen.Output.Plan
import ClientGen.Proofs.Files.Destination

/-!
# Running steps of writing

A step of writing takes a store to a result and another store. The store that an error leaves behind
is the one in which it came up, so nothing is undone.

* `OutputPlan.runOn` — the result of a step of writing, and the store after it, for any store that
  is a value.
* `FileTree.run` — the same on a tree.
* `run_bind_cases` — two steps: the first one fails, or the second one goes on where it stopped.
* `run_bind_of_ok` — going on after a step that is known to succeed.
* `run_bind_invariant` — what both steps preserve, they preserve together, errors included.
-/

namespace ClientGen

/-! ## Any store -/

namespace OutputPlan

variable {σ α β : Type}

/-- **The result of a step of writing, and the store after it.** -/
def runOn (s : σ) (step : Writing (StateM σ) α) : Except OutputError α × σ :=
  StateT.run (ExceptT.run step) s

/-- After a step that succeeds the next one goes on where it stopped. -/
theorem runOn_bind_of_ok {s s' : σ} {step : Writing (StateM σ) α}
    {next : α → Writing (StateM σ) β} {a : α} (first : runOn s step = (.ok a, s')) :
    runOn s (step >>= next) = runOn s' (next a) := by
  unfold runOn at *
  rw [ExceptT.run_bind, StateT.run_bind, first]
  rfl

/-- After a step that fails the next one is not begun. -/
theorem runOn_bind_of_error {s s' : σ} {step : Writing (StateM σ) α}
    {next : α → Writing (StateM σ) β} {e : OutputError} (first : runOn s step = (.error e, s')) :
    runOn s (step >>= next) = (.error e, s') := by
  unfold runOn at *
  rw [ExceptT.run_bind, StateT.run_bind, first]
  rfl

/-- Two steps succeed if both do. -/
theorem runOn_bind_eq_ok {s s' : σ} {step : Writing (StateM σ) α}
    {next : α → Writing (StateM σ) β} {b : β} (both : runOn s (step >>= next) = (.ok b, s')) :
    ∃ a middle, runOn s step = (.ok a, middle) ∧ runOn middle (next a) = (.ok b, s') := by
  rcases first : runOn s step with ⟨e | a, middle⟩
  · rw [runOn_bind_of_error first] at both
    cases both
  · exact ⟨a, middle, rfl, runOn_bind_of_ok first ▸ both⟩

/-- A request as a step. -/
theorem runOn_attempt (s : σ) (action : OutputAction) (path : String)
    (request : StateM σ (Except FileFault α)) :
    runOn s (attempt action path request) =
      ((StateT.run request s).1.mapError (.store action path), (StateT.run request s).2) := by
  unfold runOn attempt
  rw [ExceptT.run_mk, StateT.run_bind]
  rcases StateT.run request s with ⟨fault | a, s'⟩ <;> rfl

/-- A request that succeeds as a step succeeds by itself. -/
theorem attempt_eq_ok {s s' : σ} {action : OutputAction} {path : String}
    {request : StateM σ (Except FileFault α)} {a : α}
    (attempted : runOn s (attempt action path request) = (.ok a, s')) :
    StateT.run request s = (.ok a, s') := by
  rw [runOn_attempt] at attempted
  rcases asked : StateT.run request s with ⟨fault | b, u⟩
  · rw [asked] at attempted
    cases attempted
  · rw [asked] at attempted
    cases attempted
    rfl

/-- A store is changed to what the request gives. -/
theorem changed_eq_ok {s s' : σ} {result : Except FileFault σ}
    (done : FileStore.changed s result = (.ok (), s')) : result = .ok s' := by
  cases result with
  | error fault => cases done
  | ok u =>
      cases done
      rfl

/-- A request as a step that always succeeds. -/
theorem runOn_lift (s : σ) (request : StateM σ α) :
    runOn s (liftM request) = (.ok (StateT.run request s).1, (StateT.run request s).2) := rfl

variable [FileStore (StateM σ)]

/-- Something that is not there does not have to be removed. -/
theorem runOn_removeListed (s : σ) (path : String) :
    runOn s (removeListed path) =
      match StateT.run (FileStore.removeFile path : StateM σ _) s with
      | (.ok (), s') => (.ok true, s')
      | (.error .missing, s') => (.ok false, s')
      | (.error fault, s') => (.error (.store .remove path fault), s') := by
  unfold runOn removeListed
  rw [ExceptT.run_mk, StateT.run_bind]
  rcases StateT.run (FileStore.removeFile path : StateM σ _) s with ⟨(_ | _) | _, s'⟩ <;> rfl

/-- Something that is not there is no empty directory. -/
theorem runOn_isEmptied (s : σ) (path : String) :
    runOn s (isEmptied path) =
      match StateT.run (FileReader.isEmpty path : StateM σ _) s with
      | (.ok empty, s') => (.ok empty, s')
      | (.error .missing, s') => (.ok false, s')
      | (.error fault, s') => (.error (.store .readDirectory path fault), s') := by
  unfold runOn isEmptied
  rw [ExceptT.run_mk, StateT.run_bind]
  rcases StateT.run (FileReader.isEmpty path : StateM σ _) s with ⟨(_ | _) | _, s'⟩ <;> rfl

end OutputPlan

/-! ## Trees -/

namespace FileTree

open OutputPlan (Writing)

variable {α β : Type}

/-- **The result of a step of writing on a tree, and the tree after it.** -/
def run (t : FileTree) (step : Writing (StateM FileTree) α) : Except OutputError α × FileTree :=
  StateT.run (ExceptT.run step) t

@[simp] theorem run_pure (t : FileTree) (a : α) : t.run (pure a) = (.ok a, t) := rfl

theorem run_bind_of_ok {t t' : FileTree} {step : Writing (StateM FileTree) α}
    {next : α → Writing (StateM FileTree) β} {a : α} (first : t.run step = (.ok a, t')) :
    t.run (step >>= next) = t'.run (next a) :=
  OutputPlan.runOn_bind_of_ok first

theorem run_bind_of_error {t t' : FileTree} {step : Writing (StateM FileTree) α}
    {next : α → Writing (StateM FileTree) β} {e : OutputError}
    (first : t.run step = (.error e, t')) : t.run (step >>= next) = (.error e, t') :=
  OutputPlan.runOn_bind_of_error first

/-- A first step can be replaced by one that comes to the same. -/
theorem run_bind_congr {t : FileTree} {step step' : Writing (StateM FileTree) α}
    (same : t.run step = t.run step') (next : α → Writing (StateM FileTree) β) :
    t.run (step >>= next) = t.run (step' >>= next) := by
  rcases first : t.run step with ⟨e | a, t'⟩
  · rw [run_bind_of_error first, run_bind_of_error (same ▸ first)]
  · rw [run_bind_of_ok first, run_bind_of_ok (same ▸ first)]

/-- **Two steps**: the first one fails, or the second one goes on where it stopped. -/
theorem run_bind_cases (t : FileTree) (step : Writing (StateM FileTree) α)
    (next : α → Writing (StateM FileTree) β) :
    (∃ e t', t.run step = (.error e, t') ∧ t.run (step >>= next) = (.error e, t')) ∨
      ∃ a t', t.run step = (.ok a, t') ∧ t.run (step >>= next) = t'.run (next a) := by
  rcases first : t.run step with ⟨e | a, t'⟩
  · exact .inl ⟨e, t', rfl, run_bind_of_error first⟩
  · exact .inr ⟨a, t', rfl, run_bind_of_ok first⟩

/-- What the first step and then every continuation preserve, both together preserve, whether they
succeed or fail. -/
theorem run_bind_invariant {P : FileTree → Prop} {t : FileTree}
    {step : Writing (StateM FileTree) α} {next : α → Writing (StateM FileTree) β}
    (first : P (t.run step).2) (rest : ∀ a t', P t' → P (t'.run (next a)).2) :
    P (t.run (step >>= next)).2 := by
  rcases run_bind_cases t step next with ⟨e, t', failed, whole⟩ | ⟨a, t', succeeded, whole⟩
  · rw [failed] at first
    rw [whole]
    exact first
  · rw [succeeded] at first
    rw [whole]
    exact rest a t' first

theorem run_bind_eq_ok {t t' : FileTree} {step : Writing (StateM FileTree) α}
    {next : α → Writing (StateM FileTree) β} {b : β}
    (both : t.run (step >>= next) = (.ok b, t')) :
    ∃ a middle, t.run step = (.ok a, middle) ∧ middle.run (next a) = (.ok b, t') :=
  OutputPlan.runOn_bind_eq_ok both

/-! ## Requests -/

/-- Reading leaves a tree as it is. -/
theorem run_readText (t : FileTree) (path : String) :
    StateT.run (FileReader.readText path : StateM FileTree _) t = (t.readText path, t) := rfl

theorem run_isEmpty (t : FileTree) (path : String) :
    StateT.run (FileReader.isEmpty path : StateM FileTree _) t = (t.isEmpty path, t) := rfl

theorem run_makeDirectory (t : FileTree) (path : String) :
    StateT.run (FileStore.makeDirectory path : StateM FileTree _) t =
      FileStore.changed t (t.makeDirectory path) := rfl

theorem run_writeText (t : FileTree) (path text : String) :
    StateT.run (FileStore.writeText path text : StateM FileTree _) t =
      FileStore.changed t (t.writeText path text) := rfl

theorem run_removeFile (t : FileTree) (path : String) :
    StateT.run (FileStore.removeFile path : StateM FileTree _) t =
      FileStore.changed t (t.removeFile path) := rfl

theorem run_removeDirectory (t : FileTree) (path : String) :
    StateT.run (FileStore.removeDirectory path : StateM FileTree _) t =
      FileStore.changed t (t.removeDirectory path) := rfl

/-! ## Steps that ask for one thing -/

/-- A request as a step on a tree. -/
theorem run_attempt (t : FileTree) (action : OutputAction) (path : String)
    (request : StateM FileTree (Except FileFault α)) :
    t.run (OutputPlan.attempt action path request) =
      ((StateT.run request t).1.mapError (.store action path), (StateT.run request t).2) :=
  OutputPlan.runOn_attempt t action path request

/-- A file that is not there does not have to be removed. -/
theorem run_removeListed (t : FileTree) (path : String) :
    t.run (OutputPlan.removeListed path) =
      match t.removeFile path with
      | .ok t' => (.ok true, t')
      | .error .missing => (.ok false, t)
      | .error fault => (.error (.store .remove path fault), t) := by
  refine (OutputPlan.runOn_removeListed t path).trans ?_
  rw [run_removeFile]
  rcases t.removeFile path with (_ | _) | t' <;> rfl

/-- A directory that is not there is not emptied. -/
theorem run_isEmptied (t : FileTree) (path : String) :
    t.run (OutputPlan.isEmptied path) =
      match t.isEmpty path with
      | .ok empty => (.ok empty, t)
      | .error .missing => (.ok false, t)
      | .error fault => (.error (.store .readDirectory path fault), t) := by
  refine (OutputPlan.runOn_isEmptied t path).trans ?_
  rw [run_isEmpty]
  rcases t.isEmpty path with (_ | _) | empty <;> rfl

/-- A directory is removed if it is found to be empty. -/
theorem run_prune (t : FileTree) (path : String) :
    t.run (OutputPlan.prune path) =
      match t.isEmpty path with
      | .ok true =>
          t.run (OutputPlan.attempt .removeDirectory path (FileStore.removeDirectory path))
      | .ok false => (.ok (), t)
      | .error .missing => (.ok (), t)
      | .error fault => (.error (.store .readDirectory path fault), t) := by
  have asked := run_isEmptied t path
  unfold OutputPlan.prune
  rcases found : t.isEmpty path with (_ | _) | _ | _ <;> rw [found] at asked
  · exact run_bind_of_ok asked
  · exact run_bind_of_error asked
  · exact run_bind_of_ok asked
  · exact run_bind_of_ok asked

/-- The manifest in a directory, if a readable one is there. -/
def manifest? (t : FileTree) (dir : String) : Option Manifest :=
  (t.readText (Path.join dir Manifest.fileName)).toOption.bind Manifest.parse?

theorem run_read? (t : FileTree) (dir : String) :
    StateT.run (Manifest.read? dir : StateM FileTree (Option Manifest)) t =
      (t.manifest? dir, t) := by
  unfold Manifest.read? manifest?
  rw [StateT.run_bind, run_readText]
  rcases t.readText (Path.join dir Manifest.fileName) with _ | text <;> rfl

end FileTree

end ClientGen
