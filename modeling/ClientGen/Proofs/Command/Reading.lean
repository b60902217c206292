import ClientGen.Command.Run
import ClientGen.Files.Tree

/-!
# Reading changes nothing

Settings and documents are read from a store of files. A store may keep files in any way and refuse
any request; all that is asked of it here is that looking does not change it.

* `IsQuestion` — a request that leaves the store as it is.
* `LawfulReader` — a store in which all that can be found out is found out by questions.
* `Command.isQuestion_inputs` — reading settings and a document is a question.
-/

namespace ClientGen

variable {σ α β : Type}

/-- **A request that leaves the store as it is**, whatever the store. -/
def IsQuestion (request : StateM σ α) : Prop :=
  ∀ s, (StateT.run request s).2 = s

namespace IsQuestion

theorem pure (a : α) : IsQuestion (Pure.pure a : StateM σ α) := fun _ => rfl

theorem run_eq {request : StateM σ α} (question : IsQuestion request) (s : σ) :
    StateT.run request s = ((StateT.run request s).1, s) :=
  Prod.ext rfl (question s)

/-- A question is answered, and the next request is made in the same store. -/
theorem run_bind {request : StateM σ α} (question : IsQuestion request) (next : α → StateM σ β)
    (s : σ) : StateT.run (request >>= next) s = StateT.run (next (StateT.run request s).1) s := by
  rw [StateT.run_bind, question.run_eq s]
  rfl

theorem bind {request : StateM σ α} {next : α → StateM σ β} (first : IsQuestion request)
    (rest : ∀ a, IsQuestion (next a)) : IsQuestion (request >>= next) := by
  intro s
  rw [first.run_bind]
  exact rest _ s

end IsQuestion

/-- **A store that is not changed by looking at it.** -/
class LawfulReader (σ : Type) [FileReader (StateM σ)] : Prop where
  /-- The text of a file is read by a question. -/
  readText (path : String) : IsQuestion (FileReader.readText path : StateM σ _)
  /-- Files are looked for by a question. -/
  isFile (path : String) : IsQuestion (FileReader.isFile path : StateM σ _)
  /-- Directories are looked for by a question. -/
  isDirectory (path : String) : IsQuestion (FileReader.isDirectory path : StateM σ _)
  /-- Whether a directory is empty is found out by a question. -/
  isEmpty (path : String) : IsQuestion (FileReader.isEmpty path : StateM σ _)

instance : LawfulReader FileTree where
  readText _ _ := rfl
  isFile _ _ := rfl
  isDirectory _ _ := rfl
  isEmpty _ _ := rfl

variable [FileReader (StateM σ)] [LawfulReader σ]

/-- Loading settings changes nothing. -/
theorem Config.isQuestion_load (path : Option String) :
    IsQuestion (Config.load path : StateM σ _) := by
  have given (path : String) : IsQuestion (Config.load (some path) : StateM σ _) := by
    simp only [Config.load, pure_bind]
    refine (LawfulReader.readText path).bind fun read => ?_
    cases read with
    | error fault => exact .pure _
    | ok text =>
        dsimp only
        split <;> exact .pure _
  cases path with
  | some path => exact given path
  | none =>
      simp only [Config.load, pure_bind]
      refine (LawfulReader.isFile fileName).bind fun found => ?_
      cases found with
      | false => exact .pure _
      | true =>
          have usual := given fileName
          simp only [Config.load, pure_bind] at usual
          exact usual

/-- Loading a document changes nothing. -/
theorem Document.isQuestion_load (path : String) :
    IsQuestion (Document.load path : StateM σ _) := by
  refine (LawfulReader.readText path).bind fun read => ?_
  cases read <;> exact .pure _

namespace Command

/-- The settings are loaded, and then the document. -/
theorem run_inputs (config : Option String) (spec : String) (s : σ) :
    StateT.run (inputs config spec : StateM σ _) s =
      (do
        let config ← (StateT.run (Config.load config : StateM σ _) s).1.mapError .config
        let doc ← (StateT.run (Document.load spec : StateM σ _) s).1.mapError .load
        return (config, doc), s) := by
  unfold inputs
  rw [(Config.isQuestion_load config).run_bind]
  cases (StateT.run (Config.load config : StateM σ _) s).1 with
  | error error => rfl
  | ok config =>
      dsimp only
      rw [(Document.isQuestion_load spec).run_bind]
      cases (StateT.run (Document.load spec : StateM σ _) s).1 <;> rfl

/-- Reading settings and a document changes nothing. -/
theorem isQuestion_inputs (config : Option String) (spec : String) :
    IsQuestion (inputs config spec : StateM σ _) := fun s => by
  rw [run_inputs]

end Command

end ClientGen
