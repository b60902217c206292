import ClientGen.Proofs.Command.Reading
import ClientGen.Proofs.Files.Running
import ClientGen.Proofs.OrderedMap.Entries

/-!
# Runs that generate clients

Everything is settled before anything is written: reading leaves the tree as it is, and what is
planned is a function of the tree at the start. After that one plan is committed after the other.

* `Command.Prepared` — what is to be committed, and where it comes from.
* `Command.Commits` — several plans are committed, and none of them fails.
* `Command.runGenerate_eq_ok` — a run that succeeds has prepared plans and has committed them.
-/

namespace ClientGen

namespace Command

/-! ## What is prepared -/

/-- Settings and a document that can be read are the inputs. -/
theorem run_inputs_of_reads {t : FileTree} {path spec settings text : String} {config : Config}
    {doc : Document} (settingsRead : t.readText path = .ok settings)
    (parsed : Config.parse? ((Path.parent? path).getD "") settings = some config)
    (docRead : t.readText spec = .ok text)
    (docParsed : Document.parse (Document.Notation.ofPath spec) text = .ok doc) :
    StateT.run (inputs (some path) spec : StateM FileTree _) t = (.ok (config, doc), t) := by
  have loadedConfig : StateT.run (Config.load (some path) : StateM FileTree _) t =
      (.ok config, t) := by
    simp only [Config.load, pure_bind]
    rw [StateT.run_bind, FileTree.run_readText, settingsRead]
    simp only [bind, parsed]
    rfl
  have loadedDoc : StateT.run (Document.load spec : StateM FileTree _) t = (.ok doc, t) := by
    rw [Document.load, StateT.run_bind, FileTree.run_readText, docRead]
    show (Document.parse (Document.Notation.ofPath spec) text, t) = _
    rw [docParsed]
  rw [inputs, StateT.run_bind, loadedConfig]
  show (StateT.run (Document.load spec >>= _) t : Id _) = _
  rw [StateT.run_bind, loadedDoc]
  rfl

/-- No language is asked for twice. -/
theorem nodup_of_wanted {options : GenerateOptions} {languages : List Language}
    (asked : wanted options = .ok languages) : languages.Nodup := by
  obtain ⟨found, named, asked⟩ := bind_eq_ok_iff.mp asked
  split at asked
  · cases asked
  · cases asked
    unfold Command.languages at named
    dsimp only at named
    split at named
    · cases named
      decide
    · obtain ⟨each, -, named⟩ := bind_eq_ok_iff.mp named
      split at named
      · cases named
      · cases named
        exact nodup_eraseDups each

/-- **What a run is about to commit**: for each of the languages that are asked for the plan of its
files, in the directory that the settings give it. -/
structure Prepared (options : GenerateOptions) (t : FileTree) (config : Config) (doc : Document)
    (plans : List (Language × OutputPlan)) : Prop where
  /-- The settings and the document are those in the tree. -/
  inputs : (StateT.run (inputs options.config options.spec : StateM FileTree _) t).1 =
    .ok (config, doc)
  /-- There is one plan for each language. -/
  languages : wanted options = .ok (plans.map (·.1))
  /-- It is the plan for the files of the language. -/
  plan : ∀ entry ∈ plans,
    planFor (describeDocument doc (options.defaultTag.or config.defaultTag)).value entry.1
      (config.outDir options.dir options.sdk entry.1) = .ok entry.2

/-- What is prepared is settled by the tree. -/
theorem Prepared.unique {options : GenerateOptions} {t : FileTree} {config config' : Config}
    {doc doc' : Document} {plans plans' : List (Language × OutputPlan)}
    (prepared : Prepared options t config doc plans)
    (prepared' : Prepared options t config' doc' plans') :
    config = config' ∧ doc = doc' ∧ plans = plans' := by
  obtain ⟨inputs, languages, plan⟩ := prepared
  obtain ⟨inputs', languages', plan'⟩ := prepared'
  rw [inputs, Except.ok.injEq, Prod.mk.injEq] at inputs'
  obtain ⟨rfl, rfl⟩ := inputs'
  rw [languages, Except.ok.injEq] at languages'
  refine ⟨rfl, rfl, ?_⟩
  clear languages
  induction plans generalizing plans' with
  | nil => exact (List.map_eq_nil_iff.mp languages'.symm).symm
  | cons entry plans ih =>
      cases plans' with
      | nil => cases languages'
      | cons entry' plans' =>
          obtain ⟨language, made⟩ := entry
          obtain ⟨language', made'⟩ := entry'
          obtain ⟨first, rest⟩ := List.forall_mem_cons.mp plan
          obtain ⟨first', rest'⟩ := List.forall_mem_cons.mp plan'
          obtain ⟨rfl, names⟩ : language = language' ∧ _ := List.cons.inj languages'
          cases first.symm.trans first'
          rw [ih rest names rest']

/-- Several plans are made if each of them is. -/
theorem mapM_planFor_eq_ok_iff {api : Api} {dir : Language → String} {languages : List Language}
    {plans : List (Language × OutputPlan)} :
    ((languages.map fun language => (language, dir language)).mapM fun (language, dir) => do
      let plan ← planFor api language dir
      return (language, plan)) = .ok plans ↔
      plans.map (·.1) = languages ∧
        ∀ entry ∈ plans, planFor api entry.1 (dir entry.1) = .ok entry.2 := by
  induction languages generalizing plans with
  | nil =>
      rw [List.map_nil, List.mapM_nil, List.map_eq_nil_iff]
      constructor
      · rintro ⟨⟩
        exact ⟨rfl, nofun⟩
      · rintro ⟨rfl, -⟩
        rfl
  | cons language languages ih =>
      rw [List.map_cons, List.mapM_cons]
      simp only [bind_eq_ok_iff, ih]
      constructor
      · rintro ⟨_, ⟨plan, planned, ⟨⟩⟩, rest, ⟨rfl, others⟩, ⟨⟩⟩
        exact ⟨rfl, List.forall_mem_cons.mpr ⟨planned, others⟩⟩
      · rintro ⟨names, all⟩
        cases plans with
        | nil => cases names
        | cons entry plans =>
            obtain ⟨rfl, rfl⟩ := List.cons.inj names
            obtain ⟨planned, others⟩ := List.forall_mem_cons.mp all
            exact ⟨entry, ⟨entry.2, planned, rfl⟩, plans, ⟨rfl, others⟩, rfl⟩

/-- Plans are made for all languages, in their order. -/
theorem plans_eq_ok {api : Api} {dir : Language → String} {languages : List Language}
    {entries : List (Language × OutputPlan)}
    (made : plans api (languages.map fun language => (language, dir language)) = .ok entries) :
    entries.map (·.1) = languages ∧
      ∀ entry ∈ entries, planFor api entry.1 (dir entry.1) = .ok entry.2 := by
  unfold plans at made
  split at made
  · cases made
  · exact mapM_planFor_eq_ok_iff.mp made

theorem planned_eq_ok {options : GenerateOptions} {config : Config} {languages : List Language}
    {described : Noted Api} {entries : List (Language × OutputPlan)}
    (made : planned options config languages described = .ok entries) :
    entries.map (·.1) = languages ∧
      ∀ entry ∈ entries, planFor described.value entry.1
        (config.outDir options.dir options.sdk entry.1) = .ok entry.2 := by
  obtain ⟨api, checked, made⟩ := bind_eq_ok_iff.mp made
  unfold sound at checked
  split at checked
  · cases checked
  · cases checked
    exact plans_eq_ok made

/-! ## Committing plans -/

/-- **Several plans are committed**, one after the other, and none of them fails. -/
def Commits (plans : List (Language × OutputPlan)) (t t' : FileTree) : Prop :=
  ∃ lines, StateT.run (commitAll plans : StateM FileTree _) t = ((lines, none), t')

theorem commits_nil {t t' : FileTree} : Commits [] t t' ↔ t = t' := by
  constructor
  · rintro ⟨lines, same⟩
    cases same
    rfl
  · rintro rfl
    exact ⟨[], rfl⟩

theorem run_commitAll_of_error {language : Language} {plan : OutputPlan} {t t' : FileTree}
    {error : OutputError} (failed : t.run plan.commit = (.error error, t'))
    (rest : List (Language × OutputPlan)) :
    StateT.run (commitAll ((language, plan) :: rest) : StateM FileTree _) t =
      (([], some error), t') := by
  unfold FileTree.run at failed
  rw [commitAll, StateT.run_bind, failed]
  rfl

theorem run_commitAll_of_ok {language : Language} {plan : OutputPlan} {t middle t' : FileTree}
    {summary : OutputPlan.Summary} (committed : t.run plan.commit = (.ok summary, middle))
    {rest : List (Language × OutputPlan)} {lines : List String} {error : Option OutputError}
    (others : StateT.run (commitAll rest : StateM FileTree _) middle = ((lines, error), t')) :
    StateT.run (commitAll ((language, plan) :: rest) : StateM FileTree _) t =
      ((summaryLine language plan summary :: lines, error), t') := by
  unfold FileTree.run at committed
  rw [commitAll, StateT.run_bind, committed]
  show (StateT.run (commitAll rest >>= _) middle : Id _) = _
  rw [StateT.run_bind, others]
  rfl

/-- The first plan is committed, and then the others. -/
theorem commits_cons {language : Language} {plan : OutputPlan}
    {rest : List (Language × OutputPlan)} {t t' : FileTree} :
    Commits ((language, plan) :: rest) t t' ↔
      ∃ summary middle, t.run plan.commit = (.ok summary, middle) ∧ Commits rest middle t' := by
  constructor
  · rintro ⟨lines, whole⟩
    rcases committed : t.run plan.commit with ⟨error | summary, middle⟩
    · rw [run_commitAll_of_error committed] at whole
      cases whole
    · rcases others : StateT.run (commitAll rest : StateM FileTree _) middle with ⟨⟨_, error⟩, last⟩
      rw [run_commitAll_of_ok committed others] at whole
      cases whole
      exact ⟨summary, middle, rfl, _, others⟩
  · rintro ⟨summary, middle, committed, lines, others⟩
    exact ⟨_, run_commitAll_of_ok committed others⟩

/-- Plans are committed in two goes. -/
theorem commits_append {before later : List (Language × OutputPlan)} {t t' : FileTree} :
    Commits (before ++ later) t t' ↔
      ∃ middle, Commits before t middle ∧ Commits later middle t' := by
  induction before generalizing t with
  | nil => simp [commits_nil]
  | cons entry before ih =>
      obtain ⟨language, plan⟩ := entry
      rw [List.cons_append, commits_cons]
      simp only [ih, commits_cons]
      constructor
      · rintro ⟨summary, first, committed, middle, rest, last⟩
        exact ⟨middle, ⟨summary, first, committed, rest⟩, last⟩
      · rintro ⟨middle, ⟨summary, first, committed, rest⟩, last⟩
        exact ⟨summary, first, committed, middle, rest, last⟩

/-! ## Runs -/

/-- A run that has made plans succeeds if all of them are committed. -/
theorem runGenerate_of_commits {options : GenerateOptions} {languages : List Language}
    {config : Config} {doc : Document} {plans : List (Language × OutputPlan)} {t t' : FileTree}
    (asked : wanted options = .ok languages)
    (inputs : (StateT.run (inputs options.config options.spec : StateM FileTree _) t).1 =
      .ok (config, doc))
    (made : planned options config languages
      (describeDocument doc (options.defaultTag.or config.defaultTag)) = .ok plans)
    (commits : Commits plans t t') (milliseconds : Nat) :
    ∃ outcome, outcome.exit = 0 ∧
      StateT.run (runGenerate (pure milliseconds) options : StateM FileTree _) t =
        (outcome, t') := by
  obtain ⟨lines, committed⟩ := commits
  let described := describeDocument doc (options.defaultTag.or config.defaultTag)
  refine ⟨{ exit := 0, out := lines ++ [timeLine milliseconds],
            err := described.notes.map Diagnostic.line }, rfl, ?_⟩
  unfold runGenerate
  simp only [asked]
  rw [(isQuestion_inputs options.config options.spec).run_bind, inputs]
  simp only [made]
  rw [StateT.run_bind, committed]
  rfl

/-- **A run that succeeds** has prepared plans and has committed them. -/
theorem runGenerate_eq_ok {options : GenerateOptions} {milliseconds : Nat} {t t' : FileTree}
    {outcome : Outcome}
    (ran : StateT.run (runGenerate (pure milliseconds) options : StateM FileTree _) t =
      (outcome, t'))
    (success : outcome.exit = 0) :
    ∃ config doc plans, Prepared options t config doc plans ∧ Commits plans t t' := by
  unfold runGenerate at ran
  split at ran
  · cases ran
    cases success
  · rename_i languages asked
    rw [(isQuestion_inputs options.config options.spec).run_bind] at ran
    split at ran
    · cases ran
      cases success
    · rename_i config doc read
      dsimp only at ran
      split at ran
      · cases ran
        cases success
      · rename_i plans made
        obtain ⟨names, plan⟩ := planned_eq_ok made
        refine ⟨config, doc, plans, ⟨read, names ▸ asked, plan⟩, ?_⟩
        rcases committed : StateT.run (commitAll plans : StateM FileTree _) t with
          ⟨⟨lines, _ | error⟩, last⟩ <;> rw [StateT.run_bind, committed] at ran
        · cases ran
          exact ⟨lines, committed⟩
        · cases ran
          cases success

end Command

end ClientGen
