import ClientGen.Proofs.Command.Generating
import ClientGen.Proofs.Files.Changes
import ClientGen.Proofs.Json.Texts
import ClientGen.Proofs.Sdk.Places

/-!
# Everything is settled before anything is written

A command reads, checks and plans, and only then it writes. What it reads decides what it does, so
a run has two parts: a decision, which is a function of the store at the start, and the commits of
what has been decided. If the decision is an error then the store stays as it is.

* `Command.decision` — the plans for a store, or why there are none.
* `Command.run_runGenerate_of_error`, `Command.run_runGenerate_of_ok` — what a run does with it.
* `Command.Settled`, `Command.Valid` — what has to be valid for clients, and for any command.
* `Command.run_of_settled` — where everything is valid, the plans are committed.
* `Command.run_runDescribe_of_loads` — where a document is valid, its description is written.
* `Command.run_settles_first` — nothing changes unless everything is valid.

The store may be of any kind, refuse any request and fail at any point. In particular it may keep a
record of all changes, so that a change that is taken back is a change too.
-/

namespace ClientGen.Command

variable {σ : Type} [FileStore (StateM σ)]

/-! ## What has to be valid -/

/-- The description that both commands make of a document. -/
def description (tag : Option String) (config : Config) (doc : Document) : Noted Api :=
  describeDocument doc (tag.or config.defaultTag)

/-- **The settings and the document of a store are valid**: both can be loaded, and no error is
noted about the document. -/
structure Loads (configPath : Option String) (spec : String) (tag : Option String) (s : σ)
    (config : Config) (doc : Document) : Prop where
  /-- The settings are loaded. -/
  settings : (StateT.run (Config.load configPath : StateM σ _) s).1 = .ok config
  /-- The document is loaded. -/
  document : (StateT.run (Document.load spec : StateM σ _) s).1 = .ok doc
  /-- There is no error in the notes. -/
  clean : ∀ d ∈ (description tag config doc).notes, d.severity ≠ .error

/-- **Everything is valid for clients**: the languages are known, the document is valid, no
directory is shared, and the files of every language are generated and accepted. -/
structure Settled (options : GenerateOptions) (s : σ) (config : Config) (doc : Document)
    (plans : List (Language × OutputPlan)) : Prop where
  /-- There is one plan for each language that is asked for. -/
  languages : wanted options = .ok (plans.map (·.1))
  /-- The settings and the document are valid. -/
  loads : Loads options.config options.spec options.defaultTag s config doc
  /-- No two languages have one directory. -/
  apart : shared? [] (targets options config (plans.map (·.1))) = none
  /-- The files are generated, and their paths are accepted. -/
  files : ∀ entry ∈ plans, ∃ files,
    entry.1.generate (description options.defaultTag config doc).value none = .ok files ∧
      OutputPlan.ofFiles (config.outDir options.dir options.sdk entry.1) files = .ok entry.2

/-- **Everything is valid for a command.** A valid document always has the text of a description. -/
def Valid (s : σ) : Command → Prop
  | .generate options => ∃ config doc plans, Settled options s config doc plans
  | .describe options =>
    ∃ config doc, Loads options.config options.spec options.defaultTag s config doc

/-- **A language fails**: its files cannot be generated, or their paths are not accepted. -/
def Fails (api : Api) (language : Language) (dir : String) : Prop :=
  (∃ error, language.generate api none = .error error) ∨
    ∃ files error, language.generate api none = .ok files ∧
      OutputPlan.ofFiles dir files = .error error

/-! ## Decisions -/

/-- **What is decided about the clients in a store**: the plans to commit, or why there are none. -/
def decision (options : GenerateOptions) (s : σ) :
    Except CommandError (List (Language × OutputPlan)) := do
  let languages ← wanted options
  let (config, doc) ← (StateT.run (inputs options.config options.spec : StateM σ _) s).1
  planned options config languages (description options.defaultTag config doc)

theorem planFor_eq_ok_iff {api : Api} {language : Language} {dir : String} {plan : OutputPlan} :
    planFor api language dir = .ok plan ↔
      ∃ files, language.generate api none = .ok files ∧ OutputPlan.ofFiles dir files = .ok plan := by
  simp only [planFor, bind_eq_ok_iff, mapError_eq_ok_iff]

theorem sound_eq_ok_iff {spec : String} {described : Noted Api} {api : Api} :
    sound spec described = .ok api ↔
      (∀ d ∈ described.notes, d.severity ≠ .error) ∧ described.value = api := by
  have clean : Diagnostic.anyError described.notes = false ↔
      ∀ d ∈ described.notes, d.severity ≠ .error := by
    simp [Diagnostic.anyError]
  unfold sound
  split
  · rename_i found
    simp [← clean, found]
  · rename_i absent
    rw [Bool.not_eq_true] at absent
    simp [← clean, absent]

/-- Settings and a document are read if both are loaded. -/
theorem inputs_eq_ok_iff [LawfulReader σ] {configPath : Option String} {spec : String} {s : σ}
    {config : Config} {doc : Document} :
    (StateT.run (inputs configPath spec : StateM σ _) s).1 = .ok (config, doc) ↔
      (StateT.run (Config.load configPath : StateM σ _) s).1 = .ok config ∧
        (StateT.run (Document.load spec : StateM σ _) s).1 = .ok doc := by
  rw [run_inputs]
  simp only [bind_eq_ok_iff, mapError_eq_ok_iff, pure, Except.pure, Except.ok.injEq,
    Prod.mk.injEq]
  constructor
  · rintro ⟨_, settings, _, document, rfl, rfl⟩
    exact ⟨settings, document⟩
  · rintro ⟨settings, document⟩
    exact ⟨_, settings, _, document, rfl, rfl⟩

/-- What is read without errors is valid. -/
theorem loads_iff [LawfulReader σ] {configPath tag : Option String} {spec : String} {s : σ}
    {config : Config} {doc : Document} :
    Loads configPath spec tag s config doc ↔
      (StateT.run (inputs configPath spec : StateM σ _) s).1 = .ok (config, doc) ∧
        sound spec (description tag config doc) = .ok (description tag config doc).value := by
  rw [inputs_eq_ok_iff, sound_eq_ok_iff]
  constructor
  · rintro ⟨settings, document, clean⟩
    exact ⟨⟨settings, document⟩, clean, rfl⟩
  · rintro ⟨⟨settings, document⟩, clean, -⟩
    exact ⟨settings, document, clean⟩

/-- **Plans are decided on exactly if everything is valid.** -/
theorem decision_eq_ok_iff [LawfulReader σ] {options : GenerateOptions} {s : σ}
    {plans : List (Language × OutputPlan)} :
    decision options s = .ok plans ↔ ∃ config doc, Settled options s config doc plans := by
  have made {api : Api} {config : Config} {languages : List Language} :
      Command.plans api (targets options config languages) = .ok plans ↔
        shared? [] (targets options config languages) = none ∧ plans.map (·.1) = languages ∧
          ∀ entry ∈ plans, planFor api entry.1
            (config.outDir options.dir options.sdk entry.1) = .ok entry.2 := by
    rw [← mapM_planFor_eq_ok_iff]
    unfold Command.plans
    cases shared? [] (targets options config languages) <;> simp [targets]
  simp only [decision, planned, bind_eq_ok_iff, made, planFor_eq_ok_iff]
  constructor
  · rintro ⟨_, asked, ⟨config, doc⟩, read, api, checked, apart, rfl, files⟩
    obtain ⟨-, rfl⟩ := sound_eq_ok_iff.mp checked
    exact ⟨config, doc, asked, loads_iff.mpr ⟨read, checked⟩, apart, files⟩
  · rintro ⟨config, doc, asked, loads, apart, files⟩
    obtain ⟨read, checked⟩ := loads_iff.mp loads
    exact ⟨_, asked, (config, doc), read, _, checked, apart, rfl, files⟩

/-! ## Runs -/

/-- A run without plans changes nothing and fails. -/
theorem run_runGenerate_of_error [LawfulReader σ] {options : GenerateOptions} {s : σ}
    {error : CommandError} (undecided : decision options s = .error error) (milliseconds : Nat) :
    ∃ outcome, outcome.exit = 1 ∧
      StateT.run (runGenerate (pure milliseconds) options : StateM σ _) s = (outcome, s) := by
  unfold runGenerate
  cases asked : wanted options with
  | error error => exact ⟨_, rfl, rfl⟩
  | ok languages =>
      dsimp only
      rw [(isQuestion_inputs options.config options.spec).run_bind]
      cases read : (StateT.run (inputs options.config options.spec : StateM σ _) s).1 with
      | error error => exact ⟨_, rfl, rfl⟩
      | ok found =>
          obtain ⟨config, doc⟩ := found
          have unplanned : planned options config languages
              (description options.defaultTag config doc) = .error error := by
            rw [decision, asked] at undecided
            dsimp only [bind, Except.bind] at undecided
            rwa [read] at undecided
          dsimp only
          unfold description at unplanned
          rw [unplanned]
          exact ⟨_, rfl, rfl⟩

/-- A run with plans commits them, and it does nothing else. -/
theorem run_runGenerate_of_ok [LawfulReader σ] {options : GenerateOptions} {s : σ}
    {plans : List (Language × OutputPlan)} (decided : decision options s = .ok plans)
    (milliseconds : Nat) :
    (StateT.run (runGenerate (pure milliseconds) options : StateM σ _) s).2 =
      (StateT.run (commitAll plans : StateM σ _) s).2 := by
  obtain ⟨languages, asked, decided⟩ := bind_eq_ok_iff.mp decided
  obtain ⟨⟨config, doc⟩, read, made⟩ := bind_eq_ok_iff.mp decided
  unfold runGenerate
  rw [asked]
  dsimp only
  rw [(isQuestion_inputs options.config options.spec).run_bind, read]
  dsimp only at made ⊢
  unfold description at made
  rw [made, StateT.run_bind]
  rcases StateT.run (commitAll plans : StateM σ _) s with ⟨⟨lines, _ | error⟩, s'⟩ <;> rfl

/-- The description of a document that is not valid is not written. -/
theorem run_runDescribe_of_invalid [LawfulReader σ] {options : DescribeOptions} {s : σ}
    (invalid : ¬Valid s (.describe options)) :
    ∃ outcome, outcome.exit = 1 ∧
      StateT.run (runDescribe options : StateM σ _) s = (outcome, s) := by
  unfold runDescribe
  rw [(isQuestion_inputs options.config options.spec).run_bind]
  cases read : (StateT.run (inputs options.config options.spec : StateM σ _) s).1 with
  | error error => exact ⟨_, rfl, rfl⟩
  | ok found =>
      obtain ⟨config, doc⟩ := found
      dsimp only
      cases checked : sound options.spec (describeDocument doc
          (options.defaultTag.or config.defaultTag)) with
      | error error => exact ⟨_, rfl, rfl⟩
      | ok api =>
          obtain ⟨-, rfl⟩ := sound_eq_ok_iff.mp checked
          exact absurd ⟨config, doc, loads_iff.mpr ⟨read, checked⟩⟩ invalid

/-- The description of a valid document is written, and nothing else is done. -/
theorem run_runDescribe_of_loads [LawfulReader σ] {options : DescribeOptions} {s : σ}
    {config : Config} {doc : Document}
    (loads : Loads options.config options.spec options.defaultTag s config doc) :
    (StateT.run (runDescribe options : StateM σ _) s).2 =
      (StateT.run (writeDescription options.out
        (description options.defaultTag config doc).value.print : StateM σ _) s).2 := by
  obtain ⟨read, checked⟩ := loads_iff.mp loads
  unfold runDescribe
  rw [(isQuestion_inputs options.config options.spec).run_bind, read]
  dsimp only
  unfold description at checked ⊢
  rw [checked, StateT.run_bind]
  rcases StateT.run (writeDescription options.out _ : StateM σ _) s with ⟨_ | _, s'⟩ <;> rfl

/-- **A command for which something is not valid** changes nothing and fails. -/
theorem run_of_invalid [LawfulReader σ] {args : List String} {command : Command}
    (asked : parse args = .ok command) {s : σ} (invalid : ¬Valid s command) (milliseconds : Nat) :
    ∃ outcome, outcome.exit = 1 ∧
      StateT.run (run (pure milliseconds) args : StateM σ _) s = (outcome, s) := by
  rw [run, asked]
  cases command with
  | generate options =>
      cases decided : decision options s with
      | error error => exact run_runGenerate_of_error decided milliseconds
      | ok plans =>
          obtain ⟨config, doc, settled⟩ := decision_eq_ok_iff.mp decided
          exact absurd ⟨config, doc, plans, settled⟩ invalid
  | describe options => exact run_runDescribe_of_invalid invalid

/-- **Where everything is valid for clients**, the plans are committed, and nothing else is done. -/
theorem run_of_settled [LawfulReader σ] {args : List String} {options : GenerateOptions}
    (asked : parse args = .ok (.generate options)) {s : σ} {config : Config} {doc : Document}
    {plans : List (Language × OutputPlan)} (settled : Settled options s config doc plans)
    (milliseconds : Nat) :
    (StateT.run (run (pure milliseconds) args : StateM σ _) s).2 =
      (StateT.run (commitAll plans : StateM σ _) s).2 := by
  rw [run, asked]
  exact run_runGenerate_of_ok (decision_eq_ok_iff.mpr ⟨config, doc, settled⟩) milliseconds

/-- Where one language fails, not everything is valid. -/
theorem invalid_of_fails {options : GenerateOptions} {s : σ} {languages : List Language}
    {config : Config} {doc : Document} {language : Language}
    (asked : wanted options = .ok languages)
    (settings : (StateT.run (Config.load options.config : StateM σ _) s).1 = .ok config)
    (document : (StateT.run (Document.load options.spec : StateM σ _) s).1 = .ok doc)
    (member : language ∈ languages)
    (fails : Fails (description options.defaultTag config doc).value language
      (config.outDir options.dir options.sdk language)) : ¬Valid s (.generate options) := by
  rintro ⟨config', doc', plans, settled⟩
  obtain rfl := Except.ok.inj (settings.symm.trans settled.loads.settings)
  obtain rfl := Except.ok.inj (document.symm.trans settled.loads.document)
  obtain rfl := Except.ok.inj (asked.symm.trans settled.languages)
  obtain ⟨entry, listed, rfl⟩ := List.mem_map.mp member
  obtain ⟨files, generated, accepted⟩ := settled.files entry listed
  rcases fails with ⟨error, failed⟩ | ⟨files', error, generated', refused⟩
  · rw [generated] at failed
    cases failed
  · rw [generated, Except.ok.injEq] at generated'
    rw [← generated', accepted] at refused
    cases refused

/-- **Nothing is written unless everything is valid.** For every store that can be looked at without
changing it and all arguments: if a run changes the store then the arguments are a command, and
everything that this command needs is valid at the start. In particular, where one language fails,
the run fails, and the store is as it was, for all languages. -/
theorem run_settles_first [LawfulReader σ] (args : List String) (milliseconds : Nat) (s : σ) :
    let ran := StateT.run (run (pure milliseconds) args : StateM σ _) s
    (ran.2 ≠ s → ∃ command, parse args = .ok command ∧ Valid s command) ∧
      ∀ options languages config doc,
        parse args = .ok (.generate options) → wanted options = .ok languages →
        (StateT.run (Config.load options.config : StateM σ _) s).1 = .ok config →
        (StateT.run (Document.load options.spec : StateM σ _) s).1 = .ok doc →
        (∃ language ∈ languages, Fails (description options.defaultTag config doc).value language
          (config.outDir options.dir options.sdk language)) →
        ran.1.exit = 1 ∧ ran.2 = s := by
  intro ran
  constructor
  · intro changed
    cases asked : parse args with
    | error interruption =>
        refine absurd ?_ changed
        show (StateT.run (run (pure milliseconds) args : StateM σ _) s).2 = s
        rw [run, asked]
        rfl
    | ok command =>
        refine ⟨command, rfl, by_contra fun invalid => changed ?_⟩
        obtain ⟨outcome, -, same⟩ := run_of_invalid asked invalid milliseconds
        exact congrArg Prod.snd same
  · rintro options languages config doc asked named settings document ⟨language, member, fails⟩
    have invalid := invalid_of_fails named settings document member fails
    obtain ⟨outcome, failed, same⟩ := run_of_invalid asked invalid milliseconds
    exact ⟨(congrArg (·.1.exit) same).trans failed, congrArg Prod.snd same⟩

/-! ## A language that fails -/

/-- An operation with a name and a tag, as it is written. -/
def taggedOperation (name tag : String) : Json :=
  .object [("operationId", .string name), ("tags", .ofStrings [tag])]

/-- The document with a tag that is called like the index, as it is written. -/
def taggedJson : Json :=
  .object [("paths", .object [("/pets",
    .object [("get", taggedOperation "list" "index"), ("post", taggedOperation "add" "pets")])])]

theorem faithful_taggedJson : taggedJson.Faithful := by
  have operation (name tag : String) : (taggedOperation name tag).Faithful :=
    Json.faithful_object (by simp [Json.faithful_string, Json.faithful_ofStrings])
  refine Json.faithful_object (List.forall_mem_singleton.mpr ?_)
  refine Json.faithful_object (List.forall_mem_singleton.mpr ?_)
  exact Json.faithful_object (by simp [operation])

/-- A directory with this document. -/
def taggedTree : FileTree :=
  { here := ["work"]
    entries := [(["work"], .directory), (["work", "spec.json"], .file taggedJson.pretty)] }

theorem load_taggedTree :
    (StateT.run (Document.load "spec.json" : StateM FileTree _) taggedTree).1 =
      .ok Document.indexTagged := by
  have tree := Json.Source.parse_pretty taggedJson faithful_taggedJson
  have json : Document.Notation.ofPath "spec.json" = .json := rfl
  have read : taggedTree.readText "spec.json" = .ok taggedJson.pretty := rfl
  have parsed : Document.parse .json taggedJson.pretty = .ok Document.indexTagged := by
    rw [Document.parse, Json.Cursor.ofText, tree]
    rfl
  rw [Document.load, StateT.run_bind, FileTree.run_readText, read]
  show Document.parse (Document.Notation.ofPath "spec.json") taggedJson.pretty = _
  rw [json, parsed]

/-- The arguments that ask for the description of this document. -/
def taggedArguments : List String :=
  ["ir", "--spec", "spec.json", "--out", "ir.json"]

theorem parse_taggedArguments :
    parse taggedArguments = .ok (.describe { spec := "spec.json", out := "ir.json" }) :=
  rfl

theorem loads_taggedTree : Loads none "spec.json" none taggedTree {} Document.indexTagged :=
  { settings := rfl, document := load_taggedTree, clean := by decide +kernel }

/-- The description stands beside the document. -/
theorem run_taggedArguments :
    ∃ text, (StateT.run (run (pure 0) taggedArguments : StateM FileTree _) taggedTree).2 =
      taggedTree.put ["work", "ir.json"] (.file text) := by
  have located : taggedTree.locate "ir.json" = .ok ["work", "ir.json"] := rfl
  have parent : Path.parent? "ir.json" = some "" := rfl
  have written (text : String) :
      (StateT.run (writeDescription "ir.json" text : StateM FileTree _) taggedTree).2 =
        taggedTree.put ["work", "ir.json"] (.file text) := by
    have stored := FileTree.writeText_of_locate located (by decide) text
    simp only [writeDescription, parent, pure_bind, StateT.run_bind, FileTree.run_writeText, stored]
    rfl
  rw [run, parse_taggedArguments]
  dsimp only
  rw [run_runDescribe_of_loads loads_taggedTree]
  exact ⟨_, written _⟩

/-- The files for Go could be written, but those for TypeScript cannot be generated. So the run of
both fails, and nothing is written for Go. The description is written, because the document is
valid. -/
theorem run_taggedTree :
    let ran := StateT.run (run (pure 0) ["gen", "--spec", "spec.json"] : StateM FileTree _) taggedTree
    (ran.1.exit = 1 ∧ ran.2 = taggedTree) ∧
      (StateT.run (run (pure 0) taggedArguments : StateM FileTree _) taggedTree).2 ≠ taggedTree ∧
      ∃ command, parse taggedArguments = .ok command ∧ Valid taggedTree command := by
  have changed :
      (StateT.run (run (pure 0) taggedArguments : StateM FileTree _) taggedTree).2 ≠
        taggedTree := by
    obtain ⟨text, after⟩ := run_taggedArguments
    intro same
    have absent : taggedTree.lookup? ["work", "ir.json"] = none := by decide
    rw [← same, after] at absent
    cases absent
  refine ⟨?_, changed, (run_settles_first taggedArguments 0 taggedTree).1 changed⟩
  refine (run_settles_first ["gen", "--spec", "spec.json"] 0 taggedTree).2
    { spec := "spec.json" } Language.all {} Document.indexTagged ?_ ?_ ?_ load_taggedTree
    ⟨.typeScript, ?_, .inl ⟨.duplicatePath "client/index.ts", ?_⟩⟩
  · rfl
  · rfl
  · rfl
  · decide
  · exact Document.generate_of_clashes (by decide +kernel)

end ClientGen.Command
