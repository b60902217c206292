import ClientGen.Proofs.Command.Generating
import ClientGen.Proofs.Output.Intact

/-!
# The files of several languages

A run commits the files of one language after those of another one. Whether the files of an earlier
language are still there at the end is up to the later commits.

* `Command.SparedBy` — several commits spare a plan, each in the tree that it finds.
* `Command.run_leaves_intact_iff` — for every run: a language is intact at the end exactly if all
  later commits spare it.
* `Command.intact_of_unrelated` — directories of which none is inside another one are enough.
* `Command.intact_of_usual` — the usual directories are of this kind.
* `Command.run_shared_removes_go` — a run in which a language is not spared: directories are kept
  apart by their components only, so two spellings of one place pass for two directories.
-/

namespace ClientGen

open ClientGen.Path

namespace Command

open OutputPlan

/-- **A plan is spared by several commits**, each in the tree that the commits before it leave. -/
def SparedBy (plan : OutputPlan) : List (Language × OutputPlan) → FileTree → Prop
  | [], _ => True
  | (_, other) :: rest, t => Spared plan other t ∧ SparedBy plan rest (t.run other.commit).2

/-- What is planned for a document is a plan for the files of the language. -/
theorem ofLanguage_of_planFor {doc : Document} {tag : Option String} {language : Language}
    {dir : String} {plan : OutputPlan}
    (made : planFor (describeDocument doc tag).value language dir = .ok plan) :
    plan.dir = dir ∧ plan.OfLanguage language := by
  obtain ⟨files, generated, planned⟩ := bind_eq_ok_iff.mp made
  have planned := mapError_eq_ok_iff.mp planned
  obtain ⟨some_file, places⟩ := Document.place_of_generate (mapError_eq_ok_iff.mp generated)
  obtain ⟨rfl, -, placing⟩ := ofFiles_eq_ok planned
  obtain ⟨all, -, -⟩ := placed_eq_ok_iff.mp placing
  refine ⟨rfl, valid_ofFiles planned, ?_, ?_⟩
  · intro none_planned
    rw [none_planned] at all
    exact some_file (List.forall₂_nil_right_iff.mp all)
  · intro entry member
    obtain ⟨file, inside, found, -⟩ := exists_related_of_mem all.flip member
    obtain ⟨names, same, place⟩ := places file inside
    rw [found, Option.some.injEq] at same
    exact same ▸ place

/-- **Commits of other languages** leave a plan intact that was intact before, if all of them spare
it, and otherwise they do not. -/
theorem intact_iff_of_commits {language : Language} {plan : OutputPlan}
    (ofLanguage : plan.OfLanguage language) {later : List (Language × OutputPlan)}
    (others : ∀ entry ∈ later, entry.2.OfLanguage entry.1 ∧ language ≠ entry.1)
    {t t' : FileTree} (sound : t.Sound) (commits : Commits later t t') :
    plan.Intact t' ↔ plan.Intact t ∧ SparedBy plan later t := by
  induction later generalizing t with
  | nil =>
      obtain rfl := commits_nil.mp commits
      simp [SparedBy]
  | cons entry later ih =>
      obtain ⟨otherLanguage, other⟩ := entry
      obtain ⟨⟨ofOther, differ⟩, others⟩ := List.forall_mem_cons.mp others
      obtain ⟨summary, middle, committed, commits⟩ := commits_cons.mp commits
      have done := (commit_eq_ok ofOther.valid sound committed).1
      have after : (t.run other.commit).2 = middle := by rw [committed]
      rw [ih others done.sound commits, SparedBy, after,
        intact_iff_of_committed ofLanguage ofOther differ done, and_assoc]

/-- Commits keep what every tree has. -/
theorem sound_of_commits {plans : List (Language × OutputPlan)}
    (valid : ∀ entry ∈ plans, entry.2.Valid) {t t' : FileTree} (sound : t.Sound)
    (commits : Commits plans t t') : t'.Sound ∧ t'.here = t.here := by
  induction plans generalizing t with
  | nil => exact commits_nil.mp commits ▸ ⟨sound, rfl⟩
  | cons entry plans ih =>
      obtain ⟨first, rest⟩ := List.forall_mem_cons.mp valid
      obtain ⟨summary, middle, committed, commits⟩ := commits_cons.mp commits
      have done := (commit_eq_ok first sound committed).1
      obtain ⟨soundLast, here⟩ := ih rest done.sound commits
      exact ⟨soundLast, here.trans done.here⟩

theorem sparedBy_of_unrelated {plan : OutputPlan} {later : List (Language × OutputPlan)}
    (valid : ∀ entry ∈ later, entry.2.Valid) {t t' : FileTree} (sound : t.Sound)
    (unrelated : ∀ entry ∈ later,
      ¬destination t.here entry.2.dir <+: destination t.here plan.dir ∧
        ¬destination t.here plan.dir <+: destination t.here entry.2.dir)
    (commits : Commits later t t') : SparedBy plan later t := by
  induction later generalizing t with
  | nil => trivial
  | cons entry later ih =>
      obtain ⟨language, other⟩ := entry
      obtain ⟨first, rest⟩ := List.forall_mem_cons.mp valid
      obtain ⟨⟨outside, inside⟩, others⟩ := List.forall_mem_cons.mp unrelated
      obtain ⟨summary, middle, committed, commits⟩ := commits_cons.mp commits
      have done := (commit_eq_ok first sound committed).1
      have after : (t.run other.commit).2 = middle := by rw [committed]
      refine ⟨spared_of_unrelated outside inside, ?_⟩
      rw [after]
      exact ih rest done.sound (done.here ▸ others) commits

/-- The tree after the commit of a plan among several ones, from which the later ones go on. -/
theorem commits_split {before later : List (Language × OutputPlan)}
    {entry : Language × OutputPlan} (valid : ∀ e ∈ before ++ entry :: later, e.2.Valid)
    {t t' : FileTree} (sound : t.Sound) (commits : Commits (before ++ entry :: later) t t') :
    let after := (StateT.run (commitAll (before ++ [entry]) : StateM FileTree _) t).2
    after.Sound ∧ after.here = t.here ∧ entry.2.Intact after ∧ Commits later after t' := by
  obtain ⟨language, plan⟩ := entry
  obtain ⟨middle, first, commits⟩ := commits_append.mp commits
  obtain ⟨summary, after, committed, others⟩ := commits_cons.mp commits
  have own : plan.Valid := valid (language, plan) (by simp)
  obtain ⟨soundMiddle, here⟩ :=
    sound_of_commits (fun entry member => valid entry (by simp [member])) sound first
  have done := (commit_eq_ok own soundMiddle committed).1
  obtain ⟨lines, ran⟩ : Commits (before ++ [(language, plan)]) t after :=
    commits_append.mpr ⟨middle, first, commits_cons.mpr ⟨summary, after, committed,
      commits_nil.mpr rfl⟩⟩
  rw [ran]
  exact ⟨done.sound, done.here.trans here, done.intact own, others⟩

/-- A language among several ones does not come again. -/
theorem ne_of_mem_later {before later : List (Language × OutputPlan)}
    {entry other : Language × OutputPlan}
    (distinct : ((before ++ entry :: later).map (·.1)).Nodup) (member : other ∈ later) :
    entry.1 ≠ other.1 := by
  rw [List.map_append, List.map_cons, List.nodup_append, List.nodup_cons] at distinct
  obtain ⟨-, ⟨once, -⟩, -⟩ := distinct
  intro same
  exact once (same ▸ List.mem_map_of_mem (f := (·.1)) member)

/-- **A language among several ones**: its plan is intact after all commits if those that come later
spare it, and otherwise it is not. -/
theorem intact_iff_of_split {before later : List (Language × OutputPlan)} {language : Language}
    {plan : OutputPlan}
    (all : ∀ entry ∈ before ++ (language, plan) :: later, entry.2.OfLanguage entry.1)
    (distinct : ((before ++ (language, plan) :: later).map (·.1)).Nodup) {t t' : FileTree}
    (sound : t.Sound) (commits : Commits (before ++ (language, plan) :: later) t t') :
    plan.Intact t' ↔ SparedBy plan later
      (StateT.run (commitAll (before ++ [(language, plan)]) : StateM FileTree _) t).2 := by
  obtain ⟨soundAfter, -, intact, others⟩ :=
    commits_split (fun entry member => (all entry member).valid) sound commits
  have ofOthers : ∀ entry ∈ later, entry.2.OfLanguage entry.1 ∧ language ≠ entry.1 :=
    fun entry member => ⟨all entry (by simp [member]), ne_of_mem_later distinct member⟩
  have own : plan.OfLanguage language := all (language, plan) (by simp)
  rw [intact_iff_of_commits own ofOthers soundAfter others]
  exact and_iff_right intact

/-- What a run that succeeds has prepared: plans of the languages, in the directories that the
settings give them. -/
theorem Prepared.ofLanguage {options : GenerateOptions} {t : FileTree} {config : Config}
    {doc : Document} {plans : List (Language × OutputPlan)}
    (prepared : Prepared options t config doc plans) : ∀ entry ∈ plans,
      entry.2.dir = config.outDir options.dir options.sdk entry.1 ∧ entry.2.OfLanguage entry.1 :=
  fun entry member => ofLanguage_of_planFor (prepared.plan entry member)

/-- **Languages in unrelated directories**, none inside another one, do not get in each other's way:
all of them are intact at the end, whatever manifests are found. -/
theorem intact_of_unrelated {options : GenerateOptions} {t t' : FileTree} (sound : t.Sound)
    {config : Config} {doc : Document} {plans : List (Language × OutputPlan)}
    (prepared : Prepared options t config doc plans) (commits : Commits plans t t')
    (unrelated : ∀ a ∈ plans, ∀ b ∈ plans, a.1 ≠ b.1 →
      ¬destination t.here a.2.dir <+: destination t.here b.2.dir) :
    ∀ entry ∈ plans, entry.2.Intact t' := by
  intro entry member
  obtain ⟨before, later, rfl⟩ := List.append_of_mem member
  have all := fun entry member => (prepared.ofLanguage entry member).2
  have distinct := nodup_of_wanted prepared.languages
  obtain ⟨soundAfter, here, -, others⟩ :=
    commits_split (fun entry member => (all entry member).valid) sound commits
  refine (intact_iff_of_split all distinct sound commits).mpr
    (sparedBy_of_unrelated (fun entry inLater => (all entry (by simp [inLater])).valid)
      soundAfter ?_ others)
  intro other inLater
  have differ := ne_of_mem_later distinct inLater
  have listed : other ∈ before ++ entry :: later := by simp [inLater]
  rw [here]
  exact ⟨unrelated other listed entry member differ.symm,
    unrelated entry member other listed differ⟩

/-- The usual directories of two languages are unrelated. -/
theorem usualDir_unrelated (here : List String) {language other : Language}
    (differ : language ≠ other) :
    ¬destination here (Config.usualDir ("sdk-" ++ language.id)) <+:
      destination here (Config.usualDir ("sdk-" ++ other.id)) := by
  have place (language : Language) : destination here (Config.usualDir ("sdk-" ++ language.id)) =
      here ++ ["packages", "sdk", "sdk-" ++ language.id, "src", "gen"] := by
    have steps : solidSteps (Config.usualDir ("sdk-" ++ language.id)) =
        ["packages", "sdk", "sdk-" ++ language.id, "src", "gen"].map String.toList := by
      cases language <;> rfl
    have relative : isAbsolute (Config.usualDir ("sdk-" ++ language.id)) = false := by
      cases language <;> rfl
    rw [destination, steps, relative]
    exact foldl_move_names (by cases language <;> decide) here
  rw [place, place, List.prefix_append_right_inj]
  revert differ
  cases language <;> cases other <;> decide

/-- Without any directory in the arguments or in the settings all languages are intact at the
end. -/
theorem intact_of_usual {options : GenerateOptions} (noDir : options.dir = none)
    (noSdk : options.sdk = none) {t t' : FileTree} (sound : t.Sound) {config : Config}
    (noOut : config.out = []) {doc : Document} {plans : List (Language × OutputPlan)}
    (prepared : Prepared options t config doc plans) (commits : Commits plans t t') :
    ∀ entry ∈ plans, entry.2.Intact t' := by
  have usual : ∀ entry ∈ plans, entry.2.dir = Config.usualDir ("sdk-" ++ entry.1.id) := by
    intro entry member
    rw [(prepared.ofLanguage entry member).1, noDir, noSdk]
    show (config.languageDir? entry.1).getD _ = _
    rw [Config.languageDir?, noOut]
    rfl
  refine intact_of_unrelated sound prepared commits fun a member b listed differ => ?_
  rw [usual a member, usual b listed]
  exact usualDir_unrelated t.here differ

/-- **What becomes of the files of every language.** For every tree that can be and all arguments
for which the generation of clients succeeds, there is a plan for each of the languages that are
asked for, in the directory that the settings give it. At the end its files and its manifest are
intact exactly if every later commit spares them: that commit goes to another place, and the
manifest that it finds there lists none of them. -/
theorem run_leaves_intact_iff {t t' : FileTree} (sound : t.Sound) {args : List String}
    {options : GenerateOptions} (asked : parse args = .ok (.generate options)) {milliseconds : Nat}
    {outcome : Outcome}
    (ran : StateT.run (run (pure milliseconds) args : StateM FileTree _) t = (outcome, t'))
    (success : outcome.exit = 0) :
    ∃ config doc plans, Prepared options t config doc plans ∧
      (∀ entry ∈ plans, entry.2.dir = config.outDir options.dir options.sdk entry.1) ∧
      ∀ before language plan later, plans = before ++ (language, plan) :: later →
        (plan.Intact t' ↔ SparedBy plan later
          (StateT.run (commitAll (before ++ [(language, plan)]) : StateM FileTree _) t).2) := by
  rw [run, asked] at ran
  obtain ⟨config, doc, plans, prepared, commits⟩ := runGenerate_eq_ok ran success
  refine ⟨config, doc, plans, prepared,
    fun entry member => (prepared.ofLanguage entry member).1, ?_⟩
  rintro before language plan later rfl
  exact intact_iff_of_split (fun entry member => (prepared.ofLanguage entry member).2)
    (nodup_of_wanted prepared.languages) sound commits

/-! ## Two languages of an empty document -/

/-- The description of an empty document. -/
def emptyApi : Api :=
  { title := "API", version := "0.0.0", models := [], operations := [] }

/-- Its files, in ascending order of their paths. -/
def emptyFiles : Language → List SourceFile
  | .typeScript =>
    [⟨"client/index.ts", TypeScript.index []⟩, ⟨"index.ts", TypeScript.rootIndex⟩,
      ⟨"models/index.ts", TypeScript.index []⟩, ⟨"runtime.ts", TypeScript.requestFile⟩]
  | .go =>
    [⟨"client.go", Go.header ++ Go.clientFile⟩, ⟨"doc.go", Go.packageFile emptyApi⟩,
      ⟨"models.go", Go.modelsFile [] (Go.clientNames ++ [])⟩,
      ⟨"operations.go", Go.operationsFile []⟩]

/-- Their plan. -/
def emptyPlan (language : Language) (dir : String) : OutputPlan :=
  { dir
    files := (emptyFiles language).map fun file =>
      ((contained? file.path).getD [], file.contents)
    manifest := { files := (emptyFiles language).map (·.path) } }

/-- An empty document has this description, and nothing is noted about it. -/
theorem describeDocument_empty : describeDocument {} none = ⟨emptyApi, []⟩ := by
  have paths : ({} : Document).endpoints = [] := by simp [Document.endpoints, OrderedMap.sorted]
  have schemas : ({} : Document).schemas = [] := by simp [Document.schemas, OrderedMap.sorted]
  have canonical : emptyApi.sorted = emptyApi := by simp [Api.sorted, emptyApi]
  have described : (({} : Document).describe usualTag).value.api = emptyApi.sorted := by
    simp only [Document.describe, Document.models, Document.operations, paths, schemas]
    rfl
  have notes : (({} : Document).describe usualTag).notes = [] := by
    simp only [Document.describe, Document.models, Document.operations, paths, schemas]
    rfl
  rw [describeDocument, Option.getD_none, described, canonical, notes]

theorem generate_emptyApi (language : Language) :
    language.generate emptyApi none = .ok (emptyFiles language) := by
  unfold Language.generate
  rw [SourceFile.finished_none]
  cases language with
  | typeScript =>
      have untagged : emptyApi.byTag = [] := by
        rw [Api.byTag, emptyApi, List.map_nil, Naming.ascending]
        simp
        rfl
      have files : TypeScript.files emptyApi =
          [⟨"models/index.ts", TypeScript.index []⟩, ⟨"client/index.ts", TypeScript.index []⟩,
            ⟨"runtime.ts", TypeScript.requestFile⟩, ⟨"index.ts", TypeScript.rootIndex⟩] := by
        rw [TypeScript.files, TypeScript.clientFiles, untagged]
        rfl
      have ordered : SourceFile.inOrder (TypeScript.files emptyApi) = emptyFiles .typeScript := by
        rw [files]
        simp [SourceFile.inOrder, List.mergeSort, List.MergeSort.Internal.splitInTwo, emptyFiles]
      simp only [ordered]
      rfl
  | go =>
      have ordered : SourceFile.inOrder (Go.files emptyApi) = emptyFiles .go := by
        simp [Go.files, SourceFile.inOrder, List.mergeSort, List.MergeSort.Internal.splitInTwo]
        rfl
      simp only [ordered]
      rfl

theorem planFor_emptyApi (language : Language) (dir : String) :
    planFor emptyApi language dir = .ok (emptyPlan language dir) := by
  have ascending : (emptyFiles language).Pairwise fun a b => decide (a.path ≤ b.path) := by
    cases language <;> decide
  have listed : ((emptyFiles language).map (·.path)).mergeSort (fun a b => decide (a ≤ b)) =
      (emptyFiles language).map (·.path) :=
    List.mergeSort_of_pairwise (List.pairwise_map.mpr ascending)
  rw [planFor, generate_emptyApi]
  show (ofFiles dir (emptyFiles language)).mapError _ = _
  unfold ofFiles
  rw [listed]
  cases language <;> rfl

/-- The text of settings with a directory for each language. -/
def settingsText (goDir typeScriptDir : String) : String :=
  "[out]\ngo = \"" ++ goDir ++ "\"\nts = \"" ++ typeScriptDir ++ "\"\n"

/-- These settings. -/
def twoDirectories (goDir typeScriptDir : String) : Config :=
  { out := [("go", goDir), ("ts", typeScriptDir)] }

/-- A tree with an empty document and two files of settings: one with two directories, and one with
two spellings of one directory. -/
def workTree : FileTree :=
  { here := ["work"]
    entries :=
      [(["work"], .directory), (["work", "spec.json"], .file "{}"),
        (["work", "apart.toml"], .file (settingsText "sdk" "web")),
        (["work", "shared.toml"], .file (settingsText "sdk" "./sdk"))] }

theorem sound_workTree : workTree.Sound :=
  .of_entries (by decide) rfl

/-- The arguments for Go and then TypeScript, with a file of settings. -/
def bothArguments (config : String) : List String :=
  ["gen", "--lang", "go,ts", "--spec", "spec.json", "--config", config]

/-- What they ask for. -/
def bothOptions (config : String) : GenerateOptions :=
  { languages := some "go,ts", spec := "spec.json", config := some config }

theorem wanted_bothOptions (config : String) :
    wanted (bothOptions config) = .ok [.go, .typeScript] := by
  have named : languages (some "go,ts") = .ok [.go, .typeScript] := rfl
  unfold wanted bothOptions
  simp only [named]
  rfl

/-- What has to hold of a file of settings, so that a run commits Go and then TypeScript. -/
def NamesDirectories (path goDir typeScriptDir : String) : Prop :=
  workTree.readText path = .ok (settingsText goDir typeScriptDir) ∧
    (parent? path).getD "" = "" ∧
    Toml.Settings.parse? (settingsText goDir typeScriptDir) =
      some [("out", .table false [("go", goDir), ("ts", typeScriptDir)])] ∧
    (twoDirectories goDir typeScriptDir).outDir none none .go = goDir ∧
    (twoDirectories goDir typeScriptDir).outDir none none .typeScript = typeScriptDir ∧
    components typeScriptDir ≠ components goDir ∧
    parse (bothArguments path) = .ok (.generate (bothOptions path))

instance (path goDir typeScriptDir : String) :
    Decidable (NamesDirectories path goDir typeScriptDir) := by
  unfold NamesDirectories
  infer_instance

theorem NamesDirectories.asked {path goDir typeScriptDir : String}
    (names : NamesDirectories path goDir typeScriptDir) :
    parse (bothArguments path) = .ok (.generate (bothOptions path)) :=
  names.2.2.2.2.2.2

/-- Both files of settings are of this kind. -/
theorem namesDirectories :
    NamesDirectories "apart.toml" "sdk" "web" ∧ NamesDirectories "shared.toml" "sdk" "./sdk" := by
  decide +kernel

/-- The settings are read with both directories, and the document is empty. -/
theorem inputs_both {path goDir typeScriptDir : String}
    (names : NamesDirectories path goDir typeScriptDir) :
    (StateT.run (inputs (some path) "spec.json" : StateM FileTree _) workTree).1 =
      .ok (twoDirectories goDir typeScriptDir, {}) := by
  obtain ⟨settingsRead, parent, parsed, -⟩ := names
  have sorted : OrderedMap.sorted [("go", goDir), ("ts", typeScriptDir)] =
      [("go", goDir), ("ts", typeScriptDir)] :=
    List.mergeSort_of_pairwise (by simp)
  have config : Config.parse? ((parent? path).getD "") (settingsText goDir typeScriptDir) =
      some (twoDirectories goDir typeScriptDir) := by
    rw [parent, Config.parse?, parsed]
    show (some { ({} : Config) with out := OrderedMap.sorted _ } : Option Config) = _
    rw [sorted]
    rfl
  have docRead : workTree.readText "spec.json" = .ok "{}" := rfl
  have docParsed : Document.parse (Document.Notation.ofPath "spec.json") "{}" = .ok {} := by
    have json : Document.Notation.ofPath "spec.json" = .json := rfl
    rw [json]
    cbv
  exact congrArg Prod.fst (run_inputs_of_reads settingsRead config docRead docParsed)

/-- There are two plans, since the directories pass for different ones. -/
theorem planned_both {path goDir typeScriptDir : String}
    (names : NamesDirectories path goDir typeScriptDir) :
    planned (bothOptions path) (twoDirectories goDir typeScriptDir) [.go, .typeScript]
      (describeDocument {} none) =
        .ok [(.go, emptyPlan .go goDir), (.typeScript, emptyPlan .typeScript typeScriptDir)] := by
  obtain ⟨-, -, -, goOut, typeScriptOut, unshared, -⟩ := names
  have described : sound "spec.json" (describeDocument {} none) = .ok emptyApi := by
    rw [describeDocument_empty]
    rfl
  have kept : shared? [] [(.go, goDir), (.typeScript, typeScriptDir)] = none := by
    simp [shared?, unshared]
  show (sound "spec.json" (describeDocument {} none) >>= _ : Except CommandError _) = _
  rw [described]
  show plans emptyApi [(.go, (twoDirectories goDir typeScriptDir).outDir none none .go),
    (.typeScript, (twoDirectories goDir typeScriptDir).outDir none none .typeScript)] = _
  rw [goOut, typeScriptOut, plans, kept]
  simp only [List.mapM_cons, List.mapM_nil, planFor_emptyApi]
  rfl

/-- **Go is committed and then TypeScript.** -/
theorem run_both {path goDir typeScriptDir : String}
    (names : NamesDirectories path goDir typeScriptDir) {t t' : FileTree}
    {summary summary' : Summary}
    (first : workTree.run (emptyPlan .go goDir).commit = (.ok summary, t))
    (second : t.run (emptyPlan .typeScript typeScriptDir).commit = (.ok summary', t')) :
    ∃ outcome, outcome.exit = 0 ∧
      StateT.run (run (pure 0) (bothArguments path) : StateM FileTree _) workTree =
        (outcome, t') ∧
      Prepared (bothOptions path) workTree (twoDirectories goDir typeScriptDir) {}
        [(.go, emptyPlan .go goDir), (.typeScript, emptyPlan .typeScript typeScriptDir)] := by
  have read := inputs_both names
  have made := planned_both names
  have commits : Commits [(.go, emptyPlan .go goDir),
      (.typeScript, emptyPlan .typeScript typeScriptDir)] workTree t' :=
    commits_cons.mpr ⟨_, _, first, commits_cons.mpr ⟨_, _, second, commits_nil.mpr rfl⟩⟩
  obtain ⟨outcome, success, ran⟩ :=
    runGenerate_of_commits (wanted_bothOptions path) read made commits 0
  obtain ⟨named, plan⟩ := planned_eq_ok made
  refine ⟨outcome, success, ?_, read, named ▸ wanted_bothOptions path, plan⟩
  rw [run, names.asked]
  exact ran

theorem commit_go : (workTree.run (emptyPlan .go "sdk").commit).1 = .ok ⟨0, 4⟩ := by
  decide +kernel

/-- The tree with the files for Go. -/
def goTree : FileTree :=
  (workTree.run (emptyPlan .go "sdk").commit).2

theorem run_go : workTree.run (emptyPlan .go "sdk").commit = (.ok ⟨0, 4⟩, goTree) := by
  rw [goTree, ← commit_go]

theorem ofLanguage_emptyPlan (language : Language) (dir : String) :
    (emptyPlan language dir).OfLanguage language := by
  have described : (describeDocument {} none).value = emptyApi := by rw [describeDocument_empty]
  have made := planFor_emptyApi language dir
  rw [← described] at made
  exact (ofLanguage_of_planFor made).2

theorem here_goTree : goTree.here = ["work"] :=
  (commit_eq_ok (ofLanguage_emptyPlan .go "sdk").valid sound_workTree run_go).1.here

theorem manifest_goTree : goTree.manifest? "./sdk" = some (emptyPlan .go "sdk").manifest := by
  have committed := (commit_eq_ok (ofLanguage_emptyPlan .go "sdk").valid sound_workTree run_go).1
  -- the directory is the same under both names
  have followed : goTree.follow "./sdk" = goTree.follow "sdk" :=
    FileTree.route_congr goTree rfl (solidSteps "sdk")
  have one := List.cons_ne_nil Manifest.fileName []
  have proper : ∀ name ∈ [Manifest.fileName], IsName name :=
    List.forall_mem_singleton.mpr isName_fileName
  have located : goTree.locate (join "./sdk" Manifest.fileName) =
      .ok (destination workTree.here "sdk" ++ [Manifest.fileName]) := by
    rw [← target_fileName, target,
      FileTree.locate_join goTree "./sdk" one proper ⟨by decide, by decide, by decide⟩, followed,
      ← FileTree.locate_join goTree "sdk" one proper ⟨by decide, by decide, by decide⟩]
    exact committed.locatedManifest
  exact manifest?_of_readText (FileTree.readText_of_locate located committed.manifest)

theorem listed_goTree : goTree.listed "./sdk" =
    [["client.go"], ["doc.go"], ["models.go"], ["operations.go"]] := by
  rw [FileTree.listed_of_some manifest_goTree]
  decide

theorem clean_goTree : goTree.run (clean (emptyPlan .typeScript "./sdk").dir) = goTree.run (do
    let count ← removeAll "./sdk" [["client.go"], ["doc.go"], ["models.go"], ["operations.go"]]
    pruneAll "./sdk" []
    return count) := by
  have unpruned :
      emptied [["client.go"], ["doc.go"], ["models.go"], ["operations.go"]] = [] := by
    simp [emptied, above]
  show goTree.run (clean "./sdk") = _
  rw [run_clean, manifest_goTree, listed_goTree, unpruned]

theorem commit_typeScript :
    (goTree.run (emptyPlan .typeScript "web").commit).1 = .ok ⟨0, 4⟩ ∧
      (goTree.run (emptyPlan .typeScript "./sdk").commit).1 = .ok ⟨4, 4⟩ := by
  constructor
  · decide +kernel
  · rw [commit, FileTree.run_bind_congr clean_goTree]
    decide +kernel

/-- The tree at the end, with TypeScript in some directory. -/
def bothTree (dir : String) : FileTree :=
  (goTree.run (emptyPlan .typeScript dir).commit).2

theorem run_typeScript {dir : String} {summary : Summary}
    (committed : (goTree.run (emptyPlan .typeScript dir).commit).1 = .ok summary) :
    goTree.run (emptyPlan .typeScript dir).commit = (.ok summary, bothTree dir) :=
  Prod.ext committed rfl

/-- With two directories both languages are intact at the end. -/
theorem run_apart_leaves_intact :
    ∃ outcome, workTree.Sound ∧
      parse (bothArguments "apart.toml") = .ok (.generate (bothOptions "apart.toml")) ∧
      StateT.run (run (pure 0) (bothArguments "apart.toml") : StateM FileTree _) workTree =
        (outcome, bothTree "web") ∧
      outcome.exit = 0 ∧ (emptyPlan .go "sdk").Intact (bothTree "web") ∧
      (emptyPlan .typeScript "web").Intact (bothTree "web") := by
  have names := namesDirectories.1
  have asked := names.asked
  have second := run_typeScript commit_typeScript.1
  obtain ⟨outcome, success, ran, prepared⟩ := run_both names run_go second
  refine ⟨outcome, sound_workTree, asked, ran, success, ?_⟩
  obtain ⟨config, doc, plans, found, -, all⟩ :=
    run_leaves_intact_iff sound_workTree asked ran success
  obtain ⟨-, -, rfl⟩ := prepared.unique found
  have go := all [] .go (emptyPlan .go "sdk") [(.typeScript, emptyPlan .typeScript "web")] rfl
  have typeScript := all [(.go, emptyPlan .go "sdk")] .typeScript (emptyPlan .typeScript "web") []
    rfl
  refine ⟨go.mpr ⟨spared_of_unrelated ?_ ?_, trivial⟩, typeScript.mpr trivial⟩
  all_goals
    rw [List.nil_append, run_commitAll_of_ok run_go rfl]
    show ¬destination goTree.here _ <+: destination goTree.here _
    rw [here_goTree]
    decide

/-- **One directory under two names.** The settings give Go the directory `sdk` and TypeScript the
directory `./sdk`. The run succeeds, and the files for Go are gone. -/
theorem run_shared_removes_go :
    ∃ outcome, workTree.Sound ∧
      parse (bothArguments "shared.toml") = .ok (.generate (bothOptions "shared.toml")) ∧
      StateT.run (run (pure 0) (bothArguments "shared.toml") : StateM FileTree _) workTree =
        (outcome, bothTree "./sdk") ∧
      outcome.exit = 0 ∧
      Prepared (bothOptions "shared.toml") workTree (twoDirectories "sdk" "./sdk") {}
        [(.go, emptyPlan .go "sdk"), (.typeScript, emptyPlan .typeScript "./sdk")] ∧
      (∀ file ∈ (emptyPlan .go "sdk").files,
        (bothTree "./sdk").text? (["work", "sdk"] ++ file.1) = none) ∧
      ¬(emptyPlan .go "sdk").Intact (bothTree "./sdk") := by
  have names := namesDirectories.2
  have second := run_typeScript commit_typeScript.2
  obtain ⟨outcome, success, ran, prepared⟩ := run_both names run_go second
  have go := ofLanguage_emptyPlan .go "sdk"
  have typeScript := ofLanguage_emptyPlan .typeScript "./sdk"
  have soundGo := (commit_eq_ok go.valid sound_workTree run_go).1.sound
  have committed := (commit_eq_ok typeScript.valid soundGo second).1
  have place : destination goTree.here "./sdk" = ["work", "sdk"] := by
    rw [here_goTree]
    decide
  have gone : ∀ file ∈ (emptyPlan .go "sdk").files,
      (bothTree "./sdk").text? (["work", "sdk"] ++ file.1) = none := by
    intro file member
    have listed : file.1 ∈ goTree.listed "./sdk" := by
      rw [listed_goTree]
      exact List.mem_map_of_mem (f := (·.1)) member
    have removed := committed.text?_removed listed (go.valid.free file member) ?_
    · rwa [show (emptyPlan .typeScript "./sdk").dir = "./sdk" from rfl, place] at removed
    · intro planned
      obtain ⟨other, inTypeScript, same⟩ := List.mem_map.mp planned
      have languages := (typeScript.place other inTypeScript).language_eq (go.place file member)
        (congrArg ([] ++ ·) same)
      cases languages
  refine ⟨outcome, sound_workTree, names.asked, ran, success, prepared, gone,
    fun intact => ?_⟩
  exact intact.apart go typeScript (by decide) committed (by rw [here_goTree]; decide)

end Command

end ClientGen
