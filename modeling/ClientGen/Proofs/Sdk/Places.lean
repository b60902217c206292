import ClientGen.Proofs.Document.Correspondence
import ClientGen.Proofs.Json.Numerals
import ClientGen.Proofs.Naming.Grammar
import ClientGen.Proofs.Naming.Runs
import ClientGen.Proofs.Output.Plans
import ClientGen.Proofs.Sdk.Finished
import ClientGen.Proofs.TypeScript.FileNames
import ClientGen.Sdk.Language

/-!
# Where the files of a client go

Every path of a client is a list of names put together, so clients are compared by these lists: all
of them are proper names, and the last one has the extension of the language.

* `TypeScript.places`, `Go.places` — the names of the files of a client.
* `TypeScript.Clashes` — the one way in which two files get one path: the folder of the clients has
  an index, and the stem of a tag may be `index` as well. The stems are different from one another,
  but nothing keeps them away from the index.
* `Document.generate_iff` — for every document and language, generating succeeds with files that can
  be written, or it is this clash.
-/

namespace ClientGen

open ClientGen.Path

/-! ## Names with an extension -/

theorem Path.ofNames_pair (a b : String) : ofNames [a, b] = a ++ "/" ++ b := by
  rw [ofNames_eq, ← String.toList_inj]
  simp [List.intercalate, List.intersperse]

theorem Path.ofNames_single (a : String) : ofNames [a] = a := by
  rw [ofNames_eq, ← String.toList_inj]
  simp [List.intercalate]

/-- The extension of the files of a language. -/
def Language.extension : Language → String
  | .typeScript => ".ts"
  | .go => ".go"

/-- **A place for a file of a language**: proper names, of which the last one has the extension. -/
structure Language.Place (language : Language) (names : List String) : Prop where
  /-- They are proper names. -/
  isName : ∀ name ∈ names, IsName name
  /-- The last one has the extension. -/
  ends : ∃ front stem, names = front ++ [stem ++ language.extension]

namespace Language

theorem Place.ne_nil {language : Language} {names : List String} (place : language.Place names) :
    names ≠ [] := by
  obtain ⟨front, stem, rfl⟩ := place.ends
  simp

/-- The last letter of a text with an extension. -/
theorem getLast?_extension (language : Language) (stem : String) :
    (stem ++ language.extension).toList.getLast? = language.extension.toList.getLast? := by
  rw [String.toList_append, List.getLast?_append_of_ne_nil]
  cases language <;> decide

/-- The last name of a place below some names has the extension. -/
theorem Place.getLast? {language : Language} {names : List String} (place : language.Place names)
    (base : List String) :
    ∃ stem, (base ++ names).getLast? = some (stem ++ language.extension) := by
  obtain ⟨front, stem, rfl⟩ := place.ends
  exact ⟨stem, by simp⟩

/-- One file below a directory does not belong to two languages, wherever they start. -/
theorem Place.language_eq {language other : Language} {names names' : List String}
    (place : language.Place names) (place' : other.Place names') {base base' : List String}
    (same : base ++ names = base' ++ names') : language = other := by
  obtain ⟨stem, last⟩ := place.getLast? base
  obtain ⟨stem', last'⟩ := place'.getLast? base'
  rw [same, last', Option.some.injEq] at last
  have letters := congrArg (fun name : String => name.toList.getLast?) last
  rw [getLast?_extension, getLast?_extension] at letters
  revert letters
  cases language <;> cases other <;> decide

/-- No file of a language is a manifest, of whatever directory. -/
theorem Place.append_ne_manifest {language : Language} {names : List String}
    (place : language.Place names) (base base' : List String) :
    base ++ names ≠ base' ++ [Manifest.fileName] := by
  intro same
  obtain ⟨stem, last⟩ := place.getLast? base
  rw [same, List.getLast?_concat, Option.some.injEq] at last
  have letters := congrArg (fun name : String => name.toList.getLast?) last
  rw [getLast?_extension] at letters
  revert letters
  cases language <;> decide

/-- A stem without slashes is a name with an extension. -/
theorem isName_extension (language : Language) {stem : String} (plain : '/' ∉ stem.toList) :
    IsName (stem ++ language.extension) := by
  have long : 2 < (stem ++ language.extension).toList.length := by
    rw [String.toList_append, List.length_append]
    refine Nat.lt_of_lt_of_le ?_ (Nat.le_add_left ..)
    cases language <;> decide
  refine ⟨?_, ?_, ?_⟩
  · rw [isVoid, Bool.or_eq_false_iff, decide_eq_false_iff_not, decide_eq_false_iff_not]
    refine ⟨?_, ?_⟩ <;>
    · intro same
      rw [same] at long
      exact absurd long (by decide)
  · intro same
    rw [same] at long
    exact absurd long (by decide)
  · rw [String.toList_append, List.mem_append, not_or]
    refine ⟨plain, ?_⟩
    cases language <;> decide

theorem place_single (language : Language) (stem : String) (plain : '/' ∉ stem.toList) :
    language.Place [stem ++ language.extension] :=
  ⟨List.forall_mem_singleton.mpr (language.isName_extension plain), [], stem, rfl⟩

theorem place_folder (language : Language) {folder : String} (isName : IsName folder)
    (stem : String) (plain : '/' ∉ stem.toList) :
    language.Place [folder, stem ++ language.extension] :=
  ⟨List.forall_mem_cons.mpr ⟨isName, (language.place_single stem plain).isName⟩, [folder], stem,
    rfl⟩

end Language

/-! ## Files by their places -/

namespace SourceFile

/-- A file at a place has the place for its names. -/
theorem contained?_of_places {language : Language} {files : List SourceFile}
    {places : List (List String)} (proper : ∀ place ∈ places, language.Place place)
    (paths : (files.map (·.path)).Perm (places.map ofNames)) :
    (files.map fun file => contained? file.path).Perm (places.map some) := by
  have contained : (places.map ofNames).map contained? = places.map some := by
    rw [List.map_map]
    refine List.map_congr_left fun place member => ?_
    exact contained?_ofNames (proper place member).ne_nil (proper place member).isName
  have mapped := paths.map contained?
  rwa [contained, List.map_map] at mapped

/-- **Files at different places** are put in order, and they can be written anywhere. -/
theorem finished_of_places {language : Language} {files : List SourceFile}
    {places : List (List String)} (proper : ∀ place ∈ places, language.Place place)
    (distinct : places.Nodup) (paths : (files.map (·.path)).Perm (places.map ofNames)) :
    finished none files = .ok (inOrder files) ∧
      ((inOrder files).Pairwise fun a b => a.path < b.path) ∧
      ∀ dir, ∃ plan, OutputPlan.ofFiles dir (inOrder files) = .ok plan := by
  have contained := contained?_of_places proper paths
  have once : (files.map fun file => contained? file.path).Nodup :=
    contained.nodup_iff.mpr (distinct.map (Option.some_injective _))
  have different : (files.map (·.path)).Nodup := by
    have mapped : ((files.map (·.path)).map contained?).Nodup := by
      rw [List.map_map]
      exact once
    exact List.Nodup.of_map _ mapped
  obtain ⟨finished, ascending⟩ := finished_of_nodup different
  refine ⟨finished, ascending, fun dir => ?_⟩
  refine (OutputPlan.ofFiles_isOk_iff dir _).mpr ⟨fun file member => ?_, ?_⟩
  · have inFiles := (inOrder_perm files).mem_iff.mp member
    have mapped : contained? file.path ∈ places.map some := contained.mem_iff.mp
      (List.mem_map_of_mem (f := fun file : SourceFile => contained? file.path) inFiles)
    obtain ⟨place, inside, same⟩ := List.mem_map.mp mapped
    exact ⟨place, same.symm, (proper place inside).append_ne_manifest [] []⟩
  · have same : ((inOrder files).map fun file => contained? file.path).Perm
        (files.map fun file => contained? file.path) := (inOrder_perm files).map _
    exact same.nodup_iff.mpr once

end SourceFile

namespace Naming

theorem slash_notMem_toDigits (k : Nat) : '/' ∉ Nat.toDigits 10 k := fun member =>
  absurd (Json.Numeral.isAsciiDigit_of_mem_toDigits member) (by decide)

/-- What is asked of the names of models here: there is no slash in them, and they do not start with
a small letter. -/
theorem exists_cons_of_isName {cs : List Char} (isName : IsName Text.isAsciiCapital cs) :
    ∃ c rest, cs = c :: rest ∧ c ≠ 'i' ∧ '/' ∉ cs := by
  cases isName with
  | @letter c rest head tail =>
      refine ⟨c, rest, rfl, ?_, ?_⟩
      · rintro rfl
        exact absurd head (by decide)
      · rw [List.mem_cons, not_or]
        refine ⟨?_, fun member => absurd (tail _ member) (by decide)⟩
        rintro rfl
        exact absurd head (by decide)
  | @digit c rest head tail =>
      refine ⟨'_', c :: rest, rfl, by decide, ?_⟩
      simp only [List.mem_cons, not_or]
      refine ⟨by decide, ?_, fun member => absurd (tail _ member) (by decide)⟩
      rintro rfl
      exact absurd head (by decide)

end Naming

/-- The names of models are no index, and they have no slashes. -/
theorem Document.modelNames_spec {schemas : List (String × Schema)} {name : String}
    (member : name ∈ modelNames schemas) : name ≠ "index" ∧ '/' ∉ name.toList := by
  obtain ⟨candidate, listed, same⟩ := Naming.eq_or_eq_numbered_of_mem_uniqueAll member
  obtain ⟨entry, -, rfl⟩ := List.mem_map.mp listed
  obtain ⟨c, rest, text, differs, plain⟩ :=
    Naming.exists_cons_of_isName (Naming.isName_pascalCase entry.1)
  have index : "index".toList = ['i', 'n', 'd', 'e', 'x'] := rfl
  rcases same with rfl | ⟨k, rfl⟩
  · refine ⟨?_, plain⟩
    intro same
    rw [same, index] at text
    exact differs (List.cons.inj text).1.symm
  · rw [Naming.toList_numbered, List.mem_append, not_or]
    refine ⟨?_, plain, Naming.slash_notMem_toDigits k⟩
    intro same
    have letters := congrArg String.toList same
    rw [Naming.toList_numbered, text, index] at letters
    exact differs (List.cons.inj letters).1

namespace TypeScript

/-! ## The stems of tags -/

/-- The stem of a tag has no slash. -/
theorem slash_notMem_fileName (tag : String) : '/' ∉ (fileName tag).toList := by
  intro member
  rcases (isStem_fileName tag).hyphen_or_isStemChar '/' member with hyphen | stemChar
  · exact absurd hyphen (by decide)
  · exact absurd stemChar (by decide)

theorem length_tagStems (tags : List String) : (tagStems tags).length = tags.length := by
  unfold tagStems
  split
  · rename_i single
    exact single.symm
  · rw [Naming.length_uniqueAll, List.length_map]

theorem nodup_tagStems (tags : List String) : (tagStems tags).Nodup := by
  unfold tagStems
  split
  · exact List.nodup_singleton _
  · exact Naming.nodup_uniqueAll _ _

theorem slash_notMem_tagStems {tags : List String} {stem : String} (member : stem ∈ tagStems tags) :
    '/' ∉ stem.toList := by
  unfold tagStems at member
  split at member
  · rw [List.mem_singleton.mp member]
    decide
  · obtain ⟨candidate, listed, same⟩ := Naming.eq_or_eq_numbered_of_mem_uniqueAll member
    obtain ⟨tag, -, rfl⟩ := List.mem_map.mp listed
    rcases same with rfl | ⟨k, rfl⟩
    · exact slash_notMem_fileName tag
    · rw [Naming.toList_numbered, List.mem_append, not_or]
      exact ⟨slash_notMem_fileName tag, Naming.slash_notMem_toDigits k⟩

theorem numbered_ne_index (name : String) (k : Nat) : Naming.numbered name k ≠ "index" := by
  intro same
  have letters := congrArg String.toList same
  have last : (Nat.toDigits 10 k).getLast? = some 'x' := by
    have ends := congrArg List.getLast? letters
    rw [Naming.toList_numbered, List.getLast?_append_of_ne_nil _ Nat.toDigits_ne_nil] at ends
    exact ends
  have digit := Json.Numeral.isAsciiDigit_of_mem_toDigits (List.mem_of_getLast? last)
  exact absurd digit (by decide)

/-- The stem of a tag is that of the index only if there are several tags and one of them asks for
it. -/
theorem index_mem_tagStems {tags : List String} :
    "index" ∈ tagStems tags ↔ tags.length ≠ 1 ∧ ∃ tag ∈ tags, fileName tag = "index" := by
  unfold tagStems
  split
  · rename_i single
    simp [single]
  · rename_i several
    constructor
    · intro member
      obtain ⟨candidate, listed, same⟩ := Naming.eq_or_eq_numbered_of_mem_uniqueAll member
      obtain ⟨tag, inside, rfl⟩ := List.mem_map.mp listed
      rcases same with same | ⟨k, same⟩
      · exact ⟨several, tag, inside, same.symm⟩
      · exact absurd same.symm (numbered_ne_index _ k)
    · rintro ⟨-, tag, inside, same⟩
      have listed : "index" ∈ tags.map fileName := List.mem_map.mpr ⟨tag, inside, same⟩
      exact (Naming.mem_uniqueAll_of_mem listed).resolve_left List.not_mem_nil

/-! ## The files of a TypeScript client -/

/-- The tags of the operations, each once. -/
def tags (api : Api) : List String :=
  api.byTag.map (·.1)

theorem tags_eq (api : Api) : tags api = Naming.ascending (api.operations.map (·.tag)) := by
  simp [tags, Api.byTag, Function.comp_def]

/-- The names of all files but the index of the clients. -/
def otherPlaces (api : Api) : List (List String) :=
  api.models.map (fun m => ["models", m.name ++ ".ts"]) ++ [["models", "index.ts"]] ++
    (tagStems (tags api)).map (fun stem => ["client", stem ++ ".ts"]) ++
      [["runtime.ts"], ["index.ts"]]

/-- **The names of the files of a client.** -/
def places (api : Api) : List (List String) :=
  ["client", "index.ts"] :: otherPlaces api

/-- The path of a file with a stem in a folder. -/
theorem ofNames_folder (folder stem : String) :
    ofNames [folder, stem ++ ".ts"] = folder ++ "/" ++ stem ++ ".ts" := by
  rw [ofNames_pair, ← String.append_assoc]

/-- The paths of the files are the names put together. -/
theorem map_path_files (api : Api) :
    ((files api).map (·.path)).Perm ((places api).map ofNames) := by
  have models : (api.models.map modelFile).map (·.path) =
      (api.models.map fun m => ["models", m.name ++ ".ts"]).map ofNames := by
    rw [List.map_map, List.map_map]
    exact List.map_congr_left fun m _ => (ofNames_folder "models" m.name).symm
  have clients : (clientFiles api).2.map (·.path) =
      ((tagStems (tags api)).map fun stem => ["client", stem ++ ".ts"]).map ofNames := by
    have lengths : (tagStems (tags api)).length ≤ api.byTag.length := by
      rw [length_tagStems, tags, List.length_map]
    have stems : ((tagStems (tags api)).zip api.byTag).map Prod.fst = tagStems (tags api) :=
      List.map_fst_zip lengths
    rw [clientFiles, List.map_map, List.map_map]
    conv_rhs => rw [← stems, List.map_map]
    exact List.map_congr_left fun entry _ => (ofNames_folder "client" entry.1).symm
  have modelIndex : ofNames ["models", "index.ts"] = "models/index.ts" := by
    rw [ofNames_pair]
    rfl
  have clientIndex : ofNames ["client", "index.ts"] = "client/index.ts" := by
    rw [ofNames_pair]
    rfl
  have listed : (files api).map (·.path) =
      (api.models.map fun m => ["models", m.name ++ ".ts"]).map ofNames ++ ["models/index.ts"] ++
        ((tagStems (tags api)).map fun stem => ["client", stem ++ ".ts"]).map ofNames ++
          ["client/index.ts", "runtime.ts", "index.ts"] := by
    rw [← models, ← clients]
    simp [files]
  rw [listed, places, otherPlaces]
  simp only [List.map_cons, List.map_append, List.map_nil, modelIndex, clientIndex, ofNames_single]
  exact List.perm_middle

/-- What has to hold of the names of models, so that their files are all different. -/
structure ModelsApart (api : Api) : Prop where
  /-- No two models have one name. -/
  distinct : (api.models.map (·.name)).Nodup
  /-- No model is called like the index. -/
  noIndex : ∀ m ∈ api.models, m.name ≠ "index"
  /-- No name has a slash. -/
  plain : ∀ m ∈ api.models, '/' ∉ m.name.toList

theorem pair_injective (folder : String) {stem other : String}
    (same : [folder, stem ++ ".ts"] = [folder, other ++ ".ts"]) : stem = other := by
  have last := (List.cons.inj (List.cons.inj same).2).1
  rwa [String.append_left_inj] at last

/-- All other files have different names. -/
theorem nodup_otherPlaces {api : Api} (apart : ModelsApart api) : (otherPlaces api).Nodup := by
  have models : (api.models.map fun m => ["models", m.name ++ ".ts"]).Nodup := by
    have mapped := apart.distinct.map (f := fun name => ["models", name ++ ".ts"])
      fun _ _ same => pair_injective _ same
    rwa [List.map_map] at mapped
  have clients : ((tagStems (tags api)).map fun stem => ["client", stem ++ ".ts"]).Nodup :=
    (nodup_tagStems _).map fun _ _ same => pair_injective _ same
  refine List.nodup_append.mpr ⟨List.nodup_append.mpr ⟨List.nodup_append.mpr
    ⟨models, List.nodup_singleton _, ?_⟩, clients, ?_⟩, by decide, ?_⟩
  · intro place member other index same
    obtain ⟨m, listed, rfl⟩ := List.mem_map.mp member
    rw [List.mem_singleton.mp index] at same
    exact apart.noIndex m listed (pair_injective "models" same)
  · intro place member other client same
    obtain ⟨stem, -, rfl⟩ := List.mem_map.mp client
    rcases List.mem_append.mp member with model | index
    · obtain ⟨m, -, rfl⟩ := List.mem_map.mp model
      exact absurd (List.cons.inj same).1 (by decide)
    · rw [List.mem_singleton.mp index] at same
      exact absurd (List.cons.inj same).1 (by decide)
  · -- all others stand in a folder
    intro place member other single same
    have short : other.length = 1 := by
      rcases List.mem_cons.mp single with rfl | later
      · rfl
      · rw [List.mem_singleton.mp later]
        rfl
    have long : place.length = 2 := by
      rcases List.mem_append.mp member with inModels | client
      · rcases List.mem_append.mp inModels with model | index
        · obtain ⟨m, -, rfl⟩ := List.mem_map.mp model
          rfl
        · rw [List.mem_singleton.mp index]
          rfl
      · obtain ⟨stem, -, rfl⟩ := List.mem_map.mp client
        rfl
    rw [same, short] at long
    exact absurd long (by decide)

/-- **Two files have one path**: the operations have several tags, and one of them asks for the stem
of the index. -/
def Clashes (tags : List String) : Prop :=
  ∃ tag ∈ tags, ∃ other ∈ tags, tag ≠ other ∧ fileName tag = "index"

instance (tags : List String) : Decidable (Clashes tags) :=
  inferInstanceAs (Decidable (∃ tag ∈ tags, ∃ other ∈ tags, tag ≠ other ∧ fileName tag = "index"))

/-- Tags in another order clash as well. -/
theorem clashes_congr {tags others : List String} (same : tags.Perm others) :
    Clashes tags ↔ Clashes others := by
  simp only [Clashes, same.mem_iff]

theorem clashes_iff (api : Api) :
    Clashes (api.operations.map (·.tag)) ↔ ["client", "index.ts"] ∈ otherPlaces api := by
  have stems : ["client", "index.ts"] ∈ otherPlaces api ↔ "index" ∈ tagStems (tags api) := by
    have index : "index.ts" = "index" ++ ".ts" := rfl
    simp only [otherPlaces, List.mem_append, List.mem_map, List.mem_cons, List.not_mem_nil,
      or_false, List.cons.injEq, and_true, index, String.append_left_inj]
    simp
  have tag {name : String} : name ∈ tags api ↔ name ∈ api.operations.map (·.tag) := by
    rw [tags_eq, Naming.mem_ascending]
  have once : (tags api).Nodup := by
    rw [tags_eq]
    exact (Naming.pairwise_ascending _).imp fun less => String.ne_of_lt less
  simp only [stems, index_mem_tagStems, Clashes, ← tag]
  constructor
  · rintro ⟨name, listed, other, alsoListed, differ, index⟩
    refine ⟨?_, name, listed, index⟩
    intro single
    obtain ⟨only, all⟩ := List.length_eq_one_iff.mp single
    rw [all, List.mem_singleton] at listed alsoListed
    exact differ (listed.trans alsoListed.symm)
  · rintro ⟨several, name, listed, index⟩
    have another : ∃ other ∈ tags api, name ≠ other := by
      by_contra alone
      have only : tags api ⊆ [name] := by
        intro other inside
        by_contra differs
        exact alone ⟨other, inside, fun same => differs (List.mem_singleton.mpr same.symm)⟩
      have few := (List.subperm_of_subset once only).length_le
      have present := List.length_pos_of_mem listed
      rw [List.length_singleton] at few
      omega
    obtain ⟨other, alsoListed, differ⟩ := another
    exact ⟨name, listed, other, alsoListed, differ, index⟩

/-- Every file of a client has a proper place. -/
theorem place_of_mem_places {api : Api} (apart : ModelsApart api) :
    ∀ place ∈ places api, Language.typeScript.Place place := by
  have folder {name : String} (isName : IsName name) {stem : String} (plain : '/' ∉ stem.toList) :
      Language.typeScript.Place [name, stem ++ ".ts"] :=
    Language.typeScript.place_folder isName stem plain
  intro place member
  simp only [places, otherPlaces, List.mem_cons, List.mem_append, List.mem_map, List.not_mem_nil,
    or_false] at member
  rcases member with rfl | ((⟨m, listed, rfl⟩ | rfl) | ⟨stem, listed, rfl⟩) | rfl | rfl
  · exact Language.typeScript.place_folder (by decide) "index" (by decide)
  · exact folder (by decide) (apart.plain m listed)
  · exact Language.typeScript.place_folder (by decide) "index" (by decide)
  · exact folder (by decide) (slash_notMem_tagStems listed)
  · exact Language.typeScript.place_single "runtime" (by decide)
  · exact Language.typeScript.place_single "index" (by decide)

/-- Without a clash the files of a client have different places. -/
theorem nodup_places {api : Api} (apart : ModelsApart api)
    (free : ¬Clashes (api.operations.map (·.tag))) : (places api).Nodup :=
  List.nodup_cons.mpr ⟨fun again => free ((clashes_iff api).mpr again), nodup_otherPlaces apart⟩

/-- **A clash is found.** -/
theorem finished_of_clashes {api : Api} (apart : ModelsApart api)
    (clashes : Clashes (api.operations.map (·.tag))) :
    SourceFile.finished none (files api) = .error (.duplicatePath "client/index.ts") := by
  have clientIndex : ofNames ["client", "index.ts"] = "client/index.ts" := by
    rw [ofNames_pair]
    rfl
  have proper := place_of_mem_places apart
  have paths := map_path_files api
  rw [places, List.map_cons, clientIndex] at paths
  refine SourceFile.finished_of_repeated paths ?_ ?_
  · refine (nodup_otherPlaces apart).map_on fun place member other listed same => ?_
    have first := proper place (List.mem_cons_of_mem _ member)
    have second := proper other (List.mem_cons_of_mem _ listed)
    have contained := congrArg contained? same
    rw [contained?_ofNames first.ne_nil first.isName,
      contained?_ofNames second.ne_nil second.isName] at contained
    exact Option.some.inj contained
  · rw [← clientIndex]
    exact List.mem_map_of_mem ((clashes_iff api).mp clashes)

end TypeScript

namespace Go

/-- The names of the files of a client. -/
def places : List (List String) :=
  [["doc.go"], ["models.go"], ["client.go"], ["operations.go"]]

theorem map_path_files (api : Api) : (files api).map (·.path) = places.map ofNames := by
  simp only [places, List.map_cons, List.map_nil, ofNames_single]
  rfl

theorem place_of_mem_places : ∀ place ∈ places, Language.go.Place place := by
  intro place member
  simp only [places, List.mem_cons, List.not_mem_nil, or_false] at member
  rcases member with rfl | rfl | rfl | rfl
  · exact Language.go.place_single "doc" (by decide)
  · exact Language.go.place_single "models" (by decide)
  · exact Language.go.place_single "client" (by decide)
  · exact Language.go.place_single "operations" (by decide)

end Go

/-! ## Clients of documents -/

/-- The models of a document have files apart. -/
theorem Document.modelsApart_describe (doc : Document) (defaultTag : String) :
    TypeScript.ModelsApart (doc.describe defaultTag).value.api := by
  rw [value_describe]
  have names := map_name_models_perm doc defaultTag
  have spec (m : Model) (listed : m ∈ (doc.outline defaultTag).api.models) :
      m.name ≠ "index" ∧ '/' ∉ m.name.toList :=
    modelNames_spec (names.mem_iff.mp (List.mem_map_of_mem listed))
  exact
    { distinct := names.nodup_iff.mpr (Naming.nodup_uniqueAll _ _)
      noIndex := fun m listed => (spec m listed).1
      plain := fun m listed => (spec m listed).2 }

/-- What is generated for a document are files of the language, and there are some. -/
theorem Document.place_of_generate {doc : Document} {defaultTag : String} {language : Language}
    {files : List SourceFile}
    (generated : language.generate (doc.describe defaultTag).value.api none = .ok files) :
    files ≠ [] ∧
      ∀ file ∈ files, ∃ names, contained? file.path = some names ∧ language.Place names := by
  have listed {raw : List SourceFile} {places : List (List String)} (some_place : places ≠ [])
      (proper : ∀ place ∈ places, language.Place place)
      (paths : (raw.map (·.path)).Perm (places.map ofNames))
      (finished : SourceFile.finished none raw = .ok files) :
      files ≠ [] ∧
        ∀ file ∈ files, ∃ names, contained? file.path = some names ∧ language.Place names := by
    have same := (SourceFile.perm_of_finished finished).map fun file => contained? file.path
    have contained := same.trans (SourceFile.contained?_of_places proper paths)
    constructor
    · rintro rfl
      exact some_place (List.map_eq_nil_iff.mp (List.perm_nil.mp contained.symm))
    · intro file member
      have mapped : contained? file.path ∈ places.map some := contained.mem_iff.mp
        (List.mem_map_of_mem (f := fun file : SourceFile => contained? file.path) member)
      obtain ⟨place, inside, found⟩ := List.mem_map.mp mapped
      exact ⟨place, found.symm, proper place inside⟩
  cases language with
  | typeScript =>
      exact listed (List.cons_ne_nil _ _)
        (TypeScript.place_of_mem_places (doc.modelsApart_describe defaultTag))
        (TypeScript.map_path_files _) generated
  | go =>
      exact listed (List.cons_ne_nil _ _) Go.place_of_mem_places
        (List.Perm.of_eq (Go.map_path_files _)) generated

/-- The tags of the operations that a document declares. -/
def Document.operationTags (doc : Document) (defaultTag : String) : List String :=
  doc.endpoints.map fun e => e.operation.tags.head?.getD defaultTag

/-- The operations of the description have these tags. -/
theorem Document.map_tag_operations_perm (doc : Document) (defaultTag : String) :
    ((doc.describe defaultTag).value.api.operations.map (·.tag)).Perm
      (doc.operationTags defaultTag) := by
  rw [value_describe]
  have lengths := Nat.le_of_eq (length_operationNames doc.endpoints).symm
  have outlines : (doc.operationOutlines defaultTag).map (·.tag) = doc.operationTags defaultTag :=
    calc (doc.operationOutlines defaultTag).map (·.tag)
        = (((operationNames doc.endpoints).zip doc.endpoints).map Prod.snd).map
            fun e => e.operation.tags.head?.getD defaultTag := by
          rw [operationOutlines, List.map_map, List.map_map]
          rfl
      _ = doc.operationTags defaultTag := by
          rw [List.map_snd_zip lengths]
          rfl
  exact outlines ▸ Api.map_operations_sorted_perm _ fun _ => rfl

theorem Document.generate_of_free (doc : Document) (defaultTag : String) (language : Language)
    (free : ¬(language = .typeScript ∧ TypeScript.Clashes (doc.operationTags defaultTag))) :
    ∃ files, language.generate (doc.describe defaultTag).value.api none = .ok files ∧
      (files.Pairwise fun a b => a.path < b.path) ∧
      ∀ dir, ∃ plan, OutputPlan.ofFiles dir files = .ok plan := by
  have apart := doc.modelsApart_describe defaultTag
  have tags := TypeScript.clashes_congr (doc.map_tag_operations_perm defaultTag)
  cases language with
  | typeScript =>
      exact ⟨_, SourceFile.finished_of_places (TypeScript.place_of_mem_places apart)
        (TypeScript.nodup_places apart fun clashes => free ⟨rfl, tags.mp clashes⟩)
        (TypeScript.map_path_files _)⟩
  | go =>
      exact ⟨_, SourceFile.finished_of_places Go.place_of_mem_places (by decide)
        (List.Perm.of_eq (Go.map_path_files _))⟩

/-- The clash of a document is found. -/
theorem Document.generate_of_clashes {doc : Document} {defaultTag : String}
    (clashes : TypeScript.Clashes (doc.operationTags defaultTag)) :
    Language.typeScript.generate (doc.describe defaultTag).value.api none =
      .error (.duplicatePath "client/index.ts") := by
  have tags := TypeScript.clashes_congr (doc.map_tag_operations_perm defaultTag)
  exact TypeScript.finished_of_clashes (doc.modelsApart_describe defaultTag) (tags.mpr clashes)

/-- **Generating succeeds unless two files clash.** For every document and every language, the files
come back in ascending order of their paths and can be written to any directory, except where a
TypeScript client has several tags and one of them asks for the stem `index`. Then the path of the
index is refused as a duplicate. -/
theorem Document.generate_iff (doc : Document) (defaultTag : String) (language : Language) :
    let api := (doc.describe defaultTag).value.api
    let clash := language = .typeScript ∧ TypeScript.Clashes (doc.operationTags defaultTag)
    ((∃ files, language.generate api none = .ok files ∧
        (files.Pairwise fun a b => a.path < b.path) ∧
        ∀ dir, ∃ plan, OutputPlan.ofFiles dir files = .ok plan) ↔ ¬clash) ∧
      (language.generate api none = .error (.duplicatePath "client/index.ts") ↔ clash) := by
  intro api clash
  have refused (clashes : clash) :
      language.generate api none = .error (.duplicatePath "client/index.ts") := by
    obtain ⟨rfl, inTags⟩ := clashes
    exact generate_of_clashes inTags
  refine ⟨⟨?_, doc.generate_of_free defaultTag language⟩, ?_, refused⟩
  · rintro ⟨files, generated, -⟩ clashes
    rw [refused clashes] at generated
    cases generated
  · intro error
    by_contra free
    obtain ⟨files, generated, -⟩ := doc.generate_of_free defaultTag language free
    rw [error] at generated
    cases generated

/-- A document with two tags, one of which is called like the index. -/
def Document.indexTagged : Document :=
  { paths := [("/pets", { get := some { id := some "list", tags := ["index"] }
                          post := some { id := some "add", tags := ["pets"] } })] }

/-- The client of the document with a tag called like the index is refused. -/
theorem Document.generate_indexTagged :
    Language.typeScript.generate (indexTagged.describe "default").value.api none =
      .error (.duplicatePath "client/index.ts") :=
  generate_of_clashes (by decide +kernel)

end ClientGen
