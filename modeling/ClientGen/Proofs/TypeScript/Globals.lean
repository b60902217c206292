import ClientGen.Proofs.Output.Plans
import ClientGen.Proofs.TypeScript.Identifiers

/-!
# Captured globals

The code of a client uses five names that every program knows: functions return promises, the type
of no parameters is a record, parameters in a path are made texts and encoded, and raw bytes are
blobs. A file that binds such a name by itself captures it. Only the request class steps aside when
a model has its name; models with the names of these types are imported as they are, and nothing
keeps an operation away from the name of the function that encodes.

* `Uses`, `uses_iff` — what the module of some operations uses of what every program knows.
* `mem_names_scope_iff` — which of these names a module binds.
* `Captures`, `ModelCaptures` — a file binds what it uses.
* `Document.captures_iff` — for every document, the captures of all files of a client.
-/

namespace ClientGen

open Text

namespace TypeScript

/-! ## Uses -/

/-- A parameter in a path: made a text, and encoded. -/
def splice (argument : String) : TemplatePart Expression :=
  .substitution (.raw ("encodeURIComponent(String(" ++ argument ++ "))"))

/-- A function puts a parameter into its path. -/
def Function.Splices (f : Function) : Prop :=
  ∃ pattern parts argument,
    Statement.const pattern (.template parts) ∈ f.body ∧ splice argument ∈ parts

/-- **What the module of some operations uses of what every program knows.** -/
inductive Uses (operations : List Operation) : String → Prop
  /-- A function returns a promise. -/
  | promise {f : Function} {type : TypeExpr} (listed : f ∈ (clientModule operations).functions)
      (result : f.result = some (promise type)) : Uses operations "Promise"
  /-- The type of no parameters is a record. -/
  | record {d : Definition} {key value : TypeExpr} (listed : d ∈ (clientModule operations).types)
      (body : d.body = .alias (.record key value)) : Uses operations "Record"
  /-- A parameter in a path is made a text. -/
  | text {f : Function} (listed : f ∈ (clientModule operations).functions)
      (splices : f.Splices) : Uses operations "String"
  /-- A parameter in a path is encoded. -/
  | encoded {f : Function} (listed : f ∈ (clientModule operations).functions)
      (splices : f.Splices) : Uses operations "encodeURIComponent"
  /-- Raw bytes are a blob. -/
  | bytes {op : Operation} {shape : Shape} (listed : op ∈ operations) (written : shape ∈ op.written)
      (inside : .binary ∈ shape.nodes) : Uses operations "Blob"

/-- The names that `Uses` is about. -/
def globals : List String :=
  ["Promise", "Record", "String", "encodeURIComponent", "Blob"]

theorem Uses.mem_globals {operations : List Operation} {name : String}
    (uses : Uses operations name) : name ∈ globals := by
  cases uses <;> decide

/-- The function of an operation puts a parameter into its path iff a segment of the path takes one
that is declared. -/
theorem splices_function {op : Operation} {names : FunctionNames} :
    (function op names).Splices ↔ (PathTemplate.split op.path).any (isSpliced op.pathNames) := by
  constructor
  · rintro ⟨pattern, parts, argument, statement, part⟩
    rcases List.mem_append.mp statement with unpacked | made
    · split at unpacked
      · cases unpacked
      · cases List.mem_singleton.mp unpacked
    · rcases List.mem_cons.mp made with same | result
      -- a path without such a segment is written as one text
      · have path := (Statement.const.inj same).2
        by_contra plain
        rw [pathExpression] at path
        simp [plain] at path
      · cases List.mem_singleton.mp result
  · intro spliced
    obtain ⟨segment, listed, taken⟩ := List.any_eq_true.mp spliced
    cases segment with
    | literal text => cases taken
    | param name =>
        let present := (Signature.ofOperation op).requires "path"
        have path : pathExpression op present =
            .template ((PathTemplate.split op.path).map (pathPart op.pathNames present)) :=
          if_pos spliced
        have part : splice (access "path" name present) ∈
            (PathTemplate.split op.path).map (pathPart op.pathNames present) :=
          List.mem_map.mpr ⟨.param name, listed, if_pos taken⟩
        have statement : Statement.const "resolvedPath" (pathExpression op present) ∈
            (function op names).body := List.mem_append_right _ (List.mem_cons_self ..)
        rw [path] at statement
        exact ⟨_, _, _, statement, part⟩

/-- The functions of a module are those of its operations. -/
theorem forall₂_functions (operations : List Operation) :
    List.Forall₂ (fun op f => ∃ names, f = function op names) operations
      (clientModule operations).functions := by
  rw [functions_clientModule]
  exact forall₂_map_zip (length_declaredNames operations).ge fun _ _ => ⟨_, rfl⟩

/-- The types of a module are those of the parameters of its operations. -/
theorem forall₂_types (operations : List Operation) :
    List.Forall₂ (fun op d => ∃ own, d = (Signature.ofOperation op).definition own) operations
      (clientModule operations).types := by
  rw [types_clientModule]
  exact forall₂_map_zip (length_declaredNames operations).ge fun _ _ => ⟨_, rfl⟩

/-- The type of the parameters is a record iff there are none. -/
theorem Signature.exists_record_iff {s : Signature} {own : String} :
    (∃ key value, (s.definition own).body = .alias (.record key value)) ↔ s.names = [] := by
  by_cases empty : s.names = []
  · simp [definition, empty, TypeExpr.stringRecord]
  · simp [definition, empty]

/-- **What a module uses**, in terms of its operations. -/
theorem uses_iff {operations : List Operation} {name : String} :
    Uses operations name ↔
      name = "Promise" ∧ operations ≠ [] ∨
      name = "Record" ∧ (∃ op ∈ operations, (Signature.ofOperation op).names = []) ∨
      (name = "String" ∨ name = "encodeURIComponent") ∧
        (∃ op ∈ operations, (PathTemplate.split op.path).any (isSpliced op.pathNames)) ∨
      name = "Blob" ∧ ∃ op ∈ operations, ∃ shape ∈ op.written, .binary ∈ shape.nodes := by
  have functions := forall₂_functions operations
  have types := forall₂_types operations
  have ofFunction {f : Function} (listed : f ∈ (clientModule operations).functions) :
      ∃ op ∈ operations, ∃ names, f = function op names :=
    OutputPlan.exists_related_of_mem functions.flip listed
  have splices {f : Function} (listed : f ∈ (clientModule operations).functions)
      (splices : f.Splices) :
      ∃ op ∈ operations, (PathTemplate.split op.path).any (isSpliced op.pathNames) := by
    obtain ⟨op, inModule, names, rfl⟩ := ofFunction listed
    exact ⟨op, inModule, splices_function.mp splices⟩
  constructor
  · rintro (⟨listed, -⟩ | ⟨listed, body⟩ | ⟨listed, isSpliced⟩ | ⟨listed, isSpliced⟩ |
      ⟨listed, written, inside⟩)
    · obtain ⟨op, inModule, -⟩ := ofFunction listed
      exact .inl ⟨rfl, List.ne_nil_of_mem inModule⟩
    · obtain ⟨op, inModule, own, rfl⟩ := OutputPlan.exists_related_of_mem types.flip listed
      exact .inr (.inl ⟨rfl, op, inModule, Signature.exists_record_iff.mp ⟨_, _, body⟩⟩)
    · exact .inr (.inr (.inl ⟨.inl rfl, splices listed isSpliced⟩))
    · exact .inr (.inr (.inl ⟨.inr rfl, splices listed isSpliced⟩))
    · exact .inr (.inr (.inr ⟨rfl, _, listed, _, written, inside⟩))
  · rintro (⟨rfl, some⟩ | ⟨rfl, op, inModule, none⟩ | ⟨same, op, inModule, spliced⟩ |
      ⟨rfl, op, inModule, shape, written, inside⟩)
    · obtain ⟨op, inModule⟩ := List.exists_mem_of_ne_nil _ some
      obtain ⟨f, listed, names, rfl⟩ := OutputPlan.exists_related_of_mem functions inModule
      exact .promise listed rfl
    · obtain ⟨d, listed, own, rfl⟩ := OutputPlan.exists_related_of_mem types inModule
      obtain ⟨key, value, body⟩ := Signature.exists_record_iff.mpr none
      exact .record listed body
    · obtain ⟨f, listed, names, rfl⟩ := OutputPlan.exists_related_of_mem functions inModule
      rcases same with rfl | rfl
      · exact .text listed (splices_function.mpr spliced)
      · exact .encoded listed (splices_function.mpr spliced)
    · exact .bytes inModule written inside

/-! ## Names that modules bind -/

theorem not_isAsciiDigit_of_global {name : String} (global : name ∈ globals) :
    ∀ c ∈ name.toList, ¬ isAsciiDigit c := by
  have every : (globals.all fun name => name.toList.all (!isAsciiDigit ·)) = true := by decide
  intro c member
  simpa using List.all_eq_true.mp (List.all_eq_true.mp every name global) c member

/-- The request class gets none of the names. -/
theorem clientName_notMem_globals (models : List String) : clientName models ∉ globals := by
  intro global
  have candidate : (if "Client" ∈ models then "RuntimeClient" else "Client") = clientName models :=
    Naming.eq_of_freeName_eq rfl (not_isAsciiDigit_of_global global)
  rw [← candidate] at global
  split at global
  · exact absurd global (by decide)
  · exact absurd global (by decide)

/-- The types of parameters get none of the names. -/
theorem parametersName_notMem_globals (taken : List String) (function : String) :
    Naming.freeName taken (parametersName function) ∉ globals := by
  intro global
  have letters : ∀ name ∈ globals, 'a' ∉ name.toList := by decide
  refine letters _ global ?_
  rw [← Naming.eq_of_freeName_eq rfl (not_isAsciiDigit_of_global global), toList_parametersName]
  exact List.mem_append_right _ (by decide)

/-- A function gets one of the names only if its operation has the name of the function that
encodes. -/
theorem eq_encode_of_identifier {taken : List String} {id : String}
    (isName : Naming.IsName isAsciiSmall id.toList)
    (global : Naming.freeName taken (identifier id) ∈ globals) :
    id = "encodeURIComponent" ∧ Naming.freeName taken (identifier id) = id := by
  have same := Naming.eq_of_freeName_eq rfl (not_isAsciiDigit_of_global global)
  rw [← same] at global ⊢
  rw [identifier_of_word (isWord_of_isName isName)] at global ⊢
  -- an identifier starts with a small letter or an underscore, but the names of types do not
  have heads : ∀ name ∈ globals, name.toList.head? ≠ some '_' ∧
      (name.toList.head?.any isAsciiSmall → name = "encodeURIComponent") := by decide
  obtain ⟨notGuarded, small⟩ := heads _ global
  generalize text : id.toList = letters at isName
  cases isName with
  | @letter c cs head tail =>
      split at global
      · rename_i reserved
        simp [reserved] at notGuarded
      · rename_i unreserved
        have encode := small (by simp [unreserved, text, head])
        simpa [unreserved] using encode
  | @digit c cs head tail =>
      split at global
      · rename_i reserved
        simp [reserved] at notGuarded
      · rename_i unreserved
        simp [unreserved, text] at notGuarded

/-- **Which of these names a module binds**: those of imported models, and that of the function that
encodes, if an operation is called like it. -/
theorem mem_names_scope_iff {operations : List Operation}
    (named : ∀ op ∈ operations, Naming.IsName isAsciiSmall op.id.toList) {name : String}
    (global : name ∈ globals) :
    name ∈ (scope operations).names ↔ (∃ op ∈ operations, name ∈ op.references) ∨
      name = "encodeURIComponent" ∧ ∃ op ∈ operations, op.id = name := by
  have imported : name ∈ (scope operations).models ↔ ∃ op ∈ operations, name ∈ op.references :=
    Naming.mem_ascending.trans List.mem_flatMap
  have choice {names : String × String} (chosen : names ∈ declaredNames operations) :
      ∃ op ∈ operations, ∃ before, names.1 = Naming.freeName before (identifier op.id) ∧
        names.2 = Naming.freeName (names.1 :: before) (parametersName names.1) := by
    obtain ⟨op, listed, before, -, how⟩ :=
      OutputPlan.exists_related_of_mem (forall₂_chosenNames _ operations).flip chosen
    exact ⟨op, listed, before, how⟩
  constructor
  · intro bound
    rcases List.mem_cons.mp bound with client | bound
    · exact absurd (client ▸ global) (clientName_notMem_globals _)
    rcases List.mem_append.mp bound with model | declared
    · exact .inl (imported.mp model)
    rcases List.mem_append.mp declared with isFunction | isType
    · obtain ⟨names, chosen, rfl⟩ := List.mem_map.mp isFunction
      obtain ⟨op, listed, before, first, -⟩ := choice chosen
      rw [first] at global ⊢
      obtain ⟨encode, kept⟩ := eq_encode_of_identifier (named op listed) global
      exact .inr ⟨kept.trans encode, op, listed, kept.symm⟩
    · obtain ⟨names, chosen, rfl⟩ := List.mem_map.mp isType
      obtain ⟨op, listed, before, -, second⟩ := choice chosen
      exact absurd (second ▸ global) (parametersName_notMem_globals _ _)
  · rintro (model | ⟨rfl, op, listed, same⟩)
    · exact List.mem_cons_of_mem _ (List.mem_append_left _ (imported.mpr model))
    · have asked := identifier_mem_names_scope listed
      rwa [same] at asked

/-! ## Captures -/

/-- **The module of some operations captures a name**: it uses the name as every program knows it,
and binds it. -/
def Captures (operations : List Operation) (name : String) : Prop :=
  Uses operations name ∧ name ∈ (scope operations).names

/-- What the file of a model uses of what every program knows: raw bytes are a blob. -/
inductive ModelUses (m : Model) : String → Prop
  /-- Raw bytes are a blob. -/
  | bytes (inside : .binary ∈ m.shape.nodes) : ModelUses m "Blob"

/-- The names that the file of a model binds: what it imports, and the model. -/
def boundByModel (m : Model) : List String :=
  (modelModule m).imports.flatMap (·.items) ++ (modelModule m).types.map (·.name)

/-- **The file of a model captures a name.** -/
def ModelCaptures (m : Model) (name : String) : Prop :=
  ModelUses m name ∧ name ∈ boundByModel m

theorem mem_boundByModel {m : Model} {name : String} :
    name ∈ boundByModel m ↔ m.name = name ∨ name ∈ m.shape.references := by
  have imported : name ∈ (modelModule m).imports.flatMap (·.items) ↔
      name ∈ m.shape.references ∧ name ≠ m.name := by
    simp [modelModule, modelImport]
  have own : name ∈ (modelModule m).types.map (·.name) ↔ name = m.name := List.mem_singleton
  rw [boundByModel, List.mem_append, imported, own]
  by_cases same : name = m.name
  · simp [same]
  · simp [same, Ne.symm same]

theorem modelUses_iff {m : Model} {name : String} :
    ModelUses m name ↔ name = "Blob" ∧ .binary ∈ m.shape.nodes := by
  constructor
  · rintro ⟨inside⟩
    exact ⟨rfl, inside⟩
  · rintro ⟨rfl, inside⟩
    exact .bytes inside

end TypeScript

/-- **The captures of all files of a client.** For every document, the module of a tag captures what
it uses and imports as a model, and the function that encodes if one of its operations is called
like it. The file of a model with raw bytes in it captures `Blob` if the model has this name or
refers to one that has it. -/
theorem Document.captures_iff (doc : Document) (defaultTag : String) :
    (∀ group ∈ (doc.describe defaultTag).value.api.byTag, ∀ name,
      TypeScript.Captures group.2 name ↔ TypeScript.Uses group.2 name ∧
        ((∃ op ∈ group.2, name ∈ op.references) ∨
          name = "encodeURIComponent" ∧ ∃ op ∈ group.2, op.id = name)) ∧
    ∀ m ∈ (doc.describe defaultTag).value.api.models, ∀ name,
      TypeScript.ModelCaptures m name ↔
        name = "Blob" ∧ .binary ∈ m.shape.nodes ∧ (m.name = name ∨ name ∈ m.shape.references) := by
  refine ⟨fun group listed name => ?_, fun m _ name => ?_⟩
  · have named : ∀ op ∈ group.2, Naming.IsName isAsciiSmall op.id.toList := fun op inGroup =>
      isName_id (TypeScript.mem_operations_of_group listed inGroup)
    exact and_congr_right fun uses => TypeScript.mem_names_scope_iff named uses.mem_globals
  · rw [TypeScript.ModelCaptures, TypeScript.modelUses_iff, TypeScript.mem_boundByModel, and_assoc]

/-- A document with an operation that is called like the function that encodes, and with a parameter
in its path. -/
def Document.encodingPets : Document :=
  { paths := [("/pets/\x7bid\x7d", { get := some {
      id := some "encodeURIComponent"
      parameters := [{ name := "id", location := "path", required := some true }] } })] }

/-- The module of this operation uses the function that encodes, and binds its name. -/
theorem Document.captures_encodingPets :
    ∃ group ∈ (encodingPets.describe "default").value.api.byTag,
      TypeScript.Captures group.2 "encodeURIComponent" := by
  have found : ∃ group ∈ (encodingPets.describe "default").value.api.byTag,
      (∃ op ∈ group.2, (PathTemplate.split op.path).any (TypeScript.isSpliced op.pathNames)) ∧
        "encodeURIComponent" ∈ (TypeScript.scope group.2).names := by
    decide +kernel
  obtain ⟨group, listed, spliced, bound⟩ := found
  exact ⟨group, listed, TypeScript.uses_iff.mpr (.inr (.inr (.inl ⟨.inr rfl, spliced⟩))), bound⟩

end ClientGen
