import ClientGen.Proofs.Document.Correspondence
import ClientGen.Proofs.Pointer.Tokens

/-!
# The places of models and operations

Every model and every operation of a description says where in the document it comes from. These
places are all different, and resolving one gives the key of the schema, or the path and the method
of the operation, again: a token is read back from its written form, and a place has one chain of
tokens.

* `Document.Traced` — a description is traced back to its document.
* `Document.traced_describe` — every description is.
-/

namespace ClientGen

/-- **A token is read back** from its written form by two replacements, and its written form stays
inside one token of a pointer. -/
structure Pointer.ReadsBack (token : String) : Prop where
  /-- The tildes are replaced before the slashes. -/
  written : (escape token).toList =
    replaceChar '/' ['~', '1'] (replaceChar '~' ['~', '0'] token.toList)
  /-- The written form has no slash. -/
  slashless : '/' ∉ (escape token).toList
  /-- The pairs for slashes are replaced before the pairs for tildes. -/
  read : replacePair '~' '0' '~' (replacePair '~' '1' '/' (escape token).toList) = token.toList

theorem Pointer.readsBack (token : String) : ReadsBack token where
  written := by rw [escape, String.toList_ofList, escapeChars_eq]
  slashless member := by
    rw [escape, String.toList_ofList] at member
    exact ne_slash_of_mem_escapeChars member rfl
  read := by rw [← unescapeChars_eq, escape, String.toList_ofList, unescapeChars_escapeChars]

namespace Document

/-- **A description is traced back to its document** by the places of its models and operations. -/
structure Traced (doc : Document) (defaultTag : String) (api : Api) : Prop where
  /-- No two models or operations have one place. -/
  distinct : (api.models.map (·.pointer) ++ api.operations.map (·.pointer)).Nodup
  /-- The place of a model resolves to the key of the schema that it is the model of. -/
  model : ∀ m ∈ api.models, ∃ key s pointer,
    (key, s) ∈ (doc.components.map (·.schemas)).getD [] ∧
    m.pointer = some pointer ∧ Pointer.tokens? pointer = some ["components", "schemas", key] ∧
    m.shape = (s.shape pointer).value.sorted ∧ m.doc = s.description
  /-- The place of an operation resolves to the path and the method that it is the operation of. -/
  operation : ∀ op ∈ api.operations, ∃ e ∈ doc.endpoints, ∃ pointer,
    op.pointer = some pointer ∧
    Pointer.tokens? pointer = some ["paths", e.path, e.method.name] ∧
    op = ((Document.operation defaultTag op.id e).value).sorted

theorem schemaPointer_eq (key : String) :
    schemaPointer key = Pointer.descend "#" ["components", "schemas", key] := rfl

/-- The place of the operation for a path and a method. -/
def operationPointer (key : String × Method) : String :=
  Pointer.descend "#" ["paths", key.1, key.2.name]

theorem operationPointer_injective : Function.Injective operationPointer := by
  rintro ⟨path, method⟩ ⟨other, another⟩ same
  have tokens := Pointer.descend_injective "#" same
  obtain ⟨rfl, name⟩ : path = other ∧ method.name = another.name := by simpa using tokens
  have methods : method = another := by
    cases method <;> cases another <;> first | rfl | exact absurd name (by decide)
  rw [methods]

/-- The place of an operation is that of its path and its method. -/
theorem pointer_of_mem_operations {doc : Document} {defaultTag : String}
    {op : ClientGen.Operation} (listed : op ∈ (doc.describe defaultTag).value.api.operations) :
    op.pointer = some (operationPointer (op.path, op.method)) := by
  obtain ⟨e, -, same, -⟩ := exists_endpoint listed
  rw [same]
  rfl

/-- The model of a schema is its outline in canonical order, at the place of the schema. -/
theorem exists_schema {doc : Document} {defaultTag : String} {m : Model}
    (listed : m ∈ (doc.describe defaultTag).value.api.models) :
    ∃ key s, (key, s) ∈ (doc.components.map (·.schemas)).getD [] ∧
      m.pointer = some (schemaPointer key) ∧ m.shape = s.outline.sorted ∧
      m.doc = s.description := by
  rw [value_describe] at listed
  have sorted := (List.mergeSort_perm
    (doc.modelOutlines.map fun m => { m with shape := m.shape.sorted })
    fun m n => decide (m.name ≤ n.name)).mem_iff.mp listed
  obtain ⟨outline, inOutlines, rfl⟩ := List.mem_map.mp sorted
  obtain ⟨⟨name, key, s⟩, pair, rfl⟩ := List.mem_map.mp inOutlines
  have entry : (key, s) ∈ doc.schemas := (List.of_mem_zip pair).2
  exact ⟨key, s, (OrderedMap.sorted_perm _).mem_iff.mp entry, rfl, rfl, rfl⟩

/-- No model stands where another does. -/
theorem nodup_model_pointers {doc : Document} (distinct : doc.KeysDistinct) (defaultTag : String) :
    ((doc.describe defaultTag).value.api.models.map (·.pointer)).Nodup := by
  have keys : (doc.schemaKeys.map fun key => some (schemaPointer key)).Nodup :=
    distinct.schemas.map fun _ _ same => Pointer.child_injective (Option.some.inj same)
  rw [value_describe]
  exact (map_pointer_models_perm doc defaultTag).nodup_iff.mpr keys

/-- No operation stands where another does. -/
theorem nodup_operation_pointers {doc : Document} (distinct : doc.KeysDistinct)
    (defaultTag : String) :
    ((doc.describe defaultTag).value.api.operations.map (·.pointer)).Nodup := by
  have keys : ((doc.describe defaultTag).value.api.operations.map
      fun op => (op.path, op.method)).Nodup := by
    rw [value_describe]
    exact (map_key_operations_perm doc defaultTag).nodup_iff.mpr
      (nodup_map_key_endpoints distinct.paths)
  have pointers : (doc.describe defaultTag).value.api.operations.map (·.pointer) =
      ((doc.describe defaultTag).value.api.operations.map fun op => (op.path, op.method)).map
        fun key => some (operationPointer key) := by
    rw [List.map_map]
    exact List.map_congr_left fun op listed => pointer_of_mem_operations listed
  rw [pointers]
  exact keys.map fun _ _ same => operationPointer_injective (Option.some.inj same)

/-- **Places are unambiguous**: every token is read back from its written form, a place has one
chain of tokens below a root, and so the places of models and operations are all different and lead
back to what they are the places of. -/
theorem traced_describe {doc : Document} (distinct : doc.KeysDistinct) (defaultTag : String) :
    (∀ token, Pointer.ReadsBack token) ∧
      (∀ root, Function.Injective (Pointer.descend root)) ∧
      doc.Traced defaultTag (doc.describe defaultTag).value.api := by
  refine ⟨Pointer.readsBack, Pointer.descend_injective,
    { distinct := ?distinct
      model := fun m listed => ?model
      operation := fun op listed => ?operation }⟩
  case distinct =>
    refine List.Nodup.append (nodup_model_pointers distinct defaultTag)
      (nodup_operation_pointers distinct defaultTag) ?_
    -- a model and an operation differ in the first token
    intro pointer ofModel ofOperation
    obtain ⟨m, model, rfl⟩ := List.mem_map.mp ofModel
    obtain ⟨op, operation, same⟩ := List.mem_map.mp ofOperation
    obtain ⟨key, -, -, place, -⟩ := exists_schema model
    rw [place, pointer_of_mem_operations operation] at same
    have tokens : ["paths", op.path, op.method.name] = ["components", "schemas", key] :=
      Pointer.descend_injective "#" (Option.some.inj same)
    simp at tokens
  case model =>
    obtain ⟨key, s, entry, place, shape, description⟩ := exists_schema listed
    refine ⟨key, s, schemaPointer key, entry, place, ?_, ?_, description⟩
    · rw [schemaPointer_eq, Pointer.tokens?_descend]
    · rw [shape, Schema.value_shape]
  case operation =>
    obtain ⟨e, member, same, -⟩ := exists_endpoint listed
    refine ⟨e, member, operationPointer e.key, ?_, Pointer.tokens?_descend _, ?_⟩
    · rw [same]
      rfl
    · rw [value_operation]
      exact same

/-- A document whose keys and paths differ only in how a pointer has to write them. -/
def tildes : Document :=
  { paths := [("/a~1", { get := some {} }), ("/a/", { get := some {} })]
    components := some
      { schemas := [("~1", .keywords .blank), ("/", .keywords .blank), ("~01", .keywords .blank)] } }

theorem traced_tildes : tildes.KeysDistinct ∧
    (∀ token, Pointer.ReadsBack token) ∧
      (∀ root, Function.Injective (Pointer.descend root)) ∧
      tildes.Traced "default" (tildes.describe "default").value.api := by
  have distinct : tildes.KeysDistinct :=
    { schemas := show ["~1", "/", "~01"].Nodup by decide
      paths := show ["/a~1", "/a/"].Nodup by decide }
  exact ⟨distinct, traced_describe distinct "default"⟩

end Document

end ClientGen
