import ClientGen.Proofs.Document.References
import ClientGen.Proofs.Naming.Grammar

/-!
# What a document declares and what its description holds

Every schema of a document becomes one model and every operation becomes one operation of the
description. Nothing else is in the description, and no two models or operations have one name.

* `Document.KeysDistinct` — no key of a map of the document stands twice.
* `Document.Declares` — a document declares an operation of a path for a method.
* `Document.Corresponds` — a description and a document belong to each other one to one.
* `Document.corresponds_describe` — so do a document and its description.
* `Document.Endpoint.raw` — the identifier of an endpoint as the document has it, or the one that is
  derived.
* `Document.exists_endpoint`, `Document.exists_operation` — every operation of a description belongs
  to an endpoint, and every operation of the document is in the description.
* `Document.isName_id` — the identifiers of operations have the grammar of names.

The description is sorted after names are given. Sorting changes places and the order inside shapes;
names, pointers, paths and methods stay with their model or operation. An identifier is a free name
for what its endpoint asks for, and what frees a name is digits behind it.
-/

namespace ClientGen

/-! ## Sorted descriptions -/

namespace Api

variable {β : Type}

/-- What does not look at shapes has the same images of the models, in another order. -/
theorem map_models_sorted_perm (api : Api) {f : Model → β}
    (same : ∀ (m : Model) (shape : Shape), f { m with shape } = f m) :
    (api.sorted.models.map f).Perm (api.models.map f) := by
  have sorted := (List.mergeSort_perm (api.models.map fun m => { m with shape := m.shape.sorted })
    fun m n => decide (m.name ≤ n.name)).map f
  have images : (api.models.map fun m => { m with shape := m.shape.sorted }).map f =
      api.models.map f := by
    rw [List.map_map]
    exact List.map_congr_left fun m _ => same m _
  exact images ▸ sorted

/-- What does not look at the parts of an operation has the same images of the operations, in
another order. -/
theorem map_operations_sorted_perm (api : Api) {f : Operation → β}
    (same : ∀ op : Operation, f op.sorted = f op) :
    (api.sorted.operations.map f).Perm (api.operations.map f) := by
  have sorted := (List.mergeSort_perm (api.operations.map Operation.sorted)
    fun a b => textsLe (a.tag, a.id) (b.tag, b.id)).map f
  have images : (api.operations.map Operation.sorted).map f = api.operations.map f := by
    rw [List.map_map]
    exact List.map_congr_left fun op _ => same op
  exact images ▸ sorted

end Api

/-- A value of a map without repetitions comes from one member alone. -/
theorem existsUnique_of_mem_map {α β : Type} {f : α → β} {as : List α} {b : β}
    (nodup : (as.map f).Nodup) (member : b ∈ as.map f) : ∃! a, a ∈ as ∧ f a = b := by
  obtain ⟨a, listed, rfl⟩ := List.mem_map.mp member
  refine ⟨a, ⟨listed, rfl⟩, ?_⟩
  rintro other ⟨alsoListed, same⟩
  exact List.inj_on_of_nodup_map nodup alsoListed listed same

namespace Document

open Naming

/-! ## What a document declares -/

/-- The keys of the schemas of a document, as they are written. -/
def schemaKeys (doc : Document) : List String :=
  OrderedMap.keys ((doc.components.map (·.schemas)).getD [])

/-- No schema and no path stands twice in a document. -/
structure KeysDistinct (doc : Document) : Prop where
  /-- The keys of the schemas are distinct. -/
  schemas : doc.schemaKeys.Nodup
  /-- The paths are distinct. -/
  paths : OrderedMap.Distinct doc.paths

/-- **A document declares an operation** of a path for a method. -/
def Declares (doc : Document) (path : String) (method : Method) : Prop :=
  ∃ item, (path, item) ∈ doc.paths ∧ (item.operation? method).isSome

/-- **A description and a document belong to each other one to one.** -/
structure Corresponds (doc : Document) (d : Description) : Prop where
  /-- Every key of a schema has one model. -/
  model : ∀ key ∈ doc.schemaKeys,
    ∃! m, m ∈ d.api.models ∧ m.pointer = some (schemaPointer key)
  /-- Every model has one key. -/
  key : ∀ m ∈ d.api.models, ∃! key, key ∈ doc.schemaKeys ∧ m.pointer = some (schemaPointer key)
  /-- Every operation that is declared has one operation. -/
  operation : ∀ path method, doc.Declares path method →
    ∃! op, op ∈ d.api.operations ∧ (op.path, op.method) = (path, method)
  /-- Every operation is declared. -/
  declared : ∀ op ∈ d.api.operations, doc.Declares op.path op.method
  /-- No two models have one name. -/
  names : (d.api.models.map (·.name)).Nodup
  /-- No two operations have one identifier. -/
  ids : (d.api.operations.map (·.id)).Nodup
  /-- The names that are taken are those of the models. -/
  modelNames : d.modelNames.Perm (d.api.models.map (·.name))
  /-- The identifiers that are taken are those of the operations. -/
  operationNames : d.operationNames.Perm (d.api.operations.map (·.id))

theorem keys_schemas_perm (doc : Document) :
    (OrderedMap.keys doc.schemas).Perm doc.schemaKeys :=
  (OrderedMap.sorted_perm _).map Prod.fst

/-! ## Endpoints -/

/-- Path and method of an endpoint. -/
def Endpoint.key (e : Endpoint) : String × Method :=
  (e.path, e.method)

/-- The endpoints of a path are its methods that have an operation. -/
theorem map_key_endpointsOf (path : String) (item : PathItem) :
    (endpointsOf path item).map Endpoint.key =
      (Method.all.filter fun method => (item.operation? method).isSome).map (path, ·) := by
  unfold endpointsOf
  induction Method.all with
  | nil => rfl
  | cons method methods ih =>
      cases found : item.operation? method with
      | none => simpa [found] using ih
      | some operation => simpa [found, Endpoint.key] using ih

theorem mem_map_key_endpointsOf {path : String} {item : PathItem} {key : String × Method} :
    key ∈ (endpointsOf path item).map Endpoint.key ↔
      key.1 = path ∧ (item.operation? key.2).isSome := by
  obtain ⟨name, method⟩ := key
  have every : method ∈ Method.all := by cases method <;> decide
  rw [map_key_endpointsOf, List.mem_map]
  constructor
  · rintro ⟨other, listed, same⟩
    cases same
    exact ⟨rfl, (List.mem_filter.mp listed).2⟩
  · rintro ⟨rfl, present⟩
    exact ⟨method, List.mem_filter.mpr ⟨every, present⟩, rfl⟩

/-- **The endpoints of a document are what it declares.** -/
theorem mem_map_key_endpoints {doc : Document} {path : String} {method : Method} :
    (path, method) ∈ doc.endpoints.map Endpoint.key ↔ doc.Declares path method := by
  have paths (entry : String × PathItem) : entry ∈ OrderedMap.sorted doc.paths ↔
      entry ∈ doc.paths :=
    (OrderedMap.sorted_perm doc.paths).mem_iff
  rw [endpoints, List.map_flatMap, List.mem_flatMap]
  constructor
  · rintro ⟨⟨name, item⟩, listed, inside⟩
    obtain ⟨rfl, present⟩ := mem_map_key_endpointsOf.mp inside
    exact ⟨item, (paths _).mp listed, present⟩
  · rintro ⟨item, listed, present⟩
    exact ⟨(path, item), (paths _).mpr listed, mem_map_key_endpointsOf.mpr ⟨rfl, present⟩⟩

/-- **An endpoint of a document** is an operation that one of its paths has for a method. -/
theorem Endpoint.listed {doc : Document} {e : Endpoint} (member : e ∈ doc.endpoints) :
    (e.path, e.item) ∈ doc.paths ∧ e.item.operation? e.method = some e.operation := by
  obtain ⟨⟨path, item⟩, entry, inside⟩ := List.mem_flatMap.mp member
  obtain ⟨method, -, chosen⟩ := List.mem_filterMap.mp inside
  obtain ⟨operation, found, rfl⟩ := Option.map_eq_some_iff.mp chosen
  exact ⟨(OrderedMap.sorted_perm doc.paths).mem_iff.mp entry, found⟩

/-- No endpoint of a document stands twice. -/
theorem nodup_map_key_endpoints {doc : Document} (distinct : OrderedMap.Distinct doc.paths) :
    (doc.endpoints.map Endpoint.key).Nodup := by
  have sorted : (OrderedMap.sorted doc.paths).Pairwise fun a b => a.1 ≠ b.1 :=
    List.pairwise_map.mp (distinct.perm (OrderedMap.sorted_perm doc.paths).symm)
  rw [endpoints, List.map_flatMap, List.nodup_flatMap]
  constructor
  · rintro ⟨path, item⟩ -
    rw [map_key_endpointsOf]
    have methods : Method.all.Nodup := by decide
    exact (methods.filter _).map fun _ _ same => (Prod.mk.inj same).2
  -- endpoints of two paths differ in their paths
  · refine sorted.imp fun {a b} differ key left right => ?_
    have first := (mem_map_key_endpointsOf.mp left).1
    have second := (mem_map_key_endpointsOf.mp right).1
    exact differ (first.symm.trans second)

/-! ## Models and operations -/

theorem length_modelNames (schemas : List (String × Schema)) :
    (modelNames schemas).length = schemas.length := by
  rw [modelNames, length_uniqueAll, List.length_map]

theorem length_operationNames (endpoints : List Endpoint) :
    (operationNames endpoints).length = endpoints.length := by
  rw [operationNames, length_uniqueAll, List.length_map]

/-- No names are taken but those of the models. -/
theorem takenModelNames_perm (schemas : List (String × Schema)) :
    (takenModelNames schemas).Perm (modelNames schemas) :=
  (uniqueAll_snd_perm [] _).trans (.of_eq (List.append_nil _))

/-- No identifiers are taken but those of the operations. -/
theorem takenOperationNames_perm (endpoints : List Endpoint) :
    (takenOperationNames endpoints).Perm (operationNames endpoints) :=
  (uniqueAll_snd_perm [] _).trans (.of_eq (List.append_nil _))

/-- The models are called as the names are given. -/
theorem map_name_models_perm (doc : Document) (defaultTag : String) :
    ((doc.outline defaultTag).api.models.map (·.name)).Perm (modelNames doc.schemas) := by
  have outlines : doc.modelOutlines.map (·.name) = modelNames doc.schemas :=
    map_name_modelsOf (length_modelNames doc.schemas)
  exact outlines ▸ Api.map_models_sorted_perm _ fun _ _ => rfl

/-- The models point at the keys. -/
theorem map_pointer_models_perm (doc : Document) (defaultTag : String) :
    ((doc.outline defaultTag).api.models.map (·.pointer)).Perm
      (doc.schemaKeys.map fun key => some (schemaPointer key)) := by
  have lengths := Nat.le_of_eq (length_modelNames doc.schemas).symm
  have outlines : doc.modelOutlines.map (·.pointer) =
      (OrderedMap.keys doc.schemas).map fun key => some (schemaPointer key) :=
    calc doc.modelOutlines.map (·.pointer)
        = (((modelNames doc.schemas).zip doc.schemas).map Prod.snd).map
            fun entry => some (schemaPointer entry.1) := by
          rw [modelOutlines, List.map_map, List.map_map]
          rfl
      _ = (OrderedMap.keys doc.schemas).map fun key => some (schemaPointer key) := by
          rw [List.map_snd_zip lengths, OrderedMap.keys, List.map_map]
          rfl
  have sorted : ((doc.outline defaultTag).api.models.map (·.pointer)).Perm
      (doc.modelOutlines.map (·.pointer)) := Api.map_models_sorted_perm _ fun _ _ => rfl
  exact sorted.trans (outlines ▸ (keys_schemas_perm doc).map _)

/-- The operations are called as the identifiers are given. -/
theorem map_id_operations_perm (doc : Document) (defaultTag : String) :
    ((doc.outline defaultTag).api.operations.map (·.id)).Perm (operationNames doc.endpoints) := by
  have outlines : (doc.operationOutlines defaultTag).map (·.id) = operationNames doc.endpoints := by
    rw [operationOutlines, List.map_map]
    exact List.map_fst_zip (Nat.le_of_eq (length_operationNames doc.endpoints))
  exact outlines ▸ Api.map_operations_sorted_perm _ fun _ => rfl

/-- The operations belong to the endpoints. -/
theorem map_key_operations_perm (doc : Document) (defaultTag : String) :
    ((doc.outline defaultTag).api.operations.map fun op => (op.path, op.method)).Perm
      (doc.endpoints.map Endpoint.key) := by
  have lengths := Nat.le_of_eq (length_operationNames doc.endpoints).symm
  have outlines : (doc.operationOutlines defaultTag).map (fun op => (op.path, op.method)) =
      doc.endpoints.map Endpoint.key :=
    calc (doc.operationOutlines defaultTag).map (fun op => (op.path, op.method))
        = (((operationNames doc.endpoints).zip doc.endpoints).map Prod.snd).map Endpoint.key := by
          rw [operationOutlines, List.map_map, List.map_map]
          rfl
      _ = doc.endpoints.map Endpoint.key := by rw [List.map_snd_zip lengths]
  exact outlines ▸ Api.map_operations_sorted_perm _ fun _ => rfl

/-! ## The correspondence -/

/-- **A document and its description belong to each other one to one**: nothing is lost, nothing
stands twice, and no name is shared. -/
theorem corresponds_describe {doc : Document} (distinct : doc.KeysDistinct) (defaultTag : String) :
    doc.Corresponds (doc.describe defaultTag).value := by
  rw [value_describe]
  have names := map_name_models_perm doc defaultTag
  have pointers := map_pointer_models_perm doc defaultTag
  have ids := map_id_operations_perm doc defaultTag
  have keys := map_key_operations_perm doc defaultTag
  have pointsOnce : (doc.schemaKeys.map fun key => some (schemaPointer key)).Nodup :=
    distinct.schemas.map fun _ _ same => Pointer.child_injective (Option.some.inj same)
  have declaredOnce := nodup_map_key_endpoints distinct.paths
  refine
    { model := fun key member => ?model
      key := fun m listed => ?key
      operation := fun path method declared => ?operation
      declared := fun op listed => ?declared
      names := names.nodup_iff.mpr (nodup_uniqueAll _ _)
      ids := ids.nodup_iff.mpr (nodup_uniqueAll _ _)
      modelNames := (takenModelNames_perm doc.schemas).trans names.symm
      operationNames := (takenOperationNames_perm doc.endpoints).trans ids.symm }
  case model =>
    refine existsUnique_of_mem_map (pointers.nodup_iff.mpr pointsOnce) ?_
    exact pointers.mem_iff.mpr (List.mem_map_of_mem member)
  case key =>
    have pointed := pointers.mem_iff.mp (List.mem_map_of_mem listed)
    simpa only [eq_comm] using existsUnique_of_mem_map pointsOnce pointed
  case operation =>
    refine existsUnique_of_mem_map (keys.nodup_iff.mpr declaredOnce) ?_
    exact keys.mem_iff.mpr (mem_map_key_endpoints.mpr declared)
  case declared =>
    exact mem_map_key_endpoints.mp (keys.mem_iff.mp (List.mem_map_of_mem listed))

/-- A document with two schemas of one name, and a path with two operations of one identifier. -/
def petStore : Document :=
  { paths := [("/pets", { get := some { id := some "pets" }, post := some { id := some "pets" } })]
    components := some { schemas := [("pet", .keywords .blank), ("Pet", .keywords .blank)] } }

theorem corresponds_petStore : petStore.KeysDistinct ∧
    petStore.Corresponds (petStore.describe "default").value := by
  have distinct : petStore.KeysDistinct :=
    { schemas := show ["pet", "Pet"].Nodup by decide
      paths := show ["/pets"].Nodup by decide }
  exact ⟨distinct, corresponds_describe distinct "default"⟩

/-! ## The identifiers of operations -/

/-- The identifier of an endpoint as the document has it, or the one that is derived. -/
def Endpoint.raw (e : Endpoint) : String :=
  e.operation.id.getD (Naming.operationId e.method.name e.path)

/-- A derived identifier starts with the method. -/
theorem exists_operationId_eq (method : Method) (path : String) :
    ∃ rest, (Naming.operationId method.name path).toList = method.name.toList ++ rest := by
  have lower : Text.lowerText method.name = method.name := by cases method <;> rfl
  rw [Naming.operationId, String.toList_intercalate, lower, List.map_cons]
  cases (List.map String.ofList (Naming.pathWords path.toList)).map String.toList with
  | nil => exact ⟨[], by rw [List.intercalate_singleton, List.append_nil]⟩
  | cons word words => exact ⟨_, by rw [List.intercalate_cons_cons, List.append_assoc]⟩

/-- Only a given identifier starts with a digit. -/
theorem Endpoint.startsWithDigit_raw (e : Endpoint) :
    Naming.startsWithDigit e.raw = e.operation.id.any Naming.startsWithDigit := by
  cases given : e.operation.id with
  | some id => simp [raw, given]
  | none =>
      have derived : e.raw = Naming.operationId e.method.name e.path := by simp [raw, given]
      obtain ⟨rest, text⟩ := exists_operationId_eq e.method e.path
      rw [derived, Naming.startsWithDigit, text, List.find?_append]
      cases e.method <;> rfl

/-- **Every operation of a description belongs to an endpoint**: but for the identifier, which is a
free name for what the endpoint asks for, it is the outline of the endpoint in canonical order. -/
theorem exists_endpoint {doc : Document} {defaultTag : String} {op : ClientGen.Operation}
    (listed : op ∈ (doc.describe defaultTag).value.api.operations) :
    ∃ e ∈ doc.endpoints, op = (e.outline defaultTag op.id).sorted ∧
      ∃ taken, op.id = Naming.freeName taken (Naming.camelCase e.raw) := by
  rw [value_describe] at listed
  have sorted := (List.mergeSort_perm ((doc.operationOutlines defaultTag).map Operation.sorted)
    fun a b => textsLe (a.tag, a.id) (b.tag, b.id)).mem_iff.mp listed
  obtain ⟨outline, inOutlines, rfl⟩ := List.mem_map.mp sorted
  obtain ⟨⟨id, e⟩, pair, rfl⟩ := List.mem_map.mp inOutlines
  have names := List.forall₂_map_left_iff.mp
    (Naming.forall₂_uniqueAll [] (doc.endpoints.map (·.candidate)))
  exact ⟨e, (List.of_mem_zip pair).2, rfl, List.forall₂_zip names.flip pair⟩

/-- **Every operation that a document declares is in its description.** -/
theorem exists_operation {doc : Document} {path : String} {method : Method}
    (declared : doc.Declares path method) (defaultTag : String) :
    ∃ op ∈ (doc.describe defaultTag).value.api.operations, op.path = path ∧ op.method = method := by
  have keys := map_key_operations_perm doc defaultTag
  rw [← value_describe] at keys
  obtain ⟨op, listed, key⟩ :=
    List.mem_map.mp (keys.mem_iff.mpr (mem_map_key_endpoints.mpr declared))
  exact ⟨op, listed, Prod.mk.inj key⟩

/-- **An identifier starts with an underscore** iff the document gives one whose first letter or
digit is a digit. -/
theorem Endpoint.head?_id {e : Endpoint} {id : String} {taken : List String}
    (chosen : id = Naming.freeName taken (Naming.camelCase e.raw)) :
    id.toList.head? = some '_' ↔ e.operation.id.any Naming.startsWithDigit := by
  have nonempty : (Naming.camelCase e.raw).toList ≠ [] := (Naming.isName_camelCase e.raw).ne_nil
  rw [chosen, Naming.head?_freeName nonempty, Naming.head?_camelCase, e.startsWithDigit_raw]

/-- **The identifiers of operations have the grammar of names.** -/
theorem isName_id {doc : Document} {defaultTag : String} {op : ClientGen.Operation}
    (listed : op ∈ (doc.describe defaultTag).value.api.operations) :
    Naming.IsName Text.isAsciiSmall op.id.toList := by
  obtain ⟨e, -, -, taken, same⟩ := exists_endpoint listed
  exact same ▸ (Naming.isName_camelCase e.raw).freeName taken

end Document

end ClientGen
