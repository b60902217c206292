import ClientGen.Proofs.Api.Renaming
import ClientGen.Proofs.Api.RoundTrip
import ClientGen.Proofs.Api.Sorting
import ClientGen.Proofs.Document.Correspondence
import ClientGen.Proofs.Document.Nodes
import ClientGen.Proofs.Schema.DistinctKeys

/-!
# Canonical descriptions

A description says some things twice, and backends look at either. It is canonical if everything in
it stands in ascending order, nothing stands twice, and what is said twice agrees.

* `Api.Canonical` — a canonical description.
* `Document.canonical_describe` — the description of every document is one.

Order comes from the sort at the end, and the sort alone would allow repetitions. Names of models
and identifiers of operations do not repeat because they were chosen so; statuses and properties do
not repeat because the maps of a document have each key once.
-/

namespace ClientGen

/-! ## Canonical descriptions -/

/-- **A response agrees with itself.** -/
structure Response.Coherent (r : Response) : Prop where
  /-- It stands for all other statuses iff its status says so. -/
  isDefault : r.isDefault = true ↔ r.status = "default"
  /-- It has a shape iff it has a media type. -/
  shape : r.shape.isSome ↔ r.mediaType.isSome
  /-- The kind is that of the media type. -/
  kind : r.kind = (r.mediaType.map MediaType.kind).getD .unknown

/-- **A canonical operation.** -/
structure Operation.Canonical (op : Operation) : Prop where
  /-- There is one tag. -/
  tag : ∃ tag, op.tags = [tag]
  /-- Parameters ascend by place and name. -/
  parameters : op.parameters.Pairwise fun p q =>
    p.location.name < q.location.name ∨ p.location.name = q.location.name ∧ p.name ≤ q.name
  /-- The kind of the body is that of its media type. -/
  body : ∀ b ∈ op.body, b.kind = MediaType.kind b.mediaType
  /-- Statuses ascend, and none stands twice. -/
  statuses : (op.responses.map (·.status)).Pairwise (· < ·)
  /-- Each response agrees with itself. -/
  responses : ∀ r ∈ op.responses, r.Coherent

/-- **A canonical description.** -/
structure Api.Canonical (api : Api) : Prop where
  /-- The names of models ascend, and none stands twice. -/
  names : (api.models.map (·.name)).Pairwise (· < ·)
  /-- Operations ascend by tag and identifier, and none stands twice. -/
  identifiers : api.operations.Pairwise fun a b => a.tag < b.tag ∨ a.tag = b.tag ∧ a.id < b.id
  /-- Each operation is canonical. -/
  operations : ∀ op ∈ api.operations, op.Canonical
  /-- The names ascend in every object of every shape. -/
  shapes : ∀ shape ∈ api.shapes, shape.Canonical
  /-- The canonical order changes nothing. -/
  sorted : api.sorted = api

/-- Things that were sorted by a name and have different names ascend by it. -/
theorem pairwise_map_mergeSort {α : Type} {name : α → String} {xs : List α}
    (nodup : (xs.map name).Nodup) :
    ((xs.mergeSort fun a b => decide (name a ≤ name b)).map name).Pairwise (· < ·) := by
  have orders := Order.orders_texts.comap name
  have ascending := List.pairwise_mergeSort orders.trans orders.total xs
  refine Naming.pairwise_lt_of_nodup ?_ (((List.mergeSort_perm xs _).map name).nodup_iff.mpr nodup)
  exact List.pairwise_map.mpr (ascending.imp fun le => of_decide_eq_true le)

namespace Api

/-- The models of a sorted description have the shapes of its models in their canonical order. -/
theorem exists_of_mem_models_sorted {api : Api} {m : Model} (member : m ∈ api.sorted.models) :
    ∃ other ∈ api.models, other.shape.sorted = m.shape := by
  obtain ⟨other, given, rfl⟩ := List.mem_map.mp ((List.mergeSort_perm ..).mem_iff.mp member)
  exact ⟨other, given, rfl⟩

/-- The operations of a sorted description have the shapes of its operations in their canonical
order. -/
theorem exists_of_mem_operations_sorted {api : Api} {op : Operation}
    (member : op ∈ api.sorted.operations) {shape : Shape} (inside : shape ∈ op.shapes) :
    ∃ other ∈ api.operations, ∃ inner ∈ other.shapes, inner.sorted = shape := by
  obtain ⟨other, given, rfl⟩ := List.mem_map.mp ((List.mergeSort_perm ..).mem_iff.mp member)
  have mapped : shape ∈ (other.mapShapes Shape.sorted).shapes := by
    rcases List.mem_append.mp inside with inside | ofResponse
    · rcases List.mem_append.mp inside with ofParameter | ofBody
      · obtain ⟨p, sorted, rfl⟩ := List.mem_map.mp ofParameter
        exact Operation.shape_mem_of_parameter _ ((List.mergeSort_perm ..).mem_iff.mp sorted)
      · exact List.mem_append_left _ (List.mem_append_right _ ofBody)
    · obtain ⟨r, sorted, given⟩ := List.mem_filterMap.mp ofResponse
      exact Operation.shape_mem_of_response _ ((List.mergeSort_perm ..).mem_iff.mp sorted) given
  rw [Operation.shapes_mapShapes] at mapped
  exact ⟨other, given, List.mem_map.mp mapped⟩

/-- The shapes of a sorted description are its shapes in their canonical order. -/
theorem exists_of_mem_shapes_sorted {api : Api} {shape : Shape}
    (member : shape ∈ api.sorted.shapes) : ∃ inner ∈ api.shapes, inner.sorted = shape := by
  rcases List.mem_append.mp member with ofModel | ofOperation
  · obtain ⟨m, listed, rfl⟩ := List.mem_map.mp ofModel
    obtain ⟨other, given, same⟩ := exists_of_mem_models_sorted listed
    exact ⟨other.shape, shape_mem_of_model given, same⟩
  · obtain ⟨op, listed, inside⟩ := List.mem_flatMap.mp ofOperation
    obtain ⟨other, given, inner, here, same⟩ := exists_of_mem_operations_sorted listed inside
    exact ⟨inner, shape_mem_of_operation given here, same⟩

/-- The canonical order of a canonical order is itself. -/
theorem sorted_sorted (api : Api) : api.sorted.sorted = api.sorted := by
  have whole := api.rearranged_sorted Shape.rearranged_sorted
  exact (whole.sorted_eq fun s t rearranged => rearranged.sorted_eq).symm

end Api

namespace Document

open Node

/-! ## Shapes -/

theorem propertiesDistinct_outlineOrUnknown {schema? : Option Schema}
    (distinct : ∀ s ∈ schema?, (schema s).MapsDistinct) :
    (outlineOrUnknown schema?).PropertiesDistinct := by
  cases schema? with
  | none => exact Shape.propertiesDistinct_of_childless trivial rfl
  | some s => exact Schema.propertiesDistinct_outline (mapsDistinct_schema_iff.mp (distinct s rfl))

variable {n : Node}

theorem propertiesDistinct_parameter {ps : List Parameter} (distinct : n.MapsDistinct)
    (nodes : parameterNodes ps ⊆ n.children) {p : Parameter} (listed : p ∈ ps) :
    (outlineOrUnknown p.schema).PropertiesDistinct := by
  obtain ⟨position, found⟩ := List.mem_iff_getElem?.mp listed
  have inside := distinct.child (nodes (parameterNodes_of_getElem? found))
  refine propertiesDistinct_outlineOrUnknown fun s given => ?_
  have step : (["schema"], schema s) ∈ (Node.parameter p).children :=
    List.mem_map.mpr ⟨s, Option.mem_toList.mpr given, rfl⟩
  exact inside.child step

theorem propertiesDistinct_content {content : OrderedMap Media} (distinct : n.MapsDistinct)
    (nodes : contentNodes content ⊆ n.children) (mediaType : String) (media : Media)
    (preferred : preferredMedia? content = some (mediaType, media)) :
    (outlineOrUnknown media.schema).PropertiesDistinct := by
  refine propertiesDistinct_outlineOrUnknown fun s given => ?_
  exact distinct.child (nodes (preferred_mem_contentNodes preferred given))

/-- **The shapes of an operation** have distinct properties if no map of its path or of itself has a
key twice. -/
theorem propertiesDistinct_operation {e : Endpoint} (path : (Node.item e.item).MapsDistinct)
    (own : (Node.operation e.operation).MapsDistinct) (defaultTag id : String) :
    ∀ shape ∈ (e.outline defaultTag id).shapes, shape.PropertiesDistinct := by
  refine e.forall_shapes_outline ?parameters ?body ?responses defaultTag id
  case parameters =>
    intro p listed
    rcases List.mem_append.mp listed with shared | further
    · exact propertiesDistinct_parameter path (List.subset_append_left ..) shared
    · exact propertiesDistinct_parameter own (List.subset_append_left ..) further
  case body =>
    exact fun b declared =>
      propertiesDistinct_content (own.child (body_mem_children declared)) (List.Subset.refl _)
  case responses =>
    exact fun entry declared =>
      propertiesDistinct_content (own.child (response_mem_children declared)) (List.Subset.refl _)

/-- **The names ascend in the shapes of a description.** -/
theorem canonical_shapes {doc : Document} (distinct : doc.MapsDistinct) (defaultTag : String) :
    ∀ shape ∈ (doc.outline defaultTag).api.shapes, shape.Canonical := by
  intro shape member
  obtain ⟨inner, given, rfl⟩ := Api.exists_of_mem_shapes_sorted member
  refine Shape.canonical_sorted ?_
  rcases List.mem_append.mp given with ofModel | ofOperation
  · obtain ⟨m, listed, rfl⟩ := List.mem_map.mp ofModel
    obtain ⟨⟨name, key, s⟩, pair, rfl⟩ := List.mem_map.mp listed
    have declared := (OrderedMap.sorted_perm _).mem_iff.mp (List.of_mem_zip pair).2
    exact Schema.propertiesDistinct_outline
      (mapsDistinct_schema_iff.mp (distinct.child (schema_mem_children declared)))
  · obtain ⟨op, listed, inside⟩ := List.mem_flatMap.mp ofOperation
    obtain ⟨⟨id, e⟩, pair, rfl⟩ := List.mem_map.mp listed
    obtain ⟨path, method⟩ := e.listed (List.of_mem_zip pair).2
    have item := distinct.child (item_mem_children path)
    exact propertiesDistinct_operation item (item.child (operation_mem_children method))
      defaultTag id inner inside

/-! ## Operations -/

theorem Response.coherent_outline (status : String) (r : Response) :
    ClientGen.Response.Coherent { r.outline status with
      shape := (r.outline status).shape.map Shape.sorted } where
  isDefault := beq_iff_eq
  shape := by simp [outline]
  kind := by
    unfold outline
    cases preferredMedia? r.content <;> rfl

/-- **The outline of an operation is canonical** after it is sorted. -/
theorem Endpoint.canonical_outline {e : Endpoint} (distinct : e.operation.responses.Distinct)
    (defaultTag id : String) : (e.outline defaultTag id).sorted.Canonical := by
  refine
    { tag := ⟨_, rfl⟩, parameters := ?parameters, body := ?body, statuses := ?statuses
      responses := ?responses }
  case parameters =>
    have sorted := List.pairwise_mergeSort Parameter.orders_key.trans Parameter.orders_key.total
      ((e.outline defaultTag id).mapShapes Shape.sorted).parameters
    exact sorted.imp fun le => textsLe_iff.mp le
  case body =>
    intro b present
    obtain ⟨other, outline, rfl⟩ := Option.map_eq_some_iff.mp present
    obtain ⟨declared, -, outline⟩ := Option.bind_eq_some_iff.mp outline
    obtain ⟨⟨mediaType, media⟩, -, rfl⟩ := Option.map_eq_some_iff.mp outline
    rfl
  case statuses =>
    refine pairwise_map_mergeSort ?_
    have statuses : ((e.outline defaultTag id).mapShapes Shape.sorted).responses.map (·.status) =
        OrderedMap.keys e.operation.responses := by
      simp [Operation.mapShapes, outline, Response.outline, OrderedMap.keys]
    rw [statuses]
    exact distinct
  case responses =>
    intro r listed
    obtain ⟨other, given, rfl⟩ := List.mem_map.mp ((List.mergeSort_perm ..).mem_iff.mp listed)
    obtain ⟨⟨status, declared⟩, -, rfl⟩ := List.mem_map.mp given
    exact declared.coherent_outline status

/-! ## Descriptions -/

/-- The identifiers of a description ascend within each tag. -/
theorem pairwise_operations (doc : Document) (defaultTag : String) :
    (doc.outline defaultTag).api.operations.Pairwise
      fun a b => a.tag < b.tag ∨ a.tag = b.tag ∧ a.id < b.id := by
  have sorted := List.pairwise_mergeSort Operation.orders_key.trans Operation.orders_key.total
    ((doc.operationOutlines defaultTag).map ClientGen.Operation.sorted)
  have nodup : ((doc.outline defaultTag).api.operations.map (·.id)).Nodup :=
    (map_id_operations_perm doc defaultTag).nodup_iff.mpr (Naming.nodup_uniqueAll _ _)
  refine (List.Pairwise.and sorted (List.pairwise_map.mp nodup)).imp ?_
  rintro a b ⟨le, differ⟩
  refine (textsLe_iff.mp le).imp_right fun ⟨tag, id⟩ => ⟨tag, Std.lt_of_le_of_ne id differ⟩

/-- **The description of a document is canonical.** -/
theorem canonical_describe {doc : Document} (distinct : doc.MapsDistinct) (defaultTag : String) :
    (doc.describe defaultTag).value.api.Canonical := by
  refine
    { names := ?names, identifiers := ?identifiers, operations := fun op listed => ?operations
      shapes := ?shapes, sorted := ?sorted }
  case names =>
    rw [value_describe]
    have names : doc.modelOutlines.map (·.name) = modelNames doc.schemas :=
      map_name_modelsOf (length_modelNames doc.schemas)
    refine pairwise_map_mergeSort ?_
    rw [List.map_map]
    show (doc.modelOutlines.map (·.name)).Nodup
    rw [names]
    exact Naming.nodup_uniqueAll _ _
  case identifiers =>
    rw [value_describe]
    exact doc.pairwise_operations defaultTag
  case operations =>
    obtain ⟨e, member, same, -⟩ := exists_endpoint listed
    obtain ⟨path, method⟩ := e.listed member
    have item := distinct.child (item_mem_children path)
    have own := mapsDistinct_iff.mp (item.child (operation_mem_children method))
    rw [same]
    exact Endpoint.canonical_outline own.1 defaultTag op.id
  case shapes =>
    rw [value_describe]
    exact canonical_shapes distinct defaultTag
  case sorted =>
    rw [value_describe]
    exact Api.sorted_sorted _

/-- The schema of a text. -/
def textSchema : Schema :=
  .keywords { Keywords.blank with type := some (.single "string") }

/-- The schema of an object with two texts. -/
def breedSchema : Schema :=
  .keywords { Keywords.blank with properties := some [("name", textSchema), ("breed", textSchema)] }

/-- A response with a text. -/
def textResponse : Response :=
  { content := [("text/plain", { schema := textSchema })] }

/-- An operation with two responses. -/
def listPets : Operation :=
  { responses := [("default", {}), ("200", textResponse)] }

/-- A document whose schemas, properties and statuses stand in descending order. -/
def descendingPets : Document :=
  { paths := [("/pets", { get := listPets })]
    components := some { schemas := [("pet", breedSchema), ("Pet", textSchema)] } }

theorem mapsDistinct_descendingPets : descendingPets.MapsDistinct := by
  have text : (schema textSchema).MapsDistinct :=
    mapsDistinct_iff.mpr ⟨List.nodup_nil, List.forall_mem_nil _⟩
  have pet : (schema breedSchema).MapsDistinct := by
    refine mapsDistinct_iff.mpr ⟨show ["name", "breed"].Nodup by decide, ?_⟩
    exact List.forall_mem_cons.mpr ⟨text, List.forall_mem_singleton.mpr text⟩
  have bare : (Node.response {}).MapsDistinct :=
    mapsDistinct_iff.mpr ⟨List.nodup_nil, List.forall_mem_nil _⟩
  have full : (Node.response textResponse).MapsDistinct :=
    mapsDistinct_iff.mpr ⟨List.nodup_singleton _, List.forall_mem_singleton.mpr text⟩
  have list : (Node.operation listPets).MapsDistinct := by
    refine mapsDistinct_iff.mpr ⟨show ["default", "200"].Nodup by decide, ?_⟩
    exact List.forall_mem_cons.mpr ⟨bare, List.forall_mem_singleton.mpr full⟩
  have path : (item { get := listPets }).MapsDistinct :=
    mapsDistinct_iff.mpr ⟨trivial, List.forall_mem_singleton.mpr list⟩
  have keys : descendingPets.KeysDistinct :=
    { schemas := show ["pet", "Pet"].Nodup by decide, paths := List.nodup_singleton _ }
  refine mapsDistinct_iff.mpr ⟨keys, ?_⟩
  exact List.forall_mem_cons.mpr ⟨pet, List.forall_mem_cons.mpr
    ⟨text, List.forall_mem_singleton.mpr path⟩⟩

theorem canonical_descendingPets : descendingPets.MapsDistinct ∧
    (descendingPets.describe "default").value.api.Canonical :=
  ⟨mapsDistinct_descendingPets, canonical_describe mapsDistinct_descendingPets "default"⟩

end Document

end ClientGen
