import ClientGen.Proofs.Api.Rereading
import ClientGen.Proofs.Document.Canonical
import ClientGen.Proofs.Document.Room
import ClientGen.Proofs.Schema.Loading

/-!
# Descriptions of documents that are read back

The text of a document and that of its description may nest equally deep, but a description nests
deeper than the document that it was made from. So a description is read back unless it has become
too deep, which a document with little room around it cannot bring about.

* `Document.Each.legible` — nothing but its depth keeps a description from being read back.
* `Document.Each.depth_le` — how deep the description of a document nests.
* `Document.read?_describe` — which descriptions are read back.
* `Document.exists_unreadable_nestedJson` — a document whose description is not read back.
-/

namespace ClientGen.Document

open Schema (reach)

variable {d : Nat}

/-! ## Shapes of documents -/

theorem fits_outlineOrUnknown {schema? : Option Schema}
    (inside : ∀ s ∈ schema?, s.Inside 0 d) : (outlineOrUnknown schema?).Fits (reach d) := by
  cases schema? with
  | none => exact Shape.Fits.unknown.mono (Nat.le_max_left 1 _)
  | some s => exact s.bounded 0 d (inside s rfl)

theorem fits_content {content : OrderedMap Media} (each : EachContent (Schema.Inside 0 d) content)
    (mediaType : String) (media : Media)
    (preferred : preferredMedia? content = some (mediaType, media)) :
    (outlineOrUnknown media.schema).Fits (reach d) := by
  obtain ⟨chosen, -, found⟩ := Option.bind_eq_some_iff.mp preferred
  obtain ⟨media, here, same⟩ := Option.map_eq_some_iff.mp found
  obtain ⟨rfl, rfl⟩ := Prod.mk.inj same
  exact fits_outlineOrUnknown (each _ (OrderedMap.mem_of_lookup here))

/-- **The shapes of an operation** reach no further than its schemas and those of its path. -/
theorem fits_operation {e : Endpoint} (path : e.item.Each (Schema.Inside 0 d))
    (own : e.operation.Each (Schema.Inside 0 d)) (defaultTag id : String) :
    ∀ shape ∈ (e.outline defaultTag id).shapes, shape.Fits (reach d) := by
  refine e.forall_shapes_outline ?parameters ?body ?responses defaultTag id
  case parameters =>
    intro p listed
    rcases List.mem_append.mp listed with shared | further
    · exact fits_outlineOrUnknown (path.parameters p shared)
    · exact fits_outlineOrUnknown (own.parameters p further)
  case body => exact fun b declared => fits_content (own.body b declared)
  case responses => exact fun entry declared => fits_content (own.responses entry declared)

variable {doc : Document}

/-- The schemas of a document are its shared schemas. -/
theorem Each.of_mem_schemas {P Q : Schema → Prop} (each : doc.Each P Q)
    {entry : String × Schema} (member : entry ∈ doc.schemas) : P entry.2 := by
  have declared := (OrderedMap.sorted_perm _).mem_iff.mp member
  cases shared : doc.components with
  | none => simp [shared] at declared
  | some c => exact each.schemas c shared entry (by simpa [shared] using declared)

/-- The shapes of the models of a description. -/
theorem fits_models {Q : Schema → Prop} (each : doc.Each (Schema.Inside 0 d) Q)
    (defaultTag : String) :
    ∀ m ∈ (doc.outline defaultTag).api.models, m.shape.Fits (reach d) := by
  intro m member
  obtain ⟨other, listed, same⟩ := Api.exists_of_mem_models_sorted member
  obtain ⟨⟨name, key, s⟩, pair, rfl⟩ := List.mem_map.mp listed
  have fits : s.outline.Fits (reach d) :=
    s.bounded 0 d (each.of_mem_schemas (List.of_mem_zip pair).2)
  exact same ▸ fits.sorted

/-- The shapes of the operations of a description. -/
theorem fits_operations {P : Schema → Prop} (each : doc.Each P (Schema.Inside 0 d))
    (defaultTag : String) :
    ∀ op ∈ (doc.outline defaultTag).api.operations, ∀ shape ∈ op.shapes, shape.Fits (reach d) := by
  intro op member shape inside
  obtain ⟨other, listed, inner, given, rfl⟩ := Api.exists_of_mem_operations_sorted member inside
  obtain ⟨⟨id, e⟩, pair, rfl⟩ := List.mem_map.mp listed
  obtain ⟨path, method⟩ := e.listed (List.of_mem_zip pair).2
  have item := each.paths _ path
  exact (fits_operation item (item.operation method) defaultTag id inner given).sorted

/-! ## Descriptions of documents -/

/-- **The description of a document is legible** if its maps have distinct keys and its schemas were
read from values. -/
theorem Each.legible {e : Nat} (each : doc.Each (Schema.Inside 0 e) (Schema.Inside 0 d))
    (distinct : doc.MapsDistinct) (defaultTag : String) :
    (doc.describe defaultTag).value.api.Legible := by
  rw [value_describe]
  have fits : ∀ shape ∈ (doc.outline defaultTag).api.shapes, ∃ bound, shape.Fits bound := by
    intro shape member
    rcases List.mem_append.mp member with ofModel | ofOperation
    · obtain ⟨m, listed, rfl⟩ := List.mem_map.mp ofModel
      exact ⟨_, fits_models each defaultTag m listed⟩
    · obtain ⟨op, listed, inside⟩ := List.mem_flatMap.mp ofOperation
      exact ⟨_, fits_operations each defaultTag op listed shape inside⟩
  have ascending := canonical_shapes distinct defaultTag
  constructor
  · intro shape member
    obtain ⟨bound, fits⟩ := fits shape member
    exact fits.orderly (ascending shape member)
  · intro shape member
    obtain ⟨bound, fits⟩ := fits shape member
    exact fits.readable

/-- **How deep the description of a document nests**, if the schemas of its paths may nest so deep,
and the shared schemas, with less around them, two levels deeper. -/
theorem Each.depth_le (each : doc.Each (Schema.Inside 0 (d + 2)) (Schema.Inside 0 d))
    (defaultTag : String) :
    (doc.describe defaultTag).value.api.toJson.depth ≤ 4 * d + 10 := by
  rw [value_describe]
  refine Api.depth_toJson_le (fun m member => ?_) fun op member shape inside => ?_
  · refine (fits_models each defaultTag m member).depth_toJson_le.trans ?_
    unfold reach
    omega
  · refine (fits_operations each defaultTag op member shape inside).depth_toJson_le.trans ?_
    unfold reach
    omega

theorem each_of_read {text : String} {room : Nat}
    (reads : read (⟨(Json.Source.parse text).value, room + 5⟩ : Json.Cursor) = .ok doc) :
    doc.Each (Schema.Inside 0 (room + 2)) (Schema.Inside 0 room) :=
  gives_read _ ⟨Json.Source.each_parse text, Nat.le_refl _⟩ doc reads

/-- **Which descriptions are read back.** A description that is not too deep is read back with its
numbers as they are read, and any other one is refused. The description of a document that can be
read with so much room nests less than four times as deep, so the description of a document of at
most thirty-four levels is read back. -/
theorem read?_describe {text : String} {doc : Document} (parsed : parse .json text = .ok doc)
    (defaultTag : String) :
    let api := (doc.describe defaultTag).value.api
    (api.toJson.depth ≤ Json.depthLimit →
        Api.read? api.print = .ok (api.mapNumbers Json.Number.reread)) ∧
      (Json.depthLimit < api.toJson.depth →
        ∃ failure, Api.read? api.print = .error (.unreadable failure)) ∧
      ∀ room, 5 ≤ room →
        read (⟨(Json.Source.parse text).value, room⟩ : Json.Cursor) = .ok doc →
        api.toJson.depth ≤ 4 * room - 10 := by
  have whole : doc.Each (Schema.Inside 0 124) (Schema.Inside 0 122) :=
    each_of_read (read_of_parse parsed)
  have legible := whole.legible (mapsDistinct_of_parse parsed) defaultTag
  refine ⟨legible.read?_eq, legible.exists_unreadable, fun room fits reads => ?_⟩
  obtain ⟨room, rfl⟩ := Nat.exists_eq_add_of_le' fits
  refine ((each_of_read reads).depth_le defaultTag).trans ?_
  omega

/-! ## A document that nests too deep -/

/-- The types of a schema of arrays, texts and null. -/
def arrayTypes : List String :=
  ["array", "string", "null"]

/-- Arrays in arrays, any of which may be a text or null instead, as they are written. -/
def nestedArrays : Nat → Json
  | 0 => .object [("type", .ofStrings arrayTypes)]
  | levels + 1 => .object [("items", nestedArrays levels), ("type", .ofStrings arrayTypes)]

/-- The document with this schema, as it is written. -/
def nestedJson (levels : Nat) : Json :=
  .object [("components", .object [("schemas", .object [("A", nestedArrays levels)])])]

/-- The document with this schema. -/
def nestedDocument (levels : Nat) : Document :=
  { components := some { schemas := [("A", Schema.load (nestedArrays levels))] } }

theorem depth_nestedArrays (levels : Nat) : (nestedArrays levels).depth = levels + 2 := by
  induction levels with
  | zero => rfl
  | succ levels ih =>
      have types : (Json.ofStrings arrayTypes).depth = 1 := rfl
      rw [nestedArrays, Json.depth, Json.membersDepth, Json.membersDepth, Json.membersDepth, ih,
        types]
      omega

theorem faithful_nestedJson (levels : Nat) : (nestedJson levels).Faithful := by
  have types := Json.faithful_ofStrings arrayTypes
  have schema : (nestedArrays levels).Faithful := by
    induction levels with
    | zero => exact Json.faithful_object (List.forall_mem_singleton.mpr types)
    | succ levels ih =>
        exact Json.faithful_object
          (List.forall_mem_cons.mpr ⟨ih, List.forall_mem_singleton.mpr types⟩)
  refine Json.faithful_object (List.forall_mem_singleton.mpr ?_)
  refine Json.faithful_object (List.forall_mem_singleton.mpr ?_)
  exact Json.faithful_object (List.forall_mem_singleton.mpr schema)

/-- The document is read wherever there is room for it. -/
theorem read_nestedJson {levels room : Nat} (fits : levels + 5 ≤ room) :
    read (⟨(nestedJson levels).source, room⟩ : Json.Cursor) = .ok (nestedDocument levels) := by
  have deep := depth_nestedArrays levels
  have schema (room : Nat) (fits : (nestedArrays levels).depth ≤ room) :
      readSchema (⟨(nestedArrays levels).source, room⟩ : Json.Cursor) =
        .ok (Schema.load (nestedArrays levels)) := by
    obtain ⟨more, rfl⟩ := Nat.exists_eq_add_of_le' fits
    exact Schema.readSchema_source _ more
  let listed : Json := .object [("A", nestedArrays levels)]
  have components (room : Nat) (fits : (Json.object [("schemas", listed)]).depth ≤ room) :
      Components.read (⟨(Json.object [("schemas", listed)]).source, room⟩ : Json.Cursor) =
        .ok { schemas := [("A", Schema.load (nestedArrays levels))] } := by
    refine Json.Cursor.record_source (by decide) fits fun room fits => ?_
    rw [Json.membersDepth, Json.membersDepth, Nat.max_zero] at fits
    exact .given (Json.Cursor.map_source fits schema) (.nil _)
  refine Json.Cursor.record_source (by decide) ?_ fun room fits => ?_
  · simp only [Json.depth, Json.membersDepth, deep]
    omega
  · rw [Json.membersDepth, Json.membersDepth, Nat.max_zero] at fits
    have given := Json.Cursor.optional_source (by nofun) (components room fits)
    exact .absent (by decide) (.absent (by decide) (.absent (by decide) (.given given (.nil _))))

theorem parse_nestedJson {levels : Nat} (fits : levels + 5 ≤ Json.depthLimit) :
    parse .json (nestedJson levels).pretty = .ok (nestedDocument levels) := by
  rw [parse, Json.Cursor.ofText, Json.Source.parse_pretty _ (faithful_nestedJson levels)]
  simp only [read_nestedJson fits, Json.check, bind, Except.bind]
  rfl

theorem canonical_nestedArrays (levels : Nat) :
    (nestedArrays levels).canonical = nestedArrays levels := by
  have types : (Json.ofStrings arrayTypes).canonical = .ofStrings arrayTypes := rfl
  induction levels with
  | zero =>
      show Json.object (List.mergeSort _ _) = _
      rw [List.mergeSort_of_pairwise (by decide)]
      rfl
  | succ levels ih =>
      have members : Json.canonicalMembers
          [("items", nestedArrays levels), ("type", .ofStrings arrayTypes)] =
            [("items", nestedArrays levels), ("type", .ofStrings arrayTypes)] :=
        Json.canonicalMembers_eq
          (List.forall_mem_cons.mpr ⟨ih, List.forall_mem_singleton.mpr types⟩)
      have ascending : "items" ≤ "type" := by decide
      have sorted : OrderedMap.sorted
          [("items", nestedArrays levels), ("type", .ofStrings arrayTypes)] =
            [("items", nestedArrays levels), ("type", .ofStrings arrayTypes)] :=
        List.mergeSort_of_pairwise (List.pairwise_pair.mpr (decide_eq_true ascending))
      rw [nestedArrays, Json.canonical, members]
      exact congrArg Json.object sorted

/-- The schema of arrays, texts and null. -/
def arraysOf (items : Option Schema) : Schema :=
  .keywords { Keywords.blank with items, type := some (.several arrayTypes) }

theorem load_nestedArrays_zero : Schema.load (nestedArrays 0) = arraysOf none := by
  rw [Schema.load, canonical_nestedArrays]
  rfl

theorem load_nestedArrays_succ (levels : Nat) :
    Schema.load (nestedArrays (levels + 1)) =
      arraysOf (some (Schema.load (nestedArrays levels))) := by
  have object : (nestedArrays levels).isNull = false := by cases levels <;> rfl
  rw [Schema.load, Schema.load, canonical_nestedArrays, canonical_nestedArrays, nestedArrays,
    Schema.ofJson]
  simp only [Schema.keywordsOf, object]
  rfl

/-- Each level of the schema is written on four levels: null, the union, its list and the array. -/
theorem depth_arraysOf (items : Option Schema) :
    (arraysOf items).outline.sorted.toJson.depth =
      ((items.map Schema.outline).getD .unknown).sorted.toJson.depth + 4 := by
  have form : (arraysOf items).form = .oneOfTypes [.array items, .primitive .string] := rfl
  have outline : (arraysOf items).outline = .nullable
      (.union [.array ((items.map Schema.outline).getD .unknown), .primitive .string]) := by
    rw [Schema.outline_eq, form, Form.outline_oneOfTypes, List.map_cons, List.map_singleton,
      TypeForm.outline_array, TypeForm.outline_primitive]
    rfl
  have written (shape : Shape) :
      (Shape.nullable (.union [.array shape, .primitive .string])).toJson =
        Shape.tagged "nullable" [("inner", Shape.tagged "union" [("variants", .array
          [Shape.tagged "array" [("items", shape.toJson)],
            Shape.tagged "primitive" [("type", .string "string")]])])] := rfl
  rw [outline, Shape.sorted_nullable, Shape.sorted_union, List.map_cons, List.map_singleton,
    Shape.sorted_array, Shape.sorted_primitive, written]
  simp only [Shape.tagged, Json.depth, Json.membersDepth, Json.itemsDepth]
  omega

theorem depth_nestedShape (levels : Nat) :
    (Schema.load (nestedArrays levels)).outline.sorted.toJson.depth = 4 * levels + 5 := by
  induction levels with
  | zero =>
      rw [load_nestedArrays_zero, depth_arraysOf]
      rfl
  | succ levels ih =>
      rw [load_nestedArrays_succ, depth_arraysOf, Option.map_some, Option.getD_some, ih]
      omega

/-- The description of the document has one model. -/
theorem models_nestedDocument (levels : Nat) (defaultTag : String) :
    ((nestedDocument levels).outline defaultTag).api.models =
      [{ modelOutline "A" "A" (Schema.load (nestedArrays levels)) with
        shape := (Schema.load (nestedArrays levels)).outline.sorted }] := by
  have names (s : Schema) : modelNames [("A", s)] = ["A"] := by
    show (Naming.uniqueAll [] [Naming.pascalCase "A"]).1 = ["A"]
    decide +kernel
  have schemas : (nestedDocument levels).schemas =
      [("A", Schema.load (nestedArrays levels))] := List.mergeSort_singleton _
  have outlines : (nestedDocument levels).modelOutlines =
      [modelOutline "A" "A" (Schema.load (nestedArrays levels))] := by
    rw [modelOutlines, schemas, names]
    rfl
  show List.mergeSort ((nestedDocument levels).modelOutlines.map _) _ = _
  rw [outlines]
  exact List.mergeSort_singleton _

/-- **A document may be read although its description nests too deep.** With thirty arrays around
another one it nests thirty-five levels, and its description one level more than may be read. -/
theorem exists_unreadable_nestedJson :
    parse .json (nestedJson 30).pretty = .ok (nestedDocument 30) ∧
      ∀ api, Api.read? ((nestedDocument 30).describe "default").value.api.print ≠ .ok api := by
  have parsed := parse_nestedJson (show 30 + 5 ≤ Json.depthLimit by decide)
  have whole : (nestedDocument 30).Each (Schema.Inside 0 124) (Schema.Inside 0 122) :=
    each_of_read (read_of_parse parsed)
  have deep : Json.depthLimit < ((nestedDocument 30).describe "default").value.api.toJson.depth := by
    have member := (models_nestedDocument 30 "default").symm ▸ List.mem_singleton_self _
    have model := Api.depth_toJson_of_model member
    rw [value_describe]
    rw [depth_nestedShape] at model
    exact model
  refine ⟨parsed, fun api back => ?_⟩
  obtain ⟨failure, unreadable⟩ :=
    (whole.legible (mapsDistinct_of_parse parsed) "default").exists_unreadable deep
  cases unreadable.symm.trans back

/-- With twenty-nine arrays the description is read back. -/
theorem read?_describe_nestedJson :
    parse .json (nestedJson 29).pretty = .ok (nestedDocument 29) ∧
      let api := ((nestedDocument 29).describe "default").value.api
      Api.read? api.print = .ok (api.mapNumbers Json.Number.reread) := by
  have parsed := parse_nestedJson (show 29 + 5 ≤ Json.depthLimit by decide)
  have tree : (Json.Source.parse (nestedJson 29).pretty).value = (nestedJson 29).source := by
    rw [Json.Source.parse_pretty _ (faithful_nestedJson 29)]
  have reads : read (⟨(Json.Source.parse (nestedJson 29).pretty).value, 34⟩ : Json.Cursor) =
      .ok (nestedDocument 29) := by
    rw [tree]
    exact read_nestedJson (Nat.le_refl _)
  obtain ⟨readBack, -, bound⟩ := read?_describe parsed "default"
  exact ⟨parsed, readBack ((bound 34 (by decide) reads).trans (by decide))⟩

end ClientGen.Document
