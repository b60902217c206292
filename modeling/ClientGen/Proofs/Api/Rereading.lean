import ClientGen.Proofs.Api.Renaming
import ClientGen.Proofs.Api.RoundTrip
import ClientGen.Proofs.Json.Depths

/-!
# Descriptions that are read back

The text of a description is read back with the numbers that the texts of its numbers are read as.
All else is the same. The only thing that stands in the way is depth: every reader of a description
goes into all that is written, so a text that nests too deep is refused.

* `Shape.mapNumbers`, `Api.mapNumbers` — other numbers in the values of a shape or a description.
* `Api.toJson_mapNumbers` — they are written as the same text with other numbers.
* `Api.exhausts_readVersioned` — the reader of descriptions needs room for all that is written.
* `Api.Legible.read?_eq` — what is read back from a text that is not too deep.
* `Api.Legible.exists_unreadable` — nothing is read back from a text that is.
-/

namespace ClientGen

open Json (Number Cursor Failure)
open Json.Cursor (Exhausts exhausts_text exhausts_flag exhausts_natural exhausts_choice
  exhausts_list exhausts_record)

namespace Shape

variable {f : Number → Number}

/-- **The shape with other numbers** in its values. -/
def mapNumbers (f : Number → Number) : Shape → Shape :=
  fold { rebuild with
    literal := fun value => .literal (value.mapNumbers f)
    enumeration := fun values => .enumeration (values.map (Json.mapNumbers f)) }

@[simp] theorem mapNumbers_object (properties : OrderedMap Shape) (required : List String)
    (extra : Extra Shape) :
    (object properties required extra).mapNumbers f =
      .object (properties.mapValues (mapNumbers f)) required (extra.map (mapNumbers f)) := by
  show Shape.object (foldProperties _ properties) _ (foldExtra _ extra) = _
  rw [foldProperties_eq_mapValues, foldExtra_eq_map]
  rfl

@[simp] theorem mapNumbers_union (variants : List Shape) :
    (union variants).mapNumbers f = .union (variants.map (mapNumbers f)) := by
  show Shape.union (foldAll _ variants) = _
  rw [foldAll_eq_map]
  rfl

@[simp] theorem mapNumbers_intersection (parts : List Shape) :
    (intersection parts).mapNumbers f = .intersection (parts.map (mapNumbers f)) := by
  show Shape.intersection (foldAll _ parts) = _
  rw [foldAll_eq_map]
  rfl

/-- The children of a shape with other numbers are its children with other numbers. -/
theorem children_mapNumbers (shape : Shape) :
    (shape.mapNumbers f).children = shape.children.map (mapNumbers f) := by
  cases shape with
  | object properties required extra =>
      rw [mapNumbers_object, children, children, List.map_append, OrderedMap.mapValues]
      cases extra <;> simp [Extra.map, Extra.allowed?]
  | union variants => rw [mapNumbers_union, children, children]
  | intersection parts => rw [mapNumbers_intersection, children, children]
  | _ => rfl

/-- A shape stays orderly with other numbers. -/
theorem Orderly.mapNumbers {shape : Shape} (orderly : shape.Orderly) :
    (shape.mapNumbers f).Orderly := by
  induction shape using children_induction with
  | step shape ih =>
      obtain ⟨own, inside⟩ := orderly_iff.mp orderly
      refine orderly_iff.mpr ⟨?_, ?_⟩
      · cases shape with
        | literal value =>
            have canonical : value.canonical = value := own
            show (value.mapNumbers f).canonical = value.mapNumbers f
            rw [Json.canonical_mapNumbers, canonical]
        | enumeration values =>
            show ∀ value ∈ values.map (Json.mapNumbers f), value.canonical = value
            refine List.forall_mem_map.mpr fun value listed => ?_
            rw [Json.canonical_mapNumbers, own value listed]
        | object properties required extra =>
            rw [mapNumbers_object]
            exact OrderedMap.Distinct.mapValues own _
        | union variants => rw [mapNumbers_union]; trivial
        | intersection parts => rw [mapNumbers_intersection]; trivial
        | _ => trivial
      · rw [children_mapNumbers]
        exact List.forall_mem_map.mpr fun child member => ih child member (inside child member)

theorem kind_mapNumbers (shape : Shape) : (shape.mapNumbers f).kind = shape.kind := by
  cases shape with
  | object properties required extra => rw [mapNumbers_object]; rfl
  | union variants => rw [mapNumbers_union]; rfl
  | intersection parts => rw [mapNumbers_intersection]; rfl
  | _ => rfl

theorem map_toJson_mapNumbers {shapes : List Shape}
    (each : ∀ shape ∈ shapes, (shape.mapNumbers f).toJson = shape.toJson.mapNumbers f) :
    (shapes.map (mapNumbers f)).map toJson = Json.mapItemNumbers f (shapes.map toJson) := by
  rw [Json.mapItemNumbers_eq_map, List.map_map, List.map_map]
  exact List.map_congr_left each

theorem mapValues_toJson_mapNumbers {properties : OrderedMap Shape}
    (each : ∀ property ∈ properties,
      (property.2.mapNumbers f).toJson = property.2.toJson.mapNumbers f) :
    OrderedMap.mapValues toJson (OrderedMap.mapValues (mapNumbers f) properties) =
      Json.mapMemberNumbers f (OrderedMap.mapValues toJson properties) := by
  simp only [Json.mapMemberNumbers_eq_mapValues, OrderedMap.mapValues, List.map_map]
  exact List.map_congr_left fun property member => congrArg _ (each property member)

/-- The members of a shape with other numbers, if the shapes inside are written alike. -/
theorem members_mapNumbers {shape : Shape}
    (each : ∀ child ∈ shape.children,
      (child.mapNumbers f).toJson = child.toJson.mapNumbers f) :
    (shape.mapNumbers f).members = Json.mapMemberNumbers f shape.members := by
  cases shape with
  | enumeration values =>
      show [("values", Json.array (values.map (Json.mapNumbers f)))] =
        [("values", .array (Json.mapItemNumbers f values))]
      rw [Json.mapItemNumbers_eq_map]
  | array items =>
      show [("items", (items.mapNumbers f).toJson)] = [("items", items.toJson.mapNumbers f)]
      rw [each items (List.mem_cons_self ..)]
  | object properties required extra =>
      have listed := mapValues_toJson_mapNumbers fun property member =>
        each property.2 (List.mem_append_left _ (List.mem_map_of_mem member))
      have names : (Json.ofStrings required).mapNumbers f = .ofStrings required :=
        Json.mapNumbers_eq_self _ (Json.each_ofStrings required)
      have further : extraMember ((extra.map (mapNumbers f)).map toJson) =
          Json.mapMemberNumbers f (extraMember (extra.map toJson)) := by
        cases extra with
        | unstated => rfl
        | forbidden => rfl
        | allowed values =>
            show [("additionalProperties", (values.mapNumbers f).toJson)] =
              [("additionalProperties", values.toJson.mapNumbers f)]
            rw [each values (List.mem_append_right _ (List.mem_cons_self ..))]
      rw [mapNumbers_object, members, members, listed, further, Json.mapMemberNumbers,
        Json.mapMemberNumbers, names, Json.mapNumbers]
  | union variants =>
      have all : (variants.map (mapNumbers f)).map toJson =
          Json.mapItemNumbers f (variants.map toJson) := map_toJson_mapNumbers each
      rw [mapNumbers_union, members, all]
      rfl
  | intersection parts =>
      have all : (parts.map (mapNumbers f)).map toJson =
          Json.mapItemNumbers f (parts.map toJson) := map_toJson_mapNumbers each
      rw [mapNumbers_intersection, members, all]
      rfl
  | nullable inner =>
      show [("inner", (inner.mapNumbers f).toJson)] = [("inner", inner.toJson.mapNumbers f)]
      rw [each inner (List.mem_cons_self ..)]
  | primitive type => rfl
  | literal value => rfl
  | ref name => rfl
  | binary => rfl
  | unknown => rfl

/-- **A shape with other numbers is written as the shape, with other numbers.** -/
theorem toJson_mapNumbers (shape : Shape) :
    (shape.mapNumbers f).toJson = shape.toJson.mapNumbers f := by
  induction shape using children_induction with
  | step shape ih =>
      rw [toJson_eq, toJson_eq, tagged, tagged, members_mapNumbers ih, kind_mapNumbers]
      rfl

end Shape

/-! ## Descriptions with other numbers -/

section

variable {f : Number → Number}

theorem mapMemberNumbers_append (ms ns : List (String × Json)) :
    Json.mapMemberNumbers f (ms ++ ns) = Json.mapMemberNumbers f ms ++ Json.mapMemberNumbers f ns := by
  rw [Json.mapMemberNumbers_eq_mapValues, OrderedMap.mapValues, List.map_append]
  simp [Json.mapMemberNumbers_eq_mapValues, OrderedMap.mapValues]

/-- A member that may be left out. -/
theorem mapMemberNumbers_memberOf {α β : Type} {name : String} {write : α → Json}
    {other : β → Json} {g : α → β} (alike : ∀ a, other (g a) = (write a).mapNumbers f)
    (a : Option α) :
    Json.mapMemberNumbers f (memberOf name write a) = memberOf name other (a.map g) := by
  cases a with
  | none => rfl
  | some a =>
      show [(name, (write a).mapNumbers f)] = [(name, other (g a))]
      rw [alike]

theorem mapMemberNumbers_textMember (name : String) (text : Option String) :
    Json.mapMemberNumbers f (memberOf name .string text) = memberOf name .string text := by
  cases text <;> rfl

theorem mapItemNumbers_map {α : Type} {write : α → Json} {g : α → α}
    (alike : ∀ a, write (g a) = (write a).mapNumbers f) (as : List α) :
    Json.mapItemNumbers f (as.map write) = (as.map g).map write := by
  rw [Json.mapItemNumbers_eq_map, List.map_map, List.map_map]
  exact List.map_congr_left fun a _ => (alike a).symm

theorem Parameter.toJson_mapNumbers (p : Parameter) :
    Parameter.toJson { p with shape := p.shape.mapNumbers f } = p.toJson.mapNumbers f := by
  simp only [toJson, Json.mapNumbers, mapMemberNumbers_append, Json.mapMemberNumbers,
    mapMemberNumbers_textMember, Shape.toJson_mapNumbers]

theorem Body.toJson_mapNumbers (b : Body) :
    Body.toJson { b with shape := b.shape.mapNumbers f } = b.toJson.mapNumbers f := by
  simp only [toJson, Json.mapNumbers, mapMemberNumbers_append, Json.mapMemberNumbers,
    mapMemberNumbers_textMember, Shape.toJson_mapNumbers]

theorem Response.toJson_mapNumbers (r : Response) :
    Response.toJson { r with shape := r.shape.map (Shape.mapNumbers f) } =
      r.toJson.mapNumbers f := by
  simp only [toJson, Json.mapNumbers, mapMemberNumbers_append, Json.mapMemberNumbers,
    mapMemberNumbers_textMember, mapMemberNumbers_memberOf Shape.toJson_mapNumbers]

theorem Operation.toJson_mapNumbers (op : Operation) :
    (op.mapShapes (Shape.mapNumbers f)).toJson = op.toJson.mapNumbers f := by
  have tags : (Json.ofStrings op.tags).mapNumbers f = .ofStrings op.tags :=
    Json.mapNumbers_eq_self _ (Json.each_ofStrings op.tags)
  simp only [toJson, mapShapes, Json.mapNumbers, mapMemberNumbers_append, Json.mapMemberNumbers,
    mapMemberNumbers_textMember, mapMemberNumbers_memberOf Body.toJson_mapNumbers,
    mapItemNumbers_map Parameter.toJson_mapNumbers, mapItemNumbers_map Response.toJson_mapNumbers,
    tags]

theorem Model.toJson_mapNumbers (m : Model) :
    Model.toJson { m with shape := m.shape.mapNumbers f } = m.toJson.mapNumbers f := by
  simp only [toJson, Json.mapNumbers, mapMemberNumbers_append, Json.mapMemberNumbers,
    mapMemberNumbers_textMember, Shape.toJson_mapNumbers]

namespace Api

/-- **The description with other numbers** in the values of its shapes. -/
def mapNumbers (f : Number → Number) (api : Api) : Api :=
  { api with
    models := api.models.map fun m => { m with shape := m.shape.mapNumbers f }
    operations := api.operations.map fun op => op.mapShapes (Shape.mapNumbers f) }

/-- **A description with other numbers is written as the description, with other numbers**, if the
version of the format stays. -/
theorem toJson_mapNumbers (version : f (.int formatVersion) = .int formatVersion) (api : Api) :
    (api.mapNumbers f).toJson = api.toJson.mapNumbers f := by
  simp only [toJson, mapNumbers, Json.mapNumbers, Json.mapMemberNumbers, Json.ofNat, version,
    mapItemNumbers_map Model.toJson_mapNumbers, mapItemNumbers_map Operation.toJson_mapNumbers]

/-- The shapes of a description with other numbers are its shapes with other numbers. -/
theorem shapes_mapNumbers (api : Api) :
    (api.mapNumbers f).shapes = api.shapes.map (Shape.mapNumbers f) := by
  simp only [shapes, mapNumbers, List.map_append, List.map_map, List.map_flatMap,
    List.flatMap_map]
  congr 2
  funext op
  exact Operation.shapes_mapShapes ..

end Api

end

/-! ## Readers that go into everything -/

/-- A member that may be left out. -/
theorem exhausts_memberOf {α γ : Type} {type : Record Cursor (Except Failure) γ} {name : String}
    {field : Field Cursor (Except Failure) γ} {write : α → Json} {a : Option α}
    (found : type.field? name = some field)
    (exhausts : ∀ x ∈ a, Exhausts field.read (write x)) :
    ∀ m ∈ memberOf name write a,
      ∃ field, type.field? m.1 = some field ∧ Exhausts field.read m.2 := by
  cases a with
  | none => exact List.forall_mem_nil _
  | some x => exact List.forall_mem_singleton.mpr ⟨field, found, exhausts x rfl⟩

namespace Shape

theorem depth_of_readKind {v : Json} {room : Nat} {kind : Kind}
    (read : readKind ⟨v.source, room⟩ = .ok kind) : v.depth = 0 := by
  cases v with
  | array vs => cases read
  | object ms => cases read
  | _ => rfl

theorem membersDepth_le_of_readMembers {room : Nat} {kind : Option Kind}
    {before ms : List (String × Json)} {result : Option Kind × List (String × Json)}
    (read : readMembers room kind before (Json.memberSources ms) = .ok result) :
    Json.membersDepth ms ≤ room := by
  induction ms generalizing kind before with
  | nil => exact Nat.zero_le _
  | cons m ms ih =>
      obtain ⟨k, v⟩ := m
      rw [Json.memberSources, readMembers] at read
      obtain ⟨name, -, read⟩ := bind_eq_ok_iff.mp read
      split at read
      · split at read
        · cases read
        · obtain ⟨found, named, read⟩ := bind_eq_ok_iff.mp read
          have flat := depth_of_readKind named
          exact Nat.max_le.mpr ⟨flat ▸ Nat.zero_le _, ih read⟩
      · obtain ⟨value, found, read⟩ := bind_eq_ok_iff.mp read
        exact Nat.max_le.mpr ⟨Json.Source.depth_le_of_value_source found, ih read⟩

/-- **The reader of shapes goes into everything**: the members of an object become values before
any of them is looked at. -/
theorem exhausts_read (v : Json) : Exhausts read v := by
  intro room shape result
  cases v with
  | object ms =>
      have tree : (Json.object ms).source = .object (Json.memberSources ms) none := by
        rw [Json.source]
      simp only [read, tree] at result
      obtain ⟨inner, entered, result⟩ := bind_eq_ok_iff.mp result
      obtain ⟨found, members, -⟩ := bind_eq_ok_iff.mp result
      obtain rfl := Json.enter_eq_ok_iff.mp entered
      exact Nat.succ_le_succ (membersDepth_le_of_readMembers members)
  | array vs =>
      have tree : (Json.array vs).source = .array (Json.itemSources vs) none := by
        rw [Json.source]
      simp only [read, tree] at result
      obtain ⟨inner, entered, listed⟩ := bind_eq_ok_iff.mp result
      obtain rfl := Json.enter_eq_ok_iff.mp entered
      cases vs with
      | nil => cases listed
      | cons v vs =>
          rw [Json.itemSources] at listed
          obtain ⟨kind, named, listed⟩ := bind_eq_ok_iff.mp listed
          obtain ⟨values, rest, -⟩ := bind_eq_ok_iff.mp listed
          have flat := depth_of_readKind named
          exact Nat.succ_le_succ (Nat.max_le.mpr
            ⟨flat ▸ Nat.zero_le _, Json.Source.itemsDepth_le_of_itemSources rest⟩)
  | null => cases result
  | bool b => cases result
  | number n => cases result
  | string s => cases result

end Shape

namespace Api

/-- A field that is gone into, under its name. -/
theorem exhausts_field {γ : Type} {type : Record Cursor (Except Failure) γ} {name : String}
    {field : Field Cursor (Except Failure) γ} {v : Json} (found : type.field? name = some field)
    (exhausts : Exhausts field.read v) :
    ∃ field, type.field? name = some field ∧ Exhausts field.read v :=
  ⟨field, found, exhausts⟩

theorem exhausts_readParameter (p : Parameter) : Exhausts readParameter p.toJson := by
  refine exhausts_record (List.forall_mem_append.mpr ⟨?_, ?_⟩)
  · simp only [List.forall_mem_cons]
    exact ⟨exhausts_field rfl ((exhausts_text _).map _),
      exhausts_field rfl ((exhausts_choice _ _).map _),
      exhausts_field rfl ((exhausts_flag _).map _),
      exhausts_field rfl ((Shape.exhausts_read _).map _), List.forall_mem_nil _⟩
  · exact exhausts_memberOf rfl fun x _ => (exhausts_text _).optional.map _

theorem exhausts_readBody (b : Body) : Exhausts readBody b.toJson := by
  refine exhausts_record (List.forall_mem_append.mpr ⟨?_, ?_⟩)
  · simp only [List.forall_mem_cons]
    exact ⟨exhausts_field rfl ((Shape.exhausts_read _).map _),
      exhausts_field rfl ((exhausts_text _).map _),
      exhausts_field rfl ((exhausts_choice _ _).map _),
      exhausts_field rfl ((exhausts_flag _).map _), List.forall_mem_nil _⟩
  · exact exhausts_memberOf rfl fun x _ => (exhausts_text _).optional.map _

theorem exhausts_readResponse (r : Response) : Exhausts readResponse r.toJson := by
  refine exhausts_record ?_
  simp only [List.forall_mem_append, List.forall_mem_singleton]
  exact ⟨⟨⟨⟨⟨exhausts_field rfl ((exhausts_text _).map _),
    exhausts_memberOf rfl fun x _ => (Shape.exhausts_read _).optional.map _⟩,
    exhausts_field rfl ((exhausts_flag _).map _)⟩,
    exhausts_memberOf rfl fun x _ => (exhausts_text _).optional.map _⟩,
    exhausts_field rfl ((exhausts_choice _ _).map _)⟩,
    exhausts_memberOf rfl fun x _ => (exhausts_text _).optional.map _⟩

theorem exhausts_readOperation (op : Operation) : Exhausts readOperation op.toJson := by
  have tags : Exhausts (Cursor.list Cursor.text) (.ofStrings op.tags) :=
    exhausts_list fun v _ => exhausts_text v
  have parameters : Exhausts (Cursor.list readParameter)
      (.array (op.parameters.map Parameter.toJson)) :=
    exhausts_list (List.forall_mem_map.mpr fun p _ => exhausts_readParameter p)
  have responses : Exhausts (Cursor.list readResponse)
      (.array (op.responses.map Response.toJson)) :=
    exhausts_list (List.forall_mem_map.mpr fun r _ => exhausts_readResponse r)
  refine exhausts_record ?_
  simp only [List.forall_mem_append, List.forall_mem_cons]
  exact ⟨⟨⟨⟨⟨exhausts_field rfl ((exhausts_text _).map _),
    exhausts_field rfl ((exhausts_choice _ _).map _),
    exhausts_field rfl ((exhausts_text _).map _), exhausts_field rfl (tags.map _),
    exhausts_field rfl (parameters.map _), List.forall_mem_nil _⟩,
    exhausts_memberOf rfl fun b _ => (exhausts_readBody b).optional.map _⟩,
    exhausts_field rfl (responses.map _), List.forall_mem_nil _⟩,
    exhausts_memberOf rfl fun x _ => (exhausts_text _).optional.map _⟩,
    exhausts_memberOf rfl fun x _ => (exhausts_text _).optional.map _⟩

theorem exhausts_readModel (m : Model) : Exhausts readModel m.toJson := by
  refine exhausts_record ?_
  simp only [List.forall_mem_append, List.forall_mem_cons]
  exact ⟨⟨⟨exhausts_field rfl ((exhausts_text _).map _),
    exhausts_field rfl ((Shape.exhausts_read _).map _), List.forall_mem_nil _⟩,
    exhausts_memberOf rfl fun x _ => (exhausts_text _).optional.map _⟩,
    exhausts_memberOf rfl fun x _ => (exhausts_text _).optional.map _⟩

/-- **The reader of descriptions goes into everything that is written.** -/
theorem exhausts_readVersioned (api : Api) : Exhausts readVersioned api.toJson := by
  have info : Exhausts readInfo
      (.object [("title", .string api.title), ("version", .string api.version)]) := by
    refine exhausts_record ?_
    simp only [List.forall_mem_cons]
    exact ⟨exhausts_field rfl ((exhausts_text _).map _),
      exhausts_field rfl ((exhausts_text _).map _), List.forall_mem_nil _⟩
  have models : Exhausts (Cursor.list readModel) (.array (api.models.map Model.toJson)) :=
    exhausts_list (List.forall_mem_map.mpr fun m _ => exhausts_readModel m)
  have operations : Exhausts (Cursor.list readOperation)
      (.array (api.operations.map Operation.toJson)) :=
    exhausts_list (List.forall_mem_map.mpr fun op _ => exhausts_readOperation op)
  refine exhausts_record ?_
  simp only [List.forall_mem_cons]
  exact ⟨exhausts_field rfl ((exhausts_natural _).map _), exhausts_field rfl (info.map _),
    exhausts_field rfl (models.map _), exhausts_field rfl (operations.map _),
    List.forall_mem_nil _⟩

/-! ## What is read back -/

/-- A description whose shapes are orderly and whose numbers can be read. -/
structure Legible (api : Api) : Prop where
  /-- Nothing stands twice in the shapes. -/
  orderly : ∀ shape ∈ api.shapes, shape.Orderly
  /-- The numbers in them can be read. -/
  readable : ∀ shape ∈ api.shapes, shape.Each Number.Readable

variable {api : Api}

theorem reread_version : (Number.int formatVersion).reread = .int formatVersion :=
  faithful_version.reread_eq

/-- The tree of the text of a legible description. -/
theorem Legible.parse_print (legible : api.Legible) :
    Json.Source.parse api.print = ⟨(api.mapNumbers Number.reread).toJson.source, none⟩ := by
  have readable := each_toJson faithful_version.readable legible.readable
  rw [print, Json.Source.parse_pretty_reread _ readable, toJson_mapNumbers reread_version]

theorem depth_toJson_mapNumbers (api : Api) :
    (api.mapNumbers Number.reread).toJson.depth = api.toJson.depth := by
  rw [toJson_mapNumbers reread_version, Json.depth_mapNumbers]

/-- **What is read back** from a text that is not too deep is the description, with the numbers as
they are read. -/
theorem Legible.read?_eq (legible : api.Legible) (shallow : api.toJson.depth ≤ Json.depthLimit) :
    read? api.print = .ok (api.mapNumbers Number.reread) := by
  have orderly : ∀ shape ∈ (api.mapNumbers Number.reread).shapes, shape.Orderly := by
    rw [shapes_mapNumbers]
    exact List.forall_mem_map.mpr fun shape member => (legible.orderly shape member).mapNumbers
  have fits : (api.mapNumbers Number.reread).toJson.depth ≤ Json.depthLimit :=
    (depth_toJson_mapNumbers api).trans_le shallow
  have versioned : Cursor.ofText readVersioned api.print =
      .ok (formatVersion, api.mapNumbers Number.reread) := by
    rw [Cursor.ofText, legible.parse_print]
    simp only [readVersioned_of_orderly orderly fits, Json.check, bind, Except.bind]
    rfl
  rw [read?, versioned]
  rfl

/-- **Nothing is read back** from a text that nests too deep. -/
theorem Legible.exists_unreadable (legible : api.Legible)
    (deep : Json.depthLimit < api.toJson.depth) :
    ∃ failure, read? api.print = .error (.unreadable failure) := by
  rw [read?]
  split
  · exact ⟨_, rfl⟩
  · rename_i version found result
    rw [Cursor.ofText, legible.parse_print] at result
    obtain ⟨whole, reads, -⟩ := bind_eq_ok_iff.mp result
    have room := exhausts_readVersioned _ _ _ reads
    rw [depth_toJson_mapNumbers] at room
    exact absurd deep (not_lt.mpr room)

end Api

end ClientGen
