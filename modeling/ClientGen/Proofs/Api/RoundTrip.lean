import ClientGen.Api.Reader
import ClientGen.Proofs.Api.Shapes

/-!
# Descriptions that are written and read

The text of a description holds everything the description says, in the order in which it says it.

* `Api.shapes` — the shapes of a description.
* `Api.read?_print` — the text of a description is read as the description, if its shapes have a
  text and the text nests no deeper than a reader goes.
-/

namespace ClientGen

open Json (Cursor Failure membersDepth depth_le_of_mem)
open Json.Cursor (Written record_source text_source flag_source choice_source list_source)

/-! ## Members that may be left out -/

section Members

variable {α β : Type} {fields : List (Field Cursor (Except Failure) α)} {room : Nat}
  {record result : α} {ms : List (String × Json)}

/-- A member that may be left out is left out only if there is nothing to write. -/
theorem Json.Cursor.Written.memberOf {name : String} {read : Cursor → Except Failure β}
    {put : Option β → α → α} {write : β → Json} {b : Option β}
    (present : ∀ b, write b ≠ .null) (reads : ∀ x ∈ b, read ⟨(write x).source, room⟩ = .ok x)
    (kept : put none record = record) (rest : Written room fields (put b record) ms result) :
    Written room (.optionalAnywhere name read put :: fields) record
      (ClientGen.memberOf name write b ++ ms) result := by
  cases b with
  | none =>
      -- the record already holds what a missing member stands for
      refine .absent (by simp [Field.optionalAnywhere]) ?_
      rw [← kept]
      exact rest
  | some x =>
      have changes :
          put <$> Cursor.optional read ⟨(write x).source, room⟩ = .ok (put (some x)) := by
        rw [Json.Cursor.optional_source (present x) (reads x rfl)]
        rfl
      exact .present changes rest

/-- A text that may be left out. -/
theorem Json.Cursor.Written.textMember {name : String} {put : Option String → α → α}
    {b : Option String} (kept : put none record = record)
    (rest : Written room fields (put b record) ms result) :
    Written room (.optionalAnywhere name Cursor.text put :: fields) record
      (ClientGen.memberOf name .string b ++ ms) result :=
  .memberOf (fun _ => Json.noConfusion) (fun x _ => text_source x room) kept rest

end Members

/-! ## Shapes of a description -/

namespace Operation

variable (op : Operation)

theorem shape_mem_of_parameter {p : Parameter} (member : p ∈ op.parameters) :
    p.shape ∈ op.shapes := by
  refine List.mem_append_left _ (List.mem_append_left _ ?_)
  exact List.mem_map_of_mem member

theorem shape_mem_of_body {b : Body} (present : b ∈ op.body) : b.shape ∈ op.shapes := by
  refine List.mem_append_left _ (List.mem_append_right _ ?_)
  exact List.mem_map_of_mem (Option.mem_toList.mpr present)

theorem shape_mem_of_response {r : Response} {shape : Shape} (member : r ∈ op.responses)
    (present : shape ∈ r.shape) : shape ∈ op.shapes := by
  refine List.mem_append_right _ ?_
  exact List.mem_filterMap.mpr ⟨r, member, present⟩

end Operation

/-- **The shapes of a description**: those of its models and those of its operations. -/
def Api.shapes (api : Api) : List Shape :=
  api.models.map (·.shape) ++ api.operations.flatMap (·.shapes)

theorem Api.shape_mem_of_model {api : Api} {m : Model} (member : m ∈ api.models) :
    m.shape ∈ api.shapes :=
  List.mem_append_left _ (List.mem_map_of_mem member)

theorem Api.shape_mem_of_operation {api : Api} {op : Operation} {shape : Shape}
    (member : op ∈ api.operations) (inside : shape ∈ op.shapes) : shape ∈ api.shapes :=
  List.mem_append_right _ (List.mem_flatMap.mpr ⟨op, member, inside⟩)

/-! ## Numbers of a description -/

section

variable {P : Json.Number → Prop}

/-- A member that may be left out has no numbers but those of what is written. -/
theorem each_memberOf {α : Type} {name : String} {write : α → Json} {a : Option α}
    (each : ∀ x ∈ a, (write x).Each P) : ∀ m ∈ memberOf name write a, m.2.Each P := by
  cases a with
  | none => exact nofun
  | some x =>
      intro m member
      obtain rfl := List.mem_singleton.mp member
      exact each x rfl

theorem each_textMember (name : String) (text : Option String) :
    ∀ m ∈ memberOf name Json.string text, m.2.Each P :=
  each_memberOf fun x _ => Json.each_string x

theorem Parameter.each_toJson {p : Parameter} (each : p.shape.Each P) : p.toJson.Each P := by
  refine Json.each_object (List.forall_mem_append.mpr ⟨?_, each_textMember _ _⟩)
  simp [Json.each_string, Json.each_bool, Shape.each_toJson each]

theorem Body.each_toJson {b : Body} (each : b.shape.Each P) : b.toJson.Each P := by
  refine Json.each_object (List.forall_mem_append.mpr ⟨?_, each_textMember _ _⟩)
  simp [Json.each_string, Json.each_bool, Shape.each_toJson each]

theorem Response.each_toJson {r : Response} (each : ∀ shape ∈ r.shape, shape.Each P) :
    r.toJson.Each P := by
  have shape : ∀ m ∈ memberOf "schema" Shape.toJson r.shape, m.2.Each P :=
    each_memberOf fun shape present => Shape.each_toJson (each shape present)
  refine Json.each_object ?_
  simp only [List.forall_mem_append, List.forall_mem_singleton]
  exact ⟨⟨⟨⟨⟨Json.each_string _, shape⟩, Json.each_bool _⟩, each_textMember _ _⟩,
    Json.each_string _⟩, each_textMember _ _⟩

/-- The numbers of a written operation are those of its shapes. -/
theorem Operation.each_toJson {op : Operation} (each : ∀ shape ∈ op.shapes, shape.Each P) :
    op.toJson.Each P := by
  have parameters : (Json.array (op.parameters.map Parameter.toJson)).Each P := by
    refine Json.each_array (List.forall_mem_map.mpr fun p member => ?_)
    exact p.each_toJson (each _ (op.shape_mem_of_parameter member))
  have body : ∀ m ∈ memberOf "requestBody" Body.toJson op.body, m.2.Each P :=
    each_memberOf fun b present => b.each_toJson (each _ (op.shape_mem_of_body present))
  have responses : (Json.array (op.responses.map Response.toJson)).Each P := by
    refine Json.each_array (List.forall_mem_map.mpr fun r member => r.each_toJson ?_)
    exact fun shape present => each shape (op.shape_mem_of_response member present)
  refine Json.each_object ?_
  simp only [List.forall_mem_append, List.forall_mem_singleton]
  refine ⟨⟨⟨⟨?_, body⟩, responses⟩, each_textMember _ _⟩, each_textMember _ _⟩
  simp [Json.each_string, Json.each_ofStrings, parameters]

theorem Model.each_toJson {m : Model} (each : m.shape.Each P) : m.toJson.Each P := by
  refine Json.each_object ?_
  simp only [List.forall_mem_append]
  refine ⟨⟨?_, each_textMember _ _⟩, each_textMember _ _⟩
  simp [Json.each_string, Shape.each_toJson each]

/-- The numbers of a written description are those of its shapes, and the version of the format. -/
theorem Api.each_toJson {api : Api} (version : P (.int formatVersion))
    (each : ∀ shape ∈ api.shapes, shape.Each P) : api.toJson.Each P := by
  have version : (Json.ofNat formatVersion).Each P := by
    intro n member
    obtain rfl := List.mem_singleton.mp member
    exact version
  have info : (Json.object
      [("title", .string api.title), ("version", .string api.version)]).Each P :=
    Json.each_object (by simp [Json.each_string])
  have models : (Json.array (api.models.map Model.toJson)).Each P := by
    refine Json.each_array (List.forall_mem_map.mpr fun m member => ?_)
    exact m.each_toJson (each _ (shape_mem_of_model member))
  have operations : (Json.array (api.operations.map Operation.toJson)).Each P := by
    refine Json.each_array (List.forall_mem_map.mpr fun op member => op.each_toJson ?_)
    exact fun shape inside => each shape (shape_mem_of_operation member inside)
  refine Json.each_object ?_
  simp [version, info, models, operations]

/-- The version of the format is a small integer, so it is read as itself. -/
theorem Api.faithful_version : (Json.Number.int formatVersion).Faithful :=
  ⟨by decide, by decide⟩

/-- The text of a description has only numbers that are read as themselves, if its shapes do. -/
theorem Api.faithful_toJson {api : Api} (storable : ∀ shape ∈ api.shapes, shape.Storable) :
    api.toJson.Faithful :=
  each_toJson faithful_version fun shape member => (storable shape member).each

end

/-! ## Parts of a description -/

namespace Api

theorem lookup_choicesOf_contentKind (kind : ContentKind) :
    (choicesOf ContentKind.name ContentKind.all).lookup kind.name = some kind := by
  cases kind <;> rfl

/-- The name of a place is read as the place: no two places share a name. -/
theorem lookup_choicesOf_location (location : Location) :
    (choicesOf Location.name Location.all).lookup location.name = some location := by
  cases location <;> rfl

/-- The name of a method is read as the method. -/
theorem lookup_choicesOf_method (method : Method) :
    (choicesOf Method.name Method.all).lookup method.name = some method := by
  cases method <;> rfl

/-- A written parameter is read as itself. -/
theorem readParameter_source {p : Parameter} (orderly : p.shape.Orderly) {room : Nat}
    (fits : p.toJson.depth ≤ room) : readParameter ⟨p.toJson.source, room⟩ = .ok p := by
  refine record_source (by decide) fits fun room fits => ?_
  have shallow : p.shape.toJson.depth ≤ room :=
    depth_le_of_mem fits (show ("schema", _) ∈ _ by simp)
  refine .given (text_source p.name room) ?_
  refine .given (choice_source (lookup_choicesOf_location p.location) room) ?_
  refine .given (flag_source p.required room) ?_
  refine .given (Shape.read_toJson orderly shallow) ?_
  rw [← List.append_nil (memberOf _ _ _)]
  exact .textMember rfl (.nil p)

theorem readBody_source {b : Body} (orderly : b.shape.Orderly) {room : Nat}
    (fits : b.toJson.depth ≤ room) : readBody ⟨b.toJson.source, room⟩ = .ok b := by
  refine record_source (by decide) fits fun room fits => ?_
  have shallow : b.shape.toJson.depth ≤ room :=
    depth_le_of_mem fits (show ("schema", _) ∈ _ by simp)
  refine .given (Shape.read_toJson orderly shallow) ?_
  refine .given (text_source b.mediaType room) ?_
  refine .given (choice_source (lookup_choicesOf_contentKind b.kind) room) ?_
  refine .given (flag_source b.required room) ?_
  rw [← List.append_nil (memberOf _ _ _)]
  exact .textMember rfl (.nil b)

/-- A shape is no null. -/
theorem toJson_ne_null (shape : Shape) : shape.toJson ≠ .null := by
  rw [Shape.toJson_eq]
  exact Json.noConfusion

/-- A written response is read as itself. One without a shape has no member for it, and none is
read. -/
theorem readResponse_source {r : Response} (orderly : ∀ shape ∈ r.shape, shape.Orderly)
    {room : Nat} (fits : r.toJson.depth ≤ room) : readResponse ⟨r.toJson.source, room⟩ = .ok r := by
  refine record_source (by decide) fits fun room fits => ?_
  have read : ∀ shape ∈ r.shape, Shape.read ⟨shape.toJson.source, room⟩ = .ok shape := by
    intro shape present
    have shallow : shape.toJson.depth ≤ room :=
      depth_le_of_mem fits (show ("schema", _) ∈ _ by simp [Option.mem_def.mp present, memberOf])
    exact Shape.read_toJson (orderly shape present) shallow
  simp only [List.append_assoc, List.cons_append, List.nil_append]
  refine .given (text_source r.status room) ?_
  refine .memberOf toJson_ne_null read rfl ?_
  refine .given (flag_source r.isDefault room) ?_
  refine .textMember rfl ?_
  refine .given (choice_source (lookup_choicesOf_contentKind r.kind) room) ?_
  rw [← List.append_nil (memberOf "doc" _ _)]
  exact .textMember rfl (.nil r)

/-- A written operation is read as itself, from the readings of its parts. -/
theorem readOperation_source {op : Operation} (orderly : ∀ shape ∈ op.shapes, shape.Orderly)
    {room : Nat} (fits : op.toJson.depth ≤ room) :
    readOperation ⟨op.toJson.source, room⟩ = .ok op := by
  refine record_source (by decide) fits fun room fits => ?_
  have parameters : Cursor.list readParameter
      ⟨(Json.array (op.parameters.map Parameter.toJson)).source, room⟩ = .ok op.parameters := by
    have shallow : (Json.array (op.parameters.map Parameter.toJson)).depth ≤ room :=
      depth_le_of_mem fits (show ("params", _) ∈ _ by simp)
    refine list_source shallow fun p member room fits => readParameter_source (orderly _ ?_) fits
    exact op.shape_mem_of_parameter member
  have responses : Cursor.list readResponse
      ⟨(Json.array (op.responses.map Response.toJson)).source, room⟩ = .ok op.responses := by
    have shallow : (Json.array (op.responses.map Response.toJson)).depth ≤ room :=
      depth_le_of_mem fits (show ("responses", _) ∈ _ by simp)
    refine list_source shallow fun r member room fits => readResponse_source ?_ fits
    intro shape present
    exact orderly shape (op.shape_mem_of_response member present)
  have tags : Cursor.list Cursor.text ⟨(Json.ofStrings op.tags).source, room⟩ = .ok op.tags := by
    have shallow : (Json.ofStrings op.tags).depth ≤ room :=
      depth_le_of_mem fits (show ("tags", _) ∈ _ by simp)
    exact list_source shallow fun tag _ room _ => text_source tag room
  have body : ∀ b ∈ op.body, readBody ⟨b.toJson.source, room⟩ = .ok b := by
    intro b present
    have shallow : b.toJson.depth ≤ room := depth_le_of_mem fits
      (show ("requestBody", _) ∈ _ by simp [Option.mem_def.mp present, memberOf])
    exact readBody_source (orderly _ (op.shape_mem_of_body present)) shallow
  simp only [List.append_assoc, List.cons_append, List.nil_append]
  -- each step is reduced at once: nine updates inside one another grow too large to compare
  refine .given (text_source op.id room) ?_
  refine .given (choice_source (lookup_choicesOf_method op.method) room) ?_
  dsimp only
  refine .given (text_source op.path room) ?_
  dsimp only
  refine .given tags ?_
  dsimp only
  refine .given parameters ?_
  dsimp only
  refine .memberOf (fun _ => Json.noConfusion) body rfl ?_
  dsimp only
  refine .given responses ?_
  dsimp only
  refine .textMember rfl ?_
  dsimp only
  rw [← List.append_nil (memberOf "sourcePointer" _ _)]
  exact .textMember rfl (.nil op)

/-- A written model is read as itself. -/
theorem readModel_source {m : Model} (orderly : m.shape.Orderly) {room : Nat}
    (fits : m.toJson.depth ≤ room) : readModel ⟨m.toJson.source, room⟩ = .ok m := by
  refine record_source (by decide) fits fun room fits => ?_
  have shallow : m.shape.toJson.depth ≤ room :=
    depth_le_of_mem fits (show ("schema", _) ∈ _ by simp)
  simp only [List.cons_append, List.nil_append]
  refine .given (text_source m.name room) ?_
  refine .given (Shape.read_toJson orderly shallow) ?_
  refine .textMember rfl ?_
  rw [← List.append_nil (memberOf "sourcePointer" _ _)]
  exact .textMember rfl (.nil m)

/-- **A written description is read as the description**, with the version of the format, if its
shapes are orderly. -/
theorem readVersioned_of_orderly {api : Api} (orderly : ∀ shape ∈ api.shapes, shape.Orderly)
    {room : Nat} (fits : api.toJson.depth ≤ room) :
    readVersioned ⟨api.toJson.source, room⟩ = .ok (formatVersion, api) := by
  refine record_source (by decide) fits fun room fits => ?_
  have info : readInfo ⟨(Json.object
      [("title", .string api.title), ("version", .string api.version)]).source, room⟩ =
        .ok (api.title, api.version) := by
    refine record_source (by decide) (depth_le_of_mem fits (show ("info", _) ∈ _ by simp))
      fun room _ => ?_
    refine .given (text_source api.title room) ?_
    exact .given (text_source api.version room) (.nil _)
  have models : Cursor.list readModel
      ⟨(Json.array (api.models.map Model.toJson)).source, room⟩ = .ok api.models := by
    have shallow : (Json.array (api.models.map Model.toJson)).depth ≤ room :=
      depth_le_of_mem fits (show ("models", _) ∈ _ by simp)
    refine list_source shallow fun m member room fits => readModel_source (orderly _ ?_) fits
    exact shape_mem_of_model member
  have operations : Cursor.list readOperation
      ⟨(Json.array (api.operations.map Operation.toJson)).source, room⟩ = .ok api.operations := by
    have shallow : (Json.array (api.operations.map Operation.toJson)).depth ≤ room :=
      depth_le_of_mem fits (show ("operations", _) ∈ _ by simp)
    refine list_source shallow fun op member room fits => readOperation_source ?_ fits
    intro shape inside
    exact orderly shape (shape_mem_of_operation member inside)
  refine .given (Json.Cursor.natural_source (by decide) room) ?_
  refine .given info ?_
  refine .given models ?_
  exact .given operations (.nil _)

/-- A description that has a text is read as the description. -/
theorem readVersioned_source {api : Api} (storable : ∀ shape ∈ api.shapes, shape.Storable)
    {room : Nat} (fits : api.toJson.depth ≤ room) :
    readVersioned ⟨api.toJson.source, room⟩ = .ok (formatVersion, api) :=
  readVersioned_of_orderly (fun shape member => (storable shape member).orderly) fits

/-! ## Whole texts -/

/-- **The text of a description is read as the description**, and printing what has been read gives
the same text again. The shapes have to have a text, and the text must not nest deeper than a reader
goes. -/
theorem read?_print {api : Api} (storable : ∀ shape ∈ api.shapes, shape.Storable)
    (shallow : api.toJson.depth ≤ Json.depthLimit) :
    read? api.print = .ok api ∧ (read? api.print).map print = .ok api.print := by
  have tree : Json.Source.parse api.print = ⟨api.toJson.source, none⟩ :=
    Json.Source.parse_pretty api.toJson (faithful_toJson storable)
  have versioned : Cursor.ofText readVersioned api.print = .ok (formatVersion, api) := by
    rw [Cursor.ofText, tree]
    simp only [readVersioned_source storable shallow, Json.check, bind, Except.bind]
    rfl
  have found : read? api.print = .ok api := by
    rw [read?, versioned]
    rfl
  refine ⟨found, ?_⟩
  rw [found]
  rfl

/-! ## A description with numbers of both kinds -/

/-- One and a half. -/
def oneAndAHalf : Decimal.Binary64 :=
  ⟨false, 6755399441055744, -52⟩

/-- A price: one of two amounts, and a currency or null. -/
def price : Shape :=
  .object
    [("amount", .enumeration [.number (.float oneAndAHalf), .number (.int (-2))]),
      ("currency", .nullable (.primitive .string))]
    ["amount"] .forbidden

/-- A description with one model and one operation. -/
def priced : Api :=
  { title := "Prices"
    version := "1.0"
    models := [{ name := "Price", shape := price, doc := some "A \"price\".", pointer := none }]
    operations :=
      [{ id := "getPrice"
         method := .get
         path := "/price"
         tags := ["prices"]
         parameters := []
         body := none
         responses :=
           [{ status := "200", shape := some (.ref "Price"), isDefault := false
              mediaType := none, kind := .json, doc := none }]
         doc := none
         pointer := some "#/paths/~1price/get" }] }

theorem faithful_oneAndAHalf : (Json.Number.float oneAndAHalf).Faithful := by
  have text : (Json.Number.float oneAndAHalf).text = "1.5" := by decide +kernel
  have scanned : Json.Numeral.scan "1.5".toList = .ok (⟨false, ['1'], some ['5'], none⟩, []) := rfl
  have value : Json.Numeral.value? ⟨false, ['1'], some ['5'], none⟩ =
      some (.float oneAndAHalf) := by
    decide +kernel
  show Json.parse (Json.Number.float oneAndAHalf).text = _
  rw [text]
  refine Json.parse_of_scanNumber ?_
  rw [Json.scanNumber, scanned]
  simp only [value]
  rfl

/-- The description has a whole number and a fraction, and both are read as themselves. -/
theorem storable_priced : ∀ shape ∈ priced.shapes, shape.Storable := by
  have all : priced.shapes = [price, .ref "Price"] := rfl
  have nodes : price.nodes =
      [price, .enumeration [.number (.float oneAndAHalf), .number (.int (-2))],
        .nullable (.primitive .string), .primitive .string] := rfl
  have amounts : ∀ value ∈ [Json.number (.float oneAndAHalf), .number (.int (-2))],
      value.Storable := by
    simp only [List.forall_mem_cons]
    refine ⟨⟨rfl, ?_⟩, ⟨rfl, ?_⟩, nofun⟩
    · exact List.forall_mem_singleton.mpr faithful_oneAndAHalf
    · exact List.forall_mem_singleton.mpr ⟨by decide, by decide⟩
  have names : price.OwnStorable := show ["amount", "currency"].Nodup by decide
  rw [all]
  simp only [List.forall_mem_cons]
  refine ⟨?_, ?_, nofun⟩
  · rw [Shape.Storable, nodes]
    simp only [List.forall_mem_cons]
    exact ⟨names, amounts, trivial, trivial, nofun⟩
  · exact List.forall_mem_singleton.mpr trivial

/-- The description is read from its text. -/
theorem read?_print_priced : (∀ shape ∈ priced.shapes, shape.Storable) ∧
    priced.toJson.depth ≤ Json.depthLimit ∧ read? priced.print = .ok priced ∧
      (read? priced.print).map print = .ok priced.print := by
  have shallow : priced.toJson.depth ≤ Json.depthLimit := by decide
  exact ⟨storable_priced, shallow, read?_print storable_priced shallow⟩

end Api

end ClientGen
