import ClientGen.Proofs.Document.Correspondence
import ClientGen.Proofs.MediaType.Preference
import ClientGen.Proofs.Shape.Sorted
import Mathlib.Algebra.BigOperators.Group.List.Basic
import Mathlib.Algebra.GroupWithZero.Nat

/-!
# Reports of what is left out or guessed

A description leaves out parameters that travel in an unknown way and bodies without a media type,
and it guesses the shape of any value where a schema is missing. Each time it notes a warning. The
notes are shared with schemas, but the codes are not, so the warnings of the other kinds can be read
off the document, one after the other (`Document.reports_describe`). Counting them is counting the
things that are left out or guessed.

* `Diagnostic.reports` — the codes of the notes, without those of schemas.
* `Document.Parameter.report?`, `Document.RequestBody.report?`, `Document.Response.report?` — the
  code under which a part of an operation is reported.
* `Document.Endpoint.Built` — an operation of a description has what the document declares for it,
  except what is reported.
* `Document.accounted_describe` — the numbers of warnings are the numbers of things left out or
  guessed, and nothing else is missing.
-/

namespace ClientGen

/-- The codes under which schemas are noted. -/
def Schema.noteCodes : List String :=
  ["schema.unsupported", "schema.allOf.additionalProperties"]

namespace Diagnostic

variable {α : Type}

/-- **The number of notes with a code.** -/
def count (code : String) (notes : List Diagnostic) : Nat :=
  notes.countP (·.code == code)

/-- The codes of the notes, in their order, without those of schemas. -/
def reports (notes : List Diagnostic) : List String :=
  (notes.map (·.code)).filter (!Schema.noteCodes.contains ·)

@[simp] theorem reports_nil : reports [] = [] := rfl

/-- Reports are joined as the notes are. -/
@[simp] theorem reports_append (notes notes' : List Diagnostic) :
    reports (notes ++ notes') = reports notes ++ reports notes' := by
  rw [reports, List.map_append, List.filter_append]
  rfl

@[simp] theorem reports_flatMap (f : α → List Diagnostic) (items : List α) :
    reports (items.flatMap f) = items.flatMap fun item => reports (f item) := by
  induction items with
  | nil => rfl
  | cons item items ih => rw [List.flatMap_cons, reports_append, ih, List.flatMap_cons]

/-- A warning under a code of its own is one report. -/
theorem reports_warn (code : String) (own : code ∉ Schema.noteCodes) (message : String)
    (pointer : Option String) : reports (Noted.warn code message pointer).notes = [code] := by
  simp [reports, Noted.warn, own]

/-- Notes under a code that schemas do not use are counted among the reports. -/
theorem count_eq_count_reports {code : String} (own : code ∉ Schema.noteCodes)
    (notes : List Diagnostic) : count code notes = (reports notes).count code := by
  rw [reports, List.count_filter (by simpa using own), List.count_eq_countP, List.countP_map]
  rfl

end Diagnostic

open Diagnostic

/-! ## Schemas -/

namespace Schema

/-- A schema notes nothing under any other code. -/
def Unreported (s : Schema) : Prop :=
  ∀ place, reports (s.shape place).notes = []

/-- What is not supported in a schema is noted under a code of schemas. -/
@[simp] theorem reports_unsupported (place : Option String) (reason : String) :
    reports (unsupported place reason).notes = [] := rfl

/-- Contradictions are noted under a code of schemas. -/
@[simp] theorem reports_conflicting (place : Option String) (conflicts : Nat) :
    reports (conflicting place conflicts).notes = [] := by
  induction conflicts with
  | zero => rfl
  | succ conflicts ih =>
      have first : reports (Noted.warn "schema.allOf.additionalProperties"
          "Conflicting additionalProperties in allOf; using the last value." place).notes = [] := rfl
      rw [conflicting, Noted.notes_bind, reports_append, first, ih, List.append_nil]

theorem reports_memberShapes {members : List Schema} (each : ∀ s ∈ members, s.Unreported)
    (place : Option String) (keyword : String) (position : Nat) :
    reports (memberShapes place keyword position members).notes = [] := by
  induction members generalizing position with
  | nil => simp [memberShapes]
  | cons s members ih =>
      have first := each s (List.mem_cons_self ..)
      have rest := ih (fun t member => each t (List.mem_cons_of_mem _ member)) (position + 1)
      simp [memberShapes, first _, rest]

theorem reports_propertyShapes {properties : List (String × Schema)}
    (each : ∀ property ∈ properties, property.2.Unreported) (place : Option String) :
    reports (propertyShapes place properties).notes = [] := by
  induction properties with
  | nil => simp [propertyShapes]
  | cons property properties ih =>
      obtain ⟨name, s⟩ := property
      have first : s.Unreported := each (name, s) (List.mem_cons_self ..)
      have rest := ih fun p member => each p (List.mem_cons_of_mem _ member)
      simp [propertyShapes, first _, rest]

theorem reports_extraShape {additional : Option (Additional Schema)}
    (each : ∀ s ∈ additional.bind (·.schema?), s.Unreported) (place : Option String) :
    reports (extraShape place additional).notes = [] := by
  unfold extraShape
  split
  · rfl
  · rfl
  · rfl
  · rename_i values
    have inner := each values (by simp [Additional.schema?])
    simp [inner _]

theorem reports_objectShape {properties : List (String × Schema)}
    {additional : Option (Additional Schema)}
    (each : ∀ s ∈ objectMembers properties additional, s.Unreported) (place : Option String)
    (required : List String) :
    reports (objectShape place properties required additional).notes = [] := by
  have listed : ∀ property ∈ properties, property.2.Unreported := fun property present =>
    each _ (List.mem_append_left _ (List.mem_map_of_mem present))
  have further : ∀ s ∈ additional.bind (·.schema?), s.Unreported := fun s present =>
    each s (List.mem_append_right _ (Option.mem_toList.mpr present))
  simp [objectShape, reports_propertyShapes listed, reports_extraShape further]

theorem reports_typeShape {type : TypeForm} (each : ∀ s ∈ type.members, s.Unreported)
    (place : Option String) : reports (typeShape place type).notes = [] := by
  cases type with
  | object properties required additional =>
      simp only [typeShape]
      exact reports_objectShape each place required
  | array items =>
      cases items with
      | none => simp [typeShape]
      | some items =>
          have inner : items.Unreported := each items (by simp [TypeForm.members])
          simp [typeShape, inner _]
  | primitive type => simp [typeShape]
  | binary => simp [typeShape]
  | unsupported => simp [typeShape]

/-- A form reports nothing if the schemas inside report nothing. -/
theorem reports_formShape {form : Form} (each : ∀ s ∈ form.members, s.Unreported)
    (place : Option String) : reports (formShape place form).notes = [] := by
  cases form with
  | malformed reason => simp [formShape]
  | ref name => simp [formShape]
  | null => simp [formShape]
  | enumeration values => simp [formShape]
  | literal value => simp [formShape]
  | union keyword members =>
      have every : ∀ s ∈ members, s.Unreported := each
      simp [formShape, reports_memberShapes every]
  | only part =>
      have inner : part.Unreported := each part (List.mem_singleton_self _)
      simp [formShape, inner _]
  | intersection parts =>
      have every : ∀ s ∈ parts, s.Unreported := each
      simp [formShape, reports_memberShapes every]
  | merged conflicts properties required additional =>
      have every : ∀ s ∈ objectMembers properties additional, s.Unreported := each
      simp [formShape, reports_objectShape every]
  | typed type =>
      have every : ∀ s ∈ type.members, s.Unreported := each
      simp [formShape, reports_typeShape every]
  | oneOfTypes types =>
      have every : ∀ type ∈ types, reports (typeShape place type).notes = [] := fun type listed =>
        reports_typeShape (fun s member => each s (List.mem_flatMap_of_mem listed member)) place
      simpa [formShape] using every

/-- **A schema notes nothing under the codes of other parts**, however deep the schemas inside
are. -/
theorem reports_shape (s : Schema) (place : Option String) : reports (s.shape place).notes = [] := by
  suffices s.Unreported from this place
  induction s using form_induction with
  | step s inner =>
      intro place
      simp [shape, reports_formShape inner]

end Schema

namespace Document

/-! ## Parts of operations -/

/-- Whether a parameter travels in a way that clients know. -/
def Parameter.isSupported (p : Parameter) : Bool :=
  ["path", "query", "header", "cookie"].contains p.location

/-- Whether a body has a representation to speak, but no schema for it. -/
def lacksSchema (content : OrderedMap Media) : Bool :=
  (preferredMedia? content).any (·.2.schema.isNone)

/-- The code under which a parameter is reported, if it is. -/
def Parameter.report? (p : Parameter) : Option String :=
  if p.isSupported then
    if p.schema.isNone then some "parameter.schema.missing" else none
  else some "parameter.unsupported"

/-- The code under which the body of a request is reported, if it is. -/
def RequestBody.report? (b : RequestBody) : Option String :=
  if b.content.isEmpty then some "requestBody.content.unsupported"
  else if lacksSchema b.content then some "requestBody.schema.missing" else none

/-- The code under which a response is reported, if it is. -/
def Response.report? (r : Response) : Option String :=
  if lacksSchema r.content then some "response.schema.missing" else none

/-- The parameters that are declared for an operation: those of its path and its own. -/
def Endpoint.declared (e : Endpoint) : List Parameter :=
  e.item.parameters ++ e.operation.parameters

/-- The codes under which the parts of an operation are reported. -/
def Endpoint.reports (e : Endpoint) : List String :=
  e.declared.filterMap Parameter.report? ++ e.operation.body.toList.filterMap RequestBody.report? ++
    e.operation.responses.filterMap (·.2.report?)

/-- A location is known by its name. -/
theorem isSupported_eq (p : Parameter) : p.isSupported = (Location.ofName? p.location).isSome := by
  have same (name : String) : (p.location == name) = (name == p.location) := Bool.beq_comm
  rw [Location.ofName?, List.isSome_find?, Location.all]
  simp only [Parameter.isSupported, List.contains_eq_any_beq, List.any_cons, List.any_nil,
    Location.name, same]

/-- There is a representation to speak if there is one at all. -/
theorem preferredMedia?_eq_none {content : OrderedMap Media} :
    preferredMedia? content = none ↔ content = [] := by
  constructor
  · intro nothing
    cases picked : MediaType.preferred? (content.map (·.1)) with
    | none => exact List.map_eq_nil_iff.mp (MediaType.preferred?_eq_none.mp picked)
    | some mediaType =>
        obtain ⟨position, -, here⟩ := MediaType.preferred?_eq_some.mp picked
        obtain ⟨found, listed, same⟩ := List.mem_map.mp (List.mem_of_getElem? here)
        have absent : content.lookup found.1 = none := by
          rw [preferredMedia?, picked] at nothing
          exact same ▸ Option.map_eq_none_iff.mp nothing
        simpa using List.lookup_eq_none_iff.mp absent found listed
  · rintro rfl
    rfl

/-- Only the representation that is preferred counts: others may lack a schema unnoticed. -/
theorem lacksSchema_iff {content : OrderedMap Media} :
    lacksSchema content ↔ ∃ media, preferredMedia? content = some media ∧ media.2.schema = none := by
  unfold lacksSchema
  cases preferredMedia? content <;> simp

theorem reports_shapeOrWarn (code : String) (own : code ∉ Schema.noteCodes)
    (message pointer : String) (tokens : List String) (schema : Option Schema) :
    Diagnostic.reports (shapeOrWarn code message pointer tokens schema).notes =
      if schema.isNone then [code] else [] := by
  cases schema with
  | none => simp [shapeOrWarn, reports_warn code own]
  | some s => simp [shapeOrWarn, s.reports_shape]

/-- **A parameter is reported at most once**: it is left out, or it lacks a schema. -/
theorem reports_parameter? (pointer : String) (p : Parameter) :
    Diagnostic.reports (parameter? pointer p).notes = p.report?.toList := by
  have supported := isSupported_eq p
  unfold parameter? Parameter.report?
  cases found : Location.ofName? p.location with
  | none =>
      rw [found] at supported
      simp [supported, reports_warn "parameter.unsupported" (by decide)]
  | some location =>
      rw [found] at supported
      cases missing : p.schema.isNone <;>
        simp [supported, missing,
          reports_shapeOrWarn "parameter.schema.missing" (by decide)]

theorem reports_parameters (owner : String) (ps : List Parameter) :
    Diagnostic.reports (parameters owner ps).notes = ps.filterMap Parameter.report? := by
  have each (start : Nat) : (ps.zipIdx start).flatMap (fun entry => entry.1.report?.toList) =
      ps.filterMap Parameter.report? := by
    rw [List.filterMap_eq_flatMap_toList]
    calc (ps.zipIdx start).flatMap (fun entry => entry.1.report?.toList)
        = ((ps.zipIdx start).map Prod.fst).flatMap fun p => p.report?.toList := by
          rw [List.flatMap_map]
      _ = ps.flatMap fun p => p.report?.toList := by rw [List.zipIdx_map_fst]
  simp [parameters, reports_parameter?, each]

theorem reports_body? (owner : String) (b : RequestBody) :
    Diagnostic.reports (body? owner b).notes = b.report?.toList := by
  unfold body? RequestBody.report? lacksSchema
  cases found : preferredMedia? b.content with
  | none =>
      rw [preferredMedia?_eq_none] at found
      simp [found, reports_warn "requestBody.content.unsupported" (by decide)]
  | some media =>
      have present : b.content ≠ [] := fun nothing => by
        rw [preferredMedia?_eq_none.mpr nothing] at found
        cases found
      cases missing : media.2.schema.isNone <;>
        simp [present, missing, reports_shapeOrWarn "requestBody.schema.missing"
          (by decide)]

/-- A response is reported if its preferred representation lacks a schema. -/
theorem reports_response (pointer status : String) (r : Response) :
    Diagnostic.reports (response pointer status r).notes = r.report?.toList := by
  unfold response Response.report? lacksSchema
  cases preferredMedia? r.content with
  | none => rfl
  | some media =>
      cases missing : media.2.schema.isNone <;>
        simp [missing, reports_shapeOrWarn "response.schema.missing" (by decide)]

/-- An operation is reported through its parameters, its body and its responses, in this order. -/
theorem reports_operation (defaultTag id : String) (e : Endpoint) :
    Diagnostic.reports (operation defaultTag id e).notes = e.reports := by
  have responses : Diagnostic.reports (responses e.pointer e.operation.responses).notes =
      e.operation.responses.filterMap (·.2.report?) := by
    simp [Document.responses, reports_response, List.filterMap_eq_flatMap_toList]
  unfold operation Endpoint.reports Endpoint.declared
  cases e.operation.body with
  | none => simp [reports_parameters, responses]
  | some b =>
      cases reported : b.report? <;>
        simp [reports_parameters, reports_body?, responses, reported]

/-- **The reports of a description** are those of the operations that the document declares, in
their order. -/
theorem reports_describe (doc : Document) (defaultTag : String) :
    Diagnostic.reports (doc.describe defaultTag).notes =
      doc.endpoints.flatMap Endpoint.reports := by
  have models : Diagnostic.reports doc.models.notes = [] := by
    simp [models, model, Schema.reports_shape]
  have lengths := Nat.le_of_eq (length_operationNames doc.endpoints).symm
  have operations : Diagnostic.reports (doc.operations defaultTag).notes =
      doc.endpoints.flatMap Endpoint.reports :=
    calc Diagnostic.reports (doc.operations defaultTag).notes
        = (((operationNames doc.endpoints).zip doc.endpoints).map Prod.snd).flatMap
            Endpoint.reports := by
          simp [Document.operations, reports_operation, List.flatMap_map]
      _ = doc.endpoints.flatMap Endpoint.reports := by rw [List.map_snd_zip lengths]
  simp [describe, models, operations]

/-! ## Counting -/

/-- **The sum of a number over the operations of a document**, each of which comes with its path. -/
def total (doc : Document) (f : PathItem → Operation → Nat) : Nat :=
  (doc.paths.map fun entry => ((Method.all.filterMap entry.2.operation?).map (f entry.2)).sum).sum

theorem map_operation_endpointsOf (path : String) (item : PathItem) (f : PathItem → Operation → Nat) :
    (endpointsOf path item).map (fun e => f e.item e.operation) =
      (Method.all.filterMap item.operation?).map (f item) := by
  unfold endpointsOf
  rw [List.map_filterMap, List.map_filterMap]
  refine List.filterMap_congr fun method _ => ?_
  rw [Option.map_map]
  rfl

/-- The order in which paths are taken does not change a sum. -/
theorem sum_endpoints (doc : Document) (f : PathItem → Operation → Nat) :
    (doc.endpoints.map fun e => f e.item e.operation).sum = doc.total f := by
  have paths (entries : List (String × PathItem)) :
      ((entries.flatMap fun entry => endpointsOf entry.1 entry.2).map
        fun e => f e.item e.operation).sum =
      (entries.map fun entry =>
        ((Method.all.filterMap entry.2.operation?).map (f entry.2)).sum).sum := by
    induction entries with
    | nil => rfl
    | cons entry entries ih =>
        rw [List.flatMap_cons, List.map_append, List.sum_append, ih, map_operation_endpointsOf,
          List.map_cons, List.sum_cons]
  rw [endpoints, paths]
  exact ((OrderedMap.sorted_perm doc.paths).map _).sum_eq

/-- **The number of warnings under a code** is the number of parts that are reported under it. -/
theorem count_describe {code : String} (own : code ∉ Schema.noteCodes) (doc : Document)
    (defaultTag : String) :
    Diagnostic.count code (doc.describe defaultTag).notes = doc.total fun item op =>
      (item.parameters ++ op.parameters).countP (·.report? == some code) +
        op.body.toList.countP (·.report? == some code) +
        op.responses.countP (·.2.report? == some code) := by
  rw [count_eq_count_reports own, reports_describe, List.count_flatMap, ← sum_endpoints]
  congr 1
  refine List.map_congr_left fun e _ => ?_
  simp [Endpoint.reports, Endpoint.declared, List.count_filterMap, Nat.add_assoc]

theorem Parameter.report?_beq (p : Parameter) (code : String) :
    (p.report? == some code) =
      (!p.isSupported && "parameter.unsupported" == code ||
        p.isSupported && p.schema.isNone && "parameter.schema.missing" == code) := by
  unfold report?
  cases p.isSupported <;> cases p.schema <;> simp

theorem RequestBody.report?_beq (b : RequestBody) (code : String) :
    (b.report? == some code) =
      (b.content.isEmpty && "requestBody.content.unsupported" == code ||
        lacksSchema b.content && "requestBody.schema.missing" == code) := by
  unfold report?
  cases empty : b.content.isEmpty with
  | false => cases lacksSchema b.content <;> simp
  | true =>
      -- without a representation there is none that lacks a schema
      have nothing : lacksSchema b.content = false := by
        rw [List.isEmpty_iff.mp empty]
        rfl
      simp [nothing]

theorem Response.report?_beq (r : Response) (code : String) :
    (r.report? == some code) = (lacksSchema r.content && "response.schema.missing" == code) := by
  unfold report?
  cases lacksSchema r.content <;> simp

/-! ## What operations have -/

/-- **A parameter is carried over.** Without a schema, its value is anything. -/
structure Parameter.Carried (p : Parameter) (q : ClientGen.Parameter) : Prop where
  /-- The name is the one that is declared. -/
  name : q.name = p.name
  /-- The place is the one that is declared. -/
  location : q.location.name = p.location
  /-- Parameters of the path are required unless they say otherwise, others only if they say so. -/
  required : q.required = p.required.getD (p.location == "path")
  /-- The description is the one that is declared. -/
  doc : q.doc = p.description
  /-- The shape is that of the schema. -/
  shape : ∀ s ∈ p.schema, q.shape = s.outline.sorted
  /-- A missing schema is any value. -/
  missing : p.schema = none → q.shape = .unknown

/-- **A body is carried over** in the representation that clients speak. -/
structure RequestBody.Carried (b : RequestBody) (body : Option Body) : Prop where
  /-- The body is left out only if there is no representation. -/
  left : body = none ↔ b.content = []
  /-- Otherwise it is in the media type that is preferred. -/
  mediaType : body.map (·.mediaType) = (preferredMedia? b.content).map (·.1)
  /-- A missing schema is any value. -/
  missing : lacksSchema b.content → body.map (·.shape) = some .unknown

/-- **A response is carried over** in the representation that clients speak. -/
structure Response.Carried (entry : String × Response) (r : ClientGen.Response) : Prop where
  /-- The status is the one that is declared. -/
  status : r.status = entry.1
  /-- The media type is the one that is preferred. -/
  mediaType : r.mediaType = (preferredMedia? entry.2.content).map (·.1)
  /-- A missing schema is any value. -/
  missing : lacksSchema entry.2.content → r.shape = some .unknown

/-- **An operation has what is declared for it**, parameters and responses in some order. -/
structure Endpoint.Built (e : Endpoint) (op : ClientGen.Operation) : Prop where
  /-- The path is the one that is declared. -/
  path : op.path = e.path
  /-- The method is the one that is declared. -/
  method : op.method = e.method
  /-- The parameters are those that travel in a known way. -/
  parameters : ∃ qs, qs.Perm op.parameters ∧
    List.Forall₂ Parameter.Carried (e.declared.filter (·.isSupported)) qs
  /-- There is a body only if one is declared. -/
  bodiless : e.operation.body = none → op.body = none
  /-- The body is the one that is declared. -/
  body : ∀ b ∈ e.operation.body, b.Carried op.body
  /-- The responses are those that are declared. -/
  responses : ∃ rs, rs.Perm op.responses ∧
    List.Forall₂ Response.Carried e.operation.responses rs

theorem Location.ofName?_eq_some {name : String} {location : Location}
    (found : Location.ofName? name = some location) : location.name = name := by
  have same := List.find?_some found
  exact eq_of_beq same

/-- A parameter that is described keeps its name, its place and its description, and has the shape
of its schema. -/
theorem Parameter.carried_outline (p : Parameter) {q : ClientGen.Parameter}
    (outline : p.outline? = some q) : p.Carried { q with shape := q.shape.sorted } := by
  obtain ⟨location, found, rfl⟩ := Option.map_eq_some_iff.mp outline
  have named := Location.ofName?_eq_some found
  refine
    { name := rfl, location := named, required := ?required, doc := rfl
      shape := fun s present => ?shape, missing := fun absent => ?missing }
  case required =>
    have path : (location == .path) = (p.location == "path") := by
      rw [← named]
      cases location <;> rfl
    rw [path]
  case shape =>
    rw [Option.mem_def.mp present]
    rfl
  case missing =>
    rw [absent]
    rfl

/-- The parameters that travel in a known way are described, one by one and in their order. -/
theorem carried_parameters (ps : List Parameter) :
    List.Forall₂ Parameter.Carried (ps.filter (·.isSupported))
      ((ps.filterMap Parameter.outline?).map fun q => { q with shape := q.shape.sorted }) := by
  induction ps with
  | nil => exact .nil
  | cons p ps ih =>
      have supported : p.isSupported = p.outline?.isSome := by
        rw [isSupported_eq, Parameter.outline?, Option.isSome_map]
      cases outline : p.outline? with
      | none =>
          rw [outline] at supported
          rw [List.filter_cons_of_neg (by simp [supported]), List.filterMap_cons_none outline]
          exact ih
      | some q =>
          rw [outline] at supported
          rw [List.filter_cons_of_pos (by simp [supported]), List.filterMap_cons_some outline]
          exact .cons (p.carried_outline outline) ih

/-- A body has the media type that is preferred, and it is left out if there is none. -/
theorem RequestBody.carried_outline (b : RequestBody) :
    b.Carried (b.outline?.map fun body => { body with shape := body.shape.sorted }) := by
  unfold outline?
  refine ⟨?_, ?_, fun lacks => ?_⟩
  · rw [Option.map_eq_none_iff, Option.map_eq_none_iff, preferredMedia?_eq_none]
  · rw [Option.map_map, Option.map_map]
    rfl
  · obtain ⟨media, chosen, absent⟩ := lacksSchema_iff.mp lacks
    simp [chosen, absent, outlineOrUnknown]

theorem Response.carried_outline (entry : String × Response) :
    Response.Carried entry { entry.2.outline entry.1 with
      shape := (entry.2.outline entry.1).shape.map Shape.sorted } := by
  refine ⟨rfl, rfl, fun lacks => ?_⟩
  obtain ⟨media, chosen, absent⟩ := lacksSchema_iff.mp lacks
  simp [outline, chosen, absent, outlineOrUnknown]

/-- **The outline of an operation has what is declared for it.** -/
theorem Endpoint.built_outline (defaultTag id : String) (e : Endpoint) :
    e.Built (e.outline defaultTag id).sorted := by
  refine
    { path := rfl, method := rfl
      parameters := ⟨_, (List.mergeSort_perm _ _).symm, ?parameters⟩
      bodiless := fun none => ?bodiless
      body := fun b declared => ?body
      responses := ⟨_, (List.mergeSort_perm _ _).symm, ?responses⟩ }
  case parameters =>
    have carried := carried_parameters e.declared
    rwa [declared, List.filterMap_append] at carried
  case bodiless =>
    simp [Operation.sorted, Operation.mapShapes, Endpoint.outline, none]
  case body =>
    have carried := b.carried_outline
    simpa [Operation.sorted, Operation.mapShapes, Endpoint.outline, Option.mem_def.mp declared]
      using carried
  case responses =>
    simp only [Operation.mapShapes, Endpoint.outline, List.map_map]
    refine List.forall₂_map_right_iff.mpr (List.forall₂_same.mpr fun entry _ => ?_)
    exact Response.carried_outline entry

/-! ## The account -/

/-- **A description with its notes accounts for a document.** Warnings are counted over all
operations with their paths. -/
structure Accounted (doc : Document) (described : Noted Description) : Prop where
  /-- As many parameters are left out as travel in an unknown way. -/
  unsupportedParameters : Diagnostic.count "parameter.unsupported" described.notes =
    doc.total fun item op => (item.parameters ++ op.parameters).countP (!·.isSupported)
  /-- As many parameters are guessed as are kept without a schema. -/
  untypedParameters : Diagnostic.count "parameter.schema.missing" described.notes =
    doc.total fun item op =>
      (item.parameters ++ op.parameters).countP fun p => p.isSupported && p.schema.isNone
  /-- As many bodies are left out as have no representation. -/
  unsupportedBodies : Diagnostic.count "requestBody.content.unsupported" described.notes =
    doc.total fun _ op => op.body.toList.countP (·.content.isEmpty)
  /-- As many bodies are guessed as are kept without a schema. -/
  untypedBodies : Diagnostic.count "requestBody.schema.missing" described.notes =
    doc.total fun _ op => op.body.toList.countP fun b => lacksSchema b.content
  /-- As many responses are guessed as have a body without a schema. -/
  untypedResponses : Diagnostic.count "response.schema.missing" described.notes =
    doc.total fun _ op => op.responses.countP fun entry => lacksSchema entry.2.content
  /-- The operations have what the document declares for them. -/
  operations : ∃ ops, ops.Perm described.value.api.operations ∧
    List.Forall₂ Endpoint.Built doc.endpoints ops

/-- The operations of a description, in some order, have what the document declares for them. -/
theorem built_describe (doc : Document) (defaultTag : String) :
    ∃ ops, ops.Perm (doc.describe defaultTag).value.api.operations ∧
      List.Forall₂ Endpoint.Built doc.endpoints ops := by
  have lengths := Nat.le_of_eq (length_operationNames doc.endpoints).symm
  rw [value_describe]
  refine ⟨_, (List.mergeSort_perm _ _).symm, ?_⟩
  have endpoints := List.map_snd_zip lengths
  suffices List.Forall₂ Endpoint.Built
      (((operationNames doc.endpoints).zip doc.endpoints).map Prod.snd)
      ((doc.operationOutlines defaultTag).map ClientGen.Operation.sorted) by rwa [endpoints] at this
  rw [operationOutlines, List.map_map]
  refine List.forall₂_map_left_iff.mpr (List.forall₂_map_right_iff.mpr ?_)
  exact List.forall₂_same.mpr fun entry _ => entry.2.built_outline defaultTag entry.1

/-- **What a description leaves out or guesses is reported**, each time and nothing else: the
numbers of the warnings are the numbers of the things, and the rest is in the operations. -/
theorem accounted_describe (doc : Document) (defaultTag : String) :
    doc.Accounted (doc.describe defaultTag) := by
  refine
    { unsupportedParameters := ?_, untypedParameters := ?_, unsupportedBodies := ?_
      untypedBodies := ?_, untypedResponses := ?_, operations := built_describe doc defaultTag }
  all_goals
    rw [count_describe (by decide)]
    simp [Parameter.report?_beq, RequestBody.report?_beq, Response.report?_beq]

end Document

end ClientGen
