import ClientGen.Proofs.Document.Nodes
import ClientGen.Proofs.Document.Reports
import ClientGen.Proofs.Schema.Asking
import ClientGen.Proofs.Schema.PlainParts
import ClientGen.Proofs.Schema.Spelling

/-!
# Where diagnostics point

A diagnostic carries a pointer that is built on the way down to the node it is about, one token
after the other. The pointer leads to that node with one exception: where the parts of `allOf` are
merged, the walk goes on from the merged object, and the steps into the part are left out.

* `Schema.Leads` — a step of the walk: the tokens to a schema inside, and those that are written.
* `Document.Node.Files` — the tokens from a node to a node below it, and those that are written.
* `Document.Filed` — a diagnostic points along what is written for a node.
* `Document.filed_describe` — every diagnostic of a description does, and what is written for a node
  are the tokens to it if nothing is merged on the way.

The walk is followed function by function. Each lemma says that the notes of a part are filed below
the node of the part, and the steps from node to node are put in front.
-/

namespace ClientGen

/-! ## Steps inside schemas -/

namespace Schema

/-- **A step of the walk** from a schema to one inside its form. The first tokens lead to the schema
inside, the second ones are written. -/
inductive Leads (s : Schema) : List String → List String → Schema → Prop
  /-- The tokens are written as they are. -/
  | kept {tokens : List String} {t : Schema} (listed : (tokens, t) ∈ s.places) :
      Leads s tokens tokens t
  /-- The parts are merged, and the step into the part is left out. -/
  | merged {position : Nat} {k : Keywords Schema} {tokens : List String} {t : Schema}
      (merged : s.form.isMerged = true)
      (part : (["allOf", Text.decimal position], keywords k) ∈ s.places)
      (own : (tokens, t) ∈ objectParts (k.properties.getD []) k.additional) :
      Leads s (["allOf", Text.decimal position] ++ tokens) tokens t

variable {k : Keywords Schema} {part : List String × Schema}

/-- The schemas of a type that is named are places of the schema. -/
theorem mem_places_of_names {type : TypeForm} (named : k.Names type)
    (member : part ∈ type.parts) : part ∈ (keywords k).places := by
  cases named with
  | objects => exact mem_places.mpr (.inl member)
  | array => exact mem_places.mpr (.inr (.inl member))
  | required => simp [TypeForm.parts, objectParts] at member
  | scalar name =>
      have nothing : (TypeForm.scalar name k.format).parts = [] := by
        rw [← List.map_eq_nil_iff (f := (·.2)), TypeForm.map_snd_parts,
          Keywords.Within.members_scalar]
      rw [nothing] at member
      cases member
  | unsupported => cases member

/-- A part is a place of the schema. -/
theorem mem_places_of_allOf {parts : List Schema} (listed : k.allOf = some parts)
    (member : part ∈ listParts "allOf" 0 parts) : part ∈ (keywords k).places :=
  mem_places.mpr (.inr (.inr (.inr (.inr (by rwa [listed])))))

/-- What a merge keeps is inside one of the parts. -/
theorem leads_of_merged {parts : List Schema} (listed : k.allOf = some parts)
    (merged : (keywords k).form.isMerged = true) {tokens : List String} {t : Schema}
    (member : (tokens, t) ∈ (Merged.ofParts parts).form.parts) :
    ∃ place, (keywords k).Leads place tokens t := by
  have inside (inner : Keywords Schema) (here : keywords inner ∈ parts)
      (own : (tokens, t) ∈ objectParts (inner.properties.getD []) inner.additional) :
      ∃ place, (keywords k).Leads place tokens t := by
    obtain ⟨position, found⟩ := List.mem_iff_getElem?.mp here
    have place := mem_places_of_allOf listed (mem_listParts.mpr ⟨position, found, rfl⟩)
    exact ⟨_, .merged merged place own⟩
  rcases mem_objectParts.mp member with ⟨name, kept, same⟩ | ⟨said, same⟩
  · obtain ⟨part, here, inner, rfl, own⟩ := Merged.exists_of_mem_ofParts kept
    exact inside inner here (mem_objectParts.mpr (.inl ⟨name, own, same⟩))
  · obtain ⟨part, here, inner, rfl, own⟩ := Merged.exists_of_additional_ofParts said
    exact inside inner here (mem_objectParts.mpr (.inr ⟨own, same⟩))

/-- **The walk from a schema to one inside its form** is a step. -/
theorem exists_leads {s : Schema} {tokens : List String} {t : Schema}
    (member : (tokens, t) ∈ s.form.parts) : ∃ place, s.Leads place tokens t := by
  cases s with
  | malformed reason => cases member
  | keywords k =>
      have asks := k.asks_form
      generalize same : (keywords k).form = form at member asks
      cases asks with
      | ref name => cases member
      | null => cases member
      | enumeration values => cases member
      | literal value => cases member
      | oneOf listed =>
          refine ⟨tokens, .kept (mem_places.mpr (.inr (.inr (.inr (.inl ?_)))))⟩
          rwa [listed]
      | anyOf listed =>
          refine ⟨tokens, .kept (mem_places.mpr (.inr (.inr (.inl ?_))))⟩
          rwa [listed]
      | merged listed => exact leads_of_merged listed (by rw [same]; rfl) member
      | only listed => exact ⟨tokens, .kept (mem_places_of_allOf listed member)⟩
      | intersection listed => exact ⟨tokens, .kept (mem_places_of_allOf listed member)⟩
      | typed named => exact ⟨tokens, .kept (mem_places_of_names named member)⟩
      | oneOfTypes named =>
          obtain ⟨type, listed, inside⟩ := List.mem_flatMap.mp member
          exact ⟨tokens, .kept (mem_places_of_names (named type listed) inside)⟩

end Schema

namespace Document

/-! ## The walk -/

namespace Node

/-- **What is written for a node below another one**: the first tokens lead to it, the second ones
are written on the walk. -/
inductive Files : Node → List String → List String → Node → Prop
  /-- Nothing is written for a node itself. -/
  | here (n : Node) : Files n [] [] n
  /-- The tokens to a child are written. -/
  | child {n child target : Node} {tokens place filed : List String}
      (step : (tokens, child) ∈ n.children) (rest : Files child place filed target) :
      Files n (tokens ++ place) (tokens ++ filed) target
  /-- The walk goes from a schema to one inside its form. -/
  | leads {s t : Schema} {target : Node} {tokens written place filed : List String}
      (step : s.Leads tokens written t) (rest : Files (schema t) place filed target) :
      Files (schema s) (tokens ++ place) (written ++ filed) target

variable {n m target : Node} {place filed place' filed' tokens : List String}

/-- A step of the walk leads to the schema inside. -/
theorem reaches_of_leads {s t : Schema} {written : List String} (step : s.Leads tokens written t) :
    (schema s).Reaches tokens (schema t) := by
  cases step with
  | kept listed => exact .child (place_mem_children listed)
  | merged merged part own =>
      have inside := Schema.mem_places.mpr (.inl own)
      exact (Reaches.child (place_mem_children part)).trans (.child (place_mem_children inside))

/-- **The first tokens lead to the node.** -/
theorem Files.reaches (files : n.Files place filed target) : n.Reaches place target := by
  induction files with
  | here n => exact .here n
  | child step _ ih => exact .inside step ih
  | leads step _ ih => exact (reaches_of_leads step).trans ih

/-- No schema on the way along tokens has parts that are merged. -/
def Unmerged (n : Node) (tokens : List String) : Prop :=
  ∀ before after s, before ++ after = tokens → n.Reaches before (schema s) →
    s.form.isMerged = false

/-- What comes later on the way comes on the way. -/
theorem Unmerged.of_reaches (unmerged : n.Unmerged (tokens ++ place))
    (reaches : n.Reaches tokens m) : m.Unmerged place := by
  intro before after s same inside
  refine unmerged (tokens ++ before) after s ?_ (reaches.trans inside)
  rw [List.append_assoc, same]

/-- **If nothing is merged on the way, the tokens are written as they are.** -/
theorem Files.eq_of_unmerged (files : n.Files place filed target) (unmerged : n.Unmerged place) :
    filed = place := by
  induction files with
  | here n => rfl
  | child step _ ih => rw [ih (unmerged.of_reaches (.child step))]
  | @leads s t target tokens written place filed step _ ih =>
      rw [ih (unmerged.of_reaches (reaches_of_leads step))]
      cases step with
      | kept listed => rfl
      | merged merged part own =>
          have apart := unmerged [] _ s rfl (.here _)
          rw [merged] at apart
          cases apart

end Node

/-! ## Notes -/

/-- **Notes are filed below a node** whose place is a pointer: each one points at what is written
for a node below, continuing the pointer. -/
def Node.Notes (n : Node) (pointer : String) (notes : List Diagnostic) : Prop :=
  ∀ d ∈ notes, ∃ place filed target,
    d.pointer = some (Pointer.descend pointer filed) ∧ n.Files place filed target

namespace Node.Notes

variable {n m : Node} {pointer : String} {notes notes' : List Diagnostic}
  {tokens : List String}

theorem nil (n : Node) (pointer : String) : n.Notes pointer [] :=
  List.forall_mem_nil _

theorem append (first : n.Notes pointer notes) (second : n.Notes pointer notes') :
    n.Notes pointer (notes ++ notes') :=
  List.forall_mem_append.mpr ⟨first, second⟩

theorem flatMap {α : Type} {items : List α} {f : α → List Diagnostic}
    (each : ∀ item ∈ items, n.Notes pointer (f item)) : n.Notes pointer (items.flatMap f) := by
  intro d noted
  obtain ⟨item, listed, noted⟩ := List.mem_flatMap.mp noted
  exact each item listed d noted

/-- A warning at the place of a node is filed for the node. -/
theorem warn (n : Node) (code message pointer : String) :
    n.Notes pointer (Noted.warn code message (some pointer)).notes := by
  intro d noted
  obtain rfl := List.mem_singleton.mp noted
  exact ⟨[], [], n, rfl, .here n⟩

/-- What is filed below a child is filed below its parent. -/
theorem child (step : (tokens, m) ∈ n.children)
    (inside : m.Notes (Pointer.descend pointer tokens) notes) : n.Notes pointer notes := by
  intro d noted
  obtain ⟨place, filed, target, same, files⟩ := inside d noted
  refine ⟨_, _, target, ?_, .child step files⟩
  rw [same, Pointer.descend_append]

end Node.Notes

open Node

/-- **The notes of a schema** are filed below it. -/
theorem notes_shape (s : Schema) (pointer : String) :
    (schema s).Notes pointer (s.shape (some pointer)).notes := by
  induction s using Schema.form_induction generalizing pointer with
  | step s inner =>
      intro d noted
      rcases Schema.note_cases noted with own | ⟨⟨tokens, t⟩, part, noted⟩
      · exact ⟨[], [], schema s, own, .here _⟩
      · have member : t ∈ s.form.members :=
          s.form.map_snd_parts ▸ List.mem_map.mpr ⟨_, part, rfl⟩
        obtain ⟨place, step⟩ := Schema.exists_leads part
        obtain ⟨below, filed, target, same, files⟩ := inner t member _ d noted
        refine ⟨_, _, target, ?_, .leads step files⟩
        rw [same, Pointer.descend_append]

theorem notes_shapeOrWarn {n : Node} {tokens : List String} {schema? : Option Schema}
    (step : ∀ s ∈ schema?, (tokens, schema s) ∈ n.children) (code message pointer : String) :
    n.Notes pointer (shapeOrWarn code message pointer tokens schema?).notes := by
  cases schema? with
  | some s => exact .child (step s rfl) (notes_shape s _)
  | none => exact (Notes.warn n code message pointer).append (.nil n pointer)

theorem notes_parameter? (p : Parameter) (pointer : String) :
    (Node.parameter p).Notes pointer (parameter? pointer p).notes := by
  unfold parameter?
  split
  · exact (Notes.warn _ _ _ pointer).append (.nil _ pointer)
  · refine (notes_shapeOrWarn (fun s given => ?_) _ _ pointer).append (.nil _ pointer)
    exact List.mem_map.mpr ⟨s, Option.mem_toList.mpr given, rfl⟩

theorem notes_parameters {n : Node} {ps : List Parameter} (nodes : parameterNodes ps ⊆ n.children)
    (owner : String) : n.Notes owner (parameters owner ps).notes := by
  simp only [parameters, Noted.notes_bind, Noted.notes_mapM, Noted.notes_pure, List.append_nil]
  refine .flatMap fun entry listed => ?_
  obtain ⟨p, position⟩ := entry
  have found := List.mem_zipIdx_iff_getElem?.mp listed
  exact .child (nodes (parameterNodes_of_getElem? found)) (notes_parameter? p _)

theorem notes_body? {o : Operation} {b : RequestBody} (declared : o.body = some b)
    (owner : String) : (Node.operation o).Notes owner (body? owner b).notes := by
  refine .child (body_mem_children declared) ?_
  unfold body?
  split
  · exact (Notes.warn _ _ _ _).append (.nil _ _)
  · rename_i mediaType media preferred
    exact (notes_shapeOrWarn (fun s given => preferred_mem_contentNodes preferred given) _ _ _).append
      (.nil _ _)

theorem notes_response (status : String) (r : Response) (pointer : String) :
    (Node.response r).Notes pointer (response pointer status r).notes := by
  unfold response
  split
  · exact .nil _ _
  · rename_i mediaType media preferred
    exact (notes_shapeOrWarn (fun s given => preferred_mem_contentNodes preferred given) _ _ _).append
      (.nil _ _)

theorem notes_responses (o : Operation) (owner : String) :
    (Node.operation o).Notes owner (responses owner o.responses).notes := by
  simp only [responses, Noted.notes_mapM]
  refine .flatMap fun entry listed => ?_
  exact .child (response_mem_children listed) (notes_response entry.1 entry.2 _)

/-- **The notes of an operation** are filed below its path. -/
theorem notes_operation {e : Endpoint} (method : e.item.operation? e.method = some e.operation)
    (defaultTag id : String) :
    (Node.item e.item).Notes e.pathPointer (operation defaultTag id e).notes := by
  have own {notes : List Diagnostic}
      (inside : (Node.operation e.operation).Notes e.pointer notes) :
      (Node.item e.item).Notes e.pathPointer notes :=
    .child (operation_mem_children method) inside
  have ofPath := notes_parameters (n := .item e.item) (List.subset_append_left ..) e.pathPointer
  have ofOperation := own
    (notes_parameters (n := .operation e.operation) (List.subset_append_left ..) e.pointer)
  have ofResponses := own (notes_responses e.operation e.pointer)
  unfold operation
  cases declared : e.operation.body with
  | none =>
      simp only [Noted.notes_bind, Noted.notes_pure, List.append_nil, List.nil_append]
      exact ofPath.append (ofOperation.append ofResponses)
  | some b =>
      simp only [Noted.notes_bind, Noted.notes_pure, List.append_nil]
      have ofBody := own (notes_body? declared e.pointer)
      exact ofPath.append (ofOperation.append (ofBody.append ofResponses))

theorem notes_operations (doc : Document) (defaultTag : String) :
    (Node.document doc).Notes "#" (doc.operations defaultTag).notes := by
  simp only [operations, Noted.notes_mapM]
  refine .flatMap fun entry pair => ?_
  obtain ⟨id, e⟩ := entry
  obtain ⟨path, method⟩ := e.listed (List.of_mem_zip pair).2
  exact .child (item_mem_children path) (notes_operation method defaultTag id)

/-- The notes on the models are those of the schemas, each at its place. -/
theorem notes_models_eq (doc : Document) :
    doc.models.notes =
      doc.schemas.flatMap fun (key, s) => (s.shape (some (schemaPointer key))).notes := by
  have lengths := Nat.le_of_eq (length_modelNames doc.schemas).symm
  calc doc.models.notes
      = (((modelNames doc.schemas).zip doc.schemas).map Prod.snd).flatMap
          fun (key, s) => (s.shape (some (schemaPointer key))).notes := by
        simp [models, model, schemaPointer, List.flatMap_map]
    _ = doc.schemas.flatMap fun (key, s) => (s.shape (some (schemaPointer key))).notes := by
        rw [List.map_snd_zip lengths]

theorem notes_models (doc : Document) : (Node.document doc).Notes "#" doc.models.notes := by
  rw [notes_models_eq]
  refine .flatMap fun entry listed => ?_
  obtain ⟨key, s⟩ := entry
  have declared := (OrderedMap.sorted_perm _).mem_iff.mp listed
  exact .child (schema_mem_children declared) (notes_shape s _)

/-! ## Pointers of diagnostics -/

/-- **A diagnostic is filed for a node of a document**: its pointer is resolved along what is
written for the node on the walk. -/
structure Filed (doc : Document) (d : Diagnostic) (place filed : List String) (target : Node) :
    Prop where
  /-- The node is there. -/
  reaches : (Node.document doc).Reaches place target
  /-- There is a pointer, and it is resolved along other tokens. -/
  resolved : d.pointer.bind Pointer.tokens? = some filed
  /-- They are what is written for the node. -/
  files : (Node.document doc).Files place filed target
  /-- If nothing is merged on the way to the node, the pointer leads there. -/
  addressed : (Node.document doc).Unmerged place → (Node.document doc).Reaches filed target

/-- **Every diagnostic points at a node of the document**, unless the node stands inside parts that
are merged; then the steps into these parts are missing in the pointer, and nothing else is. -/
theorem filed_describe {doc : Document} {defaultTag : String} {d : Diagnostic}
    (noted : d ∈ (doc.describe defaultTag).notes) :
    ∃ place filed target, doc.Filed d place filed target := by
  have notes : (Node.document doc).Notes "#" (doc.describe defaultTag).notes := by
    have both := (notes_models doc).append (notes_operations doc defaultTag)
    simpa [describe] using both
  obtain ⟨place, filed, target, pointer, files⟩ := notes d noted
  refine ⟨place, filed, target,
    { reaches := files.reaches, resolved := ?_, files, addressed := fun unmerged => ?_ }⟩
  · rw [pointer]
    exact Pointer.tokens?_descend filed
  · exact files.eq_of_unmerged unmerged ▸ files.reaches

/-- A document with a schema that is merged from one part, in which a property is no schema. -/
def mergedDocument : Document :=
  { components := some
      { schemas :=
          [("A", Schema.allOf [Schema.plainObject [("x", Schema.ofJson (.bool true))] none])] } }

/-- What is noted about the property. -/
def mergedNote : Diagnostic :=
  { severity := .warning, code := "schema.unsupported"
    message := "Boolean schema `true` is not supported; using unknown."
    pointer := some (Pointer.descend "#" ["components", "schemas", "A", "properties", "x"]) }

theorem mergedNote_mem : mergedNote ∈ (mergedDocument.describe "default").notes := by
  let property := Schema.ofJson (.bool true)
  let part := Schema.plainObject [("x", property)] none
  have form : property.form =
      .malformed "Boolean schema `true` is not supported; using unknown." := rfl
  have noted (place : Option String) :
      (property.shape place).notes = [{ mergedNote with pointer := place }] := by
    rw [Schema.shape_of_form form rfl, Schema.formShape]
    rfl
  have schemas : mergedDocument.schemas = [("A", Schema.allOf [part])] := by
    simp [Document.schemas, mergedDocument, OrderedMap.sorted, part, property]
  have whole : mergedNote ∈
      ((Schema.allOf [part]).shape (some (schemaPointer "A"))).notes := by
    rw [Schema.notes_allOf (List.cons_ne_nil part []) fun other listed =>
      List.mem_singleton.mp listed ▸ (Schema.plain_plainObject _ _).objects]
    refine List.mem_append_right _ (Schema.mem_notesOf.mpr
      ⟨(["properties", "x"], property), List.mem_singleton_self _, ?_⟩)
    rw [noted]
    exact List.mem_singleton_self _
  have models : mergedNote ∈ mergedDocument.models.notes := by
    rw [notes_models_eq, schemas]
    exact List.mem_flatMap.mpr ⟨_, List.mem_singleton_self _, whole⟩
  have both := List.mem_append_left (mergedDocument.operations "default").notes models
  simpa [describe] using both

theorem filed_mergedNote : mergedNote ∈ (mergedDocument.describe "default").notes ∧
    ∃ place filed target, mergedDocument.Filed mergedNote place filed target :=
  ⟨mergedNote_mem, filed_describe mergedNote_mem⟩

/-- **The pointer of the note leads nowhere.** -/
theorem not_addresses_mergedNote :
    ¬ ∀ d ∈ (mergedDocument.describe "default").notes, ∀ pointer ∈ d.pointer,
      mergedDocument.Addresses pointer := by
  intro addressed
  obtain ⟨tokens, more, target, resolved, reached⟩ := addressed _ mergedNote_mem _ rfl
  rw [Pointer.tokens?_descend] at resolved
  obtain rfl := Option.some.inj resolved
  -- the only child of the root is the schema, and its only child is the part
  obtain ⟨first, child, rest, step, same, reached⟩ := reached.exists_child (by simp)
  obtain ⟨rfl, rfl⟩ := Prod.mk.inj (List.mem_singleton.mp step)
  obtain rfl : rest = ["properties", "x"] ++ more := by simpa using same
  obtain ⟨first, child, rest, step, same, -⟩ := reached.exists_child (by simp)
  obtain ⟨rfl, -⟩ := Prod.mk.inj (List.mem_singleton.mp step)
  simp at same

end Document

end ClientGen
