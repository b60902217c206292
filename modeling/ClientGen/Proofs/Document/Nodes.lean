import ClientGen.Proofs.Document.Correspondence
import ClientGen.Proofs.Pointer.Tokens
import ClientGen.Proofs.Schema.DistinctKeys
import ClientGen.Proofs.Schema.Parts

/-!
# The nodes of a document

A document is a tree: paths with their operations, operations with parameters, bodies and responses,
and schemas below all of them. A node is reached from the root along tokens, which are the names of
members and the positions of items.

* `Document.Node`, `Document.Node.children` — the nodes, and the tokens from a node to its children.
* `Document.Node.Reaches` — the tokens from a node to a node below it.
* `Document.Addresses` — a pointer leads to a node, or to what stands on the way to one.
* `Document.MapsDistinct` — no map of the document, at any depth, has a key twice.
* `Document.Sound` — the same, said of the parts of a document.
-/

namespace ClientGen.Document

/-! ## Nodes -/

/-- **A node of a document**: one of its parts that hold schemas, or a schema. -/
inductive Node where
  /-- The root. -/
  | document (doc : Document)
  /-- A path. -/
  | item (item : PathItem)
  /-- An operation. -/
  | operation (operation : Operation)
  /-- A parameter. -/
  | parameter (parameter : Parameter)
  /-- The body of a request. -/
  | body (body : RequestBody)
  /-- A response. -/
  | response (response : Response)
  /-- A schema. -/
  | schema (schema : Schema)

/-- The parameters of a path or of an operation, with the tokens to them. -/
def parameterNodes (ps : List Parameter) : List (List String × Node) :=
  ps.zipIdx.map fun (p, position) => (["parameters", Text.decimal position], .parameter p)

/-- The schemas of representations, with the tokens to them. -/
def contentNodes (content : OrderedMap Media) : List (List String × Node) :=
  content.flatMap fun (mediaType, media) =>
    media.schema.toList.map fun s => (["content", mediaType, "schema"], .schema s)

namespace Node

/-- **The children of a node**, with the tokens to them. -/
def children : Node → List (List String × Node)
  | document doc =>
    ((doc.components.map (·.schemas)).getD []).map
        (fun (key, s) => (["components", "schemas", key], schema s)) ++
      doc.paths.map fun (path, i) => (["paths", path], item i)
  | item i =>
    parameterNodes i.parameters ++
      Method.all.filterMap fun method =>
        (i.operation? method).map fun o => ([method.name], operation o)
  | operation o =>
    parameterNodes o.parameters ++ (o.body.toList.map (fun b => (["requestBody"], body b)) ++
      o.responses.map fun (status, r) => (["responses", status], response r))
  | parameter p => p.schema.toList.map fun s => (["schema"], schema s)
  | body b => contentNodes b.content
  | response r => contentNodes r.content
  | schema s => s.places.map fun (tokens, t) => (tokens, schema t)

/-- **A node reaches another one along tokens.** -/
inductive Reaches : Node → List String → Node → Prop
  /-- Every node reaches itself. -/
  | here (n : Node) : Reaches n [] n
  /-- A node reaches what its children reach. -/
  | inside {n child target : Node} {tokens more : List String}
      (step : (tokens, child) ∈ n.children) (rest : Reaches child more target) :
      Reaches n (tokens ++ more) target

variable {n m target : Node} {tokens more : List String}

/-- Tokens to a node and tokens from it on lead further. -/
theorem Reaches.trans (first : n.Reaches tokens m) (second : m.Reaches more target) :
    n.Reaches (tokens ++ more) target := by
  induction first with
  | here n => exact second
  | inside step _ ih => exact List.append_assoc .. ▸ .inside step (ih second)

/-- A child is reached along its own tokens. -/
theorem Reaches.child (step : (tokens, m) ∈ n.children) : n.Reaches tokens m :=
  have rest := inside step (here m)
  List.append_nil tokens ▸ rest

/-- Along some tokens a child is reached first. -/
theorem Reaches.exists_child (reaches : n.Reaches tokens target) (nonempty : tokens ≠ []) :
    ∃ first child rest, (first, child) ∈ n.children ∧ first ++ rest = tokens ∧
      child.Reaches rest target := by
  cases reaches with
  | here => exact absurd rfl nonempty
  | inside step rest => exact ⟨_, _, _, step, rfl, rest⟩

/-! ## Children -/

/-- The schema of a component stands below two tokens and its name. -/
theorem schema_mem_children {doc : Document} {key : String} {s : Schema}
    (listed : (key, s) ∈ (doc.components.map (·.schemas)).getD []) :
    (["components", "schemas", key], schema s) ∈ (document doc).children :=
  List.mem_append_left _ (List.mem_map.mpr ⟨_, listed, rfl⟩)

theorem item_mem_children {doc : Document} {path : String} {i : PathItem}
    (listed : (path, i) ∈ doc.paths) : (["paths", path], item i) ∈ (document doc).children :=
  List.mem_append_right _ (List.mem_map.mpr ⟨_, listed, rfl⟩)

theorem operation_mem_children {i : PathItem} {method : Method} {o : Operation}
    (found : i.operation? method = some o) : ([method.name], operation o) ∈ (item i).children := by
  have every : method ∈ Method.all := by cases method <;> decide
  exact List.mem_append_right _ (List.mem_filterMap.mpr ⟨method, every, by rw [found]; rfl⟩)

theorem body_mem_children {o : Operation} {b : RequestBody} (declared : o.body = some b) :
    (["requestBody"], body b) ∈ (operation o).children := by
  refine List.mem_append_right _ (List.mem_append_left _ (List.mem_map.mpr ⟨b, ?_, rfl⟩))
  exact Option.mem_toList.mpr declared

theorem response_mem_children {o : Operation} {status : String} {r : Response}
    (listed : (status, r) ∈ o.responses) :
    (["responses", status], response r) ∈ (operation o).children :=
  List.mem_append_right _ (List.mem_append_right _ (List.mem_map.mpr ⟨_, listed, rfl⟩))

/-- A schema inside stands where the steps to it lead. -/
theorem place_mem_children {s t : Schema} (listed : (tokens, t) ∈ s.places) :
    (tokens, schema t) ∈ (schema s).children :=
  List.mem_map.mpr ⟨_, listed, rfl⟩

end Node

theorem parameterNodes_of_getElem? {ps : List Parameter} {position : Nat} {p : Parameter}
    (found : ps[position]? = some p) :
    (["parameters", Text.decimal position], Node.parameter p) ∈ parameterNodes ps :=
  List.mem_map.mpr ⟨(p, position), List.mem_zipIdx_iff_getElem?.mpr found, rfl⟩

/-- The schema of the preferred representation is a child of what has the representations. -/
theorem preferred_mem_contentNodes {content : OrderedMap Media} {mediaType : String} {media : Media}
    (preferred : preferredMedia? content = some (mediaType, media)) {s : Schema}
    (given : s ∈ media.schema) :
    (["content", mediaType, "schema"], Node.schema s) ∈ contentNodes content := by
  obtain ⟨chosen, -, found⟩ := Option.bind_eq_some_iff.mp preferred
  obtain ⟨media, here, same⟩ := Option.map_eq_some_iff.mp found
  obtain ⟨rfl, rfl⟩ := Prod.mk.inj same
  refine List.mem_flatMap.mpr ⟨_, OrderedMap.mem_of_lookup here, List.mem_map.mpr ⟨s, ?_, rfl⟩⟩
  exact Option.mem_toList.mpr given

/-! ## Pointers -/

/-- **A pointer addresses a place of a document** if its tokens lead to a node or to what stands on
the way to one. -/
def Addresses (doc : Document) (pointer : String) : Prop :=
  ∃ tokens more target, Pointer.tokens? pointer = some tokens ∧
    (Node.document doc).Reaches (tokens ++ more) target

/-! ## Distinct keys -/

/-- No key of a map of a node stands twice. -/
def Node.KeysDistinct : Node → Prop
  | .document doc => doc.KeysDistinct
  | .operation o => o.responses.Distinct
  | .body b => b.content.Distinct
  | .response r => r.content.Distinct
  | .schema (.keywords k) => OrderedMap.Distinct (k.properties.getD [])
  | _ => True

/-- No key of a map stands twice, at or below a node. -/
def Node.MapsDistinct (n : Node) : Prop :=
  ∀ tokens target, n.Reaches tokens target → target.KeysDistinct

/-- **No key of a map of a document stands twice**, at any depth. -/
def MapsDistinct (doc : Document) : Prop :=
  (Node.document doc).MapsDistinct

/-- The maps below a node are its own ones and those below its children. -/
theorem Node.mapsDistinct_iff {n : Node} :
    n.MapsDistinct ↔ n.KeysDistinct ∧ ∀ child ∈ n.children, child.2.MapsDistinct := by
  constructor
  · intro distinct
    exact ⟨distinct [] n (.here n), fun child listed tokens target below =>
      distinct _ target (.inside listed below)⟩
  · rintro ⟨own, inside⟩ tokens target reached
    cases reached with
    | here => exact own
    | inside step rest => exact inside _ step _ _ rest

/-- No map below a child has a key twice. -/
theorem Node.MapsDistinct.child {n m : Node} {tokens : List String} (distinct : n.MapsDistinct)
    (step : (tokens, m) ∈ n.children) : m.MapsDistinct :=
  (mapsDistinct_iff.mp distinct).2 _ step

/-- No map below a schema inside has a key twice. -/
theorem Node.MapsDistinct.inside {s t : Schema} (distinct : (schema s).MapsDistinct)
    (node : s.Node t) : (schema t).MapsDistinct := by
  induction node with
  | self s => exact distinct
  | @inside s child t member _ ih =>
      rw [← s.map_snd_places] at member
      obtain ⟨⟨tokens, child⟩, listed, rfl⟩ := List.mem_map.mp member
      exact ih (distinct.child (place_mem_children listed))

/-- **The maps below a schema** are the properties of the schemas inside. -/
theorem Node.mapsDistinct_schema_iff {s : Schema} : (schema s).MapsDistinct ↔ s.KeysDistinct := by
  constructor
  · intro distinct k node
    exact (mapsDistinct_iff.mp (distinct.inside node)).1
  · intro distinct tokens target reached
    generalize start : schema s = n at reached
    induction reached generalizing s with
    | here n =>
        subst start
        cases s with
        | malformed reason => trivial
        | keywords k => exact distinct k (.self _)
    | inside step _ ih =>
        subst start
        obtain ⟨⟨first, t⟩, listed, same⟩ := List.mem_map.mp step
        obtain ⟨-, rfl⟩ := Prod.mk.inj same
        have member : t ∈ s.children := s.map_snd_places ▸ List.mem_map.mpr ⟨_, listed, rfl⟩
        exact ih (fun k node => distinct k (.inside member node)) rfl

/-! ## What nodes ask of their parts -/

open Node

/-- **Representations in which no map has a key twice.** -/
structure SoundContent (content : OrderedMap Media) : Prop where
  /-- The media types are distinct. -/
  distinct : content.Distinct
  /-- So are the keys of all maps in the schemas. -/
  schemas : ∀ entry ∈ content, ∀ s ∈ entry.2.schema, (schema s).MapsDistinct

/-- **The parts of an operation in which no map has a key twice.** -/
structure Operation.Sound (o : Operation) : Prop where
  /-- The parameters are such parts. -/
  parameters : ∀ p ∈ o.parameters, (Node.parameter p).MapsDistinct
  /-- The body is such a part. -/
  body : ∀ b ∈ o.body, (Node.body b).MapsDistinct
  /-- The statuses are distinct. -/
  distinct : o.responses.Distinct
  /-- The responses are such parts. -/
  responses : ∀ entry ∈ o.responses, (Node.response entry.2).MapsDistinct

/-- **The parts of a path in which no map has a key twice.** -/
structure PathItem.Sound (i : PathItem) : Prop where
  /-- The parameters are such parts. -/
  parameters : ∀ p ∈ i.parameters, (Node.parameter p).MapsDistinct
  /-- The operation for GET is one. -/
  get : ∀ o ∈ i.get, (Node.operation o).MapsDistinct
  /-- The operation for POST is one. -/
  post : ∀ o ∈ i.post, (Node.operation o).MapsDistinct
  /-- The operation for PUT is one. -/
  put : ∀ o ∈ i.put, (Node.operation o).MapsDistinct
  /-- The operation for PATCH is one. -/
  patch : ∀ o ∈ i.patch, (Node.operation o).MapsDistinct
  /-- The operation for DELETE is one. -/
  delete : ∀ o ∈ i.delete, (Node.operation o).MapsDistinct

/-- **Schemas of which no map has a key twice.** -/
structure Components.Sound (c : Components) : Prop where
  /-- The names are distinct. -/
  distinct : c.schemas.Distinct
  /-- So are the keys of all maps in the schemas. -/
  schemas : ∀ entry ∈ c.schemas, (schema entry.2).MapsDistinct

/-- **The parts of a document in which no map has a key twice.** -/
structure Sound (doc : Document) : Prop where
  /-- The paths are distinct. -/
  distinct : OrderedMap.Distinct doc.paths
  /-- They are such parts. -/
  paths : ∀ entry ∈ doc.paths, (item entry.2).MapsDistinct
  /-- The shared parts are such parts. -/
  components : ∀ c ∈ doc.components, c.Sound

/-- Parameters are a list, so each may be looked at by itself. -/
theorem mapsDistinct_of_parameterNodes {ps : List Parameter}
    (each : ∀ p ∈ ps, (Node.parameter p).MapsDistinct) :
    ∀ child ∈ parameterNodes ps, child.2.MapsDistinct := by
  intro child listed
  obtain ⟨⟨p, position⟩, entry, rfl⟩ := List.mem_map.mp listed
  exact each p (List.mem_of_getElem? (List.mem_zipIdx_iff_getElem?.mp entry))

/-- The maps below representations are those of their schemas. -/
theorem SoundContent.mapsDistinct {content : OrderedMap Media} (sound : SoundContent content) :
    ∀ child ∈ contentNodes content, child.2.MapsDistinct := by
  intro child listed
  obtain ⟨entry, present, inside⟩ := List.mem_flatMap.mp listed
  obtain ⟨s, given, rfl⟩ := List.mem_map.mp inside
  exact sound.schemas entry present s (Option.mem_toList.mp given)

theorem Operation.Sound.mapsDistinct {o : Operation} (sound : o.Sound) :
    (Node.operation o).MapsDistinct := by
  refine mapsDistinct_iff.mpr ⟨sound.distinct, fun child listed => ?_⟩
  rcases List.mem_append.mp listed with parameter | listed
  · exact mapsDistinct_of_parameterNodes sound.parameters child parameter
  rcases List.mem_append.mp listed with body | response
  · obtain ⟨b, declared, rfl⟩ := List.mem_map.mp body
    exact sound.body b (Option.mem_toList.mp declared)
  · obtain ⟨entry, declared, rfl⟩ := List.mem_map.mp response
    exact sound.responses entry declared

theorem PathItem.Sound.mapsDistinct {i : PathItem} (sound : i.Sound) : (item i).MapsDistinct := by
  refine mapsDistinct_iff.mpr ⟨trivial, fun child listed => ?_⟩
  rcases List.mem_append.mp listed with parameter | operation
  · exact mapsDistinct_of_parameterNodes sound.parameters child parameter
  · obtain ⟨method, -, chosen⟩ := List.mem_filterMap.mp operation
    obtain ⟨o, found, rfl⟩ := Option.map_eq_some_iff.mp chosen
    cases method with
    | get => exact sound.get o found
    | post => exact sound.post o found
    | put => exact sound.put o found
    | patch => exact sound.patch o found
    | delete => exact sound.delete o found

/-- **In a sound document no map has a key twice.** -/
theorem Sound.mapsDistinct {doc : Document} (sound : doc.Sound) : doc.MapsDistinct := by
  have components : Components.Sound ⟨(doc.components.map (·.schemas)).getD []⟩ := by
    cases given : doc.components with
    | none => exact ⟨List.nodup_nil, List.forall_mem_nil _⟩
    | some c => exact sound.components c given
  refine mapsDistinct_iff.mpr ⟨⟨components.distinct, sound.distinct⟩, fun child listed => ?_⟩
  rcases List.mem_append.mp listed with schema | path
  · obtain ⟨entry, declared, rfl⟩ := List.mem_map.mp schema
    exact components.schemas entry declared
  · obtain ⟨entry, declared, rfl⟩ := List.mem_map.mp path
    exact sound.paths entry declared

end ClientGen.Document
