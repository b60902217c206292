import ClientGen.Api.Basic
import ClientGen.Proofs.Api.Reshaping
import ClientGen.Proofs.Shape.Renaming
import Mathlib.Data.List.Nodup

/-!
# Other names for the models of a description

Models get other names, and every reference follows: the names are put in all at once, in models,
parameters, bodies and responses. As long as no two models get one name, a reference stands for the
model that it stood for before.

* `Api.Coherent` — the names of models are distinct and references name models.
* `Api.mentions` — the names at all references of a description, place by place.
* `Api.position?` — the place of the model that a name stands for.
* `Api.coherent_iff` — coherent is a description that mentions models only.
* `Api.Renamed` — the same description with other names.
* `Api.renamed_iff` — `Api.rename` makes it, and nothing else does.
* `Api.mentions_rename` — the names at the references are replaced place by place.
* `Api.position?_rename` — a new name stands for the model that the old one stood for.
* `Api.Coherent.rename` — references still name models.
-/

namespace ClientGen

/-! ## References -/

/-- **References name models**, and no two models have one name. -/
structure Api.Coherent (api : Api) : Prop where
  /-- No two models have one name. -/
  distinct : (api.models.map (·.name)).Nodup
  /-- Models refer to models. -/
  models : ∀ m ∈ api.models, ∀ name ∈ m.shape.references, name ∈ api.models.map (·.name)
  /-- Operations refer to models. -/
  operations : ∀ op ∈ api.operations, ∀ name ∈ op.references, name ∈ api.models.map (·.name)

/-- The names at the references of an operation. -/
def Operation.mentions (op : Operation) : List String :=
  op.shapes.flatMap Shape.mentions

theorem Operation.mem_mentions {op : Operation} {name : String} :
    name ∈ op.mentions ↔ name ∈ op.references := by
  simp only [mentions, references, Naming.mem_ascending, List.mem_flatMap, Shape.mem_mentions]

namespace Api

/-- **The names at the references of a description**: those in its models, then those in its
operations. -/
def mentions (api : Api) : List String :=
  api.models.flatMap (·.shape.mentions) ++ api.operations.flatMap Operation.mentions

/-- **The place of the model** that a name stands for. -/
def position? (api : Api) (name : String) : Option Nat :=
  (api.models.map (·.name)).findIdx? (· == name)

variable {api : Api}

theorem isSome_position? {name : String} :
    (api.position? name).isSome ↔ name ∈ api.models.map (·.name) := by
  rw [position?, List.findIdx?_isSome, List.any_eq_true]
  simp only [beq_iff_eq, exists_eq_right]

/-- **Coherent is a description that mentions models only.** -/
theorem coherent_iff : api.Coherent ↔
    (api.models.map (·.name)).Nodup ∧ ∀ name ∈ api.mentions, name ∈ api.models.map (·.name) := by
  constructor
  · rintro ⟨distinct, models, operations⟩
    refine ⟨distinct, fun name mentioned => ?_⟩
    rcases List.mem_append.mp mentioned with inModel | inOperation
    · obtain ⟨m, listed, inside⟩ := List.mem_flatMap.mp inModel
      exact models m listed name (Shape.mem_mentions.mp inside)
    · obtain ⟨op, listed, inside⟩ := List.mem_flatMap.mp inOperation
      exact operations op listed name (Operation.mem_mentions.mp inside)
  · rintro ⟨distinct, resolved⟩
    refine { distinct, models := ?_, operations := ?_ }
    · intro m listed name refers
      have inside : name ∈ m.shape.mentions := Shape.mem_mentions.mpr refers
      exact resolved name (List.mem_append_left _ (List.mem_flatMap.mpr ⟨m, listed, inside⟩))
    · intro op listed name refers
      have inside : name ∈ op.mentions := Operation.mem_mentions.mpr refers
      exact resolved name (List.mem_append_right _ (List.mem_flatMap.mpr ⟨op, listed, inside⟩))

end Api

/-! ## Renamed descriptions -/

/-- **The same model with other names**: for itself, and at its references. -/
structure Model.Renamed (f : String → String) (m n : Model) : Prop where
  /-- Its name is replaced. -/
  name : n.name = f m.name
  /-- The names at its references are replaced. -/
  shape : m.shape.Substituted f n.shape
  /-- All else is the same. -/
  rest : { n with name := m.name, shape := m.shape } = m

/-- **The same description with other names for models.** -/
structure Api.Renamed (f : String → String) (api other : Api) : Prop where
  /-- The models are renamed, each in its place. -/
  models : List.Forall₂ (Model.Renamed f) api.models other.models
  /-- The names at the references of operations are replaced. -/
  operations : List.Forall₂ (Operation.Reshaped (Shape.Substituted f)) api.operations
    other.operations
  /-- All else is the same. -/
  rest : { other with models := api.models, operations := api.operations } = api

variable {newNames : List (String × String)}

theorem Model.renamed_iff {m n : Model} :
    m.Renamed (Shape.renamed newNames) n ↔
      n = { m with name := Shape.renamed newNames m.name, shape := m.shape.rename newNames } := by
  constructor
  · rintro ⟨name, shape, rest⟩
    rw [← rest, ← name]
    exact congrArg (fun shape => { n with shape }) (Shape.substituted_iff.mp shape)
  · rintro rfl
    exact ⟨rfl, Shape.substituted_iff.mpr rfl, rfl⟩

namespace Api

/-- **Renaming gives other names and does nothing else.** -/
theorem renamed_iff {api other : Api} :
    api.Renamed (Shape.renamed newNames) other ↔ other = api.rename newNames := by
  have model (m n : Model) : m.Renamed (Shape.renamed newNames) n ↔
      n = { m with name := Shape.renamed newNames m.name, shape := m.shape.rename newNames } :=
    Model.renamed_iff
  have operation (op changed : Operation) :
      op.Reshaped (Shape.Substituted (Shape.renamed newNames)) changed ↔
        changed = op.mapShapes (Shape.rename newNames) :=
    Operation.reshaped_iff (S := Shape.Substituted _) fun _ _ => Shape.substituted_iff
  constructor
  · rintro ⟨models, operations, rest⟩
    rw [rename, ← (forall₂_iff_eq_map model).mp models,
      ← (forall₂_iff_eq_map operation).mp operations]
    exact (congrArg (fun api : Api => { api with
      models := other.models, operations := other.operations }) rest : other = _)
  · rintro rfl
    exact ⟨(forall₂_iff_eq_map model).mpr rfl, (forall₂_iff_eq_map operation).mpr rfl, rfl⟩

end Api

/-! ## References with other names -/

theorem Operation.shapes_mapShapes (f : Shape → Shape) (op : Operation) :
    (op.mapShapes f).shapes = op.shapes.map f := by
  simp only [shapes, mapShapes, List.map_append, List.map_map, List.filterMap_map,
    List.map_filterMap]
  cases op.body <;> rfl

theorem Operation.mentions_mapShapes_rename (op : Operation) :
    (op.mapShapes (Shape.rename newNames)).mentions =
      op.mentions.map (Shape.renamed newNames) := by
  simp only [mentions, shapes_mapShapes, List.flatMap_map, List.map_flatMap, Shape.mentions_rename]

namespace Api

/-- **Each mentioned name is replaced in its place.** -/
theorem mentions_rename (api : Api) :
    (api.rename newNames).mentions = api.mentions.map (Shape.renamed newNames) := by
  simp only [mentions, rename, List.map_append, List.flatMap_map, List.map_flatMap,
    Shape.mentions_rename, Operation.mentions_mapShapes_rename]

/-- The names of renamed models. -/
theorem names_rename (api : Api) (newNames : List (String × String)) :
    (api.rename newNames).models.map (·.name) =
      (api.models.map (·.name)).map (Shape.renamed newNames) := by
  rw [rename, List.map_map, List.map_map]
  rfl

end Api

/-- Images are found where what they are images of is found. -/
theorem findIdx?_map_of_injOn {f : String → String} {names : List String} {name : String}
    (injective : ∀ other ∈ names, f other = f name → other = name) :
    (names.map f).findIdx? (· == f name) = names.findIdx? (· == name) := by
  induction names with
  | nil => rfl
  | cons other names ih =>
      have first : (f other == f name) = (other == name) := by
        rw [Bool.eq_iff_iff, beq_iff_eq, beq_iff_eq]
        exact ⟨injective other (List.mem_cons_self ..), congrArg f⟩
      have later := ih fun next listed => injective next (List.mem_cons_of_mem _ listed)
      rw [List.map_cons, List.findIdx?_cons, List.findIdx?_cons, first, later]

namespace Api

/-- **A new name stands for the model that the old one stood for**, unless another model has got the
name as well. -/
theorem position?_rename {api : Api} {name : String}
    (injective : ∀ other ∈ api.models.map (·.name),
      Shape.renamed newNames other = Shape.renamed newNames name → other = name) :
    (api.rename newNames).position? (Shape.renamed newNames name) = api.position? name := by
  rw [position?, names_rename]
  exact findIdx?_map_of_injOn injective

/-- **References still name models** if no two models get one name. -/
theorem Coherent.rename {api : Api} (coherent : api.Coherent)
    (injective : ∀ name ∈ api.models.map (·.name), ∀ other ∈ api.models.map (·.name),
      Shape.renamed newNames other = Shape.renamed newNames name → other = name) :
    (api.rename newNames).Coherent := by
  obtain ⟨distinct, resolved⟩ := coherent_iff.mp coherent
  refine coherent_iff.mpr ⟨?_, ?_⟩
  · rw [names_rename]
    exact List.Nodup.map_on (fun name listed other alsoListed same =>
      injective other alsoListed name listed same) distinct
  · intro name mentioned
    rw [mentions_rename] at mentioned
    obtain ⟨old, stood, rfl⟩ := List.mem_map.mp mentioned
    rw [names_rename]
    exact List.mem_map_of_mem (resolved old stood)

/-- **References stand for the models that they stood for.** -/
theorem Coherent.positions_rename {api : Api} (coherent : api.Coherent)
    (injective : ∀ name ∈ api.models.map (·.name), ∀ other ∈ api.models.map (·.name),
      Shape.renamed newNames other = Shape.renamed newNames name → other = name) :
    (api.rename newNames).mentions.map (api.rename newNames).position? =
      api.mentions.map api.position? := by
  obtain ⟨-, resolved⟩ := coherent_iff.mp coherent
  rw [mentions_rename, List.map_map]
  refine List.map_congr_left fun name mentioned => ?_
  exact position?_rename (injective name (resolved name mentioned))

end Api

end ClientGen
