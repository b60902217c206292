import ClientGen.Proofs.Go.Declarations

/-!
# Names that a Go client needs itself

Models that are called like something in the request code get other names, and every reference
follows. What a reference stood for before, it stands for afterwards.

* `Disambiguated` — a description in which models keep away from the request code.
* `disambiguated_collisions` — the new names make it.
* `rename_simultaneous` — other names are put in all at once, and the ones for a Go client mix up
  nothing.
-/

namespace ClientGen.Go

/-- **A description in which no model is called like something in the request code**, and in which
references stand for the models that they stood for in another one. -/
structure Disambiguated (api other : Api) : Prop where
  /-- No two models have one name, and references name models. -/
  coherent : other.Coherent
  /-- No model is called like something in the request code. -/
  apart : ∀ m ∈ other.models, m.name ∉ clientNames
  /-- Each reference stands for the model in the same position. -/
  positions : other.mentions.map other.position? = api.mentions.map api.position?
  /-- There is such a model. -/
  found : ∀ name ∈ other.mentions, (other.position? name).isSome

/-- **New names for models mix up nothing.** -/
theorem disambiguated_collisions {api : Api} (coherent : api.Coherent) :
    Disambiguated api (api.rename (collisions api.models)) := by
  have injective : ∀ name ∈ api.models.map (·.name), ∀ other ∈ api.models.map (·.name),
      Shape.renamed (collisions api.models) other = Shape.renamed (collisions api.models) name →
        other = name := by
    intro name listed other alsoListed same
    exact injOn_renamed coherent.distinct alsoListed listed same
  have renamed := coherent.rename injective
  refine { coherent := renamed, apart := ?_, positions := coherent.positions_rename injective,
           found := ?_ }
  · have distinct := nodup_renamed coherent.distinct
    rw [← Api.names_rename] at distinct
    intro m listed declared
    have inNames : m.name ∈ (api.rename (collisions api.models)).models.map (·.name) :=
      List.mem_map_of_mem listed
    exact (List.nodup_append.mp distinct).2.2 m.name declared m.name inNames rfl
  · intro name mentioned
    exact Api.isSome_position?.mpr ((Api.coherent_iff.mp renamed).2 name mentioned)

/-- **Other names are put in all at once.** Nothing but names changes, the references of a shape
become their new names, and the new names for the models of a Go client mix up nothing. -/
theorem rename_simultaneous (newNames : List (String × String)) (api : Api) :
    (∀ other, api.Renamed (Shape.renamed newNames) other ↔ other = api.rename newNames) ∧
      (∀ shape : Shape, (shape.rename newNames).references =
        Naming.ascending (shape.references.map (Shape.renamed newNames))) ∧
      (api.Coherent → Disambiguated api (api.rename (collisions api.models))) := by
  refine ⟨fun other => Api.renamed_iff, Shape.references_rename, fun coherent => ?_⟩
  exact disambiguated_collisions coherent

/-- An API with models that are called like parts of the request code, and one that is called like
what one of them would be called next. -/
def takenByRequests : Api :=
  { title := "Pets", version := "1"
    models := [
      ⟨"APIError", .object [("cause", .nullable (.ref "APIError"))] [] .unstated, none, none⟩,
      ⟨"Client", .primitive .string, none, none⟩,
      ⟨"ClientModel", .union [.ref "Client", .ref "APIError"], none, none⟩,
      ⟨"Pet", .array (.ref "Client"), none, none⟩]
    operations := [
      { id := "list", method := .get, path := "/pets", tags := []
        parameters := [⟨"by", .query, false, .ref "Client", none⟩]
        body := some ⟨.ref "ClientModel", "application/json", .json, true, none⟩
        responses := [⟨"200", some (.ref "Pet"), false, none, .json, none⟩]
        doc := none, pointer := none }] }

theorem rename_takenByRequests : takenByRequests.Coherent ∧
    Disambiguated takenByRequests (takenByRequests.rename (collisions takenByRequests.models)) := by
  have coherent : takenByRequests.Coherent := by
    refine Api.coherent_iff.mpr ⟨by decide, ?_⟩
    simp [takenByRequests, Api.mentions, Operation.mentions, Operation.shapes, Shape.mentions,
      Shape.nodes, Shape.nodesOfAll, Shape.nodesOfProperties, Shape.nodesOfExtra, Shape.refName?]
    intro name
    tauto
  exact ⟨coherent,
    (rename_simultaneous (collisions takenByRequests.models) takenByRequests).2.2 coherent⟩

end ClientGen.Go
