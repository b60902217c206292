import ClientGen.Proofs.Api.Parameters
import ClientGen.Proofs.Api.Sorting
import ClientGen.Proofs.Document.Correspondence
import ClientGen.Proofs.Document.Reports

/-!
# Parameters of a path and of its operations

A path declares parameters for all of its operations, and each operation declares further ones.
Where both declare a parameter of one place and name, clients send the one of the operation.

* `Document.declaredAt` — the declarations for a place under a name.
* `Document.Parameter.normal` — what a declaration becomes.
* `Document.Overrides` — a place has the last declaration of each name.
* `Document.overrides_describe` — the places of every operation do.

A description lists the parameters of the path first, and both kinds are sorted together by place
and name. The sort is stable, so the last declaration of a name is the last one in the sorted list
as well; this is all that the collection of a place has to know about where its parameters come
from.
-/

namespace ClientGen

theorem Location.ofName?_name (location : Location) : ofName? location.name = some location := by
  cases location <;> rfl

namespace Document

/-- The parameters that are declared for a place under a name, in the order of declaration. -/
def declaredAt (declared : List Parameter) (location : Location) (name : String) :
    List Parameter :=
  declared.filter fun p => p.location = location.name ∧ p.name = name

/-- **What a declaration becomes** in the place for which it is made. -/
def Parameter.normal (p : Parameter) (location : Location) : ClientGen.Parameter :=
  { name := p.name, location, required := p.required.getD (location == .path)
    shape := (outlineOrUnknown p.schema).sorted, doc := p.description }

/-- **Later declarations override earlier ones**: the parameters that are kept for a place are the
last ones that are declared for it. -/
structure Overrides (declared : List Parameter) (location : Location)
    (kept : List ClientGen.Parameter) : Prop where
  /-- The names are those that are declared for the place. -/
  names : ∀ name, name ∈ kept.map (·.name) ↔
    ∃ p ∈ declared, p.location = location.name ∧ p.name = name
  /-- Under each of them stands the last declaration and nothing else. -/
  last : ∀ name p, (declaredAt declared location name).getLast? = some p →
    kept.filter (·.name = name) = [p.normal location]
  /-- The names ascend. -/
  ascending : (kept.map (·.name)).Pairwise (· < ·)

theorem declaredAt_eq_nil {declared : List Parameter} {location : Location} {name : String} :
    declaredAt declared location name = [] ↔
      ¬ ∃ p ∈ declared, p.location = location.name ∧ p.name = name := by
  simp [declaredAt]

/-- Outlines in canonical order are normal forms. -/
theorem Parameter.map_outline? (p : Parameter) :
    p.outline?.map (fun q => { q with shape := q.shape.sorted }) =
      (Location.ofName? p.location).map p.normal := by
  rw [outline?, Option.map_map]
  rfl

/-- **What is declared for a place under a name** is what a description lists there. -/
theorem filter_key_outlines (declared : List Parameter) (location : Location) (name : String) :
    ((declared.filterMap Parameter.outline?).map fun q =>
        { q with shape := q.shape.sorted }).filter (·.key = (location, name)) =
      (declaredAt declared location name).map (·.normal location) := by
  rw [List.map_filterMap]
  simp only [Parameter.map_outline?]
  induction declared with
  | nil => rfl
  | cons p declared ih =>
      cases found : Location.ofName? p.location with
      | none =>
          have elsewhere : p.location ≠ location.name := fun here => by
            rw [here, Location.ofName?_name] at found
            cases found
          rw [List.filterMap_cons_none (by rw [found]; rfl), ih, declaredAt, declaredAt,
            List.filter_cons_of_neg (by simp [elsewhere])]
      | some place =>
          obtain same := Location.ofName?_eq_some found
          rw [List.filterMap_cons_some (by rw [found]; rfl), declaredAt]
          by_cases here : place = location ∧ p.name = name
          · obtain ⟨rfl, rfl⟩ := here
            rw [List.filter_cons_of_pos (by simp [ClientGen.Parameter.key, Parameter.normal]), ih,
              List.filter_cons_of_pos (by simp [same])]
            rfl
          · have elsewhere : ¬ (p.location = location.name ∧ p.name = name) := fun declaredHere =>
              here ⟨Location.name_injective (same.trans declaredHere.1), declaredHere.2⟩
            rw [List.filter_cons_of_neg
                (by simpa [ClientGen.Parameter.key, Parameter.normal] using here), ih,
              List.filter_cons_of_neg (by simpa using elsewhere)]
            rfl

variable (defaultTag id : String) (e : Endpoint)

/-- The sort by place and name keeps the order of the declarations of one name. -/
theorem Endpoint.filter_parameters_sorted (location : Location) (name : String) :
    (((e.outline defaultTag id).sorted.parameters.filter (·.location == location)).filter
        (·.name = name)) =
      (declaredAt e.declared location name).map (·.normal location) := by
  have keys (p : ClientGen.Parameter) :
      (decide (p.name = name) && p.location == location) = decide (p.key = (location, name)) := by
    simp [ClientGen.Parameter.key, Bool.and_comm, Bool.beq_eq_decide_eq]
  rw [List.filter_filter]
  simp only [keys]
  rw [← filter_key_outlines, declared, List.filterMap_append]
  exact Order.filter_mergeSort Parameter.orders_key _ _

/-- Within a place the sort by place and name is a sort by name. -/
theorem Endpoint.pairwise_parameters_sorted (location : Location) :
    ((e.outline defaultTag id).sorted.parameters.filter (·.location == location)).Pairwise
      fun p q => p.name ≤ q.name := by
  have sorted := List.pairwise_mergeSort Parameter.orders_key.trans Parameter.orders_key.total
    ((e.outline defaultTag id).mapShapes Shape.sorted).parameters
  refine (sorted.filter (·.location == location)).imp_of_mem fun {p q} left right le => ?_
  have here : p.location = location := eq_of_beq (List.mem_filter.mp left).2
  have there : q.location = location := eq_of_beq (List.mem_filter.mp right).2
  rcases textsLe_iff.mp le with less | ⟨-, le⟩
  · rw [here, there] at less
    exact absurd less (String.lt_irrefl _)
  · exact le

/-- **The places of an outline have the last declarations.** -/
theorem Endpoint.overrides_outline (location : Location) :
    Overrides e.declared location ((e.outline defaultTag id).sorted.parametersAt location) := by
  have standing (name : String) :
      ((e.outline defaultTag id).sorted.parametersAt location).filter (·.name = name) =
        ((declaredAt e.declared location name).getLast?.map (·.normal location)).toList := by
    rw [ClientGen.Operation.filter_parametersAt, filter_parameters_sorted, List.getLast?_map]
  refine { names := fun name => ?names, last := fun name p last => ?last, ascending := ?ascending }
  case names =>
    have absent : name ∉ ((e.outline defaultTag id).sorted.parametersAt location).map (·.name) ↔
        declaredAt e.declared location name = [] := by
      rw [← List.getLast?_eq_none_iff, ← Option.map_eq_none_iff (f := (·.normal location)),
        ← Option.toList_eq_nil_iff, ← standing, List.filter_eq_nil_iff]
      simp
    rw [← not_iff_not, absent, declaredAt_eq_nil]
  case last =>
    rw [standing, last]
    rfl
  case ascending =>
    exact ClientGen.Operation.pairwise_names_parametersAt
      (e.pairwise_parameters_sorted defaultTag id location)

/-- **The parameters of an operation override those of its path.** Every operation of a description
belongs to an operation of the document, and each of its places has one parameter for each name that
the path or the operation declares for the place, namely the last one; the names ascend. -/
theorem overrides_describe {doc : Document} {defaultTag : String} {op : ClientGen.Operation}
    (listed : op ∈ (doc.describe defaultTag).value.api.operations) :
    ∃ item operation, (op.path, item) ∈ doc.paths ∧ item.operation? op.method = some operation ∧
      ∀ location, Overrides (item.parameters ++ operation.parameters) location
        (op.parametersAt location) := by
  obtain ⟨e, member, same, -⟩ := exists_endpoint listed
  obtain ⟨path, method⟩ := e.listed member
  rw [same]
  exact ⟨e.item, e.operation, path, method, e.overrides_outline defaultTag op.id⟩

/-- A query parameter that has a schema of a type. -/
def queryParameter (name type : String) : Parameter :=
  { name, location := "query"
    schema := some (.keywords { Keywords.blank with type := some (.single type) }) }

/-- A path that declares a parameter, and an operation of the path that declares it again. -/
def limitedPets : Document :=
  { paths := [("/pets",
      { get := some { parameters := [queryParameter "limit" "integer"] }
        parameters := [queryParameter "after" "string", queryParameter "limit" "string"] })] }

theorem overrides_limitedPets : ∃ op ∈ (limitedPets.describe "default").value.api.operations,
    (∀ name, name ∈ (op.parametersAt .query).map (·.name) ↔ name = "after" ∨ name = "limit") ∧
      (op.parametersAt .query).filter (·.name = "limit") =
        [(queryParameter "limit" "integer").normal .query] := by
  have declared : limitedPets.Declares "/pets" .get := ⟨_, List.mem_singleton_self _, rfl⟩
  have keys := map_key_operations_perm limitedPets "default"
  rw [← value_describe] at keys
  obtain ⟨op, listed, key⟩ := List.mem_map.mp (keys.mem_iff.mpr (mem_map_key_endpoints.mpr declared))
  obtain ⟨item, operation, path, method, overrides⟩ := overrides_describe listed
  obtain ⟨samePath, sameMethod⟩ := Prod.mk.inj key
  rw [samePath] at path
  rw [sameMethod] at method
  obtain ⟨-, rfl⟩ := Prod.mk.inj (List.mem_singleton.mp path)
  cases method
  have query := overrides .query
  have last : (declaredAt ([queryParameter "after" "string", queryParameter "limit" "string"] ++
      [queryParameter "limit" "integer"]) .query "limit").getLast? =
        some (queryParameter "limit" "integer") := by
    simp [declaredAt, queryParameter, Location.name]
  refine ⟨op, listed, fun name => ?_, query.last "limit" _ last⟩
  rw [query.names]
  simp [queryParameter, Location.name, eq_comm]

end Document

end ClientGen
