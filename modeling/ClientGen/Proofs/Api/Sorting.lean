import ClientGen.Proofs.Api.Reshaping
import ClientGen.Proofs.Shape.Rearranging

/-!
# The canonical order of a description

Models, operations, parameters and responses are sorted by keys, and every shape inside is brought
into its canonical order. Nothing is lost by that, entries with one key keep their order, and what
the order of the lists was before is forgotten.

* `Api.Rearranged` — the same description in another order, for any relation of its shapes.
* `Api.rearranged_sorted` — the canonical order rearranges a description.
* `Api.Rearranged.sorted_eq` — rearranged descriptions have one canonical order.
* `Api.sorted_canonical` — both together; the canonical order of a canonical order is itself.
-/

namespace ClientGen

/-! ## Rearranged descriptions -/

variable (S : Shape → Shape → Prop)

/-- The place and the name of a parameter. -/
def Parameter.key (p : Parameter) : Location × String :=
  (p.location, p.name)

/-- The tag and the identifier of an operation. -/
def Operation.key (op : Operation) : String × String :=
  (op.tag, op.id)

/-- **A rearranged operation**: parameters of one place and name keep their order, and so do
responses of one status. -/
structure Operation.Rearranged (op other : Operation) : Prop where
  /-- The parameters are rearranged. -/
  parameters : Order.Rearranged Parameter.key (Parameter.Reshaped S) op.parameters other.parameters
  /-- The bodies have related shapes. -/
  body : Option.Rel (Body.Reshaped S) op.body other.body
  /-- The responses are rearranged. -/
  responses : Order.Rearranged Response.status (Response.Reshaped S) op.responses other.responses
  /-- All else is the same. -/
  rest : { other with parameters := op.parameters, body := op.body, responses := op.responses } = op

/-- **A rearranged description**: models of one name keep their order, and so do operations of one
tag and identifier. -/
structure Api.Rearranged (api other : Api) : Prop where
  /-- The models are rearranged. -/
  models : Order.Rearranged Model.name (Model.Reshaped S) api.models other.models
  /-- The operations are rearranged. -/
  operations : Order.Rearranged Operation.key (Operation.Rearranged S) api.operations
    other.operations
  /-- All else is the same. -/
  rest : { other with models := api.models, operations := api.operations } = api

variable {S}

/-! ## The orders -/

/-- Pairs of texts are compared by the first text, and by the second one where the first is the
same. -/
theorem textsLe_iff {a b : String × String} :
    textsLe a b ↔ a.1 < b.1 ∨ a.1 = b.1 ∧ a.2 ≤ b.2 := by
  unfold textsLe
  split
  · rename_i same
    simp [same]
  · rename_i differs
    have strict : a.1 ≤ b.1 ↔ a.1 < b.1 :=
      ⟨fun le => Std.lt_of_le_of_ne le differs, fun less => Std.le_of_lt less⟩
    simp [differs, strict]

/-- Pairs of texts are in a total order in which nothing but equal pairs are tied. -/
theorem orders_textsLe : Order.Orders textsLe (fun a => a) where
  trans a b c first second := by
    rw [textsLe_iff] at first second ⊢
    rcases first with less | ⟨same, le⟩
    · rcases second with further | ⟨same', -⟩
      · exact .inl (String.lt_trans less further)
      · exact .inl (same' ▸ less)
    · rcases second with further | ⟨same', further⟩
      · exact .inl (same ▸ further)
      · exact .inr ⟨same.trans same', String.le_trans le further⟩
  total a b := by
    rw [Bool.or_eq_true, textsLe_iff, textsLe_iff]
    rcases Std.lt_trichotomy a.1 b.1 with less | same | greater
    · exact .inl (.inl less)
    · exact (String.le_total a.2 b.2).imp (fun le => .inr ⟨same, le⟩) fun le => .inr ⟨same.symm, le⟩
    · exact .inr (.inl greater)
  antisymm a b first second := by
    rw [textsLe_iff] at first second
    rcases first with less | ⟨same, le⟩
    · rcases second with greater | ⟨same, -⟩
      · exact absurd (String.lt_trans less greater) (String.lt_irrefl _)
      · exact absurd (same ▸ less) (String.lt_irrefl _)
    · rcases second with greater | ⟨-, ge⟩
      · exact absurd (same ▸ greater) (String.lt_irrefl _)
      · exact Prod.ext same (String.le_antisymm le ge)
  refl a b same := textsLe_iff.mpr (.inr ⟨same ▸ rfl, same ▸ String.le_refl _⟩)

theorem Model.orders_key : Order.Orders (fun m n : Model => decide (m.name ≤ n.name)) name :=
  Order.orders_texts.comap name

theorem Response.orders_key :
    Order.Orders (fun r s : Response => decide (r.status ≤ s.status)) status :=
  Order.orders_texts.comap status

/-- Operations are ordered by tag, and by identifier within a tag. -/
theorem Operation.orders_key :
    Order.Orders (fun a b : Operation => textsLe (a.tag, a.id) (b.tag, b.id)) key :=
  orders_textsLe.comap key

/-- Places are told apart by their names. -/
theorem Location.name_injective {l k : Location} (same : l.name = k.name) : l = k := by
  cases l <;> cases k <;> first | rfl | exact absurd same (by decide)

/-- Parameters are ordered by the names of their places, and by their own names within a place. The
names of places tell them apart, so the place is a key. -/
theorem Parameter.orders_key :
    Order.Orders
      (fun p q : Parameter => textsLe (p.location.name, p.name) (q.location.name, q.name)) key := by
  refine (orders_textsLe.comap fun p : Parameter => (p.location.name, p.name)).of_same_keys
    fun p q => ?_
  simp only [key, Prod.mk.injEq]
  exact and_congr_left fun _ => ⟨fun same => congrArg Location.name same, Location.name_injective⟩

/-! ## Sorting rearranges -/

/-- The canonical order rearranges the parameters and responses of an operation. -/
theorem Operation.rearranged_sorted (sorts : ∀ s : Shape, S s s.sorted) (op : Operation) :
    op.Rearranged S op.sorted where
  parameters := Order.rearranged_mergeSort Parameter.orders_key (fun _ => rfl)
    fun p _ => ⟨sorts p.shape, rfl⟩
  body := by
    show Option.Rel _ op.body (op.body.map _)
    cases op.body with
    | none => exact .none
    | some b => exact .some ⟨sorts b.shape, rfl⟩
  responses := by
    refine Order.rearranged_mergeSort Response.orders_key (fun _ => rfl) fun r _ => ⟨?_, rfl⟩
    show Option.Rel S r.shape (r.shape.map Shape.sorted)
    cases r.shape with
    | none => exact .none
    | some s => exact .some (sorts s)
  rest := rfl

/-- **The canonical order rearranges a description.** -/
theorem Api.rearranged_sorted (sorts : ∀ s : Shape, S s s.sorted) (api : Api) :
    api.Rearranged S api.sorted where
  models := Order.rearranged_mergeSort Model.orders_key (fun _ => rfl)
    fun m _ => ⟨sorts m.shape, rfl⟩
  operations := Order.rearranged_mergeSort Operation.orders_key (fun _ => rfl)
    fun op _ => op.rearranged_sorted sorts
  rest := rfl

/-! ## What is rearranged has one canonical order -/

section

variable (same : ∀ s t : Shape, S s t → s.sorted = t.sorted)

include same

theorem Model.Reshaped.sorted_eq {m n : Model} (reshaped : m.Reshaped S n) :
    { m with shape := m.shape.sorted } = { n with shape := n.shape.sorted } := by
  rw [← reshaped.rest]
  exact congrArg (fun shape => { n with shape }) (same _ _ reshaped.shape)

theorem Parameter.Reshaped.sorted_eq {p q : Parameter} (reshaped : p.Reshaped S q) :
    { p with shape := p.shape.sorted } = { q with shape := q.shape.sorted } := by
  rw [← reshaped.rest]
  exact congrArg (fun shape => { q with shape }) (same _ _ reshaped.shape)

theorem Body.Reshaped.sorted_eq {b c : Body} (reshaped : b.Reshaped S c) :
    { b with shape := b.shape.sorted } = { c with shape := c.shape.sorted } := by
  rw [← reshaped.rest]
  exact congrArg (fun shape => { c with shape }) (same _ _ reshaped.shape)

theorem Response.Reshaped.sorted_eq {r s : Response} (reshaped : r.Reshaped S s) :
    { r with shape := r.shape.map Shape.sorted } =
      { s with shape := s.shape.map Shape.sorted } := by
  rw [← reshaped.rest]
  exact congrArg (fun shape => { s with shape })
    (reshaped.shape.map_eq fun s _ t related => same s t related)

/-- Rearranged operations have one canonical order. Entries with one key keep their order in a
rearrangement, which is what makes a stable sort forget the rest. -/
theorem Operation.Rearranged.sorted_eq {op other : Operation} (rearranged : op.Rearranged S other) :
    op.sorted = other.sorted := by
  have parameters := rearranged.parameters.mergeSort_eq Parameter.orders_key
    (f := fun p => { p with shape := p.shape.sorted }) (fun _ => rfl)
    fun p _ q reshaped => reshaped.sorted_eq same
  have responses := rearranged.responses.mergeSort_eq Response.orders_key
    (f := fun r => { r with shape := r.shape.map Shape.sorted }) (fun _ => rfl)
    fun r _ s reshaped => reshaped.sorted_eq same
  have body : op.body.map (fun b => { b with shape := b.shape.sorted }) =
      other.body.map fun b => { b with shape := b.shape.sorted } :=
    rearranged.body.map_eq fun b _ c reshaped => reshaped.sorted_eq same
  rw [← rearranged.rest]
  simp only [Operation.sorted, Operation.mapShapes, parameters, responses, body]

/-- **Rearranged descriptions have one canonical order.** -/
theorem Api.Rearranged.sorted_eq {api other : Api} (rearranged : api.Rearranged S other) :
    api.sorted = other.sorted := by
  have models := rearranged.models.mergeSort_eq Model.orders_key
    (f := fun m => { m with shape := m.shape.sorted }) (fun _ => rfl)
    fun m _ n reshaped => reshaped.sorted_eq same
  have operations := rearranged.operations.mergeSort_eq Operation.orders_key
    (f := Operation.sorted) (fun _ => rfl) fun op _ other reshaped => reshaped.sorted_eq same
  rw [← rearranged.rest]
  simp only [Api.sorted, models, operations]

end

/-- **The canonical order is a normal form.** It rearranges a description and brings its shapes into
their canonical order, which rearranges those; the canonical order of the result is the result, and
so is that of every description that was rearranged. -/
theorem Api.sorted_canonical (api : Api) :
    api.Rearranged (fun s t => t = s.sorted) api.sorted ∧ (∀ s : Shape, s.Rearranged s.sorted) ∧
      api.sorted.sorted = api.sorted ∧
        ∀ other, api.Rearranged Shape.Rearranged other → other.sorted = api.sorted := by
  have inside (s t : Shape) (rearranged : s.Rearranged t) : s.sorted = t.sorted :=
    rearranged.sorted_eq
  have whole := api.rearranged_sorted Shape.rearranged_sorted
  exact ⟨api.rearranged_sorted (S := fun s t => t = s.sorted) fun _ => rfl,
    Shape.rearranged_sorted, (whole.sorted_eq inside).symm,
    fun other rearranged => (rearranged.sorted_eq inside).symm⟩

/-- An API in which two models have one name, two parameters have one place and name, and required
names are repeated. -/
def repeatedNames : Api :=
  { title := "Pets", version := "1"
    models := [
      ⟨"Pet", .object [("tag", .primitive .string), ("id", .primitive .integer)]
        ["tag", "id", "tag"] .unstated, none, none⟩,
      ⟨"Pet", .primitive .string, none, none⟩,
      ⟨"Cat", .array (.ref "Pet"), none, none⟩]
    operations := [
      { id := "list", method := .get, path := "/pets/{id}", tags := ["pets"]
        parameters := [
          ⟨"a", .query, false, .primitive .string, none⟩,
          ⟨"id", .path, true, .primitive .integer, none⟩,
          ⟨"a", .query, true, .primitive .integer, none⟩]
        body := none, doc := none, pointer := none
        responses := [
          ⟨"404", none, false, none, .unknown, none⟩,
          ⟨"200", some (.ref "Pet"), false, none, .json, none⟩] }] }

/-- The same API in another order. -/
def repeatedNamesMoved : Api :=
  { title := "Pets", version := "1"
    models := [
      ⟨"Cat", .array (.ref "Pet"), none, none⟩,
      ⟨"Pet", .object [("id", .primitive .integer), ("tag", .primitive .string)] ["id", "tag"]
        .unstated, none, none⟩,
      ⟨"Pet", .primitive .string, none, none⟩]
    operations := [
      { id := "list", method := .get, path := "/pets/{id}", tags := ["pets"]
        parameters := [
          ⟨"id", .path, true, .primitive .integer, none⟩,
          ⟨"a", .query, false, .primitive .string, none⟩,
          ⟨"a", .query, true, .primitive .integer, none⟩]
        body := none, doc := none, pointer := none
        responses := [
          ⟨"200", some (.ref "Pet"), false, none, .json, none⟩,
          ⟨"404", none, false, none, .unknown, none⟩] }] }

/-- Models and parameters with one key stay in their order while others move. -/
theorem rearranged_repeatedNames :
    repeatedNames.Rearranged Shape.Rearranged repeatedNamesMoved := by
  have pet : Shape.Rearranged
      (.object [("tag", .primitive .string), ("id", .primitive .integer)] ["tag", "id", "tag"]
        .unstated)
      (.object [("id", .primitive .integer), ("tag", .primitive .string)] ["id", "tag"]
        .unstated) := by
    refine .object (fun name => ?_) (fun name => ?_) .unstated
    · by_cases tag : "tag" = name
      · subst tag
        exact .cons (.primitive _) .nil
      · by_cases id : "id" = name
        · subst id
          exact .cons (.primitive _) .nil
        · simp [OrderedMap.under, tag, id]
    · simp only [List.mem_cons, List.not_mem_nil, or_false]
      tauto
  have parameters : Order.Rearranged Parameter.key (Parameter.Reshaped Shape.Rearranged)
      [⟨"a", .query, false, .primitive .string, none⟩,
        ⟨"id", .path, true, .primitive .integer, none⟩,
        ⟨"a", .query, true, .primitive .integer, none⟩]
      ([⟨"id", .path, true, .primitive .integer, none⟩] ++
        ⟨"a", .query, false, .primitive .string, none⟩ ::
          [⟨"a", .query, true, .primitive .integer, none⟩]) := by
    refine .move ⟨.primitive _, rfl⟩ rfl (by simp [Parameter.key]) ?_
    exact .cons ⟨.primitive _, rfl⟩ rfl (.cons ⟨.primitive _, rfl⟩ rfl .nil)
  have responses : Order.Rearranged Response.status (Response.Reshaped Shape.Rearranged)
      [⟨"404", none, false, none, .unknown, none⟩,
        ⟨"200", some (.ref "Pet"), false, none, .json, none⟩]
      ([⟨"200", some (.ref "Pet"), false, none, .json, none⟩] ++
        [⟨"404", none, false, none, .unknown, none⟩]) := by
    refine .move ⟨.none, rfl⟩ rfl (by simp) ?_
    exact .cons ⟨.some (.ref "Pet"), rfl⟩ rfl .nil
  have models : Order.Rearranged Model.name (Model.Reshaped Shape.Rearranged) repeatedNames.models
      ([⟨"Cat", .array (.ref "Pet"), none, none⟩] ++ repeatedNamesMoved.models.tail) := by
    refine .move ⟨pet, rfl⟩ rfl (by simp) ?_
    refine .move ⟨.primitive _, rfl⟩ rfl (by simp) ?_
    exact .cons ⟨.array (.ref "Pet"), rfl⟩ rfl .nil
  exact
    { models
      operations := .cons { parameters, body := .none, responses, rest := rfl } rfl .nil
      rest := rfl }

/-- Descriptions with repeated names have one canonical order too. -/
theorem sorted_repeatedNames :
    repeatedNames.Rearranged Shape.Rearranged repeatedNamesMoved ∧
      repeatedNamesMoved.sorted = repeatedNames.sorted :=
  ⟨rearranged_repeatedNames,
    repeatedNames.sorted_canonical.2.2.2 repeatedNamesMoved rearranged_repeatedNames⟩

end ClientGen
