import ClientGen.Proofs.Naming.Runs
import ClientGen.Proofs.Order.Stable
import ClientGen.Proofs.Shape.Nodes
import ClientGen.Proofs.Shape.Sorted

/-!
# Shapes that are rearranged

The properties of an object are a map and its required names are a set, but both are written down as
lists. Two shapes are rearranged if they differ in nothing but the order of these lists, and in how
often a required name stands there, at any depth.

* `OrderedMap.under` — what stands under a name.
* `Shape.Rearranged` — the same shape, apart from such order.
* `Shape.rearranged_sorted` — the canonical order rearranges a shape.
* `Shape.Rearranged.sorted_eq` — rearranged shapes have one canonical order.
-/

namespace ClientGen

/-! ## What stands under a name -/

namespace OrderedMap

variable {α β : Type}

/-- The values under a name, in their order; at most one if names are distinct. -/
def under (name : String) (m : OrderedMap α) : List α :=
  (m.filter (·.1 = name)).map (·.2)

theorem orders_names :
    Order.Orders (fun a b : String × α => decide (a.1 ≤ b.1)) (fun a => a.1) :=
  Order.orders_texts.comap Prod.fst

theorem filter_eq_map_under (name : String) (m : OrderedMap α) :
    m.filter (·.1 = name) = (m.under name).map (name, ·) := by
  have named : ∀ entry ∈ m.filter (·.1 = name), (name, entry.2) = entry := by
    rintro ⟨other, value⟩ listed
    obtain rfl : other = name := of_decide_eq_true (List.mem_filter.mp listed).2
    rfl
  rw [under, List.map_map]
  exact (List.map_id'' (fun _ => rfl) _).symm.trans
    (List.map_congr_left fun entry listed => (named entry listed).symm)

theorem under_mapValues (f : α → β) (name : String) (m : OrderedMap α) :
    (m.mapValues f).under name = (m.under name).map f := by
  rw [under, under, mapValues, List.filter_map, List.map_map, List.map_map]
  rfl

/-- Sorting a map keeps the values under a name. -/
theorem under_sorted (name : String) (m : OrderedMap α) : m.sorted.under name = m.under name := by
  rw [under, under, sorted, Order.filter_mergeSort orders_names]

/-- **A sorted map depends on the values under each name** and on nothing else. -/
theorem sorted_eq_of_under_eq {m n : OrderedMap α} (same : ∀ name, m.under name = n.under name) :
    m.sorted = n.sorted := by
  refine Order.mergeSort_eq_of_filter_eq orders_names fun name => ?_
  rw [filter_eq_map_under, filter_eq_map_under, same]

theorem mem_of_mem_under {name : String} {m : OrderedMap α} {value : α}
    (listed : value ∈ m.under name) : value ∈ m.map (·.2) := by
  obtain ⟨entry, kept, rfl⟩ := List.mem_map.mp listed
  exact List.mem_map_of_mem (List.mem_of_mem_filter kept)

end OrderedMap

namespace Shape

/-! ## Rearranged shapes -/

/-- **A rearranged shape**: under each name the same properties, the same required names, the same
variants, parts and values in the same order. -/
inductive Rearranged : Shape → Shape → Prop
  /-- A scalar. -/
  | primitive (type : Primitive) : Rearranged (.primitive type) (.primitive type)
  /-- One value. -/
  | literal (value : Json) : Rearranged (.literal value) (.literal value)
  /-- Several values. -/
  | enumeration (values : List Json) : Rearranged (.enumeration values) (.enumeration values)
  /-- The items are rearranged. -/
  | array {items others : Shape} (inside : Rearranged items others) :
      Rearranged (.array items) (.array others)
  /-- The properties are a map, and the required names are a set. -/
  | object {properties others : OrderedMap Shape} {required names : List String}
      {extra further : Extra Shape}
      (values : ∀ name, List.Forall₂ Rearranged (properties.under name) (others.under name))
      (sameNames : ∀ name, name ∈ required ↔ name ∈ names)
      (same : Extra.Rel Rearranged extra further) :
      Rearranged (.object properties required extra) (.object others names further)
  /-- The variants are rearranged, each in its place. -/
  | union {variants others : List Shape} (inside : List.Forall₂ Rearranged variants others) :
      Rearranged (.union variants) (.union others)
  /-- The parts are rearranged, each in its place. -/
  | intersection {parts others : List Shape} (inside : List.Forall₂ Rearranged parts others) :
      Rearranged (.intersection parts) (.intersection others)
  /-- A reference. -/
  | ref (name : String) : Rearranged (.ref name) (.ref name)
  /-- What is not null is rearranged. -/
  | nullable {inner other : Shape} (inside : Rearranged inner other) :
      Rearranged (.nullable inner) (.nullable other)
  /-- Raw bytes. -/
  | binary : Rearranged .binary .binary
  /-- Any value. -/
  | unknown : Rearranged .unknown .unknown

/-- **The canonical order rearranges a shape.** -/
theorem rearranged_sorted (shape : Shape) : shape.Rearranged shape.sorted := by
  induction shape using children_induction with
  | step shape ih =>
      cases shape with
      | primitive type => exact .primitive type
      | literal value => exact .literal value
      | enumeration values => exact .enumeration values
      | ref name => exact .ref name
      | binary => exact .binary
      | unknown => exact .unknown
      | array items => exact .array (ih items (List.mem_singleton_self _))
      | nullable inner => exact .nullable (ih inner (List.mem_singleton_self _))
      | union variants =>
          rw [sorted_union]
          exact .union (Order.forall₂_map_right ih)
      | intersection parts =>
          rw [sorted_intersection]
          exact .intersection (Order.forall₂_map_right ih)
      | object properties required extra =>
          rw [sorted_object]
          refine .object (fun name => ?_) (fun name => Naming.mem_ascending.symm) ?_
          · rw [OrderedMap.under_sorted, OrderedMap.under_mapValues]
            refine Order.forall₂_map_right fun value listed => ih value ?_
            exact List.mem_append_left _ (OrderedMap.mem_of_mem_under listed)
          · cases extra with
            | unstated => exact .unstated
            | forbidden => exact .forbidden
            | allowed values =>
                exact .allowed (ih values (List.mem_append_right _ (List.mem_singleton_self _)))

/-- **Rearranged shapes have one canonical order.** -/
theorem Rearranged.sorted_eq {shape other : Shape} (rearranged : shape.Rearranged other) :
    shape.sorted = other.sorted := by
  induction shape using children_induction generalizing other with
  | step shape ih =>
      cases rearranged with
      | primitive type => rfl
      | literal value => rfl
      | enumeration values => rfl
      | ref name => rfl
      | binary => rfl
      | unknown => rfl
      | array inside => rw [sorted_array, sorted_array, ih _ (List.mem_singleton_self _) inside]
      | nullable inside =>
          rw [sorted_nullable, sorted_nullable, ih _ (List.mem_singleton_self _) inside]
      | union inside =>
          rw [sorted_union, sorted_union]
          exact congrArg Shape.union
            (inside.map_eq fun child listed _ related => ih child listed related)
      | intersection inside =>
          rw [sorted_intersection, sorted_intersection]
          exact congrArg Shape.intersection
            (inside.map_eq fun child listed _ related => ih child listed related)
      | @object properties others required names extra further values sameNames same =>
          have entries :
              (properties.mapValues sorted).sorted = (others.mapValues sorted).sorted := by
            refine OrderedMap.sorted_eq_of_under_eq fun name => ?_
            rw [OrderedMap.under_mapValues, OrderedMap.under_mapValues]
            exact (values name).map_eq fun child listed _ related =>
              ih child (List.mem_append_left _ (OrderedMap.mem_of_mem_under listed)) related
          have rest : extra.map sorted = further.map sorted := by
            cases same with
            | unstated => rfl
            | forbidden => rfl
            | allowed related =>
                have inside := ih _ (List.mem_append_right _ (List.mem_singleton_self _)) related
                rw [Extra.map, Extra.map, inside]
          rw [sorted_object, sorted_object, entries, rest, Naming.ascending_eq_iff.mpr sameNames]

end Shape

end ClientGen
