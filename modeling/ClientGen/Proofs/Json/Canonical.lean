import ClientGen.Json.Value
import ClientGen.Proofs.OrderedMap.Agreement

/-!
# Canonical values

A value in canonical form is its own canonical form. So the form can be asked of a value by an
equation, and every value that has been brought into it satisfies the equation.

* `Json.canonicalItems_eq`, `Json.canonicalMembers_eq` — items and members in canonical form.
* `Json.canonical_canonical` — the canonical form is canonical.
* `Json.items_of_canonical`, `Json.members_of_canonical` — what is inside a value in canonical form.
-/

namespace ClientGen.Json

open OrderedMap (sorted_perm distinct_ofEntries mem_of_mem_ofEntries)

/-- Items in canonical form are left as they are. -/
theorem canonicalItems_eq {vs : List Json} (items : ∀ v ∈ vs, v.canonical = v) :
    canonicalItems vs = vs := by
  induction vs with
  | nil => rfl
  | cons v vs ih =>
      obtain ⟨first, rest⟩ := List.forall_mem_cons.mp items
      rw [canonicalItems, first, ih rest]

/-- Members whose values are in canonical form are left as they are. Their names are not looked at
here. -/
theorem canonicalMembers_eq {ms : List (String × Json)} (members : ∀ m ∈ ms, m.2.canonical = m.2) :
    canonicalMembers ms = ms := by
  induction ms with
  | nil => rfl
  | cons m ms ih =>
      obtain ⟨first, rest⟩ := List.forall_mem_cons.mp members
      rw [canonicalMembers, first, ih rest]

theorem canonicalItems_eq_map (vs : List Json) : canonicalItems vs = vs.map canonical := by
  induction vs with
  | nil => rfl
  | cons v vs ih => rw [canonicalItems, ih, List.map_cons]

theorem canonicalMembers_eq_mapValues (ms : List (String × Json)) :
    canonicalMembers ms = OrderedMap.mapValues canonical ms := by
  induction ms with
  | nil => rfl
  | cons m ms ih =>
      rw [canonicalMembers, ih]
      rfl

mutual

/-- **The canonical form is canonical.** -/
theorem canonical_canonical (v : Json) : v.canonical.canonical = v.canonical := by
  cases v with
  | array vs =>
      rw [canonical, canonical, canonicalItems_eq (canonical_of_mem_items vs)]
  | object ms =>
      -- building the map, and then sorting it, does nothing the second time
      let map := OrderedMap.ofEntries (canonicalMembers ms)
      have distinct : OrderedMap.Distinct map := distinct_ofEntries _
      have fixed : canonicalMembers (OrderedMap.sorted map) = OrderedMap.sorted map := by
        refine canonicalMembers_eq fun m member => canonical_of_mem_members ms m ?_
        exact mem_of_mem_ofEntries ((sorted_perm map).mem_iff.mp member)
      have entries : OrderedMap.ofEntries (OrderedMap.sorted map) = OrderedMap.sorted map :=
        (distinct.perm (sorted_perm map).symm).ofEntries_eq
      have order : OrderedMap.sorted (OrderedMap.sorted map) = OrderedMap.sorted map :=
        (distinct.perm (sorted_perm map).symm).sorted_eq_of_perm (sorted_perm map)
      show Json.object (OrderedMap.sorted (OrderedMap.ofEntries
        (canonicalMembers (OrderedMap.sorted map)))) = .object (OrderedMap.sorted map)
      rw [fixed, entries, order]
  | null => rfl
  | bool b => rfl
  | number n => rfl
  | string s => rfl

/-- Items that were brought into canonical form are in it. -/
theorem canonical_of_mem_items (vs : List Json) : ∀ v ∈ canonicalItems vs, v.canonical = v := by
  cases vs with
  | nil => exact nofun
  | cons v vs =>
      rw [canonicalItems]
      exact List.forall_mem_cons.mpr ⟨canonical_canonical v, canonical_of_mem_items vs⟩

theorem canonical_of_mem_members (ms : List (String × Json)) :
    ∀ m ∈ canonicalMembers ms, m.2.canonical = m.2 := by
  cases ms with
  | nil => exact nofun
  | cons m ms =>
      obtain ⟨k, v⟩ := m
      rw [canonicalMembers]
      exact List.forall_mem_cons.mpr ⟨canonical_canonical v, canonical_of_mem_members ms⟩

end

/-- The items of an array in canonical form are in canonical form. -/
theorem items_of_canonical {vs : List Json} (canonical : (array vs).canonical = array vs) :
    ∀ v ∈ vs, v.canonical = v := by
  have items : canonicalItems vs = vs := by simpa [Json.canonical] using canonical
  intro v member
  exact canonical_of_mem_items vs v (items.symm ▸ member)

/-- **The members of an object in canonical form** have distinct names and are in canonical form. -/
theorem members_of_canonical {ms : List (String × Json)}
    (canonical : (object ms).canonical = object ms) :
    OrderedMap.Distinct ms ∧ ∀ m ∈ ms, m.2.canonical = m.2 := by
  have members : OrderedMap.sorted (OrderedMap.ofEntries (canonicalMembers ms)) = ms := by
    simpa [Json.canonical] using canonical
  have perm := sorted_perm (OrderedMap.ofEntries (canonicalMembers ms))
  rw [members] at perm
  refine ⟨(distinct_ofEntries _).perm perm.symm, fun m member => ?_⟩
  exact canonical_of_mem_members ms m (mem_of_mem_ofEntries (perm.mem_iff.mp member))

end ClientGen.Json
