/-!
# Maps that remember their order

A map from names to values is a list of entries with distinct keys, in the order in which the keys
were first given.

* `OrderedMap.insert` — a new key goes to the end; a known key keeps its place and takes the new
  value.
* `OrderedMap.ofEntries` — a map from entries with possibly repeated keys.
* `OrderedMap.sorted` — the entries in ascending order of their keys.

**Distinct keys are a property, not a field.** Schemas and shapes nest maps of themselves, and a
type cannot nest inside a structure that carries a proof about it. `OrderedMap.Distinct` states the
property, and `distinct_ofEntries` says that every map built here has it.
-/

namespace ClientGen

/-- **A map in order of first mention.** -/
abbrev OrderedMap (α : Type) := List (String × α)

namespace OrderedMap

variable {α β : Type}

/-- The keys, in order. -/
def keys (m : OrderedMap α) : List String :=
  m.map (·.1)

/-- No key stands twice. -/
def Distinct (m : OrderedMap α) : Prop :=
  m.keys.Nodup

/-- Put a value under a key: in the key's place if it has one, otherwise at the end. -/
def insert : OrderedMap α → String → α → OrderedMap α
  | [], k, v => [(k, v)]
  | (k', v') :: m, k, v => if k' = k then (k, v) :: m else (k', v') :: insert m k v

/-- Put several values under their keys, one after the other. -/
def insertAll (m : OrderedMap α) (es : List (String × α)) : OrderedMap α :=
  es.foldl (fun m e => m.insert e.1 e.2) m

/-- The map that a list of entries describes: first places, last values. -/
def ofEntries (es : List (String × α)) : OrderedMap α :=
  insertAll [] es

/-- Entries in ascending order of their keys; entries with one key keep their order. -/
def sorted (m : OrderedMap α) : OrderedMap α :=
  m.mergeSort fun a b => decide (a.1 ≤ b.1)

/-- The map with every value replaced by its image. -/
def mapValues (f : α → β) (m : OrderedMap α) : OrderedMap β :=
  m.map fun e => (e.1, f e.2)

@[simp] theorem keys_nil : keys ([] : OrderedMap α) = [] := rfl

@[simp] theorem keys_cons (e : String × α) (m : OrderedMap α) :
    keys (e :: m) = e.1 :: keys m := rfl

theorem mem_keys_insert (m : OrderedMap α) (k : String) (v : α) (x : String) :
    x ∈ keys (insert m k v) ↔ x = k ∨ x ∈ keys m := by
  induction m with
  | nil => simp [insert]
  | cons e m ih =>
    by_cases h : e.1 = k
    · simp [insert, h]
    · simp [insert, h, ih]
      exact or_left_comm

/-- After an insertion the key has the new value, and every other key has what it had. -/
theorem lookup_insert (m : OrderedMap α) (k : String) (v : α) (x : String) :
    (insert m k v).lookup x = if x = k then some v else m.lookup x := by
  induction m with
  | nil =>
    by_cases hx : x = k
    · simp [insert, hx]
    · have hb : (x == k) = false := by simpa using hx
      simp [insert, hx, List.lookup_cons, hb]
  | cons e m ih =>
    obtain ⟨k', v'⟩ := e
    by_cases hk : k' = k
    · subst hk
      by_cases hx : x = k'
      · simp [insert, hx]
      · have hb : (x == k') = false := by simpa using hx
        simp [insert, hx, List.lookup_cons, hb]
    · by_cases hx : x = k'
      · simp [insert, hk, hx]
      · have hb : (x == k') = false := by simpa using hx
        simp [insert, hk, List.lookup_cons, hb, ih]

theorem Distinct.insert {m : OrderedMap α} (h : m.Distinct) (k : String) (v : α) :
    (m.insert k v).Distinct := by
  induction m with
  | nil => simp [Distinct, OrderedMap.insert]
  | cons e m ih =>
    have hm : Distinct m := (List.nodup_cons.1 h).2
    have he : e.1 ∉ keys m := (List.nodup_cons.1 h).1
    by_cases hk : e.1 = k
    · simpa [Distinct, OrderedMap.insert, hk] using h
    · have hne : e.1 ∉ keys (OrderedMap.insert m k v) := by
        simp [mem_keys_insert, hk, he]
      simpa [Distinct, OrderedMap.insert, hk] using ⟨hne, ih hm⟩

theorem Distinct.insertAll {m : OrderedMap α} (h : m.Distinct) (es : List (String × α)) :
    (m.insertAll es).Distinct := by
  induction es generalizing m with
  | nil => exact h
  | cons e es ih => exact ih (h.insert e.1 e.2)

/-- A map built from entries has distinct keys. -/
theorem distinct_ofEntries (es : List (String × α)) : (ofEntries es).Distinct :=
  have h : Distinct ([] : OrderedMap α) := List.nodup_nil
  h.insertAll es

end OrderedMap

end ClientGen
