import ClientGen.Proofs.Json.Canonical
import ClientGen.Proofs.Json.Readers
import ClientGen.Proofs.Json.Texts
import ClientGen.Proofs.OrderedMap.Entries
import ClientGen.Proofs.Results

/-!
# Depths of values

How deep a value nests decides whether its text can be read. Bringing a value into canonical form
makes it no deeper, and other numbers do not change its depth at all.

* `Json.depth_canonical_le`, `Json.depth_mapNumbers` — the depths of other forms of a value.
* `Source.depth_le_of_value` — a value that was read nests no deeper than there was room.
* `Cursor.Exhausts` — a reader that goes into every part of a value, and so needs room for all of
  it.
-/

namespace ClientGen.Json

@[simp] theorem depth_bool (b : Bool) : (bool b).depth = 0 := rfl

@[simp] theorem depth_number (n : Number) : (number n).depth = 0 := rfl

@[simp] theorem depth_string (s : String) : (string s).depth = 0 := rfl

/-- A list of values is as deep as its deepest value. -/
theorem itemsDepth_le_iff {vs : List Json} {d : Nat} :
    itemsDepth vs ≤ d ↔ ∀ v ∈ vs, v.depth ≤ d := by
  induction vs with
  | nil => simp [itemsDepth]
  | cons v vs ih => rw [itemsDepth, Nat.max_le, ih, List.forall_mem_cons]

/-- Members are as deep as their deepest value. Names do not count. -/
theorem membersDepth_le_iff {ms : List (String × Json)} {d : Nat} :
    membersDepth ms ≤ d ↔ ∀ m ∈ ms, m.2.depth ≤ d := by
  induction ms with
  | nil => simp [membersDepth]
  | cons m ms ih => rw [membersDepth, Nat.max_le, ih, List.forall_mem_cons]

/-! ## Canonical form -/

mutual

/-- **The canonical form of a value is no deeper**: a member may be dropped, and none is added. -/
theorem depth_canonical_le (v : Json) : v.canonical.depth ≤ v.depth := by
  cases v with
  | array vs =>
      rw [canonical, depth, depth]
      exact Nat.succ_le_succ (itemsDepth_canonicalItems_le vs)
  | object ms =>
      rw [canonical, depth, depth]
      refine Nat.succ_le_succ (membersDepth_le_iff.mpr fun m member => ?_)
      have kept := (OrderedMap.sorted_perm _).mem_iff.mp member
      have given := OrderedMap.mem_of_mem_ofEntries kept
      exact membersDepth_le_iff.mp (membersDepth_canonicalMembers_le ms) m given
  | null => exact Nat.le_refl _
  | bool b => exact Nat.le_refl _
  | number n => exact Nat.le_refl _
  | string s => exact Nat.le_refl _

theorem itemsDepth_canonicalItems_le (vs : List Json) :
    itemsDepth (canonicalItems vs) ≤ itemsDepth vs := by
  cases vs with
  | nil => exact Nat.le_refl _
  | cons v vs =>
      have first := depth_canonical_le v
      have rest := itemsDepth_canonicalItems_le vs
      rw [canonicalItems, itemsDepth, itemsDepth]
      omega

/-- Of members with one name the last value is kept, and it was among the values before. -/
theorem membersDepth_canonicalMembers_le (ms : List (String × Json)) :
    membersDepth (canonicalMembers ms) ≤ membersDepth ms := by
  cases ms with
  | nil => exact Nat.le_refl _
  | cons m ms =>
      obtain ⟨k, v⟩ := m
      have first := depth_canonical_le v
      have rest := membersDepth_canonicalMembers_le ms
      rw [canonicalMembers, membersDepth, membersDepth]
      omega

end

variable {P : Number → Prop}

/-- The numbers of an array are those of its items. -/
theorem each_array_iff {vs : List Json} : (Json.array vs).Each P ↔ ∀ v ∈ vs, v.Each P := by
  refine ⟨fun each => ?_, each_array⟩
  have inside : ∀ n ∈ itemNumbers vs, P n := each
  clear each
  induction vs with
  | nil => exact List.forall_mem_nil _
  | cons v vs ih =>
      rw [itemNumbers] at inside
      obtain ⟨first, rest⟩ := List.forall_mem_append.mp inside
      exact List.forall_mem_cons.mpr ⟨first, ih rest⟩

/-- The numbers of an object are those of its members. -/
theorem each_object_iff {ms : List (String × Json)} :
    (Json.object ms).Each P ↔ ∀ m ∈ ms, m.2.Each P := by
  refine ⟨fun each => ?_, each_object⟩
  have inside : ∀ n ∈ memberNumbers ms, P n := each
  clear each
  induction ms with
  | nil => exact List.forall_mem_nil _
  | cons m ms ih =>
      obtain ⟨k, v⟩ := m
      rw [memberNumbers] at inside
      obtain ⟨first, rest⟩ := List.forall_mem_append.mp inside
      exact List.forall_mem_cons.mpr ⟨first, ih rest⟩

mutual

/-- The canonical form of a value has no further numbers. -/
theorem Each.canonical {v : Json} (each : v.Each P) : v.canonical.Each P := by
  cases v with
  | array vs => exact each_array (each_canonicalItems (each_array_iff.mp each))
  | object ms =>
      refine each_object fun m member => ?_
      have kept := (OrderedMap.sorted_perm _).mem_iff.mp member
      exact each_canonicalMembers (each_object_iff.mp each) m
        (OrderedMap.mem_of_mem_ofEntries kept)
  | null => exact each
  | bool b => exact each
  | number n => exact each
  | string s => exact each

theorem each_canonicalItems {vs : List Json} (each : ∀ v ∈ vs, v.Each P) :
    ∀ v ∈ canonicalItems vs, v.Each P := by
  cases vs with
  | nil => exact List.forall_mem_nil _
  | cons v vs =>
      obtain ⟨first, rest⟩ := List.forall_mem_cons.mp each
      exact List.forall_mem_cons.mpr ⟨first.canonical, each_canonicalItems rest⟩

theorem each_canonicalMembers {ms : List (String × Json)} (each : ∀ m ∈ ms, m.2.Each P) :
    ∀ m ∈ canonicalMembers ms, m.2.Each P := by
  cases ms with
  | nil => exact List.forall_mem_nil _
  | cons m ms =>
      obtain ⟨k, v⟩ := m
      obtain ⟨first, rest⟩ := List.forall_mem_cons.mp each
      exact List.forall_mem_cons.mpr ⟨Each.canonical first, each_canonicalMembers rest⟩

end

/-! ## Other numbers -/

variable {f : Number → Number}

/-- Other numbers are taken in each item. -/
theorem mapItemNumbers_eq_map (f : Number → Number) (vs : List Json) :
    mapItemNumbers f vs = vs.map (mapNumbers f) := by
  induction vs with
  | nil => rfl
  | cons v vs ih => rw [mapItemNumbers, ih, List.map_cons]

/-- Other numbers are taken in each member, and the names stay. -/
theorem mapMemberNumbers_eq_mapValues (f : Number → Number) (ms : List (String × Json)) :
    mapMemberNumbers f ms = OrderedMap.mapValues (mapNumbers f) ms := by
  induction ms with
  | nil => rfl
  | cons m ms ih =>
      rw [mapMemberNumbers, ih]
      rfl

mutual

/-- **Other numbers do not change the depth.** -/
@[simp] theorem depth_mapNumbers (v : Json) : (v.mapNumbers f).depth = v.depth := by
  cases v with
  | array vs => rw [mapNumbers, depth, depth, itemsDepth_mapItemNumbers]
  | object ms => rw [mapNumbers, depth, depth, membersDepth_mapMemberNumbers]
  | null => rfl
  | bool b => rfl
  | number n => rfl
  | string s => rfl

theorem itemsDepth_mapItemNumbers (vs : List Json) :
    itemsDepth (mapItemNumbers f vs) = itemsDepth vs := by
  cases vs with
  | nil => rfl
  | cons v vs =>
      rw [mapItemNumbers, itemsDepth, itemsDepth, depth_mapNumbers v, itemsDepth_mapItemNumbers vs]

theorem membersDepth_mapMemberNumbers (ms : List (String × Json)) :
    membersDepth (mapMemberNumbers f ms) = membersDepth ms := by
  cases ms with
  | nil => rfl
  | cons m ms =>
      obtain ⟨k, v⟩ := m
      rw [mapMemberNumbers, membersDepth, membersDepth, depth_mapNumbers v,
        membersDepth_mapMemberNumbers ms]

end

mutual

/-- Canonical form is about names, so other numbers may be taken before or after. -/
theorem canonical_mapNumbers (v : Json) :
    (v.mapNumbers f).canonical = v.canonical.mapNumbers f := by
  cases v with
  | array vs => rw [mapNumbers, canonical, canonical, mapNumbers, canonicalItems_mapItemNumbers]
  | object ms =>
      rw [mapNumbers, canonical, canonical, mapNumbers, canonicalMembers_mapMemberNumbers,
        mapMemberNumbers_eq_mapValues, mapMemberNumbers_eq_mapValues,
        ← OrderedMap.mapValues_ofEntries, OrderedMap.sorted_mapValues]
  | null => rfl
  | bool b => rfl
  | number n => rfl
  | string s => rfl

theorem canonicalItems_mapItemNumbers (vs : List Json) :
    canonicalItems (mapItemNumbers f vs) = mapItemNumbers f (canonicalItems vs) := by
  cases vs with
  | nil => rfl
  | cons v vs =>
      rw [mapItemNumbers, canonicalItems, canonicalItems, mapItemNumbers, canonical_mapNumbers v,
        canonicalItems_mapItemNumbers vs]

theorem canonicalMembers_mapMemberNumbers (ms : List (String × Json)) :
    canonicalMembers (mapMemberNumbers f ms) = mapMemberNumbers f (canonicalMembers ms) := by
  cases ms with
  | nil => rfl
  | cons m ms =>
      obtain ⟨k, v⟩ := m
      rw [mapMemberNumbers, canonicalMembers, canonicalMembers, mapMemberNumbers,
        canonical_mapNumbers v, canonicalMembers_mapMemberNumbers ms]

end

/-! ## Room -/

namespace Source

mutual

/-- **A value that was read nests no deeper than there was room.** -/
theorem depth_le_of_value {tree : Source} {room : Nat} {v : Json}
    (read : tree.value room = .ok v) : v.depth ≤ room := by
  cases tree with
  | array items atEnd =>
      obtain ⟨inner, vs, rfl, values, -, rfl⟩ := value_array_eq_ok_iff.mp read
      exact Nat.succ_le_succ (itemsDepth_le_of_itemValues values)
  | object members atEnd =>
      obtain ⟨inner, ms, rfl, values, -, rfl⟩ := value_object_eq_ok_iff.mp read
      exact Nat.succ_le_succ (membersDepth_le_of_memberValues values)
  | null => exact Except.ok.inj read ▸ Nat.zero_le _
  | bool b => exact Except.ok.inj read ▸ Nat.zero_le _
  | number lexeme =>
      obtain ⟨n, -, rfl⟩ := map_eq_ok_iff.mp read
      exact Nat.zero_le _
  | string lexeme =>
      obtain ⟨s, -, rfl⟩ := map_eq_ok_iff.mp read
      exact Nat.zero_le _
  | fault fault => cases read

theorem itemsDepth_le_of_itemValues {items : List Source} {room : Nat} {vs : List Json}
    (read : itemValues room items = .ok vs) : itemsDepth vs ≤ room := by
  cases items with
  | nil => exact Except.ok.inj read ▸ Nat.zero_le _
  | cons item items =>
      obtain ⟨v, vs, first, rest, rfl⟩ := itemValues_cons_eq_ok_iff.mp read
      exact Nat.max_le.mpr ⟨depth_le_of_value first, itemsDepth_le_of_itemValues rest⟩

theorem membersDepth_le_of_memberValues {members : List (Lexeme String × Source)} {room : Nat}
    {ms : List (String × Json)} (read : memberValues room members = .ok ms) :
    membersDepth ms ≤ room := by
  cases members with
  | nil => exact Except.ok.inj read ▸ Nat.zero_le _
  | cons member members =>
      obtain ⟨k, tree⟩ := member
      obtain ⟨name, v, ms, -, first, rest, rfl⟩ := memberValues_cons_eq_ok_iff.mp read
      exact Nat.max_le.mpr ⟨depth_le_of_value first, membersDepth_le_of_memberValues rest⟩

end

mutual

/-- The tree of a value is read only where there is room for the value. -/
theorem depth_le_of_value_source {v w : Json} {room : Nat} (read : v.source.value room = .ok w) :
    v.depth ≤ room := by
  cases v with
  | array vs =>
      obtain ⟨inner, ws, rfl, values, -⟩ := value_array_eq_ok_iff.mp read
      exact Nat.succ_le_succ (itemsDepth_le_of_itemSources values)
  | object ms =>
      obtain ⟨inner, ns, rfl, values, -⟩ := value_object_eq_ok_iff.mp read
      exact Nat.succ_le_succ (membersDepth_le_of_memberSources values)
  | null => exact Nat.zero_le _
  | bool b => exact Nat.zero_le _
  | number n => exact Nat.zero_le _
  | string s => exact Nat.zero_le _

theorem itemsDepth_le_of_itemSources {vs ws : List Json} {room : Nat}
    (read : itemValues room (itemSources vs) = .ok ws) : itemsDepth vs ≤ room := by
  cases vs with
  | nil => exact Nat.zero_le _
  | cons v vs =>
      obtain ⟨w, ws, first, rest, -⟩ := itemValues_cons_eq_ok_iff.mp read
      exact Nat.max_le.mpr ⟨depth_le_of_value_source first, itemsDepth_le_of_itemSources rest⟩

theorem membersDepth_le_of_memberSources {ms ns : List (String × Json)} {room : Nat}
    (read : memberValues room (memberSources ms) = .ok ns) : membersDepth ms ≤ room := by
  cases ms with
  | nil => exact Nat.zero_le _
  | cons m ms =>
      obtain ⟨k, v⟩ := m
      obtain ⟨name, w, ns, -, first, rest, -⟩ := memberValues_cons_eq_ok_iff.mp read
      exact Nat.max_le.mpr ⟨depth_le_of_value_source first, membersDepth_le_of_memberSources rest⟩

end

end Source

namespace Cursor

variable {α β : Type}

/-- **A reader that goes into every part of a value**: where it succeeds there is room for the
value. What is passed over needs no room, so not every reader of records is one. -/
def Exhausts (read : Cursor → Except Failure α) (v : Json) : Prop :=
  ∀ room a, read ⟨v.source, room⟩ = .ok a → v.depth ≤ room

/-- Only a text is read as a text, and it has no depth. -/
theorem exhausts_text (v : Json) : Exhausts text v := by
  intro room a read
  cases v with
  | string s => exact Nat.zero_le _
  | _ => cases read

theorem exhausts_flag (v : Json) : Exhausts flag v := by
  intro room a read
  cases v with
  | bool b => exact Nat.zero_le _
  | _ => cases read

theorem exhausts_natural (n : Nat) : Exhausts natural (.ofNat n) :=
  fun _ _ _ => Nat.zero_le _

/-- A choice is a text, and it has no depth. -/
theorem exhausts_choice (choices : List (String × α)) (s : String) :
    Exhausts (choice choices) (.string s) :=
  fun _ _ _ => Nat.zero_le _

/-- What is made of a value once it is read does not matter. -/
theorem Exhausts.map {read : Cursor → Except Failure α} {v : Json} (exhausts : Exhausts read v)
    (f : α → β) : Exhausts (fun c => f <$> read c) v := by
  intro room b result
  obtain ⟨a, read, -⟩ := map_eq_ok_iff.mp result
  exact exhausts room a read

/-- A value that may be null is gone into as the value itself: null has no depth. -/
theorem Exhausts.optional {read : Cursor → Except Failure α} {v : Json}
    (exhausts : Exhausts read v) : Exhausts (optional read) v := by
  intro room x result
  unfold Cursor.optional at result
  split at result
  · rename_i null
    cases v with
    | null => exact Nat.zero_le _
    | _ => cases null
  · obtain ⟨a, read, -⟩ := map_eq_ok_iff.mp result
    exact exhausts room a read

theorem itemSources_eq_map (vs : List Json) : itemSources vs = vs.map Json.source := by
  induction vs with
  | nil => rfl
  | cons v vs ih => rw [itemSources, ih, List.map_cons]

/-- **A list is gone into if its items are.** -/
theorem exhausts_list {read : Cursor → Except Failure α} {vs : List Json}
    (items : ∀ v ∈ vs, Exhausts read v) : Exhausts (list read) (.array vs) := by
  intro room as result
  have tree : (Json.array vs).source = .array (itemSources vs) none := by rw [Json.source]
  simp only [list, tree] at result
  obtain ⟨inner, entered, result⟩ := bind_eq_ok_iff.mp result
  obtain ⟨bs, walk, -⟩ := bind_eq_ok_iff.mp result
  obtain rfl := enter_eq_ok_iff.mp entered
  refine Nat.succ_le_succ (itemsDepth_le_iff.mpr fun v member => ?_)
  have listed : v.source ∈ itemSources vs := by
    rw [itemSources_eq_map]
    exact List.mem_map_of_mem member
  obtain ⟨b, read⟩ := exists_of_mapM walk v.source listed
  exact items v member inner b read

/-- Reading members one by one goes into each of them, if each belongs to a field that is gone
into. -/
theorem membersDepth_le_of_namedFields {type : Record Cursor (Except Failure) α} {room : Nat}
    {record : α} {seen : List String} {ms : List (String × Json)} {result : α × List String}
    (known : ∀ m ∈ ms, ∃ field, type.field? m.1 = some field ∧ Exhausts field.read m.2)
    (read : namedFields type room record seen (memberSources ms) = .ok result) :
    membersDepth ms ≤ room := by
  induction ms generalizing record seen with
  | nil => exact Nat.zero_le _
  | cons m ms ih =>
      obtain ⟨k, v⟩ := m
      obtain ⟨⟨field, found, exhausts⟩, others⟩ := List.forall_mem_cons.mp known
      rw [memberSources, namedFields] at read
      simp only [Lexeme.read_pure] at read
      obtain ⟨name, same, read⟩ := bind_eq_ok_iff.mp read
      obtain rfl := Except.ok.inj same
      simp only [found] at read
      split at read
      · cases read
      · obtain ⟨change, here, read⟩ := bind_eq_ok_iff.mp read
        exact Nat.max_le.mpr ⟨exhausts room change here, ih others read⟩

/-- **A record is gone into** if all its members are fields that are: none is passed over. -/
theorem exhausts_record {type : Record Cursor (Except Failure) α} {ms : List (String × Json)}
    (known : ∀ m ∈ ms, ∃ field, type.field? m.1 = some field ∧ Exhausts field.read m.2) :
    Exhausts (record type) (.object ms) := by
  intro room a result
  have tree : (Json.object ms).source = .object (memberSources ms) none := by rw [Json.source]
  simp only [record, tree] at result
  obtain ⟨inner, entered, result⟩ := bind_eq_ok_iff.mp result
  obtain ⟨read, fields, -⟩ := bind_eq_ok_iff.mp result
  obtain rfl := enter_eq_ok_iff.mp entered
  exact Nat.succ_le_succ (membersDepth_le_of_namedFields known fields)

end Cursor

end ClientGen.Json
