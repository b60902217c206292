import ClientGen.Proofs.Json.Canonical
import ClientGen.Proofs.Results
import ClientGen.Proofs.Schema.DistinctKeys

/-!
# Schemas of values

A schema is read from a JSON value in canonical form, in which every object has each name once. So
no schema inside lists a property twice.

* `Keywords.Sound` — keywords with distinct properties and with schemas that have them.
* `Schema.keysDistinct_ofJson` — the schema of a canonical value has distinct properties throughout.

Keywords are read one after the other, and each reader changes one keyword. The induction over the
members of an object therefore carries what is known of the keywords so far.
-/

namespace ClientGen

/-- **Keywords list no property twice**, and neither does a schema inside. -/
structure Keywords.Sound (k : Keywords Schema) : Prop where
  /-- The properties are distinct. -/
  distinct : OrderedMap.Distinct (k.properties.getD [])
  /-- The schemas of properties are sound. -/
  properties : ∀ property ∈ k.properties.getD [], property.2.KeysDistinct
  /-- The schema of further members is sound. -/
  additional : ∀ s ∈ k.additional.bind (·.schema?), s.KeysDistinct
  /-- The schema of items is sound. -/
  items : ∀ s ∈ k.items, s.KeysDistinct
  /-- The schemas of `anyOf` are sound. -/
  anyOf : ∀ s ∈ k.anyOf.getD [], s.KeysDistinct
  /-- The schemas of `oneOf` are sound. -/
  oneOf : ∀ s ∈ k.oneOf.getD [], s.KeysDistinct
  /-- The schemas of `allOf` are sound. -/
  allOf : ∀ s ∈ k.allOf.getD [], s.KeysDistinct

/-- The schema of sound keywords has distinct properties throughout. -/
theorem Keywords.Sound.keysDistinct {k : Keywords Schema} (sound : k.Sound) :
    (Schema.keywords k).KeysDistinct := by
  intro inner node
  cases node with
  | self => exact sound.distinct
  | @inside _ child _ member node =>
      suffices child.KeysDistinct from this inner node
      rcases Keywords.mem_schemas.mp member with object | items | anyOf | oneOf | allOf
      · rcases List.mem_append.mp object with listed | further
        · obtain ⟨property, present, rfl⟩ := List.mem_map.mp listed
          exact sound.properties property present
        · exact sound.additional child (Option.mem_toList.mp further)
      · exact sound.items child (Option.mem_toList.mp items)
      · exact sound.anyOf child anyOf
      · exact sound.oneOf child oneOf
      · exact sound.allOf child allOf

theorem Keywords.sound_blank : (Keywords.blank : Keywords Schema).Sound where
  distinct := List.nodup_nil
  properties := List.forall_mem_nil _
  additional := nofun
  items := nofun
  anyOf := List.forall_mem_nil _
  oneOf := List.forall_mem_nil _
  allOf := List.forall_mem_nil _

namespace Schema

theorem ofItems_eq_map (vs : List Json) : ofItems vs = vs.map ofJson := by
  induction vs with
  | nil => rfl
  | cons v vs ih => rw [ofItems, ih, List.map_cons]

theorem ofMembers_eq_mapValues (ms : List (String × Json)) :
    ofMembers ms = OrderedMap.mapValues ofJson ms := by
  induction ms with
  | nil => rfl
  | cons m ms ih =>
      obtain ⟨name, v⟩ := m
      rw [ofMembers, ih]
      rfl

variable {k result : Keywords Schema}

/-- A keyword that holds no schemas leaves the schemas alone. -/
theorem sound_plainKeyword {name : String} {v : Json} (sound : k.Sound)
    (read : plainKeyword name v k = .ok result) : result.Sound := by
  unfold plainKeyword at read
  split at read
  case h_9 => exact Except.ok.inj read ▸ sound
  all_goals
    obtain ⟨x, -, rfl⟩ := map_eq_ok_iff.mp read
    exact { sound with }

/-- The schemas of a value are sound, whichever reader takes them. -/
structure SoundValue (v : Json) : Prop where
  /-- The schema of the value is sound. -/
  schema : (ofJson v).KeysDistinct
  /-- So are the schemas of its items. -/
  items : ∀ ws, v = .array ws → ∀ w ∈ ws, (ofJson w).KeysDistinct
  /-- So are the schemas of its members, and their names are distinct. -/
  members : ∀ ms, v = .object ms →
    OrderedMap.Distinct ms ∧ ∀ m ∈ ms, (ofJson m.2).KeysDistinct

theorem SoundValue.schemaList {v : Json} (value : SoundValue v) {x : Option (List Schema)}
    (read : schemaList v = .ok x) : ∀ s ∈ x.getD [], s.KeysDistinct := by
  unfold Schema.schemaList at read
  split at read
  · rename_i ws
    obtain rfl := Except.ok.inj read
    intro s listed
    obtain ⟨w, member, rfl⟩ := List.mem_map.mp (ofItems_eq_map ws ▸ listed)
    exact value.items ws rfl w member
  · obtain rfl := Except.ok.inj read
    exact List.forall_mem_nil _
  · cases read

theorem SoundValue.schemaMap {v : Json} (value : SoundValue v)
    {x : Option (List (String × Schema))} (read : schemaMap v = .ok x) :
    OrderedMap.Distinct (x.getD []) ∧ ∀ property ∈ x.getD [], property.2.KeysDistinct := by
  unfold Schema.schemaMap at read
  split at read
  · rename_i ms
    obtain rfl := Except.ok.inj read
    obtain ⟨distinct, members⟩ := value.members ms rfl
    rw [ofMembers_eq_mapValues]
    refine ⟨distinct.mapValues ofJson, fun property listed => ?_⟩
    obtain ⟨m, member, rfl⟩ := List.mem_map.mp listed
    exact members m member
  · obtain rfl := Except.ok.inj read
    exact ⟨List.nodup_nil, List.forall_mem_nil _⟩
  · cases read

/-- What a value says about further members is sound. -/
theorem SoundValue.additional {v : Json} (value : SoundValue v) :
    ∀ s ∈ (additional? v fun _ => ofJson v).bind (·.schema?), s.KeysDistinct := by
  unfold additional?
  split
  · exact nofun
  · exact nofun
  · intro s said
    obtain rfl : ofJson v = s := by simpa [Additional.schema?] using said
    exact value.schema

/-- **Keywords that are read from sound members are sound.** -/
theorem sound_keywordsOf {members : List (String × Json)} (sound : k.Sound)
    (each : ∀ m ∈ members, SoundValue m.2) (read : keywordsOf k members = .ok result) :
    result.Sound := by
  induction members generalizing k with
  | nil =>
      rw [keywordsOf] at read
      exact Except.ok.inj read ▸ sound
  | cons m members ih =>
      obtain ⟨name, v⟩ := m
      obtain ⟨value, later⟩ := List.forall_mem_cons.mp each
      unfold keywordsOf at read
      dsimp only at read
      -- one case for each keyword that holds schemas, and one for all others
      split at read
      all_goals
        obtain ⟨next, step, rest⟩ := bind_eq_ok_iff.mp read
        refine ih ?_ later rest
      · obtain ⟨x, map, rfl⟩ := map_eq_ok_iff.mp step
        have ⟨distinct, properties⟩ := value.schemaMap map
        exact { sound with distinct, properties }
      · obtain rfl := Except.ok.inj step
        refine { sound with items := fun s given => ?_ }
        cases null : v.isNull with
        | true => simp [null] at given
        | false =>
            obtain rfl : ofJson v = s := by simpa [null] using given
            exact value.schema
      · obtain ⟨x, list, rfl⟩ := map_eq_ok_iff.mp step
        exact { sound with anyOf := value.schemaList list }
      · obtain ⟨x, list, rfl⟩ := map_eq_ok_iff.mp step
        exact { sound with oneOf := value.schemaList list }
      · obtain ⟨x, list, rfl⟩ := map_eq_ok_iff.mp step
        exact { sound with allOf := value.schemaList list }
      · obtain rfl := Except.ok.inj step
        exact { sound with additional := value.additional }
      · exact sound_plainKeyword sound step

/-- A schema without keywords has no schemas inside. -/
theorem keysDistinct_malformed (reason : String) : (malformed reason).KeysDistinct := by
  intro k node
  cases node with
  | inside member node => cases member

/-- The schema of an object is sound if its members are. -/
theorem keysDistinct_object {ms : List (String × Json)} (each : ∀ m ∈ ms, SoundValue m.2) :
    (ofJson (.object ms)).KeysDistinct := by
  rw [ofJson]
  cases read : keywordsOf Keywords.blank ms with
  | error e => exact keysDistinct_malformed _
  | ok k => exact (sound_keywordsOf Keywords.sound_blank each read).keysDistinct

mutual

/-- Values in canonical form are sound. -/
theorem soundValue (v : Json) (canonical : v.canonical = v) : SoundValue v := by
  cases v with
  | object ms =>
      obtain ⟨distinct, members⟩ := Json.members_of_canonical canonical
      have each := soundValue_of_members ms members
      refine { schema := keysDistinct_object each, items := nofun, members := fun ns same => ?_ }
      obtain rfl := Json.object.inj same
      exact ⟨distinct, fun m member => (each m member).schema⟩
  | array ws =>
      have each := soundValue_of_items ws (Json.items_of_canonical canonical)
      refine { schema := keysDistinct_malformed _, items := fun vs same => ?_, members := nofun }
      obtain rfl := Json.array.inj same
      exact fun w member => (each w member).schema
  | null => exact { schema := keysDistinct_malformed _, items := nofun, members := nofun }
  | bool b => exact { schema := keysDistinct_malformed _, items := nofun, members := nofun }
  | number number => exact { schema := keysDistinct_malformed _, items := nofun, members := nofun }
  | string s => exact { schema := keysDistinct_malformed _, items := nofun, members := nofun }

theorem soundValue_of_items (ws : List Json) (canonical : ∀ w ∈ ws, w.canonical = w) :
    ∀ w ∈ ws, SoundValue w := by
  cases ws with
  | nil => exact List.forall_mem_nil _
  | cons w ws =>
      obtain ⟨first, rest⟩ := List.forall_mem_cons.mp canonical
      exact List.forall_mem_cons.mpr ⟨soundValue w first, soundValue_of_items ws rest⟩

theorem soundValue_of_members (ms : List (String × Json))
    (canonical : ∀ m ∈ ms, m.2.canonical = m.2) : ∀ m ∈ ms, SoundValue m.2 := by
  cases ms with
  | nil => exact List.forall_mem_nil _
  | cons m ms =>
      obtain ⟨first, rest⟩ := List.forall_mem_cons.mp canonical
      obtain ⟨name, v⟩ := m
      exact List.forall_mem_cons.mpr ⟨soundValue v first, soundValue_of_members ms rest⟩

end

/-- **The schema of a value in canonical form** lists no property twice, and neither does a schema
inside. -/
theorem keysDistinct_ofJson {v : Json} (canonical : v.canonical = v) :
    (ofJson v).KeysDistinct :=
  (soundValue v canonical).schema

end Schema

end ClientGen
