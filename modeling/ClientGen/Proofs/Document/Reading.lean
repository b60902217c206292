import ClientGen.Document.Load
import ClientGen.Proofs.Document.Correspondence
import ClientGen.Proofs.Results

/-!
# Documents that were read

A map is read entry by entry, and a repeated key keeps its place and takes the later value. So no
key of a map that was read stands twice, whatever the text says and in whatever notation.

* `LawfulReadable` — what the results of readers have in common, for every kind of tree.
* `Document.keysDistinct_of_parse` — the keys of a document that was read are distinct.

A record is built by the changes that its fields make. A property that the blank record has and
every change keeps is therefore a property of the record; this is the law by which facts about maps
reach the document around them.
-/

namespace ClientGen

/-- **A kind of tree whose readers are lawful**: their results are related to what they read. -/
class LawfulReadable (σ : Type) (m : outParam (Type → Type)) [Monad m] [Readable σ m] where
  /-- A reading may have a result. -/
  Yields : {α : Type} → m α → α → Prop
  /-- A result that is changed afterwards was there before. -/
  exists_of_map {α β : Type} {f : α → β} {reading : m α} {b : β} :
    Yields (f <$> reading) b → ∃ a, Yields reading a ∧ f a = b
  /-- What is there where a null may stand was read. -/
  exists_of_optional {α : Type} {read : σ → m α} {tree : σ} {a : α} :
    Yields (Readable.optional read tree) (some a) → ∃ other, Yields (read other) a
  /-- The keys of a map are distinct. -/
  distinct_of_map {α : Type} {read : σ → m α} {tree : σ} {entries : OrderedMap α} :
    Yields (Readable.map read tree) entries → entries.Distinct
  /-- A record has every property that the blank one has and the fields keep. -/
  invariant {α : Type} {P : α → Prop} {type : Record σ m α} {tree : σ} {record : α} :
    P type.blank →
      (∀ field ∈ type.fields, ∀ part change, Yields (field.read part) change →
        ∀ record, P record → P (change record)) →
      Yields (Readable.record type tree) record → P record

/-- The field with a name is one of the fields. -/
theorem Record.mem_of_field? {σ : Type} {m : Type → Type} {α : Type} {type : Record σ m α}
    {name : String} {field : Field σ m α} (found : type.field? name = some field) :
    field ∈ type.fields :=
  List.mem_of_find?_eq_some found

/-! ## JSON -/

namespace Json.Cursor

/-- **A place directly inside another one**: an item of an array or the value of a member, where one
level less may be opened. -/
inductive Part : Cursor → Cursor → Prop
  /-- An item. -/
  | item {items : List Source} {atEnd : Option Fault} {room : Nat} {item : Source}
      (listed : item ∈ items) : Part ⟨.array items atEnd, room + 1⟩ ⟨item, room⟩
  /-- The value of a member. -/
  | member {members : List (Lexeme String × Source)} {atEnd : Option Fault} {room : Nat}
      {member : Lexeme String × Source} (listed : member ∈ members) :
      Part ⟨.object members atEnd, room + 1⟩ ⟨member.2, room⟩

theorem Part.of_items {c : Cursor} {items : List Source} {atEnd : Option Fault}
    (source : c.source = .array items atEnd) {room : Nat} (entered : enter c.room = .ok room) :
    ∀ item ∈ items, c.Part ⟨item, room⟩ := by
  obtain ⟨_, before⟩ := c
  obtain rfl := source
  cases before with
  | zero => cases entered
  | succ before =>
      obtain rfl := Except.ok.inj entered
      exact fun item listed => .item listed

theorem Part.of_members {c : Cursor} {members : List (Lexeme String × Source)}
    {atEnd : Option Fault} (source : c.source = .object members atEnd) {room : Nat}
    (entered : enter c.room = .ok room) : ∀ m ∈ members, c.Part ⟨m.2, room⟩ := by
  obtain ⟨_, before⟩ := c
  obtain rfl := source
  cases before with
  | zero => cases entered
  | succ before =>
      obtain rfl := Except.ok.inj entered
      exact fun m listed => .member listed

variable {α β : Type} {P : α → Prop}

/-- What is there where a null may stand was read at this place. -/
theorem read_of_optional {read : Cursor → Except Failure α} {c : Cursor} {a : α}
    (result : optional read c = .ok (some a)) : read c = .ok a := by
  unfold optional at result
  split at result
  · cases result
  · obtain ⟨a, read, same⟩ := map_eq_ok_iff.mp result
    obtain rfl := Option.some.inj same
    exact read

theorem distinct_of_map {read : Cursor → Except Failure α} {c : Cursor} {entries : OrderedMap α}
    (result : map read c = .ok entries) : entries.Distinct := by
  unfold map at result
  split at result
  · obtain ⟨room, -, result⟩ := bind_eq_ok_iff.mp result
    obtain ⟨listed, -, result⟩ := bind_eq_ok_iff.mp result
    obtain ⟨-, -, result⟩ := bind_eq_ok_iff.mp result
    obtain rfl := Except.ok.inj result
    exact OrderedMap.distinct_ofEntries listed
  · cases result

theorem invariant_placedFields {kind : String} {room : Nat} {atEnd : Option Fault}
    {fields : List (Field Cursor (Except Failure) α)} {Inside : Cursor → Prop}
    (keeps : ∀ field ∈ fields, ∀ part, Inside part → ∀ change, field.read part = .ok change →
      ∀ record, P record → P (change record))
    {index : Nat} {record result : α} {items : List Source}
    (parts : ∀ item ∈ items, Inside ⟨item, room⟩) (holds : P record)
    (read : placedFields kind room atEnd index record fields items = .ok result) : P result := by
  induction fields generalizing index record items with
  | nil =>
      cases items with
      | cons item items => cases read
      | nil =>
          obtain ⟨-, -, read⟩ := bind_eq_ok_iff.mp read
          exact Except.ok.inj read ▸ holds
  | cons field fields ih =>
      have later := fun other member => keeps other (List.mem_cons_of_mem field member)
      cases items with
      | cons item items =>
          obtain ⟨here, others⟩ := List.forall_mem_cons.mp parts
          obtain ⟨change, first, read⟩ := bind_eq_ok_iff.mp read
          have kept := keeps field (List.mem_cons_self ..) _ here change first record holds
          exact ih later others kept read
      -- the fields that are left out change nothing
      | nil =>
          obtain ⟨-, -, read⟩ := bind_eq_ok_iff.mp read
          split at read
          · exact ih later parts holds read
          · cases read

theorem invariant_namedFields {type : Record Cursor (Except Failure) α} {room : Nat}
    {Inside : Cursor → Prop}
    (keeps : ∀ field ∈ type.fields, ∀ part, Inside part → ∀ change, field.read part = .ok change →
      ∀ record, P record → P (change record))
    {record : α} {seen : List String} {members : List (Lexeme String × Source)}
    {result : α × List String} (parts : ∀ m ∈ members, Inside ⟨m.2, room⟩) (holds : P record)
    (read : namedFields type room record seen members = .ok result) : P result.1 := by
  induction members generalizing record seen with
  | nil => exact Except.ok.inj read ▸ holds
  | cons member members ih =>
      obtain ⟨here, others⟩ := List.forall_mem_cons.mp parts
      obtain ⟨name, -, read⟩ := bind_eq_ok_iff.mp read
      split at read
      · obtain ⟨-, -, read⟩ := bind_eq_ok_iff.mp read
        exact ih others holds read
      · rename_i field found
        split at read
        · cases read
        · obtain ⟨change, first, read⟩ := bind_eq_ok_iff.mp read
          have kept := keeps field (Record.mem_of_field? found) _ here change first record holds
          exact ih others kept read

/-- **A record has every property** that the blank one has and the parts of its place keep. -/
theorem invariant_record {type : Record Cursor (Except Failure) α} {c : Cursor} {result : α}
    (blank : P type.blank)
    (keeps : ∀ field ∈ type.fields, ∀ part, c.Part part → ∀ change, field.read part = .ok change →
      ∀ record, P record → P (change record))
    (read : record type c = .ok result) : P result := by
  unfold record at read
  split at read
  · rename_i items atEnd source
    obtain ⟨room, entered, read⟩ := bind_eq_ok_iff.mp read
    exact invariant_placedFields keeps (Part.of_items source entered) blank read
  · rename_i members atEnd source
    obtain ⟨room, entered, read⟩ := bind_eq_ok_iff.mp read
    obtain ⟨⟨record, seen⟩, named, read⟩ := bind_eq_ok_iff.mp read
    obtain ⟨-, -, read⟩ := bind_eq_ok_iff.mp read
    have fields := invariant_namedFields keeps (Part.of_members source entered) blank named
    split at read
    · cases read
    · exact Except.ok.inj read ▸ fields
  · cases read

instance : LawfulReadable Cursor (Except Failure) where
  Yields reading a := reading = .ok a
  exists_of_map := map_eq_ok_iff.mp
  exists_of_optional result := ⟨_, read_of_optional result⟩
  distinct_of_map := distinct_of_map
  invariant blank keeps := invariant_record blank fun field listed part _ => keeps field listed part

end Json.Cursor

/-! ## YAML -/

namespace Yaml.Cursor

variable {α β : Type} {P : α → Prop}

/-- A reading has a result, however many repetitions were followed before. -/
def Yields (reading : Following α) (a : α) : Prop :=
  ∃ before after, reading before = some (a, after)

theorem not_yields_refuse {a : α} : ¬ Yields refuse a := by
  rintro ⟨before, after, result⟩
  cases result

theorem eq_of_yields_pure {a b : α} (result : Yields (pure a) b) : a = b := by
  obtain ⟨before, after, result⟩ := result
  exact (Prod.mk.inj (Option.some.inj result)).1

theorem exists_of_bind {x : Following α} {f : α → Following β} {b : β}
    (result : Yields (x >>= f) b) : ∃ a, Yields x a ∧ Yields (f a) b := by
  obtain ⟨before, after, result⟩ := result
  obtain ⟨⟨a, between⟩, first, second⟩ := Option.bind_eq_some_iff.mp result
  exact ⟨a, ⟨before, between, first⟩, between, after, second⟩

theorem exists_of_map {x : Following α} {f : α → β} {b : β} (result : Yields (f <$> x) b) :
    ∃ a, Yields x a ∧ f a = b := by
  rw [map_eq_pure_bind] at result
  obtain ⟨a, read, result⟩ := exists_of_bind result
  exact ⟨a, read, eq_of_yields_pure result⟩

theorem exists_of_optional {read : Cursor → Following α} {c : Cursor} {a : α}
    (result : Yields (optional read c) (some a)) : ∃ other, Yields (read other) a := by
  obtain ⟨node, -, result⟩ := exists_of_bind result
  -- a tag or the text may decide on absence, and what follows is the same
  have present {absent : Bool} {inner : Cursor}
      (result : Yields (if absent then pure none else do return some (← read inner)) (some a)) :
      ∃ other, Yields (read other) a := by
    cases absent with
    | true => cases eq_of_yields_pure result
    | false =>
        obtain ⟨a, read, result⟩ := exists_of_bind result
        obtain rfl := Option.some.inj (eq_of_yields_pure result)
        exact ⟨inner, read⟩
  dsimp only at result
  split at result
  · obtain ⟨absent, -, result⟩ := exists_of_bind result
    exact present result
  · obtain ⟨absent, -, result⟩ := exists_of_bind result
    exact present result

theorem distinct_of_map {read : Cursor → Following α} {c : Cursor} {entries : OrderedMap α}
    (result : Yields (map read c) entries) : entries.Distinct := by
  obtain ⟨node, -, result⟩ := exists_of_bind result
  split at result
  · obtain ⟨room, -, result⟩ := exists_of_bind result
    obtain ⟨listed, -, result⟩ := exists_of_bind result
    obtain rfl := eq_of_yields_pure result
    exact OrderedMap.distinct_ofEntries listed
  · split at result
    · obtain rfl := eq_of_yields_pure result
      exact List.nodup_nil
    · exact absurd result not_yields_refuse

theorem invariant_namedFields {type : Record Cursor Following α} {c : Cursor}
    (keeps : ∀ field ∈ type.fields, ∀ part change, Yields (field.read part) change →
      ∀ record, P record → P (change record))
    {record : α} {seen : List String} {entries : List (Node × Node)} {result : α × List String}
    (holds : P record) (read : Yields (namedFields type c record seen entries) result) :
    P result.1 := by
  induction entries generalizing record seen with
  | nil => exact eq_of_yields_pure read ▸ holds
  | cons entry entries ih =>
      obtain ⟨name, -, read⟩ := exists_of_bind read
      split at read
      · exact ih holds read
      · rename_i field found
        split at read
        · exact absurd read not_yields_refuse
        · obtain ⟨change, here, read⟩ := exists_of_bind read
          exact ih (keeps field (Record.mem_of_field? found) _ change here record holds) read

theorem invariant_record {type : Record Cursor Following α} {c : Cursor} {result : α}
    (blank : P type.blank)
    (keeps : ∀ field ∈ type.fields, ∀ part change, Yields (field.read part) change →
      ∀ record, P record → P (change record))
    (read : Yields (record type c) result) : P result := by
  obtain ⟨node, -, read⟩ := exists_of_bind read
  have complete {record : α} {seen : List String} (holds : P record)
      (read : Yields (if isComplete type seen then pure record else refuse) result) : P result := by
    split at read
    · exact eq_of_yields_pure read ▸ holds
    · exact absurd read not_yields_refuse
  dsimp only at read
  split at read
  · obtain ⟨_, given, read⟩ := exists_of_bind read
    obtain rfl := eq_of_yields_pure given
    obtain ⟨room, -, read⟩ := exists_of_bind read
    obtain ⟨⟨record, seen⟩, fields, read⟩ := exists_of_bind read
    exact complete (invariant_namedFields keeps blank fields) read
  · split at read
    · exact complete blank read
    · obtain ⟨entries, refused, -⟩ := exists_of_bind read
      exact absurd refused not_yields_refuse

instance : LawfulReadable Cursor Following where
  Yields := Yields
  exists_of_map := exists_of_map
  exists_of_optional := exists_of_optional
  distinct_of_map := distinct_of_map
  invariant := invariant_record

end Yaml.Cursor

/-! ## Documents -/

namespace Document

open LawfulReadable

variable {σ : Type} {m : Type → Type} [Monad m] [Readable σ m] [LawfulReadable σ m]

/-- The names of the schemas in shared parts are distinct. -/
theorem distinct_of_components {tree : σ} {components : Components}
    (read : Yields σ (Components.read tree) components) : components.schemas.Distinct := by
  refine invariant (P := fun c => c.schemas.Distinct) List.nodup_nil ?_ read
  intro field listed part change reads c holds
  obtain rfl := List.mem_singleton.mp listed
  obtain ⟨schemas, map, rfl⟩ := exists_of_map reads
  exact distinct_of_map map

/-- **The keys of a document that was read are distinct**, in every notation. -/
theorem keysDistinct_of_read {tree : σ} {doc : Document} (reads : Yields σ (read tree) doc) :
    doc.KeysDistinct := by
  refine invariant (P := KeysDistinct) ?blank ?keeps reads
  case blank => exact ⟨List.nodup_nil, List.nodup_nil⟩
  intro field listed part change reads doc holds
  -- one case for each field: two leave the maps alone, one puts the paths, one the shared parts
  simp only [List.mem_cons, List.not_mem_nil, or_false] at listed
  rcases listed with rfl | rfl | rfl | rfl
  case inl =>
    obtain ⟨-, -, rfl⟩ := exists_of_map reads
    exact holds
  case inr.inl =>
    obtain ⟨info, -, rfl⟩ := exists_of_map reads
    exact ⟨holds.schemas, holds.paths⟩
  case inr.inr.inl =>
    obtain ⟨paths, map, rfl⟩ := exists_of_map reads
    exact ⟨holds.schemas, distinct_of_map map⟩
  case inr.inr.inr =>
    obtain ⟨components, given, rfl⟩ := exists_of_map reads
    refine ⟨?_, holds.paths⟩
    cases components with
    | none => exact List.nodup_nil
    | some components =>
        obtain ⟨other, given⟩ := exists_of_optional given
        exact distinct_of_components given

/-- The document of a text in JSON was read from the tree of the text. -/
theorem read_of_parse {text : String} {doc : Document} (parsed : parse .json text = .ok doc) :
    read (⟨(Json.Source.parse text).value, Json.depthLimit⟩ : Json.Cursor) = .ok doc := by
  obtain ⟨whole, reads, atEnd⟩ := bind_eq_ok_iff.mp (mapError_eq_ok_iff.mp parsed)
  obtain ⟨-, -, same⟩ := bind_eq_ok_iff.mp atEnd
  exact Except.ok.inj same ▸ reads

/-- A document of a text was read from a tree of the notation. -/
theorem yields_of_parse {format : Notation} {text : String} {doc : Document}
    (parsed : parse format text = .ok doc) :
    (∃ tree : Json.Cursor, LawfulReadable.Yields Json.Cursor (read tree) doc) ∨
      ∃ tree : Yaml.Cursor, LawfulReadable.Yields Yaml.Cursor (read tree) doc := by
  cases format with
  | json =>
      left
      exact ⟨_, read_of_parse parsed⟩
  | yaml =>
      right
      rw [parse] at parsed
      split at parsed
      · rename_i other result
        obtain rfl := Except.ok.inj parsed
        obtain ⟨tree, -, result⟩ := Option.bind_eq_some_iff.mp result
        obtain ⟨⟨whole, after⟩, reads, same⟩ := Option.bind_eq_some_iff.mp result
        obtain rfl := Option.some.inj same
        exact ⟨_, 0, after, reads⟩
      · cases parsed

/-- **The keys of a document are distinct, whatever text it was read from.** -/
theorem keysDistinct_of_parse {format : Notation} {text : String} {doc : Document}
    (parsed : parse format text = .ok doc) : doc.KeysDistinct := by
  rcases yields_of_parse parsed with ⟨tree, reads⟩ | ⟨tree, reads⟩
  · exact keysDistinct_of_read reads
  · exact keysDistinct_of_read reads

end Document

end ClientGen
