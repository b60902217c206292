import ClientGen.Proofs.Document.DistinctMaps
import ClientGen.Proofs.Schema.Depths

/-!
# Room for the schemas of a document

A JSON text may nest only so deep, and a schema stands several levels inside it: below the shared
parts at least three, and below a path at least five. So much less room is left for the schema.

* `Cursor.Within`, `Cursor.Gives` — places with so much room, and what is read there.
* `Cursor.Gives.record`, `Cursor.Gives.list`, `Cursor.Gives.map` — what is read one level further
  out.
* `Document.Each` — what holds of the schemas of a document.
* `Document.gives_read` — the schemas of a document have the room that is left for them.
-/

namespace ClientGen

/-! ## Places with some room -/

namespace Json.Cursor

/-- **A place where at most so many arrays and objects may be opened**, in a tree whose numbers are
numbers of the format. -/
structure Within (room : Nat) (c : Cursor) : Prop where
  /-- The numbers are numbers of the format. -/
  numbers : c.source.Each Number.Canonical
  /-- There is no more room. -/
  room : c.room ≤ room

theorem Within.part {room : Nat} {c part : Cursor} (within : c.Within (room + 1))
    (inside : c.Part part) : part.Within room := by
  cases inside with
  | item listed =>
      exact ⟨Source.each_array.mp within.numbers _ listed, Nat.le_of_succ_le_succ within.room⟩
  | member listed =>
      exact ⟨Source.each_object.mp within.numbers _ listed, Nat.le_of_succ_le_succ within.room⟩

variable {α β : Type} {read : Cursor → Except Failure α} {P : α → Prop} {room : Nat}

/-- **What is read at every place with so much room** has a property. -/
def Gives (room : Nat) (read : Cursor → Except Failure α) (P : α → Prop) : Prop :=
  ∀ c, c.Within room → ∀ a, read c = .ok a → P a

/-- Less room gives nothing else. -/
theorem Gives.mono {more : Nat} (gives : Gives more read P) (le : room ≤ more) :
    Gives room read P :=
  fun c within => gives c ⟨within.numbers, within.room.trans le⟩

theorem Gives.optional (gives : Gives room read P) :
    Gives room (optional read) fun x => ∀ a ∈ x, P a := by
  rintro c within x result a rfl
  exact gives c within a (read_of_optional result)

/-- **The items of a list** stand one level further inside. -/
theorem Gives.list (gives : Gives room read P) :
    Gives (room + 1) (list read) fun items => ∀ a ∈ items, P a := by
  intro c within items result a member
  obtain ⟨part, inside, reads⟩ := exists_of_mem_list result a member
  exact gives part (within.part inside) a reads

/-- **The values of a map** stand one level further inside. -/
theorem Gives.map (gives : Gives room read P) :
    Gives (room + 1) (map read) fun entries => ∀ entry ∈ entries, P entry.2 := by
  intro c within entries result entry member
  obtain ⟨part, inside, reads⟩ := exists_of_mem_map result entry member
  exact gives part (within.part inside) entry.2 reads

/-- **The fields of a record** stand one level further inside. -/
theorem Gives.record {type : Record Cursor (Except Failure) α} (blank : P type.blank)
    (keeps : ∀ field ∈ type.fields,
      Gives room field.read fun change => ∀ record, P record → P (change record)) :
    Gives (room + 1) (record type) P := fun _ within _ result =>
  invariant_record blank (fun field listed part inside =>
    keeps field listed part (within.part inside)) result

/-- A field changes the record by what is read. -/
theorem Gives.field {put : α → β → β} {Q : β → Prop} (gives : Gives room read P)
    (keeps : ∀ a, P a → ∀ record, Q record → Q (put a record)) :
    Gives room (fun c => put <$> read c) fun change => ∀ record, Q record → Q (change record) := by
  intro c within change result
  obtain ⟨a, reads, rfl⟩ := map_eq_ok_iff.mp result
  exact keeps a (gives c within a reads)

/-- Every reader gives something. -/
theorem gives_something (read : Cursor → Except Failure α) : Gives room read fun _ => True :=
  fun _ _ _ _ => trivial

end Json.Cursor

/-! ## Schemas of documents -/

namespace Document

open Json.Cursor (Gives gives_something)

/-- What holds of the schemas of representations. -/
def EachContent (P : Schema → Prop) (content : OrderedMap Media) : Prop :=
  ∀ entry ∈ content, ∀ s ∈ entry.2.schema, P s

/-- **What holds of the schemas of an operation.** -/
structure Operation.Each (P : Schema → Prop) (o : Operation) : Prop where
  /-- It holds of the schemas of parameters. -/
  parameters : ∀ p ∈ o.parameters, ∀ s ∈ p.schema, P s
  /-- It holds of the schemas of the body. -/
  body : ∀ b ∈ o.body, EachContent P b.content
  /-- It holds of the schemas of responses. -/
  responses : ∀ entry ∈ o.responses, EachContent P entry.2.content

/-- **What holds of the schemas of a path.** -/
structure PathItem.Each (P : Schema → Prop) (i : PathItem) : Prop where
  /-- It holds of the schemas of parameters. -/
  parameters : ∀ p ∈ i.parameters, ∀ s ∈ p.schema, P s
  /-- It holds of the schemas of the operation for GET. -/
  get : ∀ o ∈ i.get, o.Each P
  /-- It holds of the schemas of the operation for POST. -/
  post : ∀ o ∈ i.post, o.Each P
  /-- It holds of the schemas of the operation for PUT. -/
  put : ∀ o ∈ i.put, o.Each P
  /-- It holds of the schemas of the operation for PATCH. -/
  patch : ∀ o ∈ i.patch, o.Each P
  /-- It holds of the schemas of the operation for DELETE. -/
  delete : ∀ o ∈ i.delete, o.Each P

theorem PathItem.Each.operation {P : Schema → Prop} {i : PathItem} (each : i.Each P)
    {method : Method} {o : Operation} (found : i.operation? method = some o) : o.Each P := by
  cases method with
  | get => exact each.get o found
  | post => exact each.post o found
  | put => exact each.put o found
  | patch => exact each.patch o found
  | delete => exact each.delete o found

/-- **What holds of the shared schemas of a document, and of those of its paths.** -/
structure Each (P Q : Schema → Prop) (doc : Document) : Prop where
  /-- One thing holds of the shared schemas. -/
  schemas : ∀ c ∈ doc.components, ∀ entry ∈ c.schemas, P entry.2
  /-- The other one holds of the schemas of paths. -/
  paths : ∀ entry ∈ doc.paths, entry.2.Each Q

variable {room : Nat}

/-- **A schema has the room of its place.** -/
theorem gives_readSchema :
    Gives room (readSchema : Json.Cursor → Except Json.Failure Schema) (Schema.Inside 0 room) := by
  intro c within s result
  obtain ⟨v, value, rfl⟩ := map_eq_ok_iff.mp result
  have depth := (Json.depth_canonical_le v).trans (Json.Source.depth_le_of_value value)
  exact ⟨v.canonical, within.numbers.canonical_of_value value, depth.trans within.room, rfl⟩

theorem gives_readMedia :
    Gives (room + 1) (Media.read : Json.Cursor → Except Json.Failure Media)
      fun media => ∀ s ∈ media.schema, s.Inside 0 room := by
  refine Gives.record nofun (List.forall_mem_singleton.mpr ?_)
  exact gives_readSchema.optional.field fun x given record _ => given

theorem gives_readContent :
    Gives (room + 2) (Readable.map (Media.read : Json.Cursor → Except Json.Failure Media))
      (EachContent (Schema.Inside 0 room)) :=
  gives_readMedia.map

theorem gives_readParameter :
    Gives (room + 1) (Parameter.read : Json.Cursor → Except Json.Failure Parameter)
      fun p => ∀ s ∈ p.schema, s.Inside 0 room := by
  refine Gives.record nofun fun field listed => ?_
  simp only [List.mem_cons, List.not_mem_nil, or_false] at listed
  rcases listed with rfl | rfl | rfl | rfl | rfl
  case inr.inr.inr.inl => exact gives_readSchema.optional.field fun x given record _ => given
  all_goals exact (gives_something _).field fun x _ record holds => holds

theorem gives_readBody :
    Gives (room + 3) (RequestBody.read : Json.Cursor → Except Json.Failure RequestBody)
      fun b => EachContent (Schema.Inside 0 room) b.content := by
  refine Gives.record (List.forall_mem_nil _) fun field listed => ?_
  simp only [List.mem_cons, List.not_mem_nil, or_false] at listed
  rcases listed with rfl | rfl | rfl
  case inr.inr => exact gives_readContent.field fun x given record _ => given
  all_goals exact (gives_something _).field fun x _ record holds => holds

theorem gives_readResponse :
    Gives (room + 3) (Response.read : Json.Cursor → Except Json.Failure Response)
      fun r => EachContent (Schema.Inside 0 room) r.content := by
  refine Gives.record (List.forall_mem_nil _) fun field listed => ?_
  simp only [List.mem_cons, List.not_mem_nil, or_false] at listed
  rcases listed with rfl | rfl
  case inr => exact gives_readContent.field fun x given record _ => given
  exact (gives_something _).field fun x _ record holds => holds

/-- The schemas of an operation. Those of parameters stand outermost, so the others have no more
room than they do. -/
theorem gives_readOperation :
    Gives (room + 3) (Operation.read : Json.Cursor → Except Json.Failure Operation)
      (Operation.Each (Schema.Inside 0 room)) := by
  refine Gives.record ?blank fun field listed => ?keeps
  case blank =>
    exact
      { parameters := List.forall_mem_nil _, body := nofun, responses := List.forall_mem_nil _ }
  have body : Gives (room + 2) (Readable.optional RequestBody.read) fun x =>
      ∀ b ∈ x, EachContent (Schema.Inside 0 room) b.content :=
    gives_readBody.optional.mono (Nat.le_succ _)
  have responses : Gives (room + 2) (Readable.map Response.read) fun entries =>
      ∀ entry ∈ entries, EachContent (Schema.Inside 0 room) entry.2.content :=
    gives_readResponse.map.mono (by omega)
  simp only [List.mem_cons, List.not_mem_nil, or_false] at listed
  rcases listed with rfl | rfl | rfl | rfl | rfl | rfl | rfl
  case inr.inr.inr.inr.inl =>
    exact gives_readParameter.list.field fun x given record holds =>
      { holds with parameters := given }
  case inr.inr.inr.inr.inr.inl =>
    exact body.field fun x given record holds => { holds with body := given }
  case inr.inr.inr.inr.inr.inr =>
    exact responses.field fun x given record holds => { holds with responses := given }
  all_goals exact (gives_something _).field fun x _ record holds => { holds with }

theorem gives_readItem :
    Gives (room + 3) (PathItem.read : Json.Cursor → Except Json.Failure PathItem)
      (PathItem.Each (Schema.Inside 0 room)) := by
  refine Gives.record ?blank fun field listed => ?keeps
  case blank =>
    have absent : ∀ o ∈ (none : Option Operation), o.Each (Schema.Inside 0 room) := nofun
    exact
      { parameters := List.forall_mem_nil _, get := absent, post := absent, put := absent
        patch := absent, delete := absent }
  have operation : Gives (room + 2) (Readable.optional Operation.read) fun x =>
      ∀ o ∈ x, o.Each (Schema.Inside 0 room) :=
    gives_readOperation.optional.mono (Nat.le_succ _)
  simp only [List.mem_cons, List.not_mem_nil, or_false] at listed
  rcases listed with rfl | rfl | rfl | rfl | rfl | rfl | rfl | rfl | rfl
  · exact operation.field fun x given record holds => { holds with get := given }
  · exact operation.field fun x given record holds => { holds with post := given }
  · exact operation.field fun x given record holds => { holds with put := given }
  · exact operation.field fun x given record holds => { holds with patch := given }
  · exact operation.field fun x given record holds => { holds with delete := given }
  -- three methods are forgotten
  · exact operation.field fun x _ record holds => holds
  · exact operation.field fun x _ record holds => holds
  · exact operation.field fun x _ record holds => holds
  · exact gives_readParameter.list.field fun x given record holds =>
      { holds with parameters := given }

theorem gives_readComponents :
    Gives (room + 2) (Components.read : Json.Cursor → Except Json.Failure Components)
      fun c => ∀ entry ∈ c.schemas, entry.2.Inside 0 room := by
  refine Gives.record (List.forall_mem_nil _) (List.forall_mem_singleton.mpr ?_)
  exact gives_readSchema.map.field fun x given record _ => given

/-- **The schemas of a document have the room that is left for them.** -/
theorem gives_read :
    Gives (room + 5) (read : Json.Cursor → Except Json.Failure Document)
      (Each (Schema.Inside 0 (room + 2)) (Schema.Inside 0 room)) := by
  refine Gives.record ⟨nofun, List.forall_mem_nil _⟩ fun field listed => ?_
  have components : Gives (room + 4) (Readable.optional Components.read) fun x =>
      ∀ c ∈ x, ∀ entry ∈ c.schemas, entry.2.Inside 0 (room + 2) :=
    gives_readComponents.optional
  simp only [List.mem_cons, List.not_mem_nil, or_false] at listed
  rcases listed with rfl | rfl | rfl | rfl
  · exact (gives_something _).field fun x _ record holds => holds
  · exact (gives_something _).field fun x _ record holds => { holds with }
  · exact gives_readItem.map.field fun x given record holds => { holds with paths := given }
  · exact components.field fun x given record holds => { holds with schemas := given }

end Document

end ClientGen
