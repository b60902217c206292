import ClientGen.Proofs.Document.Nodes
import ClientGen.Proofs.Document.Reading
import ClientGen.Proofs.Schema.Reading

/-!
# Maps of documents that were read

A map that is read has each key once, and so has every map inside of what is read for a key. So no
map of a document that was read has a key twice, however deep it stands.

* `LawfulCollections` — what lists and maps hold was read.
* `Document.mapsDistinct_of_parse` — the maps of a document that was read have distinct keys.

There is one lemma for each kind of node: its record starts blank, and what its parts have to be is
kept field by field.
-/

namespace ClientGen

/-- **A kind of tree whose collections are lawful**: what is in a list or a map was read. -/
class LawfulCollections (σ : Type) (m : outParam (Type → Type)) [Monad m] [Readable σ m] extends
    LawfulReadable σ m where
  /-- An item of a list was read. -/
  exists_of_mem_list {α : Type} {read : σ → m α} {tree : σ} {items : List α} :
    Yields (Readable.list read tree) items → ∀ item ∈ items, ∃ part, Yields (read part) item
  /-- A value of a map was read. -/
  exists_of_mem_map {α : Type} {read : σ → m α} {tree : σ} {entries : OrderedMap α} :
    Yields (Readable.map read tree) entries →
      ∀ entry ∈ entries, ∃ part, Yields (read part) entry.2

/-! ## JSON -/

namespace Json.Cursor

variable {α β : Type}

/-- Each item of a list was read from a part of what the list was read from. -/
theorem exists_of_mem_list {read : Cursor → Except Failure α} {c : Cursor} {items : List α}
    (result : list read c = .ok items) :
    ∀ item ∈ items, ∃ part, c.Part part ∧ read part = .ok item := by
  unfold list at result
  split at result
  · rename_i source
    obtain ⟨room, entered, result⟩ := bind_eq_ok_iff.mp result
    obtain ⟨listed, walk, result⟩ := bind_eq_ok_iff.mp result
    obtain ⟨-, -, result⟩ := bind_eq_ok_iff.mp result
    obtain rfl := Except.ok.inj result
    intro item member
    obtain ⟨part, inside, read⟩ := exists_of_mem_mapM walk item member
    exact ⟨_, Part.of_items source entered part inside, read⟩
  · cases result

/-- Each value of a map was read from a part of what the map was read from. -/
theorem exists_of_mem_map {read : Cursor → Except Failure α} {c : Cursor} {entries : OrderedMap α}
    (result : map read c = .ok entries) :
    ∀ entry ∈ entries, ∃ part, c.Part part ∧ read part = .ok entry.2 := by
  unfold map at result
  split at result
  · rename_i source
    obtain ⟨room, entered, result⟩ := bind_eq_ok_iff.mp result
    obtain ⟨listed, walk, result⟩ := bind_eq_ok_iff.mp result
    obtain ⟨-, -, result⟩ := bind_eq_ok_iff.mp result
    obtain rfl := Except.ok.inj result
    intro entry member
    obtain ⟨m, listed, read⟩ := exists_of_mem_mapM walk entry
      (OrderedMap.mem_of_mem_ofEntries member)
    obtain ⟨name, -, read⟩ := bind_eq_ok_iff.mp read
    obtain ⟨value, inside, same⟩ := bind_eq_ok_iff.mp read
    obtain rfl := Except.ok.inj same
    exact ⟨_, Part.of_members source entered m listed, inside⟩
  · cases result

instance : LawfulCollections Cursor (Except Failure) where
  exists_of_mem_list result item member :=
    (exists_of_mem_list result item member).imp fun _ => And.right
  exists_of_mem_map result entry member :=
    (exists_of_mem_map result entry member).imp fun _ => And.right

end Json.Cursor

/-! ## YAML -/

namespace Yaml.Cursor

variable {α β : Type}

/-- What is among the results of a walk along a list is the result of a step. -/
theorem exists_of_mem_mapM {f : α → Following β} {items : List α} {results : List β}
    (read : Yields (items.mapM f) results) : ∀ b ∈ results, ∃ a ∈ items, Yields (f a) b := by
  induction items generalizing results with
  | nil =>
      obtain rfl := eq_of_yields_pure read
      exact List.forall_mem_nil _
  | cons item items ih =>
      rw [List.mapM_cons] at read
      obtain ⟨first, here, read⟩ := exists_of_bind read
      obtain ⟨rest, later, read⟩ := exists_of_bind read
      obtain rfl := eq_of_yields_pure read
      refine List.forall_mem_cons.mpr ⟨⟨item, List.mem_cons_self .., here⟩, fun b member => ?_⟩
      obtain ⟨a, listed, read⟩ := ih later b member
      exact ⟨a, List.mem_cons_of_mem _ listed, read⟩

theorem exists_of_mem_list {read : Cursor → Following α} {c : Cursor} {items : List α}
    (result : Yields (list read c) items) : ∀ item ∈ items, ∃ part, Yields (read part) item := by
  obtain ⟨node, -, result⟩ := exists_of_bind result
  split at result
  · obtain ⟨room, -, result⟩ := exists_of_bind result
    intro item member
    obtain ⟨source, -, read⟩ := exists_of_mem_mapM result item member
    exact ⟨_, read⟩
  · split at result
    · obtain rfl := eq_of_yields_pure result
      exact List.forall_mem_nil _
    · exact absurd result not_yields_refuse

theorem exists_of_mem_map {read : Cursor → Following α} {c : Cursor} {entries : OrderedMap α}
    (result : Yields (map read c) entries) :
    ∀ entry ∈ entries, ∃ part, Yields (read part) entry.2 := by
  obtain ⟨node, -, result⟩ := exists_of_bind result
  split at result
  · obtain ⟨room, -, result⟩ := exists_of_bind result
    obtain ⟨listed, walk, result⟩ := exists_of_bind result
    obtain rfl := eq_of_yields_pure result
    intro entry member
    obtain ⟨source, -, read⟩ := exists_of_mem_mapM walk entry
      (OrderedMap.mem_of_mem_ofEntries member)
    obtain ⟨name, -, read⟩ := exists_of_bind read
    obtain ⟨value, inside, same⟩ := exists_of_bind read
    obtain rfl := eq_of_yields_pure same
    exact ⟨_, inside⟩
  · split at result
    · obtain rfl := eq_of_yields_pure result
      exact List.forall_mem_nil _
    · exact absurd result not_yields_refuse

instance : LawfulCollections Cursor Following where
  exists_of_mem_list := exists_of_mem_list
  exists_of_mem_map := exists_of_mem_map

end Yaml.Cursor

/-! ## Parts that were read -/

namespace Document

open LawfulReadable LawfulCollections Node

section

variable {σ : Type} {m : Type → Type} [Monad m] [Readable σ m] [LawfulCollections σ m]
  {α : Type} {P : α → Prop} {read : σ → m α} {tree : σ}

/-- What may be absent is as everything that is read. -/
theorem forall_of_optional (each : ∀ tree a, Yields σ (read tree) a → P a) {x : Option α}
    (reads : Yields σ (Readable.optional read tree) x) : ∀ a ∈ x, P a := by
  rintro a rfl
  obtain ⟨part, reads⟩ := exists_of_optional reads
  exact each part a reads

/-- The items of a list are as everything that is read. -/
theorem forall_of_list (each : ∀ tree a, Yields σ (read tree) a → P a) {items : List α}
    (reads : Yields σ (Readable.list read tree) items) : ∀ a ∈ items, P a := by
  intro a member
  obtain ⟨part, reads⟩ := exists_of_mem_list reads a member
  exact each part a reads

/-- The values of a map are as everything that is read. -/
theorem forall_of_map (each : ∀ tree a, Yields σ (read tree) a → P a) {entries : OrderedMap α}
    (reads : Yields σ (Readable.map read tree) entries) : ∀ entry ∈ entries, P entry.2 := by
  intro entry member
  obtain ⟨part, reads⟩ := exists_of_mem_map reads entry member
  exact each part entry.2 reads

end

section

variable {σ : Type} {m : Type → Type} [Monad m] [Readable σ m] [LawfulCollections σ m]

/-- The maps of a schema that was read have distinct keys, at any depth. -/
theorem mapsDistinct_of_readSchema (tree : σ) (s : Schema) (reads : Yields σ (readSchema tree) s) :
    (schema s).MapsDistinct := by
  obtain ⟨v, -, rfl⟩ := exists_of_map reads
  exact mapsDistinct_schema_iff.mpr (Schema.keysDistinct_ofJson v.canonical_canonical)

theorem forall_of_readMedia (tree : σ) (media : Media) (reads : Yields σ (Media.read tree) media) :
    ∀ s ∈ media.schema, (schema s).MapsDistinct := by
  refine invariant (P := fun media : Media => ∀ s ∈ media.schema, (schema s).MapsDistinct)
    ?blank ?keeps reads
  case blank =>
    intro s given
    cases given
  intro field listed part change reads media holds
  obtain rfl := List.mem_singleton.mp listed
  obtain ⟨x, given, rfl⟩ := exists_of_map reads
  exact forall_of_optional mapsDistinct_of_readSchema given

/-- Representations are a map themselves, with schemas inside. -/
theorem soundContent_of_map {tree : σ} {content : OrderedMap Media}
    (reads : Yields σ (Readable.map Media.read tree) content) : SoundContent content where
  distinct := distinct_of_map reads
  schemas := forall_of_map forall_of_readMedia reads

theorem mapsDistinct_of_readParameter (tree : σ) (p : Parameter)
    (reads : Yields σ (Parameter.read tree) p) : (Node.parameter p).MapsDistinct := by
  suffices ∀ s ∈ p.schema, (schema s).MapsDistinct by
    refine mapsDistinct_iff.mpr ⟨trivial, fun child listed => ?_⟩
    obtain ⟨s, given, rfl⟩ := List.mem_map.mp listed
    exact this s (Option.mem_toList.mp given)
  refine invariant (P := fun p : Parameter => ∀ s ∈ p.schema, (schema s).MapsDistinct)
    ?blank ?keeps reads
  case blank =>
    intro s given
    cases given
  intro field listed part change reads p holds
  simp only [List.mem_cons, List.not_mem_nil, or_false] at listed
  rcases listed with rfl | rfl | rfl | rfl | rfl
  all_goals obtain ⟨x, given, rfl⟩ := exists_of_map reads
  case inr.inr.inr.inl => exact forall_of_optional mapsDistinct_of_readSchema given
  all_goals exact holds

theorem mapsDistinct_of_readBody (tree : σ) (b : RequestBody)
    (reads : Yields σ (RequestBody.read tree) b) : (Node.body b).MapsDistinct := by
  suffices SoundContent b.content from mapsDistinct_iff.mpr ⟨this.distinct, this.mapsDistinct⟩
  refine invariant (P := fun b : RequestBody => SoundContent b.content) ?blank ?keeps reads
  case blank => exact ⟨List.nodup_nil, List.forall_mem_nil _⟩
  intro field listed part change reads b holds
  simp only [List.mem_cons, List.not_mem_nil, or_false] at listed
  rcases listed with rfl | rfl | rfl
  all_goals obtain ⟨x, given, rfl⟩ := exists_of_map reads
  case inr.inr => exact soundContent_of_map given
  all_goals exact holds

theorem mapsDistinct_of_readResponse (tree : σ) (r : Response)
    (reads : Yields σ (Response.read tree) r) : (Node.response r).MapsDistinct := by
  suffices SoundContent r.content from mapsDistinct_iff.mpr ⟨this.distinct, this.mapsDistinct⟩
  refine invariant (P := fun r : Response => SoundContent r.content) ?blank ?keeps reads
  case blank => exact ⟨List.nodup_nil, List.forall_mem_nil _⟩
  intro field listed part change reads r holds
  simp only [List.mem_cons, List.not_mem_nil, or_false] at listed
  rcases listed with rfl | rfl
  all_goals obtain ⟨x, given, rfl⟩ := exists_of_map reads
  case inr => exact soundContent_of_map given
  exact holds

/-- An operation that was read holds two kinds of maps: its responses, and the representations
inside. -/
theorem mapsDistinct_of_readOperation (tree : σ) (o : Operation)
    (reads : Yields σ (Operation.read tree) o) : (Node.operation o).MapsDistinct := by
  refine Operation.Sound.mapsDistinct (invariant (P := Operation.Sound) ?blank ?keeps reads)
  case blank =>
    exact
      { parameters := List.forall_mem_nil _, body := fun b declared => by cases declared
        distinct := List.nodup_nil, responses := List.forall_mem_nil _ }
  intro field listed part change reads o holds
  simp only [List.mem_cons, List.not_mem_nil, or_false] at listed
  rcases listed with rfl | rfl | rfl | rfl | rfl | rfl | rfl
  all_goals obtain ⟨x, given, rfl⟩ := exists_of_map reads
  -- parameters, the body and responses have parts, and the other fields have none
  case inr.inr.inr.inr.inl =>
    exact { holds with parameters := forall_of_list mapsDistinct_of_readParameter given }
  case inr.inr.inr.inr.inr.inl =>
    exact { holds with body := forall_of_optional mapsDistinct_of_readBody given }
  case inr.inr.inr.inr.inr.inr =>
    have responses := forall_of_map mapsDistinct_of_readResponse given
    exact { holds with distinct := distinct_of_map given, responses }
  all_goals exact { holds with }

theorem mapsDistinct_of_readItem (tree : σ) (i : PathItem)
    (reads : Yields σ (PathItem.read tree) i) : (item i).MapsDistinct := by
  refine PathItem.Sound.mapsDistinct (invariant (P := PathItem.Sound) ?blank ?keeps reads)
  case blank =>
    have absent : ∀ o ∈ (none : Option Operation), (Node.operation o).MapsDistinct := nofun
    exact
      { parameters := List.forall_mem_nil _, get := absent, post := absent, put := absent
        patch := absent, delete := absent }
  intro field listed part change reads i holds
  have operation {x : Option Operation}
      (given : Yields σ (Readable.optional Operation.read part) x) :
      ∀ o ∈ x, (Node.operation o).MapsDistinct :=
    forall_of_optional mapsDistinct_of_readOperation given
  simp only [List.mem_cons, List.not_mem_nil, or_false] at listed
  rcases listed with rfl | rfl | rfl | rfl | rfl | rfl | rfl | rfl | rfl
  all_goals obtain ⟨x, given, rfl⟩ := exists_of_map reads
  · exact { holds with get := operation given }
  · exact { holds with post := operation given }
  · exact { holds with put := operation given }
  · exact { holds with patch := operation given }
  · exact { holds with delete := operation given }
  -- three methods are forgotten
  · exact holds
  · exact holds
  · exact holds
  · exact { holds with parameters := forall_of_list mapsDistinct_of_readParameter given }

theorem sound_of_readComponents (tree : σ) (c : Components)
    (reads : Yields σ (Components.read tree) c) : c.Sound := by
  refine invariant (P := Components.Sound) ?blank ?keeps reads
  case blank => exact ⟨List.nodup_nil, List.forall_mem_nil _⟩
  intro field listed part change reads c holds
  obtain rfl := List.mem_singleton.mp listed
  obtain ⟨schemas, map, rfl⟩ := exists_of_map reads
  exact ⟨distinct_of_map map, forall_of_map mapsDistinct_of_readSchema map⟩

/-- **The maps of a document that was read have distinct keys**, at any depth and in every
notation. -/
theorem mapsDistinct_of_read {tree : σ} {doc : Document} (reads : Yields σ (read tree) doc) :
    doc.MapsDistinct := by
  refine Sound.mapsDistinct (invariant (P := Sound) ?blank ?keeps reads)
  case blank => exact ⟨List.nodup_nil, List.forall_mem_nil _, fun c given => by cases given⟩
  intro field listed part change reads doc holds
  simp only [List.mem_cons, List.not_mem_nil, or_false] at listed
  rcases listed with rfl | rfl | rfl | rfl
  all_goals obtain ⟨x, given, rfl⟩ := exists_of_map reads
  · exact holds
  · exact { holds with }
  · have paths := forall_of_map mapsDistinct_of_readItem given
    exact { holds with distinct := distinct_of_map given, paths }
  · exact { holds with components := forall_of_optional sound_of_readComponents given }

end

/-- **The maps of a document have distinct keys, whatever text it was read from.** -/
theorem mapsDistinct_of_parse {format : Notation} {text : String} {doc : Document}
    (parsed : parse format text = .ok doc) : doc.MapsDistinct := by
  rcases yields_of_parse parsed with ⟨tree, reads⟩ | ⟨tree, reads⟩
  · exact mapsDistinct_of_read reads
  · exact mapsDistinct_of_read reads

end Document

end ClientGen
