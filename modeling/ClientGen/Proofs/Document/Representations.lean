import ClientGen.Proofs.Document.Correspondence
import ClientGen.Proofs.Document.Reordering
import ClientGen.Proofs.Document.Reports

/-!
# The representations that clients speak

Bodies of requests and responses are declared in several media types. One of them is chosen by rank,
the chosen media type is looked up again, and the schema is that of the entry which is found.

* `Document.Speaks` — the entry at the first place of least rank.
* `Document.speaks_of_preferredMedia?` — what is chosen by rank is found again in this entry.
* `Document.Operation.Represented` — an operation whose body and responses are in the media types
  that speak, with the shapes and kinds that belong to them.
* `Document.byRank_describe` — the operations of a description are like this.

Nothing is assumed about the media types of a content. Where one stands twice, both entries have one
rank, so that the first of them is the one chosen and also the one that is looked up.
-/

namespace ClientGen

namespace Document

/-! ## The entry that speaks -/

/-- **An entry speaks for a content**: it stands at the first place of least rank. -/
def Speaks (content : OrderedMap Media) (entry : String × Media) : Prop :=
  ∃ position, FirstLeast (content.map fun entry => MediaType.rank entry.1) position ∧
    content[position]? = some entry

theorem Speaks.unique {content : OrderedMap Media} {entry other : String × Media}
    (speaks : Speaks content entry) (again : Speaks content other) : entry = other := by
  obtain ⟨position, first, here⟩ := speaks
  obtain ⟨position', first', here'⟩ := again
  rw [first.unique first', here'] at here
  exact (Option.some.inj here).symm

/-- What is chosen by rank is found again in its own entry. -/
theorem speaks_of_preferredMedia? {content : OrderedMap Media} {entry : String × Media}
    (preferred : preferredMedia? content = some entry) : Speaks content entry := by
  obtain ⟨mediaType, chosen, found⟩ := Option.bind_eq_some_iff.mp preferred
  obtain ⟨media, looked, rfl⟩ := Option.map_eq_some_iff.mp found
  obtain ⟨position, first, here⟩ := MediaType.preferred?_eq_some.mp chosen
  simp only [List.map_map, Function.comp_def] at first
  rw [List.getElem?_map] at here
  obtain ⟨entry, listed, rfl⟩ := Option.map_eq_some_iff.mp here
  refine ⟨position, first, ?_⟩
  obtain ⟨n, least, -, earlier⟩ := first
  obtain rfl : MediaType.rank entry.1 = n := by
    rw [List.getElem?_map, listed, Option.map_some] at least
    exact Option.some.inj least
  obtain ⟨before, after, rfl, absent⟩ := List.lookup_eq_some_iff.mp looked
  have found : (before ++ (entry.1, media) :: after)[before.length]? = some (entry.1, media) := by
    rw [List.getElem?_append_right (Nat.le_refl _), Nat.sub_self]
    rfl
  rcases Nat.lt_trichotomy position before.length with less | rfl | greater
  · -- the look-up stops no later than at the place that is chosen
    rw [List.getElem?_append_left less] at listed
    simpa using absent entry (List.mem_of_getElem? listed)
  · exact found
  · -- and no earlier, as an entry of this media type has the least rank
    refine absurd ?_ (earlier before.length greater)
    rw [List.getElem?_map, found, Option.map_some]

/-! ## Bodies and responses -/

/-- **A representation in the media type that speaks.** -/
structure Represents (content : OrderedMap Media) (media : Media) (mediaType : String)
    (shape : Shape) (kind : ContentKind) : Prop where
  /-- The media type is the one that is preferred among those that are declared. -/
  picked : MediaType.preferred? (content.map (·.1)) = some mediaType
  /-- The entry is the one that speaks, with its media type as it is declared. -/
  speaks : Speaks content (mediaType, media)
  /-- The shape is that of the schema of this entry. -/
  typed : ∀ s ∈ media.schema, ∀ place, shape = (s.shape place).value.sorted
  /-- A missing schema is any value. -/
  untyped : media.schema = none → shape = .unknown
  /-- The kind is that of the rank. -/
  classified : MediaType.kinds[MediaType.rank mediaType]? = some kind

/-- **A body in the media type that speaks.** It is left out if there is no media type. -/
structure RequestBody.Represented (b : RequestBody) (body : Option Body) : Prop where
  /-- Nothing speaks for an empty content. -/
  empty : b.content = [] → body = none
  /-- Otherwise there is a body in what speaks. -/
  spoken : b.content ≠ [] → ∃ q, body = some q ∧
    ∃ media, Represents b.content media q.mediaType q.shape q.kind

/-- **A response in the media type that speaks.** It has no body if there is no media type. -/
structure Response.Represented (entry : String × Response) (r : ClientGen.Response) : Prop where
  /-- The status is the one that is declared. -/
  status : r.status = entry.1
  /-- Nothing speaks for an empty content. -/
  empty : entry.2.content = [] → r.mediaType = none ∧ r.shape = none ∧ r.kind = .unknown
  /-- Otherwise there is a body in what speaks. -/
  spoken : entry.2.content ≠ [] → ∃ mediaType shape, r.mediaType = some mediaType ∧
    r.shape = some shape ∧ ∃ media, Represents entry.2.content media mediaType shape r.kind

/-- **An operation whose body and responses are in the media types that speak**, responses in some
order. -/
structure Operation.Represented (declared : Operation) (op : ClientGen.Operation) : Prop where
  /-- There is a body only if one is declared. -/
  bodiless : declared.body = none → op.body = none
  /-- The body is in the media type that speaks. -/
  body : ∀ b ∈ declared.body, b.Represented op.body
  /-- The responses are in the media types that speak. -/
  responses : ∃ rs, rs.Perm op.responses ∧
    List.Forall₂ Response.Represented declared.responses rs

/-- The preferred entry represents its content. -/
theorem represents_of_preferredMedia? {content : OrderedMap Media} {mediaType : String}
    {media : Media} (preferred : preferredMedia? content = some (mediaType, media)) :
    Represents content media mediaType (outlineOrUnknown media.schema).sorted
      (MediaType.kind mediaType) where
  picked := by
    obtain ⟨chosen, picked, found⟩ := Option.bind_eq_some_iff.mp preferred
    obtain ⟨_, _, same⟩ := Option.map_eq_some_iff.mp found
    rw [picked, (Prod.mk.inj same).1]
  speaks := speaks_of_preferredMedia? preferred
  typed s present place := by
    rw [Option.mem_def.mp present, s.value_shape]
    rfl
  untyped absent := by
    rw [absent]
    rfl
  classified := MediaType.getElem?_kinds_rank mediaType

/-- There is a preferred entry unless there is none at all. -/
theorem exists_preferredMedia? {content : OrderedMap Media} (nonempty : content ≠ []) :
    ∃ mediaType media, preferredMedia? content = some (mediaType, media) := by
  obtain ⟨⟨mediaType, media⟩, preferred⟩ :=
    Option.ne_none_iff_exists'.mp (mt preferredMedia?_eq_none.mp nonempty)
  exact ⟨mediaType, media, preferred⟩

theorem RequestBody.represented_outline (b : RequestBody) :
    b.Represented (b.outline?.map sortedBody) where
  empty none := by rw [outline?, preferredMedia?_eq_none.mpr none]; rfl
  spoken nonempty := by
    obtain ⟨mediaType, media, preferred⟩ := exists_preferredMedia? nonempty
    simp only [outline?, preferred, Option.map_some, sortedBody, Option.some_inj, exists_eq_left']
    exact ⟨media, represents_of_preferredMedia? preferred⟩

theorem Response.represented_outline (entry : String × Response) :
    Response.Represented entry (sortedResponse (entry.2.outline entry.1)) where
  status := rfl
  empty none := by
    rw [outline, preferredMedia?_eq_none.mpr none]
    exact ⟨rfl, rfl, rfl⟩
  spoken nonempty := by
    obtain ⟨mediaType, media, preferred⟩ := exists_preferredMedia? nonempty
    simp only [outline, preferred, Option.map_some, Option.getD_some, sortedResponse]
    exact ⟨mediaType, _, rfl, rfl, media, represents_of_preferredMedia? preferred⟩

/-- The outline of an operation is in the media types that speak. -/
theorem Endpoint.represented_outline (defaultTag id : String) (e : Endpoint) :
    e.operation.Represented (e.outline defaultTag id).sorted := by
  refine
    { bodiless := fun none => ?bodiless
      body := fun b declared => ?body
      responses := ⟨_, (List.mergeSort_perm _ _).symm, ?responses⟩ }
  case bodiless => simp [sorted_operation, outline, none]
  case body =>
    simpa [sorted_operation, outline, Option.mem_def.mp declared] using b.represented_outline
  case responses =>
    simp only [ClientGen.Operation.mapShapes, outline, List.map_map]
    refine List.forall₂_map_right_iff.mpr (List.forall₂_same.mpr fun entry _ => ?_)
    exact Response.represented_outline entry

/-- **Media types are chosen by rank**, and the body and the responses of every operation are in the
media types that are chosen from the declared ones. -/
theorem byRank_describe :
    MediaType.ByRank MediaType.preferred? MediaType.kind ∧
      ∀ (doc : Document) (defaultTag : String),
        ∀ op ∈ (doc.describe defaultTag).value.api.operations,
          ∃ item declared, (op.path, item) ∈ doc.paths ∧
            item.operation? op.method = some declared ∧ declared.Represented op := by
  refine ⟨MediaType.byRank_preferred?, fun doc defaultTag op listed => ?_⟩
  obtain ⟨e, member, same, -⟩ := exists_endpoint listed
  obtain ⟨path, declared⟩ := e.listed member
  rw [same]
  exact ⟨e.item, e.operation, path, declared, e.represented_outline defaultTag op.id⟩

/-- Three representations, of which the second one and the third one are JSON. -/
def uploadContent : OrderedMap Media :=
  [("text/plain", {}), (" Application/JSON ; q=1", { schema := some (namedSchema "integer") }),
    ("application/json", { schema := some (namedSchema "string") })]

/-- A document that takes these representations. -/
def uploads : Document :=
  { paths := [("/uploads", { post := some { body := some { content := uploadContent } } })] }

theorem byRank_uploads : ∃ op ∈ (uploads.describe "default").value.api.operations,
    op.body.map (fun q => (q.mediaType, q.kind)) = some (" Application/JSON ; q=1", .json) := by
  have declares : uploads.Declares "/uploads" .post := ⟨_, List.mem_singleton_self _, rfl⟩
  obtain ⟨op, listed, samePath, sameMethod⟩ := exists_operation declares "default"
  obtain ⟨item, declared, path, method, represented⟩ :=
    byRank_describe.2 uploads "default" op listed
  rw [samePath] at path
  rw [sameMethod] at method
  obtain ⟨-, rfl⟩ := Prod.mk.inj (List.mem_singleton.mp path)
  cases method
  have nonempty : uploadContent ≠ [] := List.cons_ne_nil _ _
  obtain ⟨q, present, media, represents⟩ := (represented.body _ rfl).spoken nonempty
  have ranks : uploadContent.map (fun entry => MediaType.rank entry.1) = [3, 0, 0] := by decide
  have speaks : Speaks uploadContent
      (" Application/JSON ; q=1", { schema := some (namedSchema "integer") }) := by
    refine ⟨1, ?_, rfl⟩
    rw [ranks]
    exact ⟨0, rfl, by decide, by decide⟩
  obtain ⟨mediaType, -⟩ := Prod.mk.inj (represents.speaks.unique speaks)
  have json : some ContentKind.json = some q.kind := by
    rw [← represents.classified, mediaType]
    decide
  refine ⟨op, listed, ?_⟩
  rw [present, Option.map_some, mediaType, ← Option.some.inj json]

end Document

end ClientGen
