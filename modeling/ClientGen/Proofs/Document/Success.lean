import ClientGen.Proofs.Api.Statuses
import ClientGen.Proofs.Document.Representations

/-!
# The success of an operation

A client treats one of the responses that an operation declares as its success: the first one in the
description whose status reads as a number from 200 to 299.

* `Document.Operation.Answered` — which response this is, and what a successful call returns.
* `Document.Redeclared` — documents that declare responses in different orders.
* `Document.answered_describe` — the operations of a description are answered, in every order.

A description lists responses in ascending order of their statuses as texts. Statuses are distinct,
so that the order in which they are declared is lost at this point, and with it all that could make
one success come before another one.
-/

namespace ClientGen

namespace Document

open Text

/-! ## What answers a successful call -/

/-- **The shape that a response answers with**: that of the representation that speaks. -/
structure Response.AnswersWith (r : Response) (shape : Shape) : Prop where
  /-- Nothing is known of a response without representations. -/
  empty : r.content = [] → shape = .unknown
  /-- Otherwise the shape is that of what speaks. -/
  spoken : r.content ≠ [] → ∃ media mediaType kind,
    Represents r.content media mediaType shape kind

/-- **An operation is answered** by the first success among its responses. -/
structure Operation.Answered (declared : Operation) (op : ClientGen.Operation) : Prop where
  /-- There is a success iff one is declared. -/
  isSome_iff : op.success?.isSome ↔ ∃ entry ∈ declared.responses, IsSuccess entry.1
  /-- It is one of the responses that are declared, and the call returns what this one says. -/
  chosen : ∀ r ∈ op.success?, IsSuccess r.status ∧ ∃ d, (r.status, d) ∈ declared.responses ∧
    Response.Represented (r.status, d) r ∧ d.AnswersWith op.successShape
  /-- It comes first in the order of texts. -/
  first : ∀ r ∈ op.success?, ∀ entry ∈ declared.responses, IsSuccess entry.1 → r.status ≤ entry.1
  /-- It has the smallest number if all statuses of success have three digits. -/
  smallest : (∀ entry ∈ declared.responses, IsSuccess entry.1 → ThreeDigits entry.1) →
    ∀ r ∈ op.success?, ∀ entry ∈ declared.responses, IsSuccess entry.1 → entry.1 ≠ r.status →
      ∀ n m, Reads r.status n → Reads entry.1 m → n < m
  /-- Nothing is known of a call without a success. -/
  absent : op.success? = none → op.successShape = .unknown

/-- The responses of an outline, in the order of their statuses. -/
theorem Endpoint.responses_sorted (defaultTag id : String) (e : Endpoint) :
    (e.outline defaultTag id).sorted.responses =
      (OrderedMap.sorted e.operation.responses).map fun entry =>
        sortedResponse (entry.2.outline entry.1) :=
  sorted_responseOutlines e.operation.responses

/-- The success of an outline is the first one among the sorted responses. -/
theorem Endpoint.success?_sorted (defaultTag id : String) (e : Endpoint) :
    (e.outline defaultTag id).sorted.success? =
      ((OrderedMap.sorted e.operation.responses).find? fun entry =>
        (sortedResponse (entry.2.outline entry.1)).isSuccess).map fun entry =>
          sortedResponse (entry.2.outline entry.1) := by
  rw [ClientGen.Operation.success?, responses_sorted, List.find?_map]
  rfl

/-- The shape of the outline of a response is what the response answers with. -/
theorem Response.answersWith_outline (entry : String × Response) :
    entry.2.AnswersWith ((sortedResponse (entry.2.outline entry.1)).shape.getD .unknown) := by
  have represented := Response.represented_outline entry
  constructor
  · intro empty
    rw [(represented.empty empty).2.1]
    rfl
  · intro nonempty
    obtain ⟨mediaType, shape, -, present, media, represents⟩ := represented.spoken nonempty
    rw [present]
    exact ⟨media, mediaType, _, represents⟩

/-- The success of an outline is the outline of the first success that is declared. -/
theorem Endpoint.of_success?_sorted {defaultTag id : String} {e : Endpoint}
    {r : ClientGen.Response} (success : (e.outline defaultTag id).sorted.success? = some r) :
    ∃ entry ∈ e.operation.responses, r = sortedResponse (entry.2.outline entry.1) ∧
      IsSuccess entry.1 ∧
        ∀ other ∈ e.operation.responses, IsSuccess other.1 → entry.1 ≤ other.1 := by
  rw [success?_sorted] at success
  obtain ⟨entry, found, rfl⟩ := Option.map_eq_some_iff.mp success
  obtain ⟨declared, succeeds, least⟩ := OrderedMap.of_find?_sorted found
  exact ⟨entry, declared, rfl, Response.isSuccess_iff.mp succeeds,
    fun other listed also => least other listed (Response.isSuccess_iff.mpr also)⟩

/-- **An outline is answered.** -/
theorem Endpoint.answered_outline (defaultTag id : String) (e : Endpoint) :
    e.operation.Answered (e.outline defaultTag id).sorted where
  isSome_iff := by
    rw [success?_sorted, Option.isSome_map, List.find?_isSome]
    refine exists_congr fun entry => ?_
    rw [(OrderedMap.sorted_perm e.operation.responses).mem_iff]
    exact and_congr_right fun _ => Response.isSuccess_iff
  chosen r success := by
    obtain ⟨entry, declared, rfl, succeeds, -⟩ := of_success?_sorted success
    refine ⟨succeeds, entry.2, declared, Response.represented_outline entry, ?_⟩
    rw [ClientGen.Operation.successShape, Option.mem_def.mp success]
    exact Response.answersWith_outline entry
  first r success := by
    obtain ⟨entry, -, rfl, -, least⟩ := of_success?_sorted success
    exact least
  smallest three r success other listed also differs n m reads reads' := by
    obtain ⟨entry, declared, rfl, succeeds, least⟩ := of_success?_sorted success
    have less : entry.1 < other.1 :=
      lt_of_le_of_ne (least other listed also) (Ne.symm differs)
    exact (three entry declared succeeds).lt_of_lt (three other listed also) less reads reads'
  absent nothing := by
    rw [ClientGen.Operation.successShape, nothing]
    rfl

/-! ## Responses in other orders -/

/-- **An operation that declares its responses in another order.** Statuses are distinct, and all
the rest is the same. -/
def Operation.Redeclared (op op' : Operation) : Prop :=
  OrderedMap.Distinct op.responses ∧
    ∃ responses, op.responses.Perm responses ∧ op' = { op with responses }

/-- Paths whose operations declare responses in other orders. -/
structure PathItem.Redeclared (item item' : PathItem) : Prop where
  /-- The operation of every method declares its responses in another order. -/
  operation (method : Method) :
    Option.Rel Operation.Redeclared (item.operation? method) (item'.operation? method)
  /-- The parameters are the same. -/
  parameters : item.parameters = item'.parameters

/-- **Two documents that declare responses in different orders.** -/
structure Redeclared (doc doc' : Document) : Prop where
  /-- Title and version are the same. -/
  info : doc.info = doc'.info
  /-- Each path has operations that declare their responses in another order. -/
  paths : List.Forall₂ (fun a b => a.1 = b.1 ∧ a.2.Redeclared b.2) doc.paths doc'.paths
  /-- The schemas are the same. -/
  components : doc.components = doc'.components

/-- Operations of one path and method that declare responses in different orders. -/
structure Endpoint.Redeclared (e e' : Endpoint) : Prop where
  /-- The path is the same. -/
  path : e.path = e'.path
  /-- The method is the same. -/
  method : e.method = e'.method
  /-- The parameters of the path are the same. -/
  parameters : e.item.parameters = e'.item.parameters
  /-- The operation declares its responses in another order. -/
  operation : e.operation.Redeclared e'.operation

/-- **The order of responses is lost in the outline.** -/
theorem Endpoint.Redeclared.outline_sorted {e e' : Endpoint} (redeclared : e.Redeclared e')
    (defaultTag id : String) :
    (e.outline defaultTag id).sorted = (e'.outline defaultTag id).sorted := by
  obtain ⟨path, item, method, operation⟩ := e
  obtain ⟨path', item', method', operation'⟩ := e'
  obtain ⟨rfl, rfl, parameters, distinct, responses, perm, rfl⟩ := redeclared
  have sorted : OrderedMap.sorted operation.responses = OrderedMap.sorted responses :=
    distinct.sorted_eq_of_perm perm
  rw [sorted_operation, sorted_operation]
  simp only [outline] at parameters ⊢
  rw [sorted_responseOutlines, sorted_responseOutlines, sorted, parameters]
  rfl

theorem Endpoint.Redeclared.candidate_eq {e e' : Endpoint} (redeclared : e.Redeclared e') :
    e.candidate = e'.candidate := by
  obtain ⟨-, responses, -, operation⟩ := redeclared.operation
  rw [candidate, candidate, operation, redeclared.path, redeclared.method]

namespace Redeclared

variable {doc doc' : Document}

theorem endpoints (redeclared : doc.Redeclared doc') :
    List.Forall₂ Endpoint.Redeclared doc.endpoints doc'.endpoints := by
  refine List.rel_flatMap (OrderedMap.forall₂_sorted redeclared.paths) ?_
  rintro ⟨path, item⟩ ⟨_, item'⟩ ⟨rfl, related⟩
  exact forall₂_endpointsOf fun method =>
    (related.operation method).imp fun operation => ⟨rfl, rfl, related.parameters, operation⟩

theorem map_sorted_operationOutlines (redeclared : doc.Redeclared doc') (defaultTag : String) :
    (doc.operationOutlines defaultTag).map ClientGen.Operation.sorted =
      (doc'.operationOutlines defaultTag).map ClientGen.Operation.sorted := by
  have names : operationNames doc.endpoints = operationNames doc'.endpoints :=
    operationNames_congr (redeclared.endpoints.map_eq fun _ _ _ related => related.candidate_eq)
  unfold operationOutlines
  rw [List.map_map, List.map_map, names]
  refine (zip_forall₂ redeclared.endpoints _).map_eq ?_
  rintro ⟨id, e⟩ - ⟨_, e'⟩ ⟨rfl, related⟩
  exact related.outline_sorted defaultTag id

end Redeclared

/-- **The success of an operation does not depend on the order of declaration.** Every operation of
a description belongs to an operation of the document and is answered by the first success that this
one declares, and documents that declare responses in different orders have the same operations. -/
theorem answered_describe (doc : Document) (defaultTag : String) :
    (∀ op ∈ (doc.describe defaultTag).value.api.operations,
      ∃ item declared, (op.path, item) ∈ doc.paths ∧
        item.operation? op.method = some declared ∧ declared.Answered op) ∧
      ∀ doc', doc.Redeclared doc' →
        (doc'.describe defaultTag).value.api.operations =
          (doc.describe defaultTag).value.api.operations := by
  refine ⟨fun op listed => ?_, fun doc' redeclared => ?_⟩
  · obtain ⟨e, member, same, -⟩ := exists_endpoint listed
    obtain ⟨path, declared⟩ := e.listed member
    rw [same]
    exact ⟨e.item, e.operation, path, declared, e.answered_outline defaultTag op.id⟩
  · rw [value_describe, value_describe]
    simp only [outline, Api.sorted]
    rw [redeclared.map_sorted_operationOutlines]

/-- A document with two successes and an error. -/
def answeredPets : Document :=
  { paths := [("/pets", petPath [("404", {}), ("204", {}), ("200", petResponse)])] }

/-- The same document with its responses in another order. -/
def reansweredPets : Document :=
  { paths := [("/pets", petPath [("200", petResponse), ("404", {}), ("204", {})])] }

theorem redeclared_answeredPets : answeredPets.Redeclared reansweredPets := by
  refine { info := rfl, paths := .cons ⟨rfl, fun method => ?_, rfl⟩ .nil, components := rfl }
  cases method with
  | get =>
      have distinct : ["404", "204", "200"].Nodup := by decide
      have moved := List.perm_append_singleton ("200", petResponse) [("404", {}), ("204", {})]
      exact .some ⟨distinct, _, moved, rfl⟩
  | _ => exact .none

theorem answered_answeredPets : (∃ op ∈ (answeredPets.describe "default").value.api.operations,
    op.success?.map (·.status) = some "200") ∧
      (reansweredPets.describe "default").value.api.operations =
        (answeredPets.describe "default").value.api.operations := by
  obtain ⟨each, orders⟩ := answered_describe answeredPets "default"
  refine ⟨?_, orders reansweredPets redeclared_answeredPets⟩
  have declares : answeredPets.Declares "/pets" .get := ⟨_, List.mem_singleton_self _, rfl⟩
  obtain ⟨op, listed, samePath, sameMethod⟩ := exists_operation declares "default"
  obtain ⟨item, declared, path, method, answered⟩ := each op listed
  rw [samePath] at path
  rw [sameMethod] at method
  obtain ⟨-, rfl⟩ := Prod.mk.inj (List.mem_singleton.mp path)
  cases method
  have three : ThreeDigits "200" := ⟨rfl, List.all_eq_true.mp rfl⟩
  have succeeds : IsSuccess "200" := ⟨200, three.reads, by decide, by decide⟩
  have member : ("200", petResponse) ∈
      [("404", ({} : Response)), ("204", {}), ("200", petResponse)] := by simp
  obtain ⟨r, success⟩ := Option.isSome_iff_exists.mp
    (answered.isSome_iff.mpr ⟨_, member, succeeds⟩)
  obtain ⟨-, d, among, -⟩ := answered.chosen r success
  have least : r.status ≤ "200" := answered.first r success _ member succeeds
  refine ⟨op, listed, ?_⟩
  rw [success, Option.map_some, Option.some_inj]
  have statuses : r.status ∈ ["404", "204", "200"] := List.mem_map_of_mem (f := Prod.fst) among
  simp only [List.mem_cons, List.not_mem_nil, or_false] at statuses
  rcases statuses with same | same | same
  · rw [same] at least
    exact absurd least (by decide)
  · rw [same] at least
    exact absurd least (by decide)
  · exact same

end Document

end ClientGen
