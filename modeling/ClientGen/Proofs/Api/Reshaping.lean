import ClientGen.Api.Basic
import Mathlib.Data.List.Forall2

/-!
# Descriptions with other shapes

A pass over a description that replaces its shapes leaves everything else alone. The parts before
and after such a pass are related here, for any relation of shapes.

* `Parameter.Reshaped` and its siblings — one part, with a related shape.
* `Operation.Reshaped` — an operation whose parts are reshaped, each in its place.
* `Operation.reshaped_iff` — for the images under a function, this is `Operation.mapShapes`.
-/

namespace ClientGen

variable (S : Shape → Shape → Prop)

/-- A parameter with another shape. -/
structure Parameter.Reshaped (p q : Parameter) : Prop where
  /-- The shapes are related. -/
  shape : S p.shape q.shape
  /-- All else is the same. -/
  rest : { q with shape := p.shape } = p

/-- A body with another shape. -/
structure Body.Reshaped (b c : Body) : Prop where
  /-- The shapes are related. -/
  shape : S b.shape c.shape
  /-- All else is the same. -/
  rest : { c with shape := b.shape } = b

/-- A response with another shape, if it has one. -/
structure Response.Reshaped (r s : Response) : Prop where
  /-- The shapes are related. -/
  shape : Option.Rel S r.shape s.shape
  /-- All else is the same. -/
  rest : { s with shape := r.shape } = r

/-- A model with another shape. -/
structure Model.Reshaped (m n : Model) : Prop where
  /-- The shapes are related. -/
  shape : S m.shape n.shape
  /-- All else is the same. -/
  rest : { n with shape := m.shape } = m

/-- **An operation with other shapes**, each in its place. -/
structure Operation.Reshaped (op other : Operation) : Prop where
  /-- The parameters have related shapes. -/
  parameters : List.Forall₂ (Parameter.Reshaped S) op.parameters other.parameters
  /-- The bodies have related shapes. -/
  body : Option.Rel (Body.Reshaped S) op.body other.body
  /-- The responses have related shapes. -/
  responses : List.Forall₂ (Response.Reshaped S) op.responses other.responses
  /-- All else is the same. -/
  rest : { other with parameters := op.parameters, body := op.body, responses := op.responses } = op

variable {S}

/-! ## Images of shapes -/

/-- Related to their images are lists if their entries are. -/
theorem forall₂_iff_eq_map {α β : Type} {R : α → β → Prop} {f : α → β}
    (image : ∀ a b, R a b ↔ b = f a) {as : List α} {bs : List β} :
    List.Forall₂ R as bs ↔ bs = as.map f := by
  have same : R = fun a b => f a = b := by
    funext a b
    exact propext ((image a b).trans eq_comm)
  rw [same, ← List.forall₂_map_left_iff, List.forall₂_eq_eq_eq, eq_comm]

theorem optionRel_iff_eq_map {α β : Type} {R : α → β → Prop} {f : α → β}
    (image : ∀ a b, R a b ↔ b = f a) {a : Option α} {b : Option β} :
    Option.Rel R a b ↔ b = a.map f := by
  constructor
  · intro related
    cases related with
    | none => rfl
    | some related => exact congrArg some ((image _ _).mp related)
  · rintro rfl
    cases a with
    | none => exact .none
    | some a => exact .some ((image _ _).mpr rfl)

section

variable {f : Shape → Shape} (image : ∀ s t, S s t ↔ t = f s)

include image

theorem Parameter.reshaped_iff {p q : Parameter} :
    p.Reshaped S q ↔ q = { p with shape := f p.shape } := by
  constructor
  · rintro ⟨shape, rest⟩
    rw [← rest]
    exact congrArg (fun shape => { q with shape }) ((image _ _).mp shape)
  · rintro rfl
    exact ⟨(image _ _).mpr rfl, rfl⟩

theorem Body.reshaped_iff {b c : Body} : b.Reshaped S c ↔ c = { b with shape := f b.shape } := by
  constructor
  · rintro ⟨shape, rest⟩
    rw [← rest]
    exact congrArg (fun shape => { c with shape }) ((image _ _).mp shape)
  · rintro rfl
    exact ⟨(image _ _).mpr rfl, rfl⟩

theorem Response.reshaped_iff {r s : Response} :
    r.Reshaped S s ↔ s = { r with shape := r.shape.map f } := by
  constructor
  · rintro ⟨shape, rest⟩
    rw [← rest]
    exact congrArg (fun shape => { s with shape }) ((optionRel_iff_eq_map image).mp shape)
  · rintro rfl
    exact ⟨(optionRel_iff_eq_map image).mpr rfl, rfl⟩

/-- **The operation with other shapes** is the one whose shapes are replaced by their images. -/
theorem Operation.reshaped_iff {op other : Operation} :
    op.Reshaped S other ↔ other = op.mapShapes f := by
  have parameters := @forall₂_iff_eq_map _ _ _ _ fun p q => Parameter.reshaped_iff image (p := p)
    (q := q)
  have body := @optionRel_iff_eq_map _ _ _ _ fun b c => Body.reshaped_iff image (b := b) (c := c)
  have responses := @forall₂_iff_eq_map _ _ _ _ fun r s => Response.reshaped_iff image (r := r)
    (s := s)
  constructor
  · intro reshaped
    rw [mapShapes, ← parameters.mp reshaped.parameters, ← body.mp reshaped.body,
      ← responses.mp reshaped.responses]
    exact congrArg (fun o : Operation => { o with
      parameters := other.parameters, body := other.body, responses := other.responses })
      reshaped.rest
  · rintro rfl
    exact ⟨parameters.mpr rfl, body.mpr rfl, responses.mpr rfl, rfl⟩

end

end ClientGen
