import ClientGen.Proofs.Results
import ClientGen.Proofs.Schema.Nodes

/-!
# Where the schemas inside a form stand

A form is walked with the place of its schema, and each schema inside is reached by one or two steps
from there. What is noted on the walk is noted at the place itself or inside one of these schemas.

* `Schema.places` — the schemas directly inside a schema, each with the steps that lead to it.
* `Form.parts` — the schemas inside a form, with the steps from the place of its schema.
* `Schema.notesOf` — what is noted inside schemas below a place.
* `Schema.notes_objectShape` — the notes of objects are those of their schemas.
* `Schema.note_cases` — a note of a schema is its own or one of a schema inside.
-/

namespace ClientGen

/-- A list of schemas under a keyword, with the steps from the keyword. -/
def listParts (keyword : String) (position : Nat) (members : List Schema) :
    List (List String × Schema) :=
  (members.zipIdx position).map fun (s, position) => ([keyword, Text.decimal position], s)

/-- The schemas of objects, with the steps to properties and to further members. -/
def objectParts (properties : List (String × Schema)) (additional : Option (Additional Schema)) :
    List (List String × Schema) :=
  properties.map (fun (name, s) => (["properties", name], s)) ++
    (additional.bind (·.schema?)).toList.map (["additionalProperties"], ·)

/-- **The schemas directly inside a schema**, under any keyword, with the steps to them. -/
def Schema.places : Schema → List (List String × Schema)
  | .malformed _ => []
  | .keywords k =>
    objectParts (k.properties.getD []) k.additional ++ (k.items.toList.map (["items"], ·) ++
      (listParts "anyOf" 0 (k.anyOf.getD []) ++ (listParts "oneOf" 0 (k.oneOf.getD []) ++
        listParts "allOf" 0 (k.allOf.getD []))))

/-- The schemas inside the form of a type, with the steps to them. -/
def TypeForm.parts : TypeForm → List (List String × Schema)
  | .object properties _ additional => objectParts properties additional
  | .array items => items.toList.map (["items"], ·)
  | .primitive _ => []
  | .binary => []
  | .unsupported => []

/-- **The schemas inside a form**, with the steps to them. -/
def Form.parts : Form → List (List String × Schema)
  | .malformed _ => []
  | .ref _ => []
  | .null => []
  | .enumeration _ => []
  | .literal _ => []
  | .union keyword members => listParts keyword 0 members
  | .only part => [(["allOf", "0"], part)]
  | .intersection parts => listParts "allOf" 0 parts
  | .merged _ properties _ additional => objectParts properties additional
  | .typed type => type.parts
  | .oneOfTypes types => types.flatMap TypeForm.parts

/-! ## Steps -/

/-- The schemas of objects are those of properties and the one of further members. -/
theorem mem_objectParts {properties : List (String × Schema)}
    {additional : Option (Additional Schema)} {tokens : List String} {s : Schema} :
    (tokens, s) ∈ objectParts properties additional ↔
      (∃ name, (name, s) ∈ properties ∧ tokens = ["properties", name]) ∨
        additional = some (.schema s) ∧ tokens = ["additionalProperties"] := by
  have further : s ∈ additional.bind (·.schema?) ↔ additional = some (.schema s) := by
    rcases additional with _ | (allowed | values) <;> simp [Additional.schema?]
  rw [objectParts, List.mem_append]
  refine or_congr ?_ ?_
  · simp only [List.mem_map, Prod.mk.injEq, Prod.exists, eq_comm]
    constructor
    · rintro ⟨name, _, listed, same, rfl⟩
      exact ⟨name, listed, same⟩
    · rintro ⟨name, listed, same⟩
      exact ⟨name, s, listed, same, rfl⟩
  · rw [← further]
    simp [eq_comm, and_comm]

/-- A member of a list is reached by the keyword and its position. -/
theorem mem_listParts {keyword : String} {members : List Schema} {tokens : List String}
    {s : Schema} :
    (tokens, s) ∈ listParts keyword 0 members ↔
      ∃ position, members[position]? = some s ∧ tokens = [keyword, Text.decimal position] := by
  simp only [listParts, List.mem_map, Prod.mk.injEq, Prod.exists, List.mem_zipIdx_iff_getElem?]
  constructor
  · rintro ⟨_, position, found, same, rfl⟩
    exact ⟨position, found, same.symm⟩
  · rintro ⟨position, found, same⟩
    exact ⟨s, position, found, same.symm, rfl⟩

namespace Schema

variable {k : Keywords Schema} {part : List String × Schema}

/-- The schemas directly inside a schema stand under five keywords. -/
theorem mem_places : part ∈ (keywords k).places ↔
    part ∈ objectParts (k.properties.getD []) k.additional ∨
      part ∈ k.items.toList.map (["items"], ·) ∨ part ∈ listParts "anyOf" 0 (k.anyOf.getD []) ∨
        part ∈ listParts "oneOf" 0 (k.oneOf.getD []) ∨
          part ∈ listParts "allOf" 0 (k.allOf.getD []) := by
  simp only [places, List.mem_append]

end Schema

/-! ## The schemas are the members -/

theorem map_snd_listParts (keyword : String) (position : Nat) (members : List Schema) :
    (listParts keyword position members).map (·.2) = members := by
  rw [listParts, List.map_map]
  exact List.zipIdx_map_fst position members

/-- The schemas of objects are their members, in the same order. -/
theorem map_snd_objectParts (properties : List (String × Schema))
    (additional : Option (Additional Schema)) :
    (objectParts properties additional).map (·.2) = objectMembers properties additional := by
  simp [objectParts, objectMembers, Function.comp_def]

theorem TypeForm.map_snd_parts (type : TypeForm) : type.parts.map (·.2) = type.members := by
  cases type with
  | object properties required additional => exact map_snd_objectParts properties additional
  | array items => simp [parts, members, Function.comp_def]
  | primitive type => rfl
  | binary => rfl
  | unsupported => rfl

/-- **The schemas are the members of the form**, in the same order. -/
theorem Form.map_snd_parts (form : Form) : form.parts.map (·.2) = form.members := by
  cases form with
  | union keyword members => exact map_snd_listParts keyword 0 members
  | intersection parts => exact map_snd_listParts "allOf" 0 parts
  | merged conflicts properties required additional => exact map_snd_objectParts properties additional
  | typed type => exact type.map_snd_parts
  | oneOfTypes types => simp [parts, members, List.map_flatMap, TypeForm.map_snd_parts]
  | only part => rfl
  | malformed reason => rfl
  | ref name => rfl
  | null => rfl
  | enumeration values => rfl
  | literal value => rfl

/-- The places of a schema are those of its children. -/
theorem Schema.map_snd_places (s : Schema) : s.places.map (·.2) = s.children := by
  cases s with
  | malformed reason => rfl
  | keywords k =>
      simp [places, children, Keywords.schemas, map_snd_objectParts, map_snd_listParts,
        Function.comp_def]

namespace Schema

/-! ## Notes -/

/-- What is noted inside schemas that are reached from a place. -/
def notesOf (place : Option String) (parts : List (List String × Schema)) : List Diagnostic :=
  parts.flatMap fun (tokens, s) => (s.shape (placeBelow place tokens)).notes

/-- What is noted on a list is noted inside its members, each at its position. -/
theorem notes_memberShapes (place : Option String) (keyword : String) (position : Nat)
    (members : List Schema) :
    (memberShapes place keyword position members).notes =
      notesOf place (listParts keyword position members) := by
  induction members generalizing position with
  | nil => simp [memberShapes, listParts, notesOf]
  | cons s members ih =>
      simp only [listParts, notesOf] at ih
      simp [memberShapes, listParts, notesOf, ih]

theorem notes_propertyShapes (place : Option String) (properties : List (String × Schema)) :
    (propertyShapes place properties).notes =
      notesOf place (properties.map fun (name, s) => (["properties", name], s)) := by
  induction properties with
  | nil => simp [propertyShapes, notesOf]
  | cons property properties ih =>
      obtain ⟨name, s⟩ := property
      simp only [notesOf] at ih
      simp [propertyShapes, notesOf, ih]

theorem notes_extraShape (place : Option String) (additional : Option (Additional Schema)) :
    (extraShape place additional).notes =
      notesOf place ((additional.bind (·.schema?)).toList.map (["additionalProperties"], ·)) := by
  unfold extraShape
  split
  · rfl
  · rfl
  · rfl
  · simp [notesOf, Additional.schema?]

/-- **What is noted on objects** is noted inside their schemas. -/
theorem notes_objectShape (place : Option String) (properties : List (String × Schema))
    (required : List String) (additional : Option (Additional Schema)) :
    (objectShape place properties required additional).notes =
      notesOf place (objectParts properties additional) := by
  simp [objectShape, notes_propertyShapes, notes_extraShape, objectParts, notesOf]

/-- Contradictions are noted at the place where schemas are merged. -/
theorem notes_conflicting (place : Option String) (conflicts : Nat) :
    (conflicting place conflicts).notes =
      List.replicate conflicts
        { severity := .warning, code := "schema.allOf.additionalProperties"
          message := "Conflicting additionalProperties in allOf; using the last value."
          pointer := place } := by
  induction conflicts with
  | zero => rfl
  | succ conflicts ih => rw [conflicting, Noted.notes_bind, ih, List.replicate_succ]; rfl

variable {place : Option String} {d : Diagnostic}

/-- A note inside several schemas is a note of one of them, at the place to which its steps lead. -/
theorem mem_notesOf {parts : List (List String × Schema)} :
    d ∈ notesOf place parts ↔
      ∃ part ∈ parts, d ∈ (part.2.shape (placeBelow place part.1)).notes :=
  List.mem_flatMap

theorem pointer_of_mem_unsupported {reason : String}
    (noted : d ∈ (unsupported place reason).notes) : d.pointer = place := by
  obtain rfl := List.mem_singleton.mp noted
  rfl

theorem note_cases_typeShape {type : TypeForm} (noted : d ∈ (typeShape place type).notes) :
    d.pointer = place ∨ d ∈ notesOf place type.parts := by
  cases type with
  | object properties required additional =>
      rw [typeShape, notes_objectShape] at noted
      exact .inr noted
  | array items =>
      cases items with
      | none => simp [typeShape] at noted
      | some items => exact .inr (by simpa [typeShape, TypeForm.parts, notesOf] using noted)
  | primitive type => simp [typeShape] at noted
  | binary => simp [typeShape] at noted
  | unsupported =>
      rw [typeShape] at noted
      exact .inl (pointer_of_mem_unsupported noted)

/-- A note of a form is at the place itself, or inside a schema of the form. -/
theorem note_cases_formShape {form : Form} (noted : d ∈ (formShape place form).notes) :
    d.pointer = place ∨ d ∈ notesOf place form.parts := by
  cases form with
  | malformed reason =>
      rw [formShape] at noted
      exact .inl (pointer_of_mem_unsupported noted)
  | ref name => simp [formShape] at noted
  | null => simp [formShape] at noted
  | enumeration values => simp [formShape] at noted
  | literal value => simp [formShape] at noted
  | union keyword members =>
      exact .inr (by simpa [formShape, notes_memberShapes, Form.parts] using noted)
  | only part => exact .inr (by simpa [formShape, Form.parts, notesOf] using noted)
  | intersection parts =>
      exact .inr (by simpa [formShape, notes_memberShapes, Form.parts] using noted)
  | merged conflicts properties required additional =>
      rw [formShape, Noted.notes_bind, List.mem_append, notes_conflicting,
        notes_objectShape] at noted
      refine noted.imp_left fun own => ?_
      rw [List.eq_of_mem_replicate own]
  | typed type =>
      rw [formShape] at noted
      exact note_cases_typeShape noted
  | oneOfTypes types =>
      have inside : ∃ type ∈ types, d ∈ (typeShape place type).notes := by
        simpa [formShape] using noted
      obtain ⟨type, listed, noted⟩ := inside
      refine (note_cases_typeShape noted).imp_right fun deeper => ?_
      obtain ⟨part, member, noted⟩ := mem_notesOf.mp deeper
      exact mem_notesOf.mpr ⟨part, List.mem_flatMap_of_mem listed member, noted⟩

/-- **A note of a schema** stands at the place of the schema, or it is one of a schema inside its
form, at the place to which the steps lead. -/
theorem note_cases {s : Schema} (noted : d ∈ (s.shape place).notes) :
    d.pointer = place ∨
      ∃ part ∈ s.form.parts, d ∈ (part.2.shape (placeBelow place part.1)).notes := by
  rw [shape, Noted.notes_bind, Noted.notes_pure, List.append_nil] at noted
  exact (note_cases_formShape noted).imp_right mem_notesOf.mp

end Schema

end ClientGen
