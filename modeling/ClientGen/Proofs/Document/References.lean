import ClientGen.Proofs.Document.Outline
import ClientGen.Proofs.Naming.Unique
import ClientGen.Proofs.OrderedMap.Agreement
import ClientGen.Proofs.Pointer.Escape

/-!
# References to models

A reference gets the name that its last token has as it is written. A model gets the name that its
key has, or the next free one if the model of an earlier key is called so. The two do not always
meet: a reference knows neither the other keys nor the token that was written.

* `Document.exists_model` — every schema has exactly one model, and how the model is called.
* `Document.reference_eq_model_iff` — when a reference names the model that it points at.
-/

namespace ClientGen.Document

open Naming

/-- The schema that refers to the schema with a key. -/
def referenceTo (key : String) : Schema :=
  Schema.ofJson (.object [("$ref", .string (schemaPointer key))])

/-- The schema of an earlier key has a model of this name. -/
def TakenBefore (doc : Document) (key name : String) : Prop :=
  ∃ m ∈ doc.models.value, m.name = name ∧ ∃ earlier < key, m.pointer = some (schemaPointer earlier)

/-! ## Shapes of references -/

/-- **The shape of a reference**: the name of the last token as it is written. -/
theorem shape_referenceTo (key : String) (place : Option String) :
    ((referenceTo key).shape place).value = .ref (pascalCase (Pointer.escape key)) := by
  have keywords : referenceTo key =
      .keywords { Keywords.blank with ref := some (schemaPointer key) } := by
    simp [referenceTo, Schema.ofJson, Schema.keywordsOf, Schema.plainKeyword, Schema.given,
      Schema.text, Schema.ofKeywords, Except.map]
    rfl
  have form : (referenceTo key).form = .ref (pascalCase (Pointer.escape key)) := by
    rw [keywords, ← Pointer.refName_child "#/components/schemas" key]
    rfl
  have null : (referenceTo key).admitsNull = false := by
    rw [keywords]
    rfl
  rw [Schema.value_shape, Schema.outline_eq, null, form, Form.outline_ref]
  rfl

/-! ## Models -/

/-- The models of schemas with given names. -/
def modelsOf (names : List String) (schemas : List (String × Schema)) : List Model :=
  (names.zip schemas).map fun (name, key, s) => modelOutline name key s

theorem modelsOf_append {names names' : List String} {schemas schemas' : List (String × Schema)}
    (lengths : names.length = schemas.length) :
    modelsOf (names ++ names') (schemas ++ schemas') =
      modelsOf names schemas ++ modelsOf names' schemas' := by
  rw [modelsOf, List.zip_append lengths, List.map_append]
  rfl

/-- A model has the name at its place and points at the schema at its place. -/
theorem exists_of_mem_modelsOf {names : List String} {schemas : List (String × Schema)} {m : Model}
    (member : m ∈ modelsOf names schemas) :
    m.name ∈ names ∧ ∃ entry ∈ schemas, m.pointer = some (schemaPointer entry.1) := by
  obtain ⟨⟨name, key, s⟩, listed, rfl⟩ := List.mem_map.mp member
  obtain ⟨left, right⟩ := List.of_mem_zip listed
  exact ⟨left, (key, s), right, rfl⟩

/-- Every name is the name of a model. -/
theorem map_name_modelsOf {names : List String} {schemas : List (String × Schema)}
    (lengths : names.length = schemas.length) : (modelsOf names schemas).map (·.name) = names := by
  rw [modelsOf, List.map_map]
  exact List.map_fst_zip (Nat.le_of_eq lengths)

/-- Schemas with different keys stand in strictly ascending order. -/
theorem pairwise_schemas {doc : Document} (distinct : OrderedMap.Distinct doc.schemas) :
    doc.schemas.Pairwise fun a b => a.1 < b.1 := by
  have differ : doc.schemas.Pairwise fun a b => a.1 ≠ b.1 := List.pairwise_map.mp distinct
  have ascend : doc.schemas.Pairwise fun a b => a.1 ≤ b.1 := OrderedMap.pairwise_sorted _
  exact ascend.imp₂ (fun a b le ne => Std.lt_of_le_of_ne le ne) differ

/-- **The models of a document around the model of one schema.** -/
structure Surrounding (doc : Document) (key : String) (s : Schema) where
  /-- The schemas with smaller keys. -/
  before : List (String × Schema)
  /-- The names of their models. -/
  names : List String
  /-- The name of the model. -/
  name : String
  /-- The schemas with greater keys. -/
  after : List (String × Schema)
  /-- The names of their models. -/
  later : List String
  /-- Each smaller key has a name. -/
  lengths : names.length = before.length
  /-- The smaller keys are smaller. -/
  below : ∀ entry ∈ before, entry.1 < key
  /-- The greater keys are greater. -/
  above : ∀ entry ∈ after, key < entry.1
  /-- These are all models. -/
  models : doc.models.value =
    modelsOf names before ++ modelOutline name key s :: modelsOf later after
  /-- The name comes from the key and from the names before it. -/
  named : pascalCase key ∉ names ∧ name = pascalCase key ∨
    pascalCase key ∈ names ∧ IsNextFree (· ∈ names) (pascalCase key) name

theorem exists_surrounding {doc : Document} (distinct : OrderedMap.Distinct doc.schemas)
    {key : String} {s : Schema} (member : (key, s) ∈ doc.schemas) :
    Nonempty (Surrounding doc key s) := by
  obtain ⟨before, after, split⟩ := List.append_of_mem member
  have ascending := pairwise_schemas distinct
  rw [split] at ascending
  obtain ⟨-, upper, lower⟩ := List.pairwise_append.mp ascending
  obtain ⟨name, later, given, named⟩ := exists_uniqueAll_middle
    (before.map fun entry => pascalCase entry.1) (after.map fun entry => pascalCase entry.1)
    (pascalCase key)
  have lengths : (uniqueAll [] (before.map fun entry => pascalCase entry.1)).1.length =
      before.length := by
    rw [length_uniqueAll, List.length_map]
  refine ⟨{ before, names := _, name, after, later, lengths, named, models := ?_
            below := fun entry inside => lower entry inside _ (List.mem_cons_self ..)
            above := (List.pairwise_cons.mp upper).1 }⟩
  rw [value_models]
  show modelsOf (modelNames doc.schemas) doc.schemas = _
  rw [modelNames, split, List.map_append, List.map_cons, given, modelsOf_append lengths]
  rfl

/-- The names before a key are those of the models before it. -/
theorem Surrounding.takenBefore_iff {doc : Document} {key : String} {s : Schema}
    (around : Surrounding doc key s) (name : String) :
    doc.TakenBefore key name ↔ name ∈ around.names := by
  constructor
  · rintro ⟨m, listed, rfl, earlier, less, pointer⟩
    rw [around.models, List.mem_append, List.mem_cons] at listed
    rcases listed with first | rfl | last
    · exact (exists_of_mem_modelsOf first).1
    · have equal : key = earlier := Pointer.child_injective (Option.some.inj pointer)
      exact absurd (equal ▸ less) (String.lt_irrefl _)
    · obtain ⟨-, entry, inside, place⟩ := exists_of_mem_modelsOf last
      have equal : entry.1 = earlier :=
        Pointer.child_injective (Option.some.inj (place.symm.trans pointer))
      exact absurd (String.lt_trans (around.above entry inside) (equal ▸ less)) (String.lt_irrefl _)
  · intro inside
    rw [← map_name_modelsOf around.lengths] at inside
    obtain ⟨m, first, rfl⟩ := List.mem_map.mp inside
    obtain ⟨-, entry, inside, place⟩ := exists_of_mem_modelsOf first
    refine ⟨m, ?_, rfl, entry.1, around.below entry inside, place⟩
    rw [around.models]
    exact List.mem_append_left _ first

/-- No other model points at the schema with the key. -/
theorem Surrounding.eq_of_pointer {doc : Document} {key : String} {s : Schema}
    (around : Surrounding doc key s) {m : Model} (listed : m ∈ doc.models.value)
    (pointer : m.pointer = some (schemaPointer key)) : m = modelOutline around.name key s := by
  have key_eq {entry : String × Schema} (place : m.pointer = some (schemaPointer entry.1)) :
      entry.1 = key :=
    Pointer.child_injective (Option.some.inj (place.symm.trans pointer))
  rw [around.models, List.mem_append, List.mem_cons] at listed
  rcases listed with first | same | last
  · obtain ⟨-, entry, inside, place⟩ := exists_of_mem_modelsOf first
    exact absurd (key_eq place) (String.ne_of_lt (around.below entry inside))
  · exact same
  · obtain ⟨-, entry, inside, place⟩ := exists_of_mem_modelsOf last
    exact absurd (key_eq place) (String.ne_of_lt (around.above entry inside)).symm

/-- **Every schema has exactly one model.** It is called as its key says, unless the model of an
earlier key is called so; then it has the next free name. -/
theorem exists_model {doc : Document} (distinct : OrderedMap.Distinct doc.schemas) {key : String}
    {s : Schema} (member : (key, s) ∈ doc.schemas) :
    ∃ m ∈ doc.models.value, m.pointer = some (schemaPointer key) ∧
      (∀ other ∈ doc.models.value, other.pointer = some (schemaPointer key) → other = m) ∧
      (¬ doc.TakenBefore key (pascalCase key) ∧ m.name = pascalCase key ∨
        doc.TakenBefore key (pascalCase key) ∧
          IsNextFree (doc.TakenBefore key) (pascalCase key) m.name) := by
  obtain ⟨around⟩ := exists_surrounding distinct member
  refine ⟨modelOutline around.name key s, ?_, rfl, fun _ => around.eq_of_pointer, ?_⟩
  · rw [around.models]
    exact List.mem_append_right _ (List.mem_cons_self ..)
  · have same : doc.TakenBefore key = (· ∈ around.names) :=
      funext fun name => propext (around.takenBefore_iff name)
    rw [same]
    exact around.named

/-! ## References and models -/

/-- **When a reference names the model that it points at.** The key is written as it is and no
earlier model has taken its name; or the key is written otherwise, its name is taken, and the name
of the written key happens to be the next free one. -/
theorem reference_eq_model_iff {doc : Document} (distinct : OrderedMap.Distinct doc.schemas)
    {key : String} {s : Schema} (member : (key, s) ∈ doc.schemas) (place : Option String) :
    ∃ m ∈ doc.models.value, m.pointer = some (schemaPointer key) ∧
      (∀ other ∈ doc.models.value, other.pointer = some (schemaPointer key) → other = m) ∧
      (((referenceTo key).shape place).value = .ref m.name ↔
        Pointer.Plain key ∧ ¬ doc.TakenBefore key (pascalCase key) ∨
        ¬ Pointer.Plain key ∧ doc.TakenBefore key (pascalCase key) ∧
          IsNextFree (doc.TakenBefore key) (pascalCase key) (pascalCase (Pointer.escape key))) := by
  obtain ⟨m, listed, pointer, only, named⟩ := exists_model distinct member
  refine ⟨m, listed, pointer, only, ?_⟩
  rw [shape_referenceTo, Shape.ref.injEq]
  have written := Pointer.pascalCase_escape_eq_iff key
  by_cases plain : Pointer.Plain key
  -- a plain key is right as long as no number was appended
  · rw [written.mpr plain]
    rcases named with ⟨free, name⟩ | ⟨taken, k, -, name, -, -⟩
    · simp [plain, free, name]
    · have differs : pascalCase key ≠ m.name := fun same => numbered_ne _ _ (name ▸ same.symm)
      simp [plain, taken, differs]
  -- a key that is written otherwise is right only by coincidence
  · have differs : pascalCase (Pointer.escape key) ≠ pascalCase key := plain ∘ written.mp
    rcases named with ⟨free, name⟩ | ⟨taken, next⟩
    · simp [plain, free, name, differs]
    · have same : pascalCase (Pointer.escape key) = m.name ↔
          IsNextFree (doc.TakenBefore key) (pascalCase key) (pascalCase (Pointer.escape key)) := by
        constructor
        · intro equal
          rw [equal]
          exact next
        · intro other
          exact other.unique next
      simp [plain, taken, same]

/-- Two schemas whose keys have one name. -/
def twoFoos : Document :=
  { components := some { schemas := [("Foo", .keywords .blank), ("foo", .keywords .blank)] } }

theorem schemas_twoFoos :
    twoFoos.schemas = [("Foo", .keywords .blank), ("foo", .keywords .blank)] := by
  refine List.mergeSort_of_pairwise (List.Pairwise.cons ?_ (List.pairwise_singleton ..))
  intro entry member
  obtain rfl := List.mem_singleton.mp member
  decide

theorem models_twoFoos :
    twoFoos.models.value =
      [modelOutline "Foo" "Foo" (.keywords .blank),
        modelOutline "Foo2" "foo" (.keywords .blank)] := by
  have names : modelNames [("Foo", .keywords .blank), ("foo", .keywords .blank)] =
      ["Foo", "Foo2"] := by
    decide +kernel
  rw [value_models, modelOutlines, schemas_twoFoos, names]
  rfl

theorem reference_twoFoos :
    OrderedMap.Distinct twoFoos.schemas ∧ ("foo", .keywords .blank) ∈ twoFoos.schemas ∧
      ∃ m ∈ twoFoos.models.value, m.pointer = some (schemaPointer "foo") ∧
        (∀ other ∈ twoFoos.models.value, other.pointer = some (schemaPointer "foo") → other = m) ∧
        (((referenceTo "foo").shape none).value = .ref m.name ↔
          Pointer.Plain "foo" ∧ ¬ twoFoos.TakenBefore "foo" (pascalCase "foo") ∨
          ¬ Pointer.Plain "foo" ∧ twoFoos.TakenBefore "foo" (pascalCase "foo") ∧
            IsNextFree (twoFoos.TakenBefore "foo") (pascalCase "foo")
              (pascalCase (Pointer.escape "foo"))) := by
  have distinct : OrderedMap.Distinct twoFoos.schemas := by
    rw [schemas_twoFoos]
    show ["Foo", "foo"].Nodup
    decide
  have member : ("foo", .keywords .blank) ∈ twoFoos.schemas := by
    rw [schemas_twoFoos]
    exact List.mem_cons_of_mem _ (List.mem_singleton_self _)
  exact ⟨distinct, member, reference_eq_model_iff distinct member none⟩

/-- **A reference may name another model**: the one that took the name first. -/
theorem reference_twoFoos_ne_model :
    ¬ ∃ m ∈ twoFoos.models.value, m.pointer = some (schemaPointer "foo") ∧
      ((referenceTo "foo").shape none).value = .ref m.name := by
  rintro ⟨m, listed, pointer, same⟩
  have written : pascalCase (Pointer.escape "foo") = "Foo" := by decide +kernel
  rw [shape_referenceTo, written, Shape.ref.injEq] at same
  rw [models_twoFoos, List.mem_cons, List.mem_singleton] at listed
  rcases listed with rfl | rfl
  · have equal : "Foo" = "foo" := Pointer.child_injective (Option.some.inj pointer)
    exact absurd equal (by decide)
  · exact absurd same (by decide)

end ClientGen.Document
