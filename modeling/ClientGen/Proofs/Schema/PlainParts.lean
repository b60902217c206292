import ClientGen.Proofs.Document.Reports
import ClientGen.Proofs.OrderedMap.Entries
import ClientGen.Proofs.Schema.Merging
import ClientGen.Proofs.Schema.Parts

/-!
# The merge of plain objects

A schema is plain if it describes objects and says nothing that is weighed before that. The parts of
`allOf` are merged as schemas, and the merge is given a shape afterwards. For plain parts it makes
no difference: each part has the shape of objects, and the shape of the whole is the merge of these
shapes.

* `Keywords.Plain` — a plain schema.
* `Members`, `Members.MergeOf` — what the shape of objects says, and the merge of several of them.
* `contradictions` — how many statements about further members differ from the one before.
* `Merged.ofParts_keywords` — the merge of schemas in closed form.
* `Schema.shape_allOf_plain` — the shape of the whole and the number of contradictions noted on it.

Schemas inside the properties have contradictions of their own. They are noted as well, if the merge
keeps the property.
-/

namespace ClientGen

/-! ## Plain schemas -/

namespace Keywords

/-- **Plain keywords** describe objects, without null and without anything that is weighed before
the type. -/
structure Plain (k : Keywords Schema) : Prop where
  /-- They describe objects. -/
  objects : k.isObjectLike
  /-- There is no reference. -/
  ref : k.ref = none
  /-- No values are listed. -/
  values : lists k.values = false
  /-- There is no single value. -/
  value : k.value = none
  /-- The keyword `oneOf` lists nothing. -/
  oneOf : lists k.oneOf = false
  /-- The keyword `anyOf` lists nothing. -/
  anyOf : lists k.anyOf = false
  /-- The keyword `allOf` lists nothing. -/
  allOf : lists k.allOf = false
  /-- The keyword `nullable` does not admit null. -/
  notNullable : k.nullable ≠ some true
  /-- The type is not null. -/
  notNull : k.hasType "null" = false
  /-- Null is not one of several types. -/
  notListed : k.listsNull = false

/-- Keywords describe objects without null as they do with it. -/
theorem isObjectLike_withoutNull {k : Keywords Schema} (objects : k.isObjectLike) :
    k.withoutNull.isObjectLike := by
  unfold withoutNull
  split
  · rename_i names several
    -- a list of types is no single type, so something else describes objects
    have single : k.hasType "object" = false := by simp [hasType, several]
    simp only [isObjectLike, single, Bool.false_or, Bool.or_eq_true] at objects ⊢
    rcases objects with properties | more
    · exact .inl (.inr properties)
    · exact .inr more
  · exact objects

namespace Plain

variable {k : Keywords Schema}

theorem form_eq (plain : k.Plain) :
    (Schema.keywords k).form =
      .typed (.object (k.properties.getD []) (k.required.getD []) k.additional) := by
  have notNullOnly : k.isNullOnly = false := by simp [isNullOnly, plain.notNull, plain.notListed]
  obtain ⟨type, same⟩ := k.withoutNull_eq
  have weighed : k.withoutNull.form = k.withoutNull.partsOrType := by
    rw [same]
    exact form_eq_partsOrType plain.values plain.value plain.oneOf plain.anyOf
  have noParts : lists k.withoutNull.allOf = false := by
    rw [same]
    exact plain.allOf
  have typed : k.withoutNull.partsOrType = k.withoutNull.typeForm := by
    unfold partsOrType
    split
    · rename_i listed
      simp [lists, listed] at noParts
    · rfl
  rw [form_keywords plain.ref notNullOnly, weighed, typed, typeForm,
    if_pos (isObjectLike_withoutNull plain.objects), same]
  rfl

theorem not_admitsNull (plain : k.Plain) : (Schema.keywords k).admitsNull = false := by
  simp [Schema.admitsNull, Schema.keywords?, plain.notNullable, plain.notListed]

end Plain

end Keywords

/-! ## Merges of objects -/

/-- Whether anything is said about further members. -/
def Extra.isStated {σ : Type} : Extra σ → Bool
  | .unstated => false
  | _ => true

/-- **What the shape of objects says.** -/
structure Members where
  /-- The properties. -/
  properties : OrderedMap Shape
  /-- The required names. -/
  required : List String
  /-- What is said about further members. -/
  extra : Extra Shape

namespace Members

/-- The shape of objects. -/
def shape (m : Members) : Shape :=
  .object m.properties m.required m.extra

/-- **The merge of objects**: names keep their first places and take their last values, repetitions
of required names are left out, and the last statement about further members counts. -/
structure MergeOf (whole : Members) (parts : List Members) : Prop where
  /-- The properties are named in the order of first mention. -/
  names : whole.properties.keys = (parts.flatMap (·.properties.keys)).eraseDups
  /-- Each name has its last value. -/
  values : ∀ name, whole.properties.lookup name =
    ((parts.flatMap (·.properties)).filter (·.1 = name)).getLast?.map (·.2)
  /-- The required names are those of the parts, one after the other. -/
  required : whole.required = (parts.flatMap (·.required)).eraseDups
  /-- About further members the last statement counts. -/
  extra : whole.extra = ((parts.map (·.extra)).filter (·.isStated)).getLast?.getD .unstated

/-- What the shape of a plain schema says. -/
def outline (k : Keywords Schema) : Members where
  properties := OrderedMap.mapValues Schema.outline (k.properties.getD [])
  required := k.required.getD []
  extra := outlineExtra k.additional

end Members

theorem Keywords.Plain.value_shape {k : Keywords Schema} (plain : k.Plain)
    (place : Option String) :
    ((Schema.keywords k).shape place).value = (Members.outline k).shape := by
  rw [Schema.value_shape, Schema.outline_eq, plain.form_eq, plain.not_admitsNull]
  simp only [Bool.false_eq_true, if_false, Form.outline_typed, TypeForm.outline_object]
  rfl

/-! ## Merges of schemas -/

/-- **How many statements about further members differ** from the one before. -/
def contradictions : List (Additional Schema) → Nat
  | earlier :: later :: stated =>
    (if Schema.sameAdditional (some earlier) (some later) then 0 else 1) +
      contradictions (later :: stated)
  | _ => 0

theorem contradictions_concat (stated : List (Additional Schema)) (last : Additional Schema) :
    contradictions (stated ++ [last]) =
      contradictions stated + if Merged.differ stated.getLast? (some last) then 1 else 0 := by
  induction stated with
  | nil => rfl
  | cons first stated ih =>
      cases stated with
      | nil =>
          show (if Schema.sameAdditional (some first) (some last) then 0 else 1) + 0 =
            0 + if !Schema.sameAdditional (some first) (some last) then 1 else 0
          cases Schema.sameAdditional (some first) (some last) <;> rfl
      | cons second stated =>
          rw [List.cons_append, List.cons_append, contradictions, ← List.cons_append, ih,
            contradictions, List.getLast?_cons_cons, Nat.add_assoc]

namespace Merged

/-- The properties of several schemas, one after the other. -/
def entries (parts : List (Keywords Schema)) : List (String × Schema) :=
  parts.flatMap fun k => k.properties.getD []

/-- What several schemas state about further members, one after the other. -/
def stated (parts : List (Keywords Schema)) : List (Additional Schema) :=
  parts.filterMap (·.additional)

/-- **The merge of schemas in closed form.** -/
theorem ofParts_keywords (parts : List (Keywords Schema)) :
    ofParts (parts.map .keywords) =
      { conflicts := contradictions (stated parts)
        properties := OrderedMap.ofEntries (entries parts)
        required := (parts.flatMap fun k => k.required.getD []).eraseDups
        additional := (stated parts).getLast? } := by
  rw [← foldl_append_if_new]
  induction parts using List.reverseRecOn with
  | nil => rfl
  | append_singleton parts k ih =>
      have last : ofParts ((parts ++ [k]).map .keywords) =
          (ofParts (parts.map .keywords)).add (.keywords k) := by
        rw [List.map_append, ofParts, List.map_singleton, List.foldl_concat]
        rfl
      have properties : OrderedMap.ofEntries (entries (parts ++ [k])) =
          OrderedMap.insertAll (OrderedMap.ofEntries (entries parts)) (k.properties.getD []) := by
        simp [entries, OrderedMap.ofEntries_append]
      have statements : stated (parts ++ [k]) = stated parts ++ k.additional.toList := by
        cases said : k.additional <;> simp [stated, said]
      rw [last, ih, add, properties, statements, List.flatMap_append, List.flatMap_singleton,
        List.foldl_append]
      cases k.additional with
      | none => simp [differ]
      | some additional => simp [contradictions_concat]

end Merged

/-- What is said about further members is what the last statement says. -/
theorem outlineExtra_getLast?_stated (parts : List (Keywords Schema)) :
    outlineExtra (Merged.stated parts).getLast? =
      (((parts.map Members.outline).map (·.extra)).filter (·.isStated)).getLast?.getD .unstated := by
  have images : ((parts.map Members.outline).map (·.extra)).filter (·.isStated) =
      (Merged.stated parts).map fun additional => outlineExtra (some additional) := by
    rw [Merged.stated]
    induction parts with
    | nil => rfl
    | cons k parts ih =>
        rw [List.map_cons, List.map_cons]
        cases said : k.additional with
        | none =>
            have silent : (Members.outline k).extra.isStated = false := by
              simp [Members.outline, said, outlineExtra, Extra.isStated]
            rw [List.filter_cons_of_neg (by simp [silent]), ih, List.filterMap_cons_none said]
        | some additional =>
            have here : (Members.outline k).extra = outlineExtra (some additional) := by
              simp [Members.outline, said]
            have loud : (outlineExtra (some additional)).isStated = true := by
              rcases additional with (_ | _) | values <;> rfl
            rw [here, List.filter_cons_of_pos loud, ih, List.filterMap_cons_some said,
              List.map_cons]
  rw [images, List.getLast?_map]
  cases (Merged.stated parts).getLast? <;> rfl

namespace Schema

/-- A schema with the keyword `allOf` and no other one. -/
def allOf (parts : List (Keywords Schema)) : Schema :=
  .keywords { Keywords.blank with allOf := some (parts.map .keywords) }

/-- The schemas that a merge keeps: the last one of each property, and the last one of further
members. -/
def keptParts (parts : List (Keywords Schema)) : List (List String × Schema) :=
  objectParts (OrderedMap.ofEntries (Merged.entries parts)) (Merged.stated parts).getLast?

variable {parts : List (Keywords Schema)}

/-- The keyword `allOf` by itself asks for the merge of schemas that describe objects. -/
theorem form_allOf (nonempty : parts ≠ []) (objects : ∀ part ∈ parts, part.isObjectLike) :
    (allOf parts).form = (Merged.ofParts (parts.map .keywords)).form := by
  have merges : { Keywords.blank with allOf := some (parts.map .keywords) : Keywords Schema }.Merges
      (parts.map .keywords) :=
    { ref := rfl
      notNull := rfl
      values := rfl
      value := rfl
      oneOf := rfl
      anyOf := rfl
      allOf := rfl
      nonempty := by simpa using nonempty
      objects := by
        intro part member
        obtain ⟨k, listed, rfl⟩ := List.mem_map.mp member
        exact objects k listed }
  exact merges.form_eq

/-- **The outline of the whole is the merge of the outlines.** -/
theorem mergeOf_outline (parts : List (Keywords Schema)) :
    Members.MergeOf
      { properties := OrderedMap.mapValues outline (OrderedMap.ofEntries (Merged.entries parts))
        required := (parts.flatMap fun k => k.required.getD []).eraseDups
        extra := outlineExtra (Merged.stated parts).getLast? }
      (parts.map Members.outline) := by
  have entries : OrderedMap.mapValues outline (Merged.entries parts) =
      (parts.map Members.outline).flatMap (·.properties) := by
    rw [Merged.entries, OrderedMap.mapValues, List.map_flatMap, List.flatMap_map]
    rfl
  refine { names := ?names, values := fun name => ?values, required := ?required, extra := ?extra }
  case names =>
    rw [OrderedMap.mapValues_ofEntries, OrderedMap.keys_ofEntries, entries, OrderedMap.keys,
      List.map_flatMap]
    rfl
  case values =>
    rw [OrderedMap.mapValues_ofEntries, OrderedMap.lookup_ofEntries, entries]
  case required =>
    rw [List.flatMap_map]
    rfl
  case extra => exact outlineExtra_getLast?_stated parts

/-- **Contradictions of the parts are noted**, and so is what the schemas that are kept note
themselves. -/
theorem notes_allOf (nonempty : parts ≠ []) (objects : ∀ part ∈ parts, part.isObjectLike)
    (place : Option String) :
    ((allOf parts).shape place).notes =
      (conflicting place (contradictions (Merged.stated parts))).notes ++
        notesOf place (keptParts parts) := by
  have form := form_allOf nonempty objects
  rw [Merged.ofParts_keywords, Merged.form] at form
  rw [shape_of_form form rfl, formShape, Noted.notes_bind, notes_objectShape]
  rfl

/-- The code of the notes on contradictions. -/
abbrev contradictionCode : String := "schema.allOf.additionalProperties"

/-- **The number of contradictions that are noted.** -/
theorem count_allOf (nonempty : parts ≠ []) (objects : ∀ part ∈ parts, part.isObjectLike)
    (place : Option String) :
    Diagnostic.count contradictionCode ((allOf parts).shape place).notes =
      contradictions (Merged.stated parts) +
        Diagnostic.count contradictionCode (notesOf place (keptParts parts)) := by
  rw [notes_allOf nonempty objects, Diagnostic.count, List.countP_append, notes_conflicting,
    List.countP_replicate]
  rfl

/-- **The keyword `allOf` merges plain objects.** Each part has the shape of objects, and the shape
of the whole is their merge. As many contradictions are noted as parts state something about further
members that differs from what was stated last before, beside those that are noted inside the
properties and the further members that the merge keeps. -/
theorem shape_allOf_plain (nonempty : parts ≠ []) (plain : ∀ part ∈ parts, part.Plain)
    (place : Option String) :
    ∃ (objects : List Members) (whole : Members),
      List.Forall₂ (fun part object =>
          ∀ place, ((Schema.keywords part).shape place).value = object.shape) parts objects ∧
        ((allOf parts).shape place).value = whole.shape ∧ whole.MergeOf objects ∧
        Diagnostic.count contradictionCode ((allOf parts).shape place).notes =
          contradictions (Merged.stated parts) +
            Diagnostic.count contradictionCode (notesOf place (keptParts parts)) := by
  have objects : ∀ part ∈ parts, part.isObjectLike := fun part listed => (plain part listed).objects
  refine ⟨parts.map Members.outline, _, ?_, ?_, mergeOf_outline parts,
    count_allOf nonempty objects place⟩
  · exact List.forall₂_map_right_iff.mpr
      (List.forall₂_same.mpr fun part listed place => (plain part listed).value_shape place)
  · have form := form_allOf nonempty objects
    rw [Merged.ofParts_keywords, Merged.form] at form
    rw [shape_of_form form rfl, value_formShape fun s _ => s.value_shape, Form.outline_merged]
    rfl

/-- Objects with a property, and with a statement about further members. -/
def plainObject (properties : List (String × Schema)) (additional : Option (Additional Schema)) :
    Keywords Schema :=
  { Keywords.blank with
    type := some (.single "object"), properties := some properties, additional }

theorem plain_plainObject (properties : List (String × Schema))
    (additional : Option (Additional Schema)) : (plainObject properties additional).Plain :=
  { objects := rfl
    ref := rfl
    values := rfl
    value := rfl
    oneOf := rfl
    anyOf := rfl
    allOf := rfl
    notNullable := by simp [plainObject, Keywords.blank]
    notNull := by simp [Keywords.hasType, plainObject]
    notListed := rfl }

/-- Objects without further members, and objects with any further members. -/
def contradicting : List (Keywords Schema) :=
  [plainObject [] (some (.flag false)), plainObject [] (some (.flag true))]

theorem contradicting_ne_nil : contradicting ≠ [] :=
  List.cons_ne_nil _ _

theorem plain_contradicting : ∀ part ∈ contradicting, part.Plain := by
  intro part listed
  rcases List.mem_cons.mp listed with rfl | listed
  · exact plain_plainObject _ _
  · obtain rfl := List.mem_singleton.mp listed
    exact plain_plainObject _ _

theorem contradictions_contradicting : contradictions (Merged.stated contradicting) = 1 := by
  simp [contradicting, Merged.stated, plainObject, contradictions, sameAdditional]

theorem shape_contradicting : (∀ part ∈ contradicting, part.Plain) ∧
    ∃ (objects : List Members) (whole : Members),
      List.Forall₂ (fun part object =>
          ∀ place, ((Schema.keywords part).shape place).value = object.shape) contradicting objects ∧
        ((allOf contradicting).shape none).value = whole.shape ∧ whole.MergeOf objects ∧
        Diagnostic.count contradictionCode ((allOf contradicting).shape none).notes = 1 := by
  obtain ⟨objects, whole, parts, value, merge, count⟩ :=
    shape_allOf_plain contradicting_ne_nil plain_contradicting none
  refine ⟨plain_contradicting, objects, whole, parts, value, merge, ?_⟩
  rw [contradictions_contradicting] at count
  exact count

/-- A plain object whose only property has parts that contradict each other. -/
def contradictingInside : Keywords Schema :=
  plainObject [("inside", allOf contradicting)] none

/-- **Contradictions inside a property are noted too**, though the parts of the schema state
nothing. -/
theorem count_contradictingInside : contradictingInside.Plain ∧
    Diagnostic.count contradictionCode ((allOf [contradictingInside]).shape none).notes ≠
      contradictions (Merged.stated [contradictingInside]) := by
  have plain : contradictingInside.Plain := plain_plainObject _ _
  have outer := count_allOf (List.cons_ne_nil contradictingInside [])
    (fun part listed => List.mem_singleton.mp listed ▸ plain.objects) none
  have inner := count_allOf contradicting_ne_nil
    (fun part listed => (plain_contradicting part listed).objects) none
  have kept : notesOf none (keptParts [contradictingInside]) =
      ((allOf contradicting).shape none).notes :=
    List.append_nil _
  rw [contradictions_contradicting] at inner
  refine ⟨plain, ?_⟩
  rw [outer, kept, inner]
  omega

end Schema

end ClientGen
