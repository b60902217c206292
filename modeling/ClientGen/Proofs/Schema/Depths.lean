import ClientGen.Proofs.Api.Depths
import ClientGen.Proofs.Schema.Asking
import ClientGen.Proofs.Schema.NormalForm
import ClientGen.Proofs.Schema.Reading

/-!
# Depths of outlines

A schema that is read from a value nests as deep as the value, and its outline may nest deeper. One
level of a value can ask for an array, for a union around it and for null around the union, and the
text of each of them takes levels of its own. So the text of an outline may nest four times as deep.

* `Schema.Inside` — the schema of a value that stands inside another one.
* `Keywords.Shallow` — the keywords of a value of some depth.
* `Keywords.Supplies` — what a form lists is listed by the keywords.
* `Schema.reach`, `Schema.bounded` — how deep the text of an outline may be.
-/

namespace ClientGen

open Json (depth itemsDepth membersDepth itemsDepth_le_iff membersDepth_le_iff)

/-- **The schema of a value** that stands so many levels inside of something of a depth. -/
def Schema.Inside (levels depth : Nat) (s : Schema) : Prop :=
  ∃ v : Json, v.Canonical ∧ v.depth + levels ≤ depth ∧ Schema.ofJson v = s

/-- **The keywords of a value** of some depth: each schema inside stands in an object, and in a list
or an object of schemas if the keyword takes several. -/
structure Keywords.Shallow (k : Keywords Schema) (depth : Nat) : Prop where
  /-- The value is an object. -/
  object : 1 ≤ depth
  /-- Several types stand in a list. -/
  several : ∀ names, k.type = some (.several names) → 2 ≤ depth
  /-- The schemas of properties stand in an object. -/
  properties : ∀ property ∈ k.properties.getD [], property.2.Inside 2 depth
  /-- The schema of further members. -/
  additional : ∀ s ∈ k.additional.bind (·.schema?), s.Inside 1 depth
  /-- The schema of items. -/
  items : ∀ s ∈ k.items, s.Inside 1 depth
  /-- The schemas of `anyOf` stand in a list. -/
  anyOf : ∀ s ∈ k.anyOf.getD [], s.Inside 2 depth
  /-- The schemas of `oneOf` stand in a list. -/
  oneOf : ∀ s ∈ k.oneOf.getD [], s.Inside 2 depth
  /-- The schemas of `allOf` stand in a list. -/
  allOf : ∀ s ∈ k.allOf.getD [], s.Inside 2 depth
  /-- The values of `enum` stand in a list. -/
  values : ∀ v ∈ k.values.getD [], v.Canonical ∧ v.depth + 2 ≤ depth
  /-- The value of `const`. -/
  value : ∀ v ∈ k.value, v.Canonical ∧ v.depth + 1 ≤ depth

variable {d : Nat}

theorem Keywords.shallow_blank (object : 1 ≤ d) : (Keywords.blank : Keywords Schema).Shallow d where
  object := object
  several := nofun
  properties := List.forall_mem_nil _
  additional := nofun
  items := nofun
  anyOf := List.forall_mem_nil _
  oneOf := List.forall_mem_nil _
  allOf := List.forall_mem_nil _
  values := List.forall_mem_nil _
  value := nofun

namespace Schema

variable {k result : Keywords Schema} {v : Json}

/-! ## Keywords of values -/

/-- What is given was read. -/
theorem read_of_given {α : Type} {read : Json → Except Mismatch α} {a : α}
    (result : given read v = .ok (some a)) : read v = .ok a := by
  unfold given at result
  split at result
  · cases result
  · obtain ⟨b, read, same⟩ := map_eq_ok_iff.mp result
    obtain rfl := Option.some.inj same
    exact read

/-- A list of values is read from an array. -/
theorem array_of_anyValues {vs : List Json} (read : anyValues v = .ok vs) : v = .array vs := by
  cases v with
  | array ws => exact congrArg _ (Except.ok.inj read)
  | _ => cases read

/-- Several types are read from an array. -/
theorem depth_of_typeNames {names : List String} (read : typeNames v = .ok (.several names)) :
    1 ≤ v.depth := by
  unfold typeNames at read
  split at read
  · cases Except.ok.inj read
  · rename_i listed _
    obtain ⟨vs, array, -⟩ := bind_eq_ok_iff.mp listed
    obtain rfl := array_of_anyValues array
    exact Nat.le_add_left 1 _
  · cases read

/-- The schemas of a list stand one level deeper. -/
theorem inside_of_schemaList (canonical : v.Canonical) (fits : v.depth + 1 ≤ d)
    {x : Option (List Schema)} (read : schemaList v = .ok x) :
    ∀ s ∈ x.getD [], s.Inside 2 d := by
  unfold schemaList at read
  split at read
  · rename_i vs
    obtain rfl := Except.ok.inj read
    intro s listed
    obtain ⟨w, member, rfl⟩ := List.mem_map.mp (ofItems_eq_map vs ▸ listed)
    have inner := itemsDepth_le_iff.mp (Nat.le_refl (itemsDepth vs)) w member
    refine ⟨w, canonical.of_mem_items w member, ?_, rfl⟩
    rw [depth] at fits
    omega
  · obtain rfl := Except.ok.inj read
    exact List.forall_mem_nil _
  · cases read

/-- The schemas of an object stand one level deeper. -/
theorem inside_of_schemaMap (canonical : v.Canonical) (fits : v.depth + 1 ≤ d)
    {x : Option (List (String × Schema))} (read : schemaMap v = .ok x) :
    ∀ property ∈ x.getD [], property.2.Inside 2 d := by
  unfold schemaMap at read
  split at read
  · rename_i ms
    obtain rfl := Except.ok.inj read
    rw [ofMembers_eq_mapValues]
    intro property listed
    obtain ⟨m, member, rfl⟩ := List.mem_map.mp listed
    have inner := membersDepth_le_iff.mp (Nat.le_refl (membersDepth ms)) m member
    refine ⟨m.2, canonical.of_mem_members m member, ?_, rfl⟩
    rw [depth] at fits
    omega
  · obtain rfl := Except.ok.inj read
    exact List.forall_mem_nil _
  · cases read

/-- What a value says about further members stands where the value stands. -/
theorem inside_of_additional (canonical : v.Canonical) (fits : v.depth + 1 ≤ d) :
    ∀ s ∈ (additional? v fun _ => ofJson v).bind (·.schema?), s.Inside 1 d := by
  unfold additional?
  split
  · exact nofun
  · exact nofun
  · intro s said
    obtain rfl : ofJson v = s := by simpa [Additional.schema?] using said
    exact ⟨v, canonical, fits, rfl⟩

/-- Keywords that hold no schemas. -/
theorem shallow_plainKeyword {name : String} (shallow : k.Shallow d) (canonical : v.Canonical)
    (fits : v.depth + 1 ≤ d) (read : plainKeyword name v k = .ok result) : result.Shallow d := by
  unfold plainKeyword at read
  split at read
  case h_1 =>
    obtain ⟨x, names, rfl⟩ := map_eq_ok_iff.mp read
    refine { shallow with several := fun listed same => ?_ }
    obtain rfl : x = some (.several listed) := same
    have array := depth_of_typeNames (read_of_given names)
    omega
  case h_4 =>
    obtain ⟨x, listed, rfl⟩ := map_eq_ok_iff.mp read
    refine { shallow with values := fun w member => ?_ }
    cases x with
    | none => cases member
    | some vs =>
        obtain rfl := array_of_anyValues (read_of_given listed)
        have inner := itemsDepth_le_iff.mp (Nat.le_refl (itemsDepth vs)) w member
        refine ⟨canonical.of_mem_items w member, ?_⟩
        rw [depth] at fits
        omega
  case h_5 =>
    obtain ⟨x, one, rfl⟩ := map_eq_ok_iff.mp read
    refine { shallow with value := fun w same => ?_ }
    obtain rfl : x = some w := same
    obtain rfl := Except.ok.inj (read_of_given one)
    exact ⟨canonical, fits⟩
  case h_9 => exact Except.ok.inj read ▸ shallow
  all_goals
    obtain ⟨x, -, rfl⟩ := map_eq_ok_iff.mp read
    exact { shallow with }

/-- **Keywords that are read from the members of an object.** -/
theorem shallow_keywordsOf {members : List (String × Json)} (shallow : k.Shallow d)
    (canonical : ∀ m ∈ members, m.2.Canonical) (fits : ∀ m ∈ members, m.2.depth + 1 ≤ d)
    (read : keywordsOf k members = .ok result) : result.Shallow d := by
  induction members generalizing k with
  | nil =>
      rw [keywordsOf] at read
      exact Except.ok.inj read ▸ shallow
  | cons m members ih =>
      obtain ⟨name, v⟩ := m
      obtain ⟨value, others⟩ := List.forall_mem_cons.mp canonical
      obtain ⟨inner, later⟩ := List.forall_mem_cons.mp fits
      unfold keywordsOf at read
      dsimp only at read
      -- one case for each keyword that holds schemas, and one for all others
      split at read
      all_goals
        obtain ⟨next, step, rest⟩ := bind_eq_ok_iff.mp read
        refine ih ?_ others later rest
      · obtain ⟨x, map, rfl⟩ := map_eq_ok_iff.mp step
        exact { shallow with properties := inside_of_schemaMap value inner map }
      · obtain rfl := Except.ok.inj step
        refine { shallow with items := fun s given => ?_ }
        cases null : v.isNull with
        | true => simp [null] at given
        | false =>
            obtain rfl : ofJson v = s := by simpa [null] using given
            exact ⟨v, value, inner, rfl⟩
      · obtain ⟨x, list, rfl⟩ := map_eq_ok_iff.mp step
        exact { shallow with anyOf := inside_of_schemaList value inner list }
      · obtain ⟨x, list, rfl⟩ := map_eq_ok_iff.mp step
        exact { shallow with oneOf := inside_of_schemaList value inner list }
      · obtain ⟨x, list, rfl⟩ := map_eq_ok_iff.mp step
        exact { shallow with allOf := inside_of_schemaList value inner list }
      · obtain rfl := Except.ok.inj step
        exact { shallow with additional := inside_of_additional value inner }
      · exact shallow_plainKeyword shallow value inner step

/-- The keywords of a schema of a value. -/
theorem Inside.shallow {levels : Nat} (inside : (keywords k).Inside levels d) :
    k.Shallow (d - levels) := by
  obtain ⟨v, canonical, fits, same⟩ := inside
  cases v with
  | object ms =>
      rw [ofJson] at same
      rw [depth] at fits
      cases read : keywordsOf Keywords.blank ms with
      | error e =>
          rw [read] at same
          cases same
      | ok other =>
          rw [read] at same
          obtain rfl := Schema.keywords.inj same
          refine shallow_keywordsOf (Keywords.shallow_blank (by omega)) canonical.of_mem_members
            (fun m member => ?_) read
          have inner := membersDepth_le_iff.mp (Nat.le_refl (membersDepth ms)) m member
          omega
  | bool b => cases same
  | _ => cases same

end Schema

/-! ## What a form lists -/

namespace Keywords

/-- The values and types that a form lists are listed by the keywords. -/
def Supplies (k : Keywords Schema) : Form → Prop
  | .enumeration values => k.values = some values
  | .literal value => k.value = some value
  | .oneOfTypes _ => ∃ names, k.type = some (.several names)
  | _ => True

variable {k : Keywords Schema}

theorem supplies_typeForm : k.Supplies k.typeForm := by
  unfold typeForm
  split
  · trivial
  split
  · trivial
  split
  · trivial
  split
  · trivial
  · rename_i names named
    exact ⟨_, named⟩
  · trivial

theorem supplies_partsOrType : k.Supplies k.partsOrType := by
  unfold partsOrType
  split
  · unfold partsForm
    split
    · trivial
    split
    · trivial
    · trivial
  · exact supplies_typeForm

theorem supplies_form_self : k.Supplies k.form := by
  unfold form
  split
  · rename_i values
    exact values
  split
  · rename_i value
    exact value
  unfold unionOrBelow
  split
  · trivial
  unfold anyOfOrBelow
  split
  · split
    · exact supplies_partsOrType
    · trivial
  · exact supplies_partsOrType

/-- Nothing is listed without null that is not listed with it. -/
theorem Supplies.of_withoutNull {form : Form} (supplies : k.withoutNull.Supplies form) :
    k.Supplies form := by
  cases form with
  | enumeration values =>
      obtain ⟨type, same⟩ := k.withoutNull_eq
      rwa [same] at supplies
  | literal value =>
      obtain ⟨type, same⟩ := k.withoutNull_eq
      rwa [same] at supplies
  | oneOfTypes types =>
      unfold withoutNull at supplies
      split at supplies
      · rename_i names several
        exact ⟨names, several⟩
      · exact supplies
  | _ => trivial

/-- **What the form of a schema lists is listed by its keywords.** -/
theorem supplies_form (k : Keywords Schema) : k.Supplies (Schema.keywords k).form := by
  unfold Schema.form
  dsimp only
  split
  · trivial
  split
  · trivial
  · exact supplies_form_self.of_withoutNull

end Keywords

/-! ## Outlines -/

namespace Schema

/-- **How deep the text of the outline** of a schema may be whose value nests so deep. -/
def reach (depth : Nat) : Nat :=
  max 1 (4 * depth - 1)

/-- The text of the outline is no deeper, whatever value the schema is read from. -/
def Bounded (s : Schema) : Prop :=
  ∀ levels depth, s.Inside levels depth → s.outline.Fits (reach (depth - levels))

theorem Inside.le {s : Schema} {levels : Nat} (inside : s.Inside levels d) : levels ≤ d := by
  obtain ⟨v, -, fits, -⟩ := inside
  omega

end Schema

open Schema (reach)

/-- The outline of objects. -/
theorem fits_outlineObject {properties : List (String × Schema)} {required : List String}
    {additional : Option (Additional Schema)}
    (listed : ∀ property ∈ properties, property.2.outline.Fits d)
    (further : ∀ s ∈ additional.bind (·.schema?), s.outline.Fits (d + 1)) :
    (outlineObject properties required additional).Fits (d + 2) := by
  refine .object (fun property member => ?_) fun values said => ?_
  · obtain ⟨given, present, rfl⟩ := List.mem_map.mp member
    exact listed given present
  · match additional with
    | none => cases said
    | some (.flag false) => cases said
    | some (.flag true) =>
        obtain rfl := Option.some.inj said
        exact .unknown
    | some (.schema s) =>
        obtain rfl := Option.some.inj said
        exact further s rfl

/-- The outline of objects whose properties and further members are given by keywords of a value. -/
theorem fits_outlineObject_of_inside {properties : List (String × Schema)} {required : List String}
    {additional : Option (Additional Schema)}
    (inner : ∀ s ∈ objectMembers properties additional, s.Bounded)
    (listed : ∀ property ∈ properties, property.2.Inside 2 d)
    (further : ∀ s ∈ additional.bind (·.schema?), s.Inside 1 d) :
    (outlineObject properties required additional).Fits (4 * d - 6 + 2) := by
  refine fits_outlineObject (fun property member => ?_) fun s said => ?_
  · have bounded := inner _ (List.mem_append_left _ (List.mem_map_of_mem member))
    have inside := listed property member
    have two := inside.le
    exact (bounded 2 d inside).mono (by unfold reach; omega)
  · have bounded := inner s (List.mem_append_right _ (Option.mem_toList.mpr said))
    have inside := further s said
    have one := inside.le
    exact (bounded 1 d inside).mono (by unfold reach; omega)

namespace Keywords

variable {k : Keywords Schema}

/-- **The types that keywords name.** -/
theorem Shallow.fits_named (shallow : k.Shallow d) {type : TypeForm} (named : k.Names type)
    (inner : ∀ s ∈ type.members, s.Bounded) : type.outline.Fits (4 * d - 6 + 2) := by
  cases named with
  | objects =>
      rw [objects, TypeForm.outline_object]
      exact fits_outlineObject_of_inside inner shallow.properties shallow.additional
  | required =>
      rw [TypeForm.outline_object]
      exact fits_outlineObject_of_inside inner (List.forall_mem_nil _) fun s given =>
        absurd given (Option.not_mem_none s)
  | array =>
      have one := shallow.object
      rw [TypeForm.outline_array]
      cases items : k.items with
      | none => exact (Shape.Fits.array (.unknown (d := 0))).mono (by omega)
      | some s =>
          have bounded : s.Bounded := inner s (by simp [TypeForm.members, items])
          have inside := bounded 1 d (shallow.items s items)
          exact (Shape.Fits.array inside).mono (by unfold reach; omega)
  | scalar name =>
      unfold TypeForm.scalar
      split
      · split
        · rw [TypeForm.outline_binary]; exact .binary
        · rw [TypeForm.outline_primitive]; exact .primitive _
      · rw [TypeForm.outline_primitive]; exact .primitive _
      · rw [TypeForm.outline_primitive]; exact .primitive _
      · rw [TypeForm.outline_primitive]; exact .primitive _
      · rw [TypeForm.outline_unsupported]; exact .unknown
  | unsupported => rw [TypeForm.outline_unsupported]; exact .unknown

/-- The merge of parts. -/
theorem Shallow.fits_merged (shallow : k.Shallow d) {parts : List Schema}
    (listed : k.allOf = some parts)
    (inner : ∀ s ∈ (Merged.ofParts parts).form.members, s.Bounded) :
    (Merged.ofParts parts).form.outline.Fits (4 * d - 6 + 2) := by
  have part {other : Keywords Schema} (member : .keywords other ∈ parts) :
      other.Shallow (d - 2) := by
    have inside : (Schema.keywords other).Inside 2 d :=
      shallow.allOf _ (by rw [listed]; exact member)
    exact inside.shallow
  have whole : (Merged.ofParts parts).form.outline.Fits (4 * (d - 2) - 6 + 2) := by
    rw [Merged.form, Form.outline_merged]
    refine fits_outlineObject_of_inside inner (fun property member => ?_) fun s said => ?_
    · obtain ⟨_, listed, k, rfl, inside⟩ := Merged.exists_of_mem_ofParts member
      exact (part listed).properties property inside
    · obtain ⟨additional, given, same⟩ := Option.bind_eq_some_iff.mp said
      obtain ⟨_, listed, k, rfl, inside⟩ := Merged.exists_of_additional_ofParts given
      refine (part listed).additional s ?_
      rw [inside]
      exact same
  exact whole.mono (by omega)

/-- **The form of a schema of a value.** -/
theorem Shallow.fits_form (shallow : k.Shallow d)
    (inner : ∀ s ∈ (Schema.keywords k).form.members, s.Bounded) :
    (Schema.keywords k).form.outline.Fits (4 * d - 2) := by
  have one := shallow.object
  have asks := k.asks_form
  have supplies := k.supplies_form
  have proper := (Schema.keywords k).proper_form
  generalize (Schema.keywords k).form = form at inner asks supplies proper
  -- the members of a list stand two levels deeper, so there is room for a list if there are any
  have each {members : List Schema} (listed : ∀ s ∈ members, s.Inside 2 d)
      (bounded : ∀ s ∈ members, s.Bounded) :
      ∀ shape ∈ members.map Schema.outline, shape.Fits (reach (d - 2)) :=
    List.forall_mem_map.mpr fun s member => bounded s member 2 d (listed s member)
  have room {members : List Schema} (nonempty : members ≠ [])
      (listed : ∀ s ∈ members, s.Inside 2 d) : 2 ≤ d := by
    obtain ⟨s, member⟩ := List.exists_mem_of_ne_nil members nonempty
    exact (listed s member).le
  have union {keyword : String} {members : List Schema} (listed : ∀ s ∈ members, s.Inside 2 d)
      (bounded : ∀ s ∈ members, s.Bounded) (nonempty : members ≠ []) :
      (Form.union keyword members).outline.Fits (4 * d - 2) := by
    have two := room nonempty listed
    rw [Form.outline_union]
    exact (Schema.fits_unionOf (each listed bounded)).mono (by unfold reach; omega)
  cases asks with
  | ref name => rw [Form.outline_ref]; exact (Shape.Fits.ref (d := 0) name).mono (by omega)
  | null => rw [Form.outline_null]; exact (Shape.fits_null (d := 0)).mono (by omega)
  | enumeration values =>
      have listed : k.values = some values := supplies
      have values := by simpa [listed] using shallow.values
      rw [Form.outline_enumeration]
      refine (Shape.Fits.enumeration (fun v member => (values v member).1) fun v member => ?_).mono
        (show d - 2 + 2 ≤ 4 * d - 2 by omega)
      have inside := (values v member).2
      omega
  | literal value =>
      obtain ⟨canonical, inside⟩ := shallow.value value supplies
      rw [Form.outline_literal]
      refine (Shape.Fits.literal canonical ?_).mono (show d - 1 + 1 ≤ 4 * d - 2 by omega)
      omega
  | oneOf listed => exact union (by simpa [listed] using shallow.oneOf) inner proper
  | anyOf listed => exact union (by simpa [listed] using shallow.anyOf) inner proper
  | merged listed => exact (shallow.fits_merged listed inner).mono (by omega)
  | @only part listed =>
      have inside : part.Inside 2 d := shallow.allOf part (by simp [listed])
      have two := inside.le
      rw [Form.outline_only]
      exact (inner part (List.mem_singleton_self _) 2 d inside).mono (by unfold reach; omega)
  | @intersection parts listed =>
      have inside : ∀ s ∈ parts, s.Inside 2 d := by simpa [listed] using shallow.allOf
      have several : 2 ≤ parts.length := proper
      have two := room (List.ne_nil_of_length_pos (by omega)) inside
      rw [Form.outline_intersection]
      exact (Shape.Fits.intersection (each inside inner)).mono (by unfold reach; omega)
  | typed named =>
      rw [Form.outline_typed]
      exact (shallow.fits_named named inner).mono (by omega)
  | @oneOfTypes types named =>
      obtain ⟨names, several⟩ := supplies
      have two := shallow.several names several
      rw [Form.outline_oneOfTypes]
      refine (Shape.Fits.union (d := 4 * d - 6 + 2) ?_).mono (by omega)
      refine List.forall_mem_map.mpr fun type member => ?_
      exact shallow.fits_named (named type member) fun s inside =>
        inner s (List.mem_flatMap_of_mem member inside)

end Keywords

/-- **The text of an outline nests at most four times as deep** as the value of the schema. -/
theorem Schema.bounded (s : Schema) : s.Bounded := by
  induction s using form_induction with
  | step s ih =>
      intro levels depth inside
      cases s with
      | malformed reason =>
          have form : (malformed reason).form.outline = .unknown := Form.outline_malformed reason
          rw [outline_eq, form]
          exact Shape.Fits.unknown.mono (Nat.le_max_left 1 _)
      | keywords k =>
          have shallow := inside.shallow
          have one := shallow.object
          have whole := shallow.fits_form ih
          rw [outline_eq]
          split
          · exact whole.orNull.mono (by unfold reach; omega)
          · exact whole.mono (by unfold reach; omega)

end ClientGen
