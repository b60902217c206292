import ClientGen.Proofs.Schema.Merging

/-!
# The nodes of a schema

A schema holds schemas under many keywords, and its form picks some of them, or pieces of them. All
that a form is made of is found among the nodes of the schema.

* `Schema.Node` — a schema inside another one, at any depth and under any keyword.
* `Keywords.IsOpen` — what keywords say of arrays or of further members leaves their shape open.
* `Schema.Explicit` — no node leaves anything open.
* `Schema.within_form` — the form of a schema is made of its nodes.
-/

namespace ClientGen

/-! ## Nodes -/

/-- The schemas directly inside keywords. -/
def Keywords.schemas (k : Keywords Schema) : List Schema :=
  objectMembers (k.properties.getD []) k.additional ++ (k.items.toList ++
    (k.anyOf.getD [] ++ (k.oneOf.getD [] ++ k.allOf.getD [])))

namespace Schema

/-- **The schemas directly inside a schema**, under any keyword. -/
def children : Schema → List Schema
  | .malformed _ => []
  | .keywords k => k.schemas

/-- **The nodes of a schema**: the schema and the nodes of its children. -/
inductive Node : Schema → Schema → Prop
  /-- The schema itself. -/
  | self (s : Schema) : Node s s
  /-- A node of a child. -/
  | inside {s child t : Schema} (member : child ∈ s.children) (node : Node child t) : Node s t

/-- A node of a node is a node. -/
theorem Node.trans {s t u : Schema} (outer : s.Node t) (inner : t.Node u) : s.Node u := by
  induction outer with
  | self s => exact inner
  | inside member _ ih => exact .inside member (ih inner)

theorem Node.child {s t : Schema} (member : t ∈ s.children) : s.Node t :=
  .inside member (.self t)

end Schema

/-! ## Open shapes -/

/-- **Keywords leave a shape open** if they name arrays without a schema for the items, or allow
further members of any kind. -/
def Keywords.IsOpen (k : Keywords Schema) : Prop :=
  "array" ∈ k.typeNames ∧ k.items = none ∨ k.additional = some (.flag true)

/-- **No node of a schema leaves anything open.** -/
def Schema.Explicit (s : Schema) : Prop :=
  ∀ k, s.Node (.keywords k) → ¬ k.IsOpen

theorem Schema.Explicit.node {s t : Schema} (explicit : s.Explicit) (node : s.Node t) :
    t.Explicit :=
  fun k inside => explicit k (node.trans inside)

/-- What the name of a type asks for leaves a shape open. -/
def TypeForm.IsOpen : TypeForm → Prop
  | .object _ _ additional => additional = some (.flag true)
  | .array items => items = none
  | .primitive _ => False
  | .binary => False
  | .unsupported => False

/-- The types that a form asks for. -/
def Form.types : Form → List TypeForm
  | .merged _ properties required additional => [.object properties required additional]
  | .typed type => [type]
  | .oneOfTypes types => types
  | _ => []

/-! ## What forms are made of -/

/-- Keywords are made of nodes of a schema. -/
structure Keywords.Within (k : Keywords Schema) (s : Schema) : Prop where
  /-- The schemas inside are nodes. -/
  node : ∀ t ∈ k.schemas, s.Node t
  /-- If no node leaves anything open, neither do the keywords. -/
  closed : s.Explicit → ¬ k.IsOpen

/-- **A form is made of nodes of a schema.** -/
structure Form.Within (form : Form) (s : Schema) : Prop where
  /-- The schemas inside are nodes. -/
  node : ∀ t ∈ form.members, s.Node t
  /-- If no node leaves anything open, neither does the form. -/
  closed : s.Explicit → ∀ type ∈ form.types, ¬ type.IsOpen

namespace Form

variable {form : Form} {s : Schema}

/-- A form that asks for no type leaves nothing open. -/
theorem within_of_types (node : ∀ t ∈ form.members, s.Node t) (types : form.types = []) :
    form.Within s where
  node := node
  closed _ type listed := by
    rw [types] at listed
    cases listed

/-- A form without schemas inside that asks for no type is made of nothing. -/
theorem within_of_members (members : form.members = []) (types : form.types = []) :
    form.Within s := by
  refine within_of_types (fun t member => ?_) types
  rw [members] at member
  cases member

/-- A type without schemas inside that leaves nothing open. -/
theorem within_typed {type : TypeForm} (members : type.members = []) (shut : ¬ type.IsOpen) :
    (typed type).Within s where
  node t member := by
    rw [Form.members, members] at member
    cases member
  closed _ other listed := by
    obtain rfl := List.mem_singleton.mp listed
    exact shut

end Form

namespace Keywords

variable {k : Keywords Schema} {s : Schema}

theorem mem_schemas {t : Schema} : t ∈ k.schemas ↔
    t ∈ objectMembers (k.properties.getD []) k.additional ∨ t ∈ k.items.toList ∨
      t ∈ k.anyOf.getD [] ∨ t ∈ k.oneOf.getD [] ∨ t ∈ k.allOf.getD [] := by
  simp only [schemas, List.mem_append]

/-- The keywords of a schema are made of its nodes. -/
theorem within_self (k : Keywords Schema) : k.Within (.keywords k) :=
  ⟨fun _ member => .child member, fun explicit => explicit k (.self _)⟩

theorem typeNames_withoutNull (k : Keywords Schema) : k.withoutNull.typeNames = k.typeNames := by
  unfold withoutNull
  split
  · rename_i names several
    have filtered : k.typeNames = names.filter (· != "null") := by
      simp only [typeNames, several]
    have again : k.typeNames.filter (· != "null") = k.typeNames := by
      rw [filtered, List.filter_filter]
      simp
    show typeNames { k with type := _ } = _
    match found : k.typeNames with
    | [] => rfl
    | [name] => rfl
    | first :: second :: rest =>
        rw [found] at again
        exact again
  · rfl

/-- Null is neither an array nor a further member. -/
theorem Within.withoutNull (within : k.Within s) : k.withoutNull.Within s := by
  have names := k.typeNames_withoutNull
  obtain ⟨type, same⟩ := k.withoutNull_eq
  rw [same] at names ⊢
  refine ⟨within.node, fun explicit isOpen => within.closed explicit ?_⟩
  rwa [IsOpen, names] at isOpen

namespace Within

/-- A type that is neither an array nor an object leaves nothing open. -/
theorem not_isOpen_scalar (name : String) (format : Option String) :
    ¬ (TypeForm.scalar name format).IsOpen := by
  unfold TypeForm.scalar
  split <;> try split
  all_goals exact id

theorem members_scalar (name : String) (format : Option String) :
    (TypeForm.scalar name format).members = [] := by
  unfold TypeForm.scalar
  split <;> try split
  all_goals rfl

theorem objects (within : k.Within s) : (Form.typed k.objects).Within s where
  node t member := within.node t (mem_schemas.mpr (.inl member))
  closed explicit type listed isOpen := by
    obtain rfl := List.mem_singleton.mp listed
    exact within.closed explicit (.inr isOpen)

theorem array (within : k.Within s) (named : "array" ∈ k.typeNames) :
    (Form.typed (.array k.items)).Within s where
  node t member := within.node t (mem_schemas.mpr (.inr (.inl member)))
  closed explicit type listed isOpen := by
    obtain rfl := List.mem_singleton.mp listed
    exact within.closed explicit (.inl ⟨named, isOpen⟩)

theorem scalar (name : String) (format : Option String) :
    (Form.typed (.scalar name format)).Within s :=
  Form.within_typed (members_scalar name format) (not_isOpen_scalar name format)

theorem named (within : k.Within s) {name : String} (listed : name ∈ k.typeNames) :
    (Form.typed (k.named name)).Within s := by
  unfold Keywords.named
  split
  · exact within.objects
  · exact within.array listed
  · exact scalar name k.format

theorem typeForm (within : k.Within s) : k.typeForm.Within s := by
  unfold Keywords.typeForm
  split
  · exact within.objects
  split
  · rename_i isArray
    have type : k.type = some (.single "array") := by simpa [hasType] using isArray
    exact within.array (by simp [typeNames, type])
  split
  · exact Form.within_typed rfl (Option.some_ne_none _).symm
  split
  · exact scalar _ k.format
  · rename_i first rest several
    -- the names are not filtered: null among them would be a scalar of no known type
    have each (name : String) (listed : name ∈ first :: rest) :
        (Form.typed (k.named name)).Within s := by
      by_cases null : name = "null"
      · subst null
        exact scalar "null" k.format
      · exact within.named (by simp [typeNames, several, null, listed])
    refine ⟨fun t member => ?_, fun explicit type listed => ?_⟩
    · obtain ⟨type, listed, inside⟩ := List.mem_flatMap.mp member
      obtain ⟨name, given, rfl⟩ := List.mem_map.mp listed
      exact (each name given).node t inside
    · obtain ⟨name, given, rfl⟩ := List.mem_map.mp listed
      exact (each name given).closed explicit _ (List.mem_singleton_self _)
  · exact Form.within_typed rfl id

/-- What parts are merged into is made of the parts. -/
theorem merged {parts : List Schema} (nodes : ∀ part ∈ parts, s.Node part) :
    (Merged.ofParts parts).form.Within s where
  node t member := by
    rcases List.mem_append.mp member with listed | further
    · obtain ⟨property, inside, rfl⟩ := List.mem_map.mp listed
      obtain ⟨part, here, k, rfl, own⟩ := Merged.exists_of_mem_ofParts inside
      refine (nodes _ here).trans (.child (mem_schemas.mpr (.inl ?_)))
      exact List.mem_append_left _ (List.mem_map_of_mem own)
    · obtain ⟨additional, said, inside⟩ := Option.bind_eq_some_iff.mp (Option.mem_toList.mp further)
      obtain ⟨part, here, k, rfl, own⟩ := Merged.exists_of_additional_ofParts said
      refine (nodes _ here).trans (.child (mem_schemas.mpr (.inl ?_)))
      exact List.mem_append_right _ (by simp [own, inside])
  closed explicit type listed isOpen := by
    obtain rfl := List.mem_singleton.mp listed
    obtain ⟨part, here, k, rfl, own⟩ := Merged.exists_of_additional_ofParts isOpen
    exact explicit k (nodes _ here) (.inr own)

theorem partsForm {parts : List Schema} (nodes : ∀ part ∈ parts, s.Node part) :
    (Keywords.partsForm parts).Within s := by
  unfold Keywords.partsForm
  split
  · exact merged nodes
  split
  · exact Form.within_of_types nodes rfl
  · exact Form.within_of_types nodes rfl

theorem partsOrType (within : k.Within s) : k.partsOrType.Within s := by
  unfold Keywords.partsOrType
  split
  · rename_i parts listed
    refine partsForm fun part member => within.node part (mem_schemas.mpr ?_)
    exact .inr (.inr (.inr (.inr (by rwa [listed]))))
  · exact within.typeForm

theorem anyOfOrBelow (within : k.Within s) : k.anyOfOrBelow.Within s := by
  unfold Keywords.anyOfOrBelow
  split
  · rename_i members listed
    split
    · exact within.partsOrType
    · refine Form.within_of_types (fun t member => within.node t (mem_schemas.mpr ?_)) rfl
      exact .inr (.inr (.inl (by rwa [listed])))
  · exact within.partsOrType

theorem unionOrBelow (within : k.Within s) : k.unionOrBelow.Within s := by
  unfold Keywords.unionOrBelow
  split
  · rename_i members listed
    refine Form.within_of_types (fun t member => within.node t (mem_schemas.mpr ?_)) rfl
    exact .inr (.inr (.inr (.inl (by rwa [listed]))))
  · exact within.anyOfOrBelow

theorem form (within : k.Within s) : k.form.Within s := by
  unfold Keywords.form
  split
  · exact Form.within_of_members rfl rfl
  split
  · exact Form.within_of_members rfl rfl
  · exact within.unionOrBelow

end Within

end Keywords

/-- **The form of a schema is made of its nodes.** -/
theorem Schema.within_form (s : Schema) : s.form.Within s := by
  cases s with
  | malformed reason => exact Form.within_of_members rfl rfl
  | keywords k =>
      simp only [form]
      split
      · exact Form.within_of_members rfl rfl
      split
      · exact Form.within_of_members rfl rfl
      · exact k.within_self.withoutNull.form

end ClientGen
