import ClientGen.Proofs.Schema.Merging

/-!
# What keywords can ask for

The form of a schema is found by weighing its keywords. Whatever wins, it is taken from one keyword
as it stands, or from the parts of `allOf` if they are merged.

* `Keywords.Names` — the types that keywords name.
* `Keywords.Asks` — what keywords can ask for, one rule for each keyword.
* `Keywords.asks_form` — the form of a schema is something that its keywords ask for.

Which keyword wins does not matter here, so one rule may apply in several places of the weighing.
Null, in particular, is taken out of the types before the weighing and leaves every rule as it is.
-/

namespace ClientGen.Keywords

/-- **A type that keywords name.** -/
inductive Names (k : Keywords Schema) : TypeForm → Prop
  /-- Objects with the properties. -/
  | objects : Names k k.objects
  /-- Objects of which only the required names are known. -/
  | required : Names k (.object [] (k.required.getD []) none)
  /-- Arrays. -/
  | array : Names k (.array k.items)
  /-- A scalar, or nothing that is known. -/
  | scalar (name : String) : Names k (.scalar name k.format)
  /-- Nothing that is known. -/
  | unsupported : Names k .unsupported

/-- **Something that keywords ask for.** -/
inductive Asks (k : Keywords Schema) : Form → Prop
  /-- A model. -/
  | ref (name : String) : Asks k (.ref name)
  /-- Null. -/
  | null : Asks k .null
  /-- One of the values that are listed. -/
  | enumeration (values : List Json) : Asks k (.enumeration values)
  /-- One value. -/
  | literal (value : Json) : Asks k (.literal value)
  /-- One of the schemas of the keyword `oneOf`. -/
  | oneOf {members : List Schema} (listed : k.oneOf = some members) : Asks k (.union "oneOf" members)
  /-- One of the schemas of the keyword `anyOf`. -/
  | anyOf {members : List Schema} (listed : k.anyOf = some members) : Asks k (.union "anyOf" members)
  /-- The merge of the parts. -/
  | merged {parts : List Schema} (listed : k.allOf = some parts) :
      Asks k (Merged.ofParts parts).form
  /-- The only part. -/
  | only {part : Schema} (listed : k.allOf = some [part]) : Asks k (.only part)
  /-- All parts. -/
  | intersection {parts : List Schema} (listed : k.allOf = some parts) : Asks k (.intersection parts)
  /-- A type. -/
  | typed {type : TypeForm} (named : k.Names type) : Asks k (.typed type)
  /-- One of several types. -/
  | oneOfTypes {types : List TypeForm} (named : ∀ type ∈ types, k.Names type) :
      Asks k (.oneOfTypes types)

variable {k : Keywords Schema}

/-- The form of one type is among those that the keywords name. -/
theorem names_named (name : String) : k.Names (k.named name) := by
  unfold named
  split
  · exact .objects
  · exact .array
  · exact .scalar name

/-- What the type gives is asked for by the keywords beside it. -/
theorem asks_typeForm : k.Asks k.typeForm := by
  unfold typeForm
  split
  · exact .typed .objects
  split
  · exact .typed .array
  split
  · exact .typed .required
  split
  · exact .typed (.scalar _)
  · refine .oneOfTypes fun type listed => ?_
    obtain ⟨name, -, rfl⟩ := List.mem_map.mp listed
    exact names_named name
  · exact .typed .unsupported

theorem asks_partsOrType : k.Asks k.partsOrType := by
  unfold partsOrType
  split
  · rename_i part parts listed
    unfold partsForm
    split
    · exact .merged listed
    split
    · rename_i alone
      exact .only (alone ▸ listed)
    · exact .intersection listed
  · exact asks_typeForm

theorem asks_anyOfOrBelow : k.Asks k.anyOfOrBelow := by
  unfold anyOfOrBelow
  split
  · rename_i member members listed
    split
    · exact asks_partsOrType
    · exact .anyOf listed
  · exact asks_partsOrType

theorem asks_unionOrBelow : k.Asks k.unionOrBelow := by
  unfold unionOrBelow
  split
  · rename_i member members listed
    exact .oneOf listed
  · exact asks_anyOfOrBelow

/-- What wins in the weighing is asked for, null aside. -/
theorem asks_form_self : k.Asks k.form := by
  unfold form
  split
  · exact .enumeration _
  split
  · exact .literal _
  · exact asks_unionOrBelow

/-- The types are named by the keywords beside the type. -/
theorem Names.of_withoutNull {type : TypeForm} (named : k.withoutNull.Names type) :
    k.Names type := by
  obtain ⟨other, same⟩ := k.withoutNull_eq
  rw [same] at named
  cases named with
  | objects => exact .objects
  | required => exact .required
  | array => exact .array
  | scalar name => exact .scalar name
  | unsupported => exact .unsupported

/-- Nothing is asked for without null that is not asked for with it. -/
theorem Asks.of_withoutNull {form : Form} (asks : k.withoutNull.Asks form) : k.Asks form := by
  obtain ⟨other, same⟩ := k.withoutNull_eq
  cases asks with
  | ref name => exact .ref name
  | null => exact .null
  | enumeration values => exact .enumeration values
  | literal value => exact .literal value
  | oneOf listed => exact .oneOf (by rwa [same] at listed)
  | anyOf listed => exact .anyOf (by rwa [same] at listed)
  | merged listed => exact .merged (by rwa [same] at listed)
  | only listed => exact .only (by rwa [same] at listed)
  | intersection listed => exact .intersection (by rwa [same] at listed)
  | typed named => exact .typed named.of_withoutNull
  | oneOfTypes named => exact .oneOfTypes fun type listed => (named type listed).of_withoutNull

/-- **The form of a schema is something that its keywords ask for.** -/
theorem asks_form (k : Keywords Schema) : k.Asks (Schema.keywords k).form := by
  unfold Schema.form
  dsimp only
  split
  · exact .ref _
  split
  · exact .null
  · exact asks_form_self.of_withoutNull

end ClientGen.Keywords
