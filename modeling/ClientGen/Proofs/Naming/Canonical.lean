import ClientGen.Proofs.Naming.Grammar

/-!
# Canonical names

Naming an identifier keeps its letters and digits, all but the case of the first one. The underscore
in front of a leading digit is no letter, so a name that is taken for an identifier has the letters
and digits that the identifier had: names are their own names, and the name of an operation can be
made from the name of a model.

* `Naming.joined_guardDigit` — a guarded word is one word.
* `Naming.joined_pascalCase`, `Naming.joined_camelCase` — the letters and digits of a name.
* `Naming.NamesCanonically` — one grammar, fixed points, and names that are chosen for several
  identifiers.
* `Naming.canonically_named` — so are models and operations named.

An identifier without letters and digits is the one exception. Its names are `Model` and
`operation`, and neither is made from the other.
-/

namespace ClientGen.Naming

open Text

/-! ## Letters and digits of names -/

theorem lettersFrom_eq_self {cs : List Char} (every : ∀ c ∈ cs, isAsciiAlphanumeric c) :
    lettersFrom false cs = cs := by
  induction cs with
  | nil => rfl
  | cons c cs ih =>
      obtain ⟨head, tail⟩ := List.forall_mem_cons.mp every
      rw [lettersFrom, if_pos head, ih tail]
      rfl

/-- **A guarded word is one word.** The guard is no letter and no digit, so only the first letter
can change. -/
theorem joined_guardDigit {c : Char} {cs : List Char}
    (every : ∀ x ∈ c :: cs, isAsciiAlphanumeric x) :
    joined (guardDigit (c :: cs)) = asciiUpper c :: cs := by
  obtain ⟨head, tail⟩ := List.forall_mem_cons.mp every
  have word : lettersFrom true (c :: cs) = asciiUpper c :: cs := by
    rw [lettersFrom, if_pos head, lettersFrom_eq_self tail]
    rfl
  rw [joined_eq_lettersFrom, guardDigit]
  split
  · rw [lettersFrom, if_neg (by decide), word]
  · exact word

/-- The letters and digits of an identifier start with a capital letter or a digit. -/
theorem joined_cases (raw : List Char) :
    joined raw = [] ∨ ∃ c cs, joined raw = c :: cs ∧ (isAsciiCapital c ∨ isAsciiDigit c) ∧
      ∀ x ∈ c :: cs, isAsciiAlphanumeric x := by
  rw [joined_eq_lettersFrom]
  cases letters : lettersFrom true raw with
  | nil => exact .inl rfl
  | cons c cs =>
      refine .inr ⟨c, cs, rfl, isAsciiCapital_or_isAsciiDigit_of_lettersFrom letters, ?_⟩
      exact fun x member => isAsciiAlphanumeric_of_mem_lettersFrom (letters ▸ member)

theorem joined_eq_nil_iff (raw : List Char) :
    joined raw = [] ↔ ∀ c ∈ raw, ¬ isAsciiAlphanumeric c := by
  rw [joined_eq_lettersFrom, ← List.head?_eq_none_iff, head?_lettersFrom, Option.map_eq_none_iff,
    List.find?_eq_none]

/-- A capital letter or a digit comes back from lower case. -/
theorem asciiUpper_asciiLower {c : Char} (head : isAsciiCapital c ∨ isAsciiDigit c) :
    asciiUpper c = c ∧ asciiUpper (asciiLower c) = c ∧ isAsciiAlphanumeric (asciiLower c) := by
  have ascii : c.toNat < 128 := toNat_lt_of_isAsciiAlphanumeric
    (head.elim isAsciiAlphanumeric_of_isAsciiCapital isAsciiAlphanumeric_of_isAsciiDigit)
  revert head
  exact ascii_induction (P := fun c => isAsciiCapital c ∨ isAsciiDigit c →
    asciiUpper c = c ∧ asciiUpper (asciiLower c) = c ∧ isAsciiAlphanumeric (asciiLower c))
    (by decide) ascii

variable {raw : String}

theorem pascalCase_of_joined_eq_cons {c : Char} {cs : List Char}
    (letters : joined raw.toList = c :: cs) :
    (pascalCase raw).toList = guardDigit (c :: cs) := by
  rw [pascalCase, letters]
  exact String.toList_ofList

theorem camelCase_of_joined_eq_cons {c : Char} {cs : List Char}
    (letters : joined raw.toList = c :: cs) :
    (camelCase raw).toList = guardDigit (asciiLower c :: cs) := by
  rw [camelCase, letters]
  exact String.toList_ofList

/-- **The name of a model has the letters and digits of the identifier**, if there are any. -/
theorem joined_pascalCase (letters : joined raw.toList ≠ []) :
    joined (pascalCase raw).toList = joined raw.toList := by
  obtain ⟨c, cs, same, head, every⟩ := (joined_cases raw.toList).resolve_left letters
  rw [pascalCase_of_joined_eq_cons same, joined_guardDigit every, same,
    (asciiUpper_asciiLower head).1]

/-- **The name of an operation as well**: its small first letter is a capital one again. -/
theorem joined_camelCase (letters : joined raw.toList ≠ []) :
    joined (camelCase raw).toList = joined raw.toList := by
  obtain ⟨c, cs, same, head, every⟩ := (joined_cases raw.toList).resolve_left letters
  obtain ⟨-, back, lower⟩ := asciiUpper_asciiLower head
  have every : ∀ x ∈ asciiLower c :: cs, isAsciiAlphanumeric x :=
    List.forall_mem_cons.mpr ⟨lower, (List.forall_mem_cons.mp every).2⟩
  rw [camelCase_of_joined_eq_cons same, joined_guardDigit every, same, back]

/-- Names are made from the letters and digits alone. -/
theorem pascalCase_congr {other : String} (same : joined raw.toList = joined other.toList) :
    pascalCase raw = pascalCase other := by
  rw [pascalCase, pascalCase, same]

theorem camelCase_congr {other : String} (same : joined raw.toList = joined other.toList) :
    camelCase raw = camelCase other := by
  rw [camelCase, camelCase, same]

/-! ## Fixed points -/

/-- **The name of a model is its own name.** -/
theorem pascalCase_pascalCase (raw : String) : pascalCase (pascalCase raw) = pascalCase raw := by
  by_cases letters : joined raw.toList = []
  · have model : pascalCase raw = "Model" := by rw [pascalCase, letters]
    rw [model]
    decide
  · exact pascalCase_congr (joined_pascalCase letters)

/-- **The name of an operation is its own name.** -/
theorem camelCase_camelCase (raw : String) : camelCase (camelCase raw) = camelCase raw := by
  by_cases letters : joined raw.toList = []
  · have operation : camelCase raw = "operation" := by rw [camelCase, letters]
    rw [operation]
    decide
  · exact camelCase_congr (joined_camelCase letters)

/-- **The name of an operation can be made from the name of a model** exactly if there is a letter
or a digit. -/
theorem camelCase_pascalCase_iff (raw : String) :
    camelCase (pascalCase raw) = camelCase raw ↔ ∃ c ∈ raw.toList, isAsciiAlphanumeric c := by
  constructor
  · intro same
    by_contra none
    have letters : joined raw.toList = [] :=
      (joined_eq_nil_iff _).mpr fun c member alphanumeric => none ⟨c, member, alphanumeric⟩
    have model : pascalCase raw = "Model" := by rw [pascalCase, letters]
    have operation : camelCase raw = "operation" := by rw [camelCase, letters]
    rw [model, operation] at same
    exact absurd same (by decide)
  · rintro ⟨c, member, alphanumeric⟩
    refine camelCase_congr (joined_pascalCase fun letters => ?_)
    exact (joined_eq_nil_iff _).mp letters c member alphanumeric

/-! ## Both kinds of names -/

/-- **A canonical way to name identifiers**, with a kind of leading letter. -/
structure NamesCanonically (leading : Char → Bool) (name : String → String) : Prop where
  /-- Names have one grammar. -/
  grammar : ∀ raw, IsName leading (name raw).toList
  /-- Names are their own names. -/
  fixed : ∀ raw, name (name raw) = name raw
  /-- What is chosen for the names of several identifiers has the grammar as well. -/
  chosen : ∀ (taken raws : List String), ∀ given ∈ (uniqueAll taken (raws.map name)).1,
    IsName leading given.toList
  /-- Names are chosen as they are exactly if they are distinct and free. -/
  unchanged : ∀ taken raws : List String, (uniqueAll taken (raws.map name)).1 = raws.map name ↔
    (raws.map name).Nodup ∧ ∀ candidate ∈ raws.map name, candidate ∉ taken

/-- Names with a grammar that are their own names are canonical. -/
theorem namesCanonically_of_fixed {leading : Char → Bool} {name : String → String}
    (grammar : ∀ raw, IsName leading (name raw).toList) (fixed : ∀ raw, name (name raw) = name raw) :
    NamesCanonically leading name :=
  { grammar
    fixed
    chosen := fun _ _ _ => isName_of_mem_uniqueAll (List.forall_mem_map.mpr fun raw _ => grammar raw)
    unchanged := fun _ _ => uniqueAll_eq_self_iff }

/-- **Models and operations have canonical names**, the former with a capital letter in front and
the latter with a small one; and where an identifier has a letter or a digit, the name of the
operation can be made from the name of the model. -/
theorem canonically_named :
    NamesCanonically isAsciiCapital pascalCase ∧ NamesCanonically isAsciiSmall camelCase ∧
      ∀ raw, camelCase (pascalCase raw) = camelCase raw ↔
        ∃ c ∈ raw.toList, isAsciiAlphanumeric c :=
  ⟨namesCanonically_of_fixed isName_pascalCase pascalCase_pascalCase,
    namesCanonically_of_fixed isName_camelCase camelCase_camelCase, camelCase_pascalCase_iff⟩

/-- The underscore in front of a digit is no part of the word behind it. -/
example : pascalCase "2fa_config" = "_2faConfig" ∧ pascalCase "_2faConfig" = "_2faConfig" := by
  decide

end ClientGen.Naming
