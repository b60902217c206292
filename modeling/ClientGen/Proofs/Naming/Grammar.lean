import ClientGen.Naming
import ClientGen.Proofs.Json.Numerals
import ClientGen.Proofs.Naming.Unique
import ClientGen.Proofs.Text.Lines

/-!
# The grammar of names

A name is a letter followed by letters and digits, or an underscore and a digit followed by letters
and digits, all of ASCII. Names of models start with a capital letter, names of operations with a
small one. What frees a name is digits behind it, so a free name starts as its candidate does and
has the grammar that the candidate has.

* `Naming.lettersFrom` — the letters and digits of an identifier in one pass, capital where a word
  starts; `joined_eq_lettersFrom` says that this is what joining the words gives.
* `Naming.IsName` — the grammar, for any kind of leading letter.
* `Naming.isName_pascalCase`, `Naming.isName_camelCase` — the names of models and operations have
  it.
* `Naming.exists_digits_freeName` — a free name is the candidate with digits behind it, or none.
* `Naming.IsName.freeName`, `Naming.isName_of_mem_uniqueAll` — names stay names.
-/

namespace ClientGen

/-! ## Classes of ASCII characters -/

namespace Text

/-- ASCII capital letters. -/
def isAsciiCapital (c : Char) : Bool :=
  'A' ≤ c && c ≤ 'Z'

/-- ASCII small letters. -/
def isAsciiSmall (c : Char) : Bool :=
  'a' ≤ c && c ≤ 'z'

/-- What holds of the first hundred and twenty-eight characters holds of each ASCII character. -/
theorem ascii_induction {P : Char → Prop} (each : ∀ n < 128, P (Char.ofNat n)) {c : Char}
    (ascii : c.toNat < 128) : P c := by
  have here := each c.toNat ascii
  rwa [Char.ofNat_toNat] at here

theorem toNat_lt_of_isAsciiAlphanumeric {c : Char} (alphanumeric : isAsciiAlphanumeric c) :
    c.toNat < 128 := by
  simp only [isAsciiAlphanumeric, isAsciiLetter, isAsciiDigit, Bool.or_eq_true, Bool.and_eq_true,
    decide_eq_true_eq, Char.le_def, UInt32.le_iff_toNat_le] at alphanumeric
  have lower : 'z'.val.toNat = 122 := rfl
  have upper : 'Z'.val.toNat = 90 := rfl
  have digit : '9'.val.toNat = 57 := rfl
  have value : c.toNat = c.val.toNat := rfl
  omega

theorem isAsciiAlphanumeric_asciiUpper {c : Char} (alphanumeric : isAsciiAlphanumeric c) :
    isAsciiAlphanumeric (asciiUpper c) := by
  have ascii := toNat_lt_of_isAsciiAlphanumeric alphanumeric
  revert alphanumeric
  exact ascii_induction (P := fun c => isAsciiAlphanumeric c → isAsciiAlphanumeric (asciiUpper c))
    (by decide) ascii

/-- An upper-case letter or digit is a capital letter or a digit. -/
theorem isAsciiCapital_or_isAsciiDigit_asciiUpper {c : Char}
    (alphanumeric : isAsciiAlphanumeric c) :
    isAsciiCapital (asciiUpper c) ∨ isAsciiDigit (asciiUpper c) := by
  have ascii := toNat_lt_of_isAsciiAlphanumeric alphanumeric
  revert alphanumeric
  exact ascii_induction (P := fun c => isAsciiAlphanumeric c →
    isAsciiCapital (asciiUpper c) ∨ isAsciiDigit (asciiUpper c)) (by decide) ascii

theorem isAsciiAlphanumeric_of_isAsciiSmall {c : Char} (small : isAsciiSmall c) :
    isAsciiAlphanumeric c := by
  rw [isAsciiSmall] at small
  rw [isAsciiAlphanumeric, isAsciiLetter, small]
  rfl

theorem isAsciiAlphanumeric_of_isAsciiCapital {c : Char} (capital : isAsciiCapital c) :
    isAsciiAlphanumeric c := by
  rw [isAsciiCapital] at capital
  rw [isAsciiAlphanumeric, isAsciiLetter, capital, Bool.or_true, Bool.true_or]

theorem isAsciiAlphanumeric_of_isAsciiDigit {c : Char} (digit : isAsciiDigit c) :
    isAsciiAlphanumeric c := by
  rw [isAsciiAlphanumeric, digit, Bool.or_true]

theorem ne_underscore_of_isAsciiAlphanumeric {c : Char} (alphanumeric : isAsciiAlphanumeric c) :
    c ≠ '_' := by
  rintro rfl
  exact absurd alphanumeric (by decide)

theorem not_isAsciiDigit_of_isAsciiSmall {c : Char} (small : isAsciiSmall c) :
    ¬ isAsciiDigit c := by
  have ascii := toNat_lt_of_isAsciiAlphanumeric (isAsciiAlphanumeric_of_isAsciiSmall small)
  revert small
  exact ascii_induction (P := fun c => isAsciiSmall c → ¬ isAsciiDigit c) (by decide) ascii

/-- A lower-case letter or digit is a small letter or a digit. -/
theorem isAsciiSmall_or_isAsciiDigit_asciiLower {c : Char}
    (alphanumeric : isAsciiAlphanumeric c) :
    isAsciiSmall (asciiLower c) ∨ isAsciiDigit (asciiLower c) := by
  have ascii := toNat_lt_of_isAsciiAlphanumeric alphanumeric
  revert alphanumeric
  exact ascii_induction (P := fun c => isAsciiAlphanumeric c →
    isAsciiSmall (asciiLower c) ∨ isAsciiDigit (asciiLower c)) (by decide) ascii

end Text

namespace Naming

open Text

/-! ## Words in one pass -/

/-- The letters and digits of an identifier. The first one of each word is in upper case, where
`fresh` says whether a word starts with the next letter or digit. -/
def lettersFrom (fresh : Bool) : List Char → List Char
  | [] => []
  | c :: cs =>
    if isAsciiAlphanumeric c then
      (if fresh then asciiUpper c else c) :: lettersFrom false cs
    else lettersFrom true cs

/-- Words have only letters and digits. -/
theorem isAsciiAlphanumeric_of_mem_words {raw word : List Char} (listed : word ∈ words raw) :
    ∀ c ∈ word, isAsciiAlphanumeric c := by
  intro c inside
  simpa using notMem_of_mem_splitOnP (List.mem_filter.mp listed).1 inside

/-- Pieces that are empty add nothing. -/
theorem joined_eq_flatMap (raw : List Char) :
    joined raw = (raw.splitOnP (!isAsciiAlphanumeric ·)).flatMap capitalize := by
  unfold joined words pieces
  induction raw.splitOnP (!isAsciiAlphanumeric ·) with
  | nil => rfl
  | cons piece rest ih =>
      cases piece with
      | nil => simpa [capitalize] using ih
      | cons c cs => simpa [capitalize] using ih

/-- The pieces of an identifier, the first of them as it stands or capitalized as well. -/
theorem lettersFrom_eq_pieces (raw : List Char) :
    ∃ piece rest, raw.splitOnP (!isAsciiAlphanumeric ·) = piece :: rest ∧
      lettersFrom true raw = capitalize piece ++ rest.flatMap capitalize ∧
      lettersFrom false raw = piece ++ rest.flatMap capitalize := by
  induction raw with
  | nil => exact ⟨[], [], rfl, rfl, rfl⟩
  | cons c cs ih =>
      obtain ⟨piece, rest, split, fresh, stale⟩ := ih
      by_cases alphanumeric : isAsciiAlphanumeric c
      · refine ⟨c :: piece, rest, ?_, ?_, ?_⟩
        · simp [List.splitOnP_cons_eq_if_modifyHead, alphanumeric, split]
        · simp [lettersFrom, alphanumeric, stale, capitalize]
        · simp [lettersFrom, alphanumeric, stale]
      · refine ⟨[], piece :: rest, ?_, ?_, ?_⟩
        · simp [List.splitOnP_cons_eq_if_modifyHead, alphanumeric, split]
        · simp [lettersFrom, alphanumeric, fresh, capitalize]
        · simp [lettersFrom, alphanumeric, fresh]

/-- **Joining the words is one pass over the identifier.** -/
theorem joined_eq_lettersFrom (raw : List Char) : joined raw = lettersFrom true raw := by
  obtain ⟨piece, rest, split, fresh, _⟩ := lettersFrom_eq_pieces raw
  rw [joined_eq_flatMap, split, fresh, List.flatMap_cons]

/-- Only letters and digits are left. -/
theorem isAsciiAlphanumeric_of_mem_lettersFrom {fresh : Bool} {raw : List Char} {c : Char}
    (member : c ∈ lettersFrom fresh raw) : isAsciiAlphanumeric c := by
  induction raw generalizing fresh with
  | nil => cases member
  | cons d ds ih =>
      by_cases alphanumeric : isAsciiAlphanumeric d
      · simp only [lettersFrom, if_pos alphanumeric, List.mem_cons] at member
        rcases member with rfl | member
        · cases fresh with
          | false => exact alphanumeric
          | true => exact isAsciiAlphanumeric_asciiUpper alphanumeric
        · exact ih member
      · rw [lettersFrom, if_neg alphanumeric] at member
        exact ih member

/-- What is left of an identifier starts with a capital letter or a digit. -/
theorem isAsciiCapital_or_isAsciiDigit_of_lettersFrom {raw cs : List Char} {c : Char}
    (starts : lettersFrom true raw = c :: cs) : isAsciiCapital c ∨ isAsciiDigit c := by
  induction raw with
  | nil => cases starts
  | cons d ds ih =>
      by_cases alphanumeric : isAsciiAlphanumeric d
      · simp only [lettersFrom, if_pos alphanumeric, if_true, List.cons.injEq] at starts
        rw [← starts.1]
        exact isAsciiCapital_or_isAsciiDigit_asciiUpper alphanumeric
      · rw [lettersFrom, if_neg alphanumeric] at starts
        exact ih starts

/-! ## The grammar -/

/-- **The grammar of names** with a given kind of leading letter. -/
inductive IsName (leading : Char → Bool) : List Char → Prop
  /-- A leading letter, then letters and digits. -/
  | letter {c : Char} {cs : List Char} (head : leading c)
      (tail : ∀ x ∈ cs, isAsciiAlphanumeric x) : IsName leading (c :: cs)
  /-- An underscore and a digit, then letters and digits. -/
  | digit {c : Char} {cs : List Char} (head : isAsciiDigit c)
      (tail : ∀ x ∈ cs, isAsciiAlphanumeric x) : IsName leading ('_' :: c :: cs)

/-- A guarded word is a name if it starts with a digit or with a leading letter. -/
theorem isName_guardDigit {leading : Char → Bool} {c : Char} {cs : List Char}
    (head : leading c ∨ isAsciiDigit c) (tail : ∀ x ∈ cs, isAsciiAlphanumeric x) :
    IsName leading (guardDigit (c :: cs)) := by
  rw [guardDigit]
  split
  · rename_i digit
    exact .digit digit tail
  · rename_i notDigit
    exact .letter (head.resolve_right notDigit) tail

/-- **The names of models start with a capital letter**, or with an underscore and a digit. -/
theorem isName_pascalCase (raw : String) : IsName isAsciiCapital (pascalCase raw).toList := by
  unfold pascalCase
  rw [joined_eq_lettersFrom]
  cases letters : lettersFrom true raw.toList with
  | nil => exact .letter rfl (List.all_eq_true.mp rfl)
  | cons c cs =>
      have tail : ∀ x ∈ cs, isAsciiAlphanumeric x := fun x member =>
        isAsciiAlphanumeric_of_mem_lettersFrom (letters ▸ List.mem_cons_of_mem c member)
      show IsName isAsciiCapital (String.ofList (guardDigit (c :: cs))).toList
      rw [String.toList_ofList]
      exact isName_guardDigit (isAsciiCapital_or_isAsciiDigit_of_lettersFrom letters) tail

/-- **The names of operations start with a small letter**, or with an underscore and a digit. -/
theorem isName_camelCase (raw : String) : IsName isAsciiSmall (camelCase raw).toList := by
  unfold camelCase
  rw [joined_eq_lettersFrom]
  cases letters : lettersFrom true raw.toList with
  | nil => exact .letter rfl (List.all_eq_true.mp rfl)
  | cons c cs =>
      have every : ∀ x ∈ c :: cs, isAsciiAlphanumeric x := fun x member =>
        isAsciiAlphanumeric_of_mem_lettersFrom (letters ▸ member)
      obtain ⟨head, tail⟩ := List.forall_mem_cons.mp every
      show IsName isAsciiSmall (String.ofList (guardDigit (asciiLower c :: cs))).toList
      rw [String.toList_ofList]
      exact isName_guardDigit (isAsciiSmall_or_isAsciiDigit_asciiLower head) tail

/-! ## Identifiers whose first word starts with a digit -/

/-- Whether the first letter or digit of an identifier is a digit. -/
def startsWithDigit (raw : String) : Bool :=
  (raw.toList.find? isAsciiAlphanumeric).any isAsciiDigit

/-- A letter or digit in upper and then in lower case. -/
theorem isAsciiDigit_asciiLower_asciiUpper {c : Char} (alphanumeric : isAsciiAlphanumeric c) :
    isAsciiDigit (asciiLower (asciiUpper c)) = isAsciiDigit c ∧
      asciiLower (asciiUpper c) ≠ '_' := by
  have ascii := toNat_lt_of_isAsciiAlphanumeric alphanumeric
  revert alphanumeric
  exact ascii_induction (P := fun c => isAsciiAlphanumeric c →
    isAsciiDigit (asciiLower (asciiUpper c)) = isAsciiDigit c ∧
      asciiLower (asciiUpper c) ≠ '_') (by decide) ascii

theorem head?_lettersFrom (raw : List Char) :
    (lettersFrom true raw).head? = (raw.find? isAsciiAlphanumeric).map asciiUpper := by
  induction raw with
  | nil => rfl
  | cons c cs ih =>
      by_cases alphanumeric : isAsciiAlphanumeric c
      · simp [lettersFrom, alphanumeric]
      · simpa [lettersFrom, alphanumeric] using ih

/-- **The name of an operation starts with an underscore** iff the first letter or digit of the
identifier is a digit. -/
theorem head?_camelCase (raw : String) :
    (camelCase raw).toList.head? = some '_' ↔ startsWithDigit raw := by
  have heads := head?_lettersFrom raw.toList
  unfold camelCase startsWithDigit
  rw [joined_eq_lettersFrom]
  cases found : raw.toList.find? isAsciiAlphanumeric with
  | none =>
      rw [found, Option.map_none, List.head?_eq_none_iff] at heads
      rw [heads]
      decide
  | some d =>
      have alphanumeric : isAsciiAlphanumeric d := List.find?_some found
      rw [found, Option.map_some] at heads
      obtain ⟨cs, letters⟩ := List.head?_eq_some_iff.mp heads
      rw [letters]
      show (String.ofList (guardDigit (asciiLower (asciiUpper d) :: cs))).toList.head? = some '_' ↔
        isAsciiDigit d
      rw [String.toList_ofList, guardDigit]
      obtain ⟨same, letter⟩ := isAsciiDigit_asciiLower_asciiUpper alphanumeric
      rw [same]
      by_cases digit : isAsciiDigit d
      · simp [digit]
      · simp [digit, letter]

end Naming

end ClientGen

namespace ClientGen.Naming

/-! ## Names with digits behind them -/

/-- **A free name is the candidate with digits behind it**, or none. -/
theorem exists_digits_freeName (taken : List String) (candidate : String) :
    ∃ digits, (freeName taken candidate).toList = candidate.toList ++ digits ∧
      ∀ d ∈ digits, Text.isAsciiDigit d := by
  rcases freeName_cases taken candidate with same | ⟨k, same⟩
  · exact ⟨[], by rw [same, List.append_nil], List.forall_mem_nil _⟩
  · exact ⟨Nat.toDigits 10 k, by rw [same, toList_numbered],
      fun d member => Json.Numeral.isAsciiDigit_of_mem_toDigits member⟩

/-- A name without digits is free only if it is the candidate itself. -/
theorem eq_of_freeName_eq {taken : List String} {candidate name : String}
    (same : freeName taken candidate = name) (plain : ∀ c ∈ name.toList, ¬ Text.isAsciiDigit c) :
    candidate = name := by
  obtain ⟨digits, text, every⟩ := exists_digits_freeName taken candidate
  rw [same] at text
  cases digits with
  | nil => rwa [List.append_nil, String.toList_inj, eq_comm] at text
  | cons d ds =>
      have member : d ∈ name.toList := text ▸ List.mem_append_right _ (List.mem_cons_self ..)
      exact absurd (every d (List.mem_cons_self ..)) (plain d member)

section Grammar

variable {leading : Char → Bool}

/-- Letters and digits behind a name leave it a name. -/
theorem IsName.append {name further : List Char} (isName : IsName leading name)
    (every : ∀ c ∈ further, Text.isAsciiAlphanumeric c) : IsName leading (name ++ further) := by
  cases isName with
  | letter head tail => exact .letter head (List.forall_mem_append.mpr ⟨tail, every⟩)
  | digit head tail => exact .digit head (List.forall_mem_append.mpr ⟨tail, every⟩)

theorem IsName.freeName {candidate : String} (isName : IsName leading candidate.toList)
    (taken : List String) : IsName leading (freeName taken candidate).toList := by
  obtain ⟨digits, same, every⟩ := exists_digits_freeName taken candidate
  rw [same]
  exact isName.append fun d member => Text.isAsciiAlphanumeric_of_isAsciiDigit (every d member)

/-- Names that are chosen for names are names. -/
theorem isName_of_mem_uniqueAll {taken candidates : List String} {name : String}
    (names : ∀ candidate ∈ candidates, IsName leading candidate.toList)
    (given : name ∈ (uniqueAll taken candidates).1) : IsName leading name.toList := by
  induction candidates generalizing taken with
  | nil => cases given
  | cons candidate rest ih =>
      obtain ⟨first, others⟩ := List.forall_mem_cons.mp names
      rw [uniqueAll_cons, List.mem_cons] at given
      rcases given with rfl | later
      · exact first.freeName taken
      · exact ih others later

/-- How a name starts. -/
theorem IsName.exists_head {name : List Char} (isName : IsName leading name) :
    ∃ c, name.head? = some c ∧ (leading c ∨ c = '_') := by
  cases isName with
  | @letter c cs head tail => exact ⟨c, rfl, .inl head⟩
  | digit head tail => exact ⟨'_', rfl, .inr rfl⟩

theorem IsName.ne_nil {name : List Char} (isName : IsName leading name) : name ≠ [] := by
  rintro rfl
  obtain ⟨c, head, -⟩ := isName.exists_head
  cases head

end Grammar

/-- A free name starts as the candidate does. -/
theorem head?_freeName {candidate : String} (nonempty : candidate.toList ≠ [])
    (taken : List String) :
    (Naming.freeName taken candidate).toList.head? = candidate.toList.head? := by
  obtain ⟨digits, same, -⟩ := exists_digits_freeName taken candidate
  rw [same, List.head?_append_of_ne_nil _ nonempty]

end ClientGen.Naming
