import ClientGen.Proofs.Document.Correspondence
import ClientGen.Proofs.Text.Lines
import ClientGen.Proofs.TypeScript.Closed
import ClientGen.Proofs.TypeScript.Quoting

/-!
# The names of functions and types are identifiers

An identifier starts with a letter, an underscore or a dollar sign, goes on with these and digits,
and is no reserved word. `identifier` makes one of any name, with an underscore before a digit, and
numbers behind it leave it one. The name of the type of the parameters is made from the name of the
function without its leading underscores: an underscore that guards a digit is taken away again.

* `IsLegal` — the identifiers that can be declared.
* `isLegal_identifier`, `isLegal_freeName_iff` — the names of functions are legal.
* `isLegal_parametersName_iff` — when the name of the type of the parameters is.
* `Document.isLegal_declared_iff` — for every document, functions have legal names, and so have the
  types of parameters unless the document gives an identifier that starts with a digit.
-/

namespace ClientGen

open Text

namespace TypeScript

/-- What is spelled like an identifier, reserved words included. -/
def IsWord (name : List Char) : Prop :=
  ∃ c cs, name = c :: cs ∧ isIdentifierStart c ∧ ∀ x ∈ cs, isIdentifierPart x

/-- **The identifiers that can be declared.** -/
structure IsLegal (name : String) : Prop where
  /-- It is spelled like an identifier. -/
  word : IsWord name.toList
  /-- It is not reserved. -/
  unreserved : name ∉ reservedWords

instance : DecidablePred IsWord
  | [] => .isFalse fun ⟨_, _, same, _⟩ => List.cons_ne_nil _ _ same.symm
  | c :: cs => decidable_of_iff ((isIdentifierStart c && cs.all isIdentifierPart) = true) (by
      rw [Bool.and_eq_true, List.all_eq_true]
      constructor
      · exact fun ⟨start, parts⟩ => ⟨c, cs, rfl, start, parts⟩
      · rintro ⟨d, ds, same, start, parts⟩
        obtain ⟨rfl, rfl⟩ := List.cons.inj same
        exact ⟨start, parts⟩)

instance (name : String) : Decidable (IsLegal name) :=
  decidable_of_iff (IsWord name.toList ∧ name ∉ reservedWords)
    ⟨fun ⟨word, unreserved⟩ => ⟨word, unreserved⟩, fun legal => ⟨legal.word, legal.unreserved⟩⟩

/-! ## Words -/

theorem isIdentifierPart_of_isAsciiAlphanumeric {c : Char} (alphanumeric : isAsciiAlphanumeric c) :
    isIdentifierPart c := by
  simp [isIdentifierPart, alphanumeric]

theorem isIdentifierPart_of_isAsciiDigit {c : Char} (digit : isAsciiDigit c) :
    isIdentifierPart c :=
  isIdentifierPart_of_isAsciiAlphanumeric (isAsciiAlphanumeric_of_isAsciiDigit digit)

/-- What continues a word starts one, unless it is a digit. -/
theorem isIdentifierStart_iff {c : Char} (part : isIdentifierPart c) :
    isIdentifierStart c ↔ ¬ isAsciiDigit c := by
  have ascii := toNat_lt_of_isIdentifierPart part
  revert part
  exact ascii_induction (P := fun c => isIdentifierPart c →
    (isIdentifierStart c ↔ ¬ isAsciiDigit c)) (by decide) ascii

/-- In upper case characters continue words as before, and digits are digits as before. -/
theorem isIdentifierPart_asciiUpper {c : Char} (part : isIdentifierPart c) :
    isIdentifierPart (asciiUpper c) ∧ (isAsciiDigit (asciiUpper c) ↔ isAsciiDigit c) := by
  have ascii := toNat_lt_of_isIdentifierPart part
  revert part
  exact ascii_induction (P := fun c => isIdentifierPart c →
    isIdentifierPart (asciiUpper c) ∧ (isAsciiDigit (asciiUpper c) ↔ isAsciiDigit c))
    (by decide) ascii

namespace IsWord

theorem forall_mem {name : List Char} (word : IsWord name) : ∀ c ∈ name, isIdentifierPart c := by
  obtain ⟨c, cs, rfl, start, parts⟩ := word
  exact List.forall_mem_cons.mpr ⟨isIdentifierPart_of_start start, parts⟩

/-- **Parts of words make a word** unless the first one is a digit. -/
theorem iff_of_parts {c : Char} {cs : List Char} (parts : ∀ x ∈ c :: cs, isIdentifierPart x) :
    IsWord (c :: cs) ↔ ¬ isAsciiDigit c := by
  obtain ⟨first, rest⟩ := List.forall_mem_cons.mp parts
  rw [← isIdentifierStart_iff first]
  constructor
  · rintro ⟨d, ds, same, start, -⟩
    rwa [(List.cons.inj same).1]
  · exact fun start => ⟨c, cs, rfl, start, rest⟩

/-- Digits do not change whether they stand behind a word. -/
theorem append_iff {name digits : List Char} (nonempty : name ≠ [])
    (every : ∀ d ∈ digits, isAsciiDigit d) : IsWord (name ++ digits) ↔ IsWord name := by
  have further : ∀ d ∈ digits, isIdentifierPart d := fun d member =>
    isIdentifierPart_of_isAsciiDigit (every d member)
  obtain ⟨c, cs, rfl⟩ := List.exists_cons_of_ne_nil nonempty
  constructor
  · rintro ⟨d, ds, same, start, parts⟩
    obtain ⟨rfl, rfl⟩ := List.cons.inj same
    exact ⟨c, cs, rfl, start, (List.forall_mem_append.mp parts).1⟩
  · rintro ⟨d, ds, same, start, parts⟩
    obtain ⟨rfl, rfl⟩ := List.cons.inj same
    exact ⟨c, cs ++ digits, rfl, start, List.forall_mem_append.mpr ⟨parts, further⟩⟩

end IsWord

/-! ## Identifiers -/

/-- Reserved words consist of small letters. -/
theorem isAsciiSmall_of_reserved {name : String} (reserved : name ∈ reservedWords) :
    ∀ c ∈ name.toList, isAsciiSmall c := by
  have every : (reservedWords.all fun word => word.toList.all isAsciiSmall) = true := by decide
  exact List.all_eq_true.mp (List.all_eq_true.mp every name reserved)

theorem isIdentifierPart_of_mem_joinedParts {name : List Char} {c : Char}
    (member : c ∈ joinedParts name) : isIdentifierPart c := by
  have inPiece {piece : List Char} (listed : piece ∈ pieces (!isIdentifierPart ·) name) :
      ∀ x ∈ piece, isIdentifierPart x := fun x inside => by
    simpa using notMem_of_mem_splitOnP (List.mem_filter.mp listed).1 inside
  have capitalized {piece : List Char} (parts : ∀ x ∈ piece, isIdentifierPart x) :
      ∀ x ∈ Naming.capitalize piece, isIdentifierPart x := by
    cases piece with
    | nil => exact parts
    | cons d ds =>
        obtain ⟨first, rest⟩ := List.forall_mem_cons.mp parts
        exact List.forall_mem_cons.mpr ⟨(isIdentifierPart_asciiUpper first).1, rest⟩
  unfold joinedParts at member
  split at member
  · cases member
  · rename_i part parts split
    rcases List.mem_append.mp member with first | later
    · exact inPiece (split ▸ List.mem_cons_self ..) c first
    · obtain ⟨other, listed, inside⟩ := List.mem_flatMap.mp later
      exact capitalized (inPiece (split ▸ List.mem_cons_of_mem _ listed)) c inside

/-- **An identifier is legal.** -/
theorem isLegal_identifier (name : String) : IsLegal (identifier name) := by
  unfold identifier
  cases joined : joinedParts name.toList with
  | nil =>
      have parts : ∀ x ∈ "empty".toList, isIdentifierPart x := List.all_eq_true.mp rfl
      exact { word := ⟨'_', "empty".toList, rfl, rfl, parts⟩, unreserved := by decide }
  | cons c cs =>
      have parts : ∀ x ∈ c :: cs, isIdentifierPart x := fun x member =>
        isIdentifierPart_of_mem_joinedParts (joined ▸ member)
      show IsLegal (if isAsciiDigit c || reservedWords.contains (String.ofList (c :: cs)) then
        "_" ++ String.ofList (c :: cs) else String.ofList (c :: cs))
      split
      · have text : ("_" ++ String.ofList (c :: cs)).toList = '_' :: c :: cs := by simp
        refine { word := ⟨'_', c :: cs, text, rfl, parts⟩, unreserved := fun reserved => ?_ }
        have small := isAsciiSmall_of_reserved reserved '_' (text ▸ List.mem_cons_self ..)
        exact absurd small (by decide)
      · rename_i plain
        simp only [Bool.or_eq_true, List.contains_iff_mem, not_or] at plain
        refine { word := ?_, unreserved := plain.2 }
        rw [String.toList_ofList]
        exact (IsWord.iff_of_parts parts).mpr plain.1

/-- A reserved word does not become free by a number, and nothing becomes one. -/
theorem freeName_unreserved {candidate : String} (unreserved : candidate ∉ reservedWords)
    (taken : List String) : Naming.freeName taken candidate ∉ reservedWords := by
  intro reserved
  have same := Naming.eq_of_freeName_eq rfl fun c member =>
    not_isAsciiDigit_of_isAsciiSmall (isAsciiSmall_of_reserved reserved c member)
  rw [← same] at reserved
  exact unreserved reserved

/-- **Numbers keep names legal**, and they do not make them so. -/
theorem isLegal_freeName_iff {candidate : String} (nonempty : candidate.toList ≠ [])
    (unreserved : candidate ∉ reservedWords) (taken : List String) :
    IsLegal (Naming.freeName taken candidate) ↔ IsLegal candidate := by
  obtain ⟨digits, same, every⟩ := Naming.exists_digits_freeName taken candidate
  have word : IsWord (Naming.freeName taken candidate).toList ↔ IsWord candidate.toList :=
    same ▸ IsWord.append_iff nonempty every
  constructor
  · exact fun legal => { word := word.mp legal.word, unreserved }
  · intro legal
    exact { word := word.mpr legal.word, unreserved := freeName_unreserved unreserved taken }

theorem isLegal_freeName_identifier (name : String) (taken : List String) :
    IsLegal (Naming.freeName taken (identifier name)) := by
  have legal := isLegal_identifier name
  have nonempty : (identifier name).toList ≠ [] := by
    obtain ⟨c, cs, text, -⟩ := legal.word
    exact text ▸ List.cons_ne_nil c cs
  exact (isLegal_freeName_iff nonempty legal.unreserved taken).mpr legal

/-! ## Types of parameters -/

/-- Whether the leading underscores of a name guard a digit. -/
def guardsDigit (name : String) : Bool :=
  (name.toList.dropWhile (· == '_')).head?.any isAsciiDigit

theorem toList_parametersName (name : String) :
    (parametersName name).toList =
      Naming.capitalize (name.toList.dropWhile (· == '_')) ++ "Params".toList := by
  rw [parametersName, String.toList_append, String.toList_ofList]

theorem parametersName_unreserved (name : String) : parametersName name ∉ reservedWords := by
  intro reserved
  have capital : 'P' ∈ (parametersName name).toList := by
    rw [toList_parametersName]
    exact List.mem_append_right _ (List.mem_cons_self ..)
  exact absurd (isAsciiSmall_of_reserved reserved 'P' capital) (by decide)

/-- **The name of the type of the parameters** is legal unless the name of the function has
underscores that guard a digit. -/
theorem isLegal_parametersName_iff {name : String} (legal : IsLegal name) :
    IsLegal (parametersName name) ↔ ¬ guardsDigit name := by
  have word : IsWord (parametersName name).toList ↔ ¬ guardsDigit name := by
    have parts : ∀ c ∈ name.toList.dropWhile (· == '_'), isIdentifierPart c := fun c member =>
      legal.word.forall_mem c ((List.dropWhile_sublist _).mem member)
    have ending : ∀ c ∈ "Params".toList, isIdentifierPart c := List.all_eq_true.mp rfl
    rw [toList_parametersName, guardsDigit]
    cases trimmed : name.toList.dropWhile (· == '_') with
    -- nothing but underscores: `Params` stands alone
    | nil => exact iff_of_true ((IsWord.iff_of_parts ending).mpr (by decide)) (by decide)
    | cons c cs =>
        obtain ⟨first, rest⟩ := List.forall_mem_cons.mp (trimmed ▸ parts)
        obtain ⟨upper, digit⟩ := isIdentifierPart_asciiUpper first
        have every : ∀ x ∈ asciiUpper c :: (cs ++ "Params".toList), isIdentifierPart x :=
          List.forall_mem_cons.mpr ⟨upper, List.forall_mem_append.mpr ⟨rest, ending⟩⟩
        exact (IsWord.iff_of_parts every).trans (not_congr digit)
  have unreserved := parametersName_unreserved name
  exact ⟨fun legal => word.mp legal.word, fun plain => { word := word.mpr plain, unreserved }⟩

theorem isLegal_freeName_parametersName_iff {name : String} (legal : IsLegal name)
    (taken : List String) :
    IsLegal (Naming.freeName taken (parametersName name)) ↔ ¬ guardsDigit name := by
  have nonempty : (parametersName name).toList ≠ [] := by
    rw [toList_parametersName]
    exact List.append_ne_nil_of_right_ne_nil _ (List.cons_ne_nil _ _)
  rw [isLegal_freeName_iff nonempty (parametersName_unreserved name) taken]
  exact isLegal_parametersName_iff legal

/-! ## Names of operations -/

/-- The names of operations are words. -/
theorem isWord_of_isName {name : List Char} (isName : Naming.IsName isAsciiSmall name) :
    IsWord name := by
  have parts {cs : List Char} (tail : ∀ x ∈ cs, isAsciiAlphanumeric x) :
      ∀ x ∈ cs, isIdentifierPart x := fun x member =>
    isIdentifierPart_of_isAsciiAlphanumeric (tail x member)
  cases isName with
  | @letter c cs head tail =>
      have first := isIdentifierPart_of_isAsciiAlphanumeric
        (isAsciiAlphanumeric_of_isAsciiSmall head)
      have every : ∀ x ∈ c :: cs, isIdentifierPart x :=
        List.forall_mem_cons.mpr ⟨first, parts tail⟩
      exact (IsWord.iff_of_parts every).mpr (not_isAsciiDigit_of_isAsciiSmall head)
  | @digit c cs head tail =>
      have first := isIdentifierPart_of_isAsciiDigit head
      have every : ∀ x ∈ c :: cs, isIdentifierPart x :=
        List.forall_mem_cons.mpr ⟨first, parts tail⟩
      exact ⟨'_', c :: cs, rfl, rfl, every⟩

/-- A word stays what it is as an identifier, but for an underscore before a reserved one. -/
theorem identifier_of_word {name : String} (word : IsWord name.toList) :
    identifier name = if name ∈ reservedWords then "_" ++ name else name := by
  have parts : ∀ c ∈ name.toList, (!isIdentifierPart c) = false := fun c member => by
    simpa using word.forall_mem c member
  obtain ⟨c, cs, text, start, -⟩ := id word
  have digit : ¬ isAsciiDigit c := (isIdentifierStart_iff (isIdentifierPart_of_start start)).mp start
  have joined : joinedParts name.toList = c :: cs := by
    rw [joinedParts, pieces, List.splitOnP_eq_singleton parts, text]
    simp
  have same : String.ofList (c :: cs) = name := by rw [← text, String.ofList_toList]
  rw [identifier, joined]
  simp [same, digit]

/-- **The name of a function guards a digit** iff the name of the operation starts with an
underscore. -/
theorem guardsDigit_freeName_identifier {id : String}
    (isName : Naming.IsName isAsciiSmall id.toList) (taken : List String) :
    guardsDigit (Naming.freeName taken (identifier id)) ↔ id.toList.head? = some '_' := by
  obtain ⟨digits, same, -⟩ := Naming.exists_digits_freeName taken (identifier id)
  rw [guardsDigit, same, identifier_of_word (isWord_of_isName isName)]
  generalize text : id.toList = letters at isName
  cases isName with
  | @letter c cs head tail =>
      have differs := ne_underscore_of_isAsciiAlphanumeric
        (isAsciiAlphanumeric_of_isAsciiSmall head)
      have digit := not_isAsciiDigit_of_isAsciiSmall head
      -- the underscore before a reserved word guards a letter
      split
      · simp [text, differs, digit]
      · simp [text, differs, digit]
  | @digit c cs head tail =>
      have differs := ne_underscore_of_isAsciiAlphanumeric
        (isAsciiAlphanumeric_of_isAsciiDigit head)
      have unreserved : id ∉ reservedWords := fun reserved =>
        absurd (isAsciiSmall_of_reserved reserved '_' (text ▸ List.mem_cons_self ..)) (by decide)
      simp [text, unreserved, differs, head]

/-! ## Client modules -/

/-- **Functions have legal names.** -/
theorem isLegal_functions (operations : List Operation) :
    ∀ f ∈ (clientModule operations).functions, IsLegal f.name := by
  intro f listed
  rw [functions_clientModule] at listed
  obtain ⟨⟨op, names⟩, pair, rfl⟩ := List.mem_map.mp listed
  obtain ⟨before, -, chosen, -⟩ := freeName_of_mem_declaredNames pair
  show IsLegal names.1
  exact chosen ▸ isLegal_freeName_identifier op.id before

/-- **The types of parameters have legal names** where no identifier starts with an underscore. -/
theorem isLegal_types_iff (operations : List Operation)
    (named : ∀ op ∈ operations, Naming.IsName isAsciiSmall op.id.toList) :
    List.Forall₂ (fun op d => IsLegal d.name ↔ op.id.toList.head? ≠ some '_') operations
      (clientModule operations).types := by
  rw [types_clientModule]
  refine forall₂_map_zip (length_declaredNames operations).ge fun ⟨op, names⟩ pair => ?_
  obtain ⟨before, -, first, second⟩ := freeName_of_mem_declaredNames pair
  have legal : IsLegal names.1 := first ▸ isLegal_freeName_identifier op.id before
  show IsLegal names.2 ↔ op.id.toList.head? ≠ some '_'
  rw [second, isLegal_freeName_parametersName_iff legal, first]
  exact not_congr (guardsDigit_freeName_identifier (named op (List.of_mem_zip pair).1) before)

end TypeScript

/-- **Which declared names are legal.** For every document, the functions of all client modules have
legal names. The type of the parameters of an operation has one iff the document does not give the
operation an identifier whose first letter or digit is a digit. -/
theorem Document.isLegal_declared_iff (doc : Document) (defaultTag : String) :
    (∀ group ∈ (doc.describe defaultTag).value.api.byTag,
      ∀ f ∈ (TypeScript.clientModule group.2).functions, TypeScript.IsLegal f.name) ∧
    ∀ group ∈ (doc.describe defaultTag).value.api.byTag,
      List.Forall₂ (fun op d => ∃ e ∈ doc.endpoints, op = (e.outline defaultTag op.id).sorted ∧
        (TypeScript.IsLegal d.name ↔ ¬ e.operation.id.any Naming.startsWithDigit))
        group.2 (TypeScript.clientModule group.2).types := by
  refine ⟨fun group _ => TypeScript.isLegal_functions group.2, fun group listed => ?_⟩
  have inApi {op : ClientGen.Operation} (inGroup : op ∈ group.2) :
      op ∈ (doc.describe defaultTag).value.api.operations :=
    TypeScript.mem_operations_of_group listed inGroup
  have legal := TypeScript.isLegal_types_iff group.2 fun op inGroup => isName_id (inApi inGroup)
  refine (List.forall₂_and_left _ _).mpr ⟨fun op inGroup => inApi inGroup, legal⟩ |>.imp ?_
  rintro op d ⟨inDescription, isLegal⟩
  obtain ⟨e, declared, outline, taken, same⟩ := exists_endpoint inDescription
  exact ⟨e, declared, outline, isLegal.trans (not_congr (Endpoint.head?_id same))⟩

/-- A document with an identifier that starts with a digit. -/
def Document.twoFactor : Document :=
  { paths := [("/codes", { post := some { id := some "2fa" } })] }

/-- The type of the parameters of this operation starts with a digit. -/
theorem Document.not_isLegal_twoFactor :
    ∃ group ∈ (twoFactor.describe "default").value.api.byTag,
      ∃ d ∈ (TypeScript.clientModule group.2).types,
        d.name = "2faParams" ∧ ¬ TypeScript.IsLegal d.name := by
  decide +kernel

end ClientGen
