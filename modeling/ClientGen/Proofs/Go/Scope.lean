import ClientGen.Proofs.Go.Arguments
import Mathlib.Data.List.Infix

/-!
# The scope of Go methods

The arguments for path parameters share the scope of a method with the names that its code uses.
These names are reserved, and no parameter asks for one of them. But a name that is taken gets a
number behind it, and nothing is said about what this makes: `int6` with a 4 is the name of a type.

* `localName_notMem_reservedNames` — what a parameter asks for is not reserved.
* `numbered_mem_reservedNames_iff` — the names that a number makes reserved.
* `reserved_iff` — which argument gets a reserved name.
* `arguments_exact` — arguments are different identifiers, and these are the reserved ones.
-/

namespace ClientGen.Go

open Text Naming

/-! ## Reserved names -/

theorem append_param_notMem_reservedNames :
    ∀ name ∈ reservedNames, name ++ "Param" ∉ reservedNames := by
  decide

/-- **No parameter asks for a reserved name.** -/
theorem localName_notMem_reservedNames (name : String) : localName name ∉ reservedNames := by
  have guarded (word : String) :
      (if reservedNames.contains word then word ++ "Param" else word) ∉ reservedNames := by
    split
    · rename_i reserved
      exact append_param_notMem_reservedNames word (List.contains_iff_mem.mp reserved)
    · rename_i free
      exact fun member => free (List.contains_iff_mem.mpr member)
  unfold localName
  split
  · decide
  · exact guarded _

/-- **The names that a number makes reserved**, with the number. -/
def completions : List (String × Nat) :=
  [("int", 64), ("int6", 4), ("float", 64), ("float6", 4)]

/-- The digits at the end of reserved names. -/
theorem digits_of_reservedNames :
    ∀ name ∈ reservedNames, ∀ digits ∈ name.toList.tails, digits ≠ [] → digits.all isAsciiDigit →
      (name, digits) ∈ completions.map fun c => (numbered c.1 c.2, Nat.toDigits 10 c.2) := by
  decide

theorem numbered_inj_of_digits {name stem : String} {k j : Nat}
    (same : numbered name k = numbered stem j) (digits : Nat.toDigits 10 k = Nat.toDigits 10 j) :
    name = stem ∧ k = j := by
  have letters := congrArg String.toList same
  rw [toList_numbered, toList_numbered, digits] at letters
  refine ⟨String.toList_inj.mp (List.append_cancel_right letters), ?_⟩
  simpa using congrArg (fun ds => Nat.ofDigitChars 10 ds 0) digits

/-- **A number makes a name reserved** in four cases. -/
theorem numbered_mem_reservedNames_iff {name : String} {k : Nat} :
    numbered name k ∈ reservedNames ↔ (name, k) ∈ completions := by
  constructor
  · intro reserved
    have suffix : Nat.toDigits 10 k ∈ (numbered name k).toList.tails := by
      rw [List.mem_tails, toList_numbered]
      exact List.suffix_append ..
    have every : (Nat.toDigits 10 k).all isAsciiDigit :=
      List.all_eq_true.mpr fun _ => Json.Numeral.isAsciiDigit_of_mem_toDigits
    obtain ⟨⟨stem, j⟩, listed, same⟩ := List.mem_map.mp
      (digits_of_reservedNames _ reserved _ suffix Nat.toDigits_ne_nil every)
    obtain ⟨whole, digits⟩ := Prod.mk.inj same
    obtain ⟨rfl, rfl⟩ := numbered_inj_of_digits whole digits
    exact listed
  · intro listed
    have every : ∀ c ∈ completions, numbered c.1 c.2 ∈ reservedNames := by decide
    exact every _ listed

/-! ## Arguments -/

variable {op : Operation}

theorem arguments_pathArguments (op : Operation) :
    (pathArguments op).map (·.2.1) = argumentNames op := by
  rw [pathArguments_eq, List.map_map]
  exact List.map_snd_zip (length_argumentNames op).le

theorem parameters_pathArguments (op : Operation) :
    (pathArguments op).map (·.1) = (op.parametersAt .path).map (·.name) := by
  have firsts : ((op.parametersAt .path).zip (argumentNames op)).map Prod.fst =
      op.parametersAt .path :=
    List.map_fst_zip (length_argumentNames op).ge
  conv_rhs => rw [← firsts]
  rw [pathArguments_eq, List.map_map, List.map_map]
  rfl

/-- The arguments are chosen from left to right. -/
theorem argument_cases {before after : List (String × String × String)}
    {parameter argument type : String}
    (listed : pathArguments op = before ++ (parameter, argument, type) :: after) :
    (localName parameter ∉ before.map (·.2.1) ∧ argument = localName parameter) ∨
      (localName parameter ∈ before.map (·.2.1) ∧
        IsNextFree (· ∈ before.map (·.2.1)) (localName parameter) argument) := by
  let candidates := before.map fun a => localName a.1
  have names : (uniqueAll [] (candidates ++ localName parameter ::
      after.map fun a => localName a.1)).1 =
        before.map (·.2.1) ++ argument :: after.map (·.2.1) := by
    have asked := congrArg (List.map localName) (parameters_pathArguments op)
    rw [listed, List.map_map, List.map_map, List.map_append, List.map_cons] at asked
    have given := arguments_pathArguments op
    rw [listed, List.map_append, List.map_cons] at given
    rw [given, argumentNames]
    exact congrArg (fun asked => (uniqueAll [] asked).1) asked
  obtain ⟨name, later, chosen, cases⟩ :=
    exists_uniqueAll_middle candidates (after.map fun a => localName a.1) (localName parameter)
  have lengths : (uniqueAll [] candidates).1.length = (before.map (·.2.1)).length := by
    simp [candidates]
  obtain ⟨earlier, rest⟩ := List.append_inj (chosen.symm.trans names) lengths
  obtain ⟨rfl, -⟩ := List.cons.inj rest
  rwa [earlier] at cases

/-- **An argument gets a reserved name** iff the name that its parameter asks for is taken, and the
next free number makes it reserved. -/
theorem reserved_iff {before after : List (String × String × String)}
    {parameter argument type : String}
    (listed : pathArguments op = before ++ (parameter, argument, type) :: after) :
    argument ∈ reservedNames ↔
      localName parameter ∈ before.map (·.2.1) ∧ ∃ k, (localName parameter, k) ∈ completions ∧
        IsNextFree (· ∈ before.map (·.2.1)) (localName parameter)
          (numbered (localName parameter) k) := by
  rcases argument_cases listed with ⟨free, rfl⟩ | ⟨taken, next⟩
  · constructor
    · exact fun reserved => absurd reserved (localName_notMem_reservedNames parameter)
    · exact fun ⟨taken, _⟩ => absurd taken free
  · constructor
    · intro reserved
      obtain ⟨k, two_le, rfl, rest⟩ := next
      exact ⟨taken, k, numbered_mem_reservedNames_iff.mp reserved, k, two_le, rfl, rest⟩
    · rintro ⟨-, k, completed, other⟩
      rw [next.unique other]
      exact numbered_mem_reservedNames_iff.mpr completed

/-- A reserved name that an argument gets is that of a type. -/
theorem eq_of_reserved {argument : String} (given : argument ∈ argumentNames op)
    (reserved : argument ∈ reservedNames) : argument = "int64" ∨ argument = "float64" := by
  obtain ⟨candidate, asked, same⟩ := eq_or_eq_numbered_of_mem_uniqueAll given
  obtain ⟨p, -, rfl⟩ := List.mem_map.mp asked
  rcases same with rfl | ⟨k, rfl⟩
  · exact absurd reserved (localName_notMem_reservedNames p.name)
  · have every : ∀ c ∈ completions,
        numbered c.1 c.2 = "int64" ∨ numbered c.1 c.2 = "float64" := by decide
    exact every _ (numbered_mem_reservedNames_iff.mp reserved)

/-- **Arguments for path parameters.** There is one for each parameter, in their order; they are
different identifiers, and none of them is reserved, except for the names of two types: these are
given iff the name that a parameter asks for is taken, and the next free number completes it. -/
theorem arguments_exact (op : Operation) :
    (pathArguments op).map (·.1) = (op.parametersAt .path).map (·.name) ∧
      ((pathArguments op).map (·.2.1)).Nodup ∧
      (∀ a ∈ pathArguments op, IsIdentifier a.2.1.toList) ∧
      (∀ a ∈ pathArguments op, a.2.1 ∈ reservedNames → a.2.1 = "int64" ∨ a.2.1 = "float64") ∧
      ∀ before parameter argument type after,
        pathArguments op = before ++ (parameter, argument, type) :: after →
          (argument ∈ reservedNames ↔
            localName parameter ∈ before.map (·.2.1) ∧ ∃ k, (localName parameter, k) ∈ completions ∧
              IsNextFree (· ∈ before.map (·.2.1)) (localName parameter)
                (numbered (localName parameter) k)) := by
  have given : ∀ a ∈ pathArguments op, a.2.1 ∈ argumentNames op := fun a listed =>
    arguments_pathArguments op ▸ List.mem_map_of_mem listed
  refine ⟨parameters_pathArguments op, ?_, ?_, ?_, ?_⟩
  · rw [arguments_pathArguments]
    exact nodup_uniqueAll ..
  · exact fun a listed => isIdentifier_of_mem_argumentNames (given a listed)
  · exact fun a listed => eq_of_reserved (given a listed)
  · exact fun _ _ _ _ _ => reserved_iff

/-- A path parameter that is a string. -/
def textInPath (name : String) : Parameter :=
  { name, location := .path, required := true, shape := .primitive .string, doc := none }

/-- An operation with four path parameters that ask for one name. -/
def sixes : Operation :=
  { id := "find", method := .get, path := "/a/\x7bint6\x7d/\x7bInt6\x7d/\x7bint-6\x7d/\x7bint_6\x7d",
    tags := ["a"], parameters := ["int6", "Int6", "int-6", "int_6"].map textInPath, body := none,
    responses := [], doc := none, pointer := none }

/-- **A number can make a reserved name**: the fourth argument is called like a type. -/
theorem not_free_sixes : ¬ ∀ a ∈ pathArguments sixes, a.2.1 ∉ reservedNames := by
  decide +kernel

end ClientGen.Go
