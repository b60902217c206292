import ClientGen.Go.Operations
import ClientGen.Proofs.Json.Numerals
import ClientGen.Proofs.Naming.Grammar
import ClientGen.Proofs.Naming.Unique

/-!
# The arguments of Go methods

Every path parameter becomes an argument of its own. What an argument stands for is read off the
signature: the first arguments belong to the path parameters, in their order.

* `IsIdentifier` — a letter, followed by letters and digits.
* `isIdentifier_of_mem_argumentNames` — the arguments for path parameters are identifiers.
* `parameterOf?` — the path parameter that an argument is there for.
* `parameterOf?_eq_some` — it is the one that the argument was made for.
-/

namespace ClientGen.Go

open Text

/-! ## Identifiers -/

/-- **An identifier**: a letter, followed by letters and digits. -/
def IsIdentifier (name : List Char) : Prop :=
  ∃ c cs, name = c :: cs ∧ isAsciiLetter c ∧ ∀ x ∈ c :: cs, isAsciiAlphanumeric x

/-- Letters and digits may follow an identifier. -/
theorem IsIdentifier.append {name digits : List Char} (identifier : IsIdentifier name)
    (all : ∀ x ∈ digits, isAsciiAlphanumeric x) : IsIdentifier (name ++ digits) := by
  obtain ⟨c, cs, rfl, letter, parts⟩ := identifier
  refine ⟨c, cs ++ digits, rfl, letter, fun x member => ?_⟩
  rcases List.mem_append.mp (List.cons_append ▸ member : x ∈ c :: cs ++ digits) with own | added
  · exact parts x own
  · exact all x added

theorem isAsciiAlphanumeric_asciiLower {c : Char} (alphanumeric : isAsciiAlphanumeric c) :
    isAsciiAlphanumeric (asciiLower c) := by
  rcases isAsciiSmall_or_isAsciiDigit_asciiLower alphanumeric with small | digit
  · exact isAsciiAlphanumeric_of_isAsciiSmall small
  · exact isAsciiAlphanumeric_of_isAsciiDigit digit

theorem isAsciiAlphanumeric_of_mem_localWords {name : List Char} {c : Char}
    (member : c ∈ localWords name) : isAsciiAlphanumeric c := by
  unfold localWords at member
  split at member
  · cases member
  · rename_i word words split
    have inWord {other : List Char} (listed : other ∈ word :: words) :
        ∀ x ∈ other, isAsciiAlphanumeric x :=
      Naming.isAsciiAlphanumeric_of_mem_words (split ▸ listed)
    rcases List.mem_append.mp member with first | later
    · have all := inWord (List.mem_cons_self ..)
      cases word with
      | nil => cases first
      | cons d ds =>
          obtain ⟨head, tail⟩ := List.forall_mem_cons.mp all
          have every : ∀ x ∈ asciiLower d :: ds, isAsciiAlphanumeric x :=
            List.forall_mem_cons.mpr ⟨isAsciiAlphanumeric_asciiLower head, tail⟩
          exact every c first
    · obtain ⟨other, listed, inside⟩ := List.mem_flatMap.mp later
      have all := inWord (List.mem_cons_of_mem _ listed)
      cases other with
      | nil => cases inside
      | cons d ds =>
          obtain ⟨head, tail⟩ := List.forall_mem_cons.mp all
          have every : ∀ x ∈ asciiUpper d :: ds, isAsciiAlphanumeric x :=
            List.forall_mem_cons.mpr ⟨isAsciiAlphanumeric_asciiUpper head, tail⟩
          exact every c inside

/-- **The name of an argument is an identifier.** -/
theorem isIdentifier_localName (name : String) : IsIdentifier (localName name).toList := by
  unfold localName
  split
  · exact ⟨'a', ['r', 'g'], by simp, rfl, List.all_eq_true.mp rfl⟩
  · rename_i c cs words
    have parts : ∀ x ∈ c :: cs, isAsciiAlphanumeric x := fun x member =>
      isAsciiAlphanumeric_of_mem_localWords (words ▸ member)
    have joined : IsIdentifier
        (String.ofList (if isAsciiDigit c then 'p' :: c :: cs else c :: cs)).toList := by
      rw [String.toList_ofList]
      split
      · exact ⟨'p', c :: cs, rfl, rfl, List.forall_mem_cons.mpr ⟨rfl, parts⟩⟩
      · rename_i other
        have first := parts c (List.mem_cons_self ..)
        rw [isAsciiAlphanumeric, Bool.or_eq_true] at first
        exact ⟨c, cs, rfl, first.resolve_right other, parts⟩
    have guarded {word : String} (identifier : IsIdentifier word.toList) :
        IsIdentifier
          (if reservedNames.contains word then word ++ "Param" else word).toList := by
      split
      · rw [String.toList_append]
        exact identifier.append (List.all_eq_true.mp rfl)
      · exact identifier
    exact guarded joined

/-- An identifier with a number behind it is one. -/
theorem isIdentifier_numbered {name : String} (identifier : IsIdentifier name.toList) (k : Nat) :
    IsIdentifier (Naming.numbered name k).toList := by
  rw [Naming.toList_numbered]
  refine identifier.append fun x digit => isAsciiAlphanumeric_of_isAsciiDigit ?_
  exact Json.Numeral.isAsciiDigit_of_mem_toDigits digit

/-! ## Path parameters -/

variable {op : Operation}

/-- The names of the arguments for path parameters. -/
def argumentNames (op : Operation) : List String :=
  (Naming.uniqueAll [] ((op.parametersAt .path).map fun p => localName p.name)).1

theorem length_argumentNames (op : Operation) :
    (argumentNames op).length = (op.parametersAt .path).length := by
  rw [argumentNames, Naming.length_uniqueAll, List.length_map]

theorem pathArguments_eq (op : Operation) :
    pathArguments op = ((op.parametersAt .path).zip (argumentNames op)).map fun (p, name) =>
      (p.name, name, typeOf p.shape) := rfl

/-- **The arguments for path parameters are identifiers.** -/
theorem isIdentifier_of_mem_argumentNames {argument : String}
    (listed : argument ∈ argumentNames op) : IsIdentifier argument.toList := by
  obtain ⟨candidate, chosen, given⟩ := Naming.eq_or_eq_numbered_of_mem_uniqueAll listed
  obtain ⟨p, -, rfl⟩ := List.mem_map.mp chosen
  rcases given with rfl | ⟨k, rfl⟩
  · exact isIdentifier_localName p.name
  · exact isIdentifier_numbered (isIdentifier_localName p.name) k

/-- The name of an argument in a signature: it ends at the first blank. -/
def nameOf (entry : String) : List Char :=
  entry.toList.takeWhile (· != ' ')

/-- **The path parameter that an argument is there for**: the one in the place where the argument
stands in the signature. -/
def parameterOf? (op : Operation) (argument : String) : Option String := do
  let position ← (signature op).findIdx? fun entry => nameOf entry == argument.toList
  let p ← (op.parametersAt .path)[position]?
  return p.name

/-- The name of an entry ends at the blank in front of its type. -/
theorem nameOf_entry {argument : String} (identifier : IsIdentifier argument.toList)
    (type : String) : nameOf (argument ++ " " ++ type) = argument.toList := by
  obtain ⟨c, cs, letters, -, parts⟩ := identifier
  have plain : ∀ x ∈ argument.toList, (x != ' ') = true := by
    intro x member
    rw [letters] at member
    have part := parts x member
    rw [bne_iff_ne]
    rintro rfl
    exact absurd part (by decide)
  have blank : (" " ++ type).toList.takeWhile (· != ' ') = [] := by
    simp
  rw [nameOf, String.append_assoc, String.toList_append, List.takeWhile_append_of_pos plain, blank,
    List.append_nil]

theorem length_pathArguments (op : Operation) :
    (pathArguments op).length = (op.parametersAt .path).length := by
  rw [pathArguments_eq, List.length_map, List.length_zip, length_argumentNames, Nat.min_self]

/-- The first entries of the signature are those of the path parameters. -/
theorem nameOf_getElem_signature {i : Nat} (inside : i < (argumentNames op).length)
    (inSignature : i < (signature op).length) :
    nameOf (signature op)[i] = (argumentNames op)[i].toList := by
  have inArguments : i < (pathArguments op).length := by
    rwa [length_pathArguments, ← length_argumentNames]
  have own : (signature op)[i] =
      (pathArguments op)[i].2.1 ++ " " ++ (pathArguments op)[i].2.2 := by
    simp only [signature, List.append_assoc]
    rw [List.getElem_append_left (by rwa [List.length_map]), List.getElem_map]
  have name : (pathArguments op)[i].2.1 = (argumentNames op)[i] := by
    simp [pathArguments_eq]
  rw [own, name]
  exact nameOf_entry (isIdentifier_of_mem_argumentNames (List.getElem_mem inside)) _

/-- **An argument stands for the parameter that it was made for.** -/
theorem parameterOf?_eq_some {name argument type : String}
    (listed : (name, argument, type) ∈ pathArguments op) :
    parameterOf? op argument = some name := by
  obtain ⟨i, inArguments, here⟩ := List.getElem_of_mem listed
  have inParameters : i < (op.parametersAt .path).length := length_pathArguments op ▸ inArguments
  have inNames : i < (argumentNames op).length := by rwa [length_argumentNames]
  have inSignature : i < (signature op).length := by
    simp only [signature, List.append_assoc, List.length_append, List.length_map]
    omega
  have entry : (op.parametersAt .path)[i].name = name ∧ (argumentNames op)[i] = argument := by
    simp only [pathArguments_eq, List.getElem_map, List.getElem_zip, Prod.mk.injEq] at here
    exact ⟨here.1, here.2.1⟩
  -- names of arguments are different, so that no earlier entry has this one
  have found : (signature op).findIdx? (nameOf · == argument.toList) = some i := by
    rw [List.findIdx?_eq_some_iff_getElem]
    refine ⟨inSignature, ?_, fun j before => ?_⟩
    · rw [nameOf_getElem_signature inNames, entry.2, beq_self_eq_true]
    · have distinct : (argumentNames op).Nodup := Naming.nodup_uniqueAll ..
      rw [nameOf_getElem_signature (by omega), ← entry.2, beq_iff_eq, String.toList_inj,
        distinct.getElem_inj_iff]
      omega
  rw [parameterOf?, found, Option.bind_eq_bind, Option.bind_some,
    List.getElem?_eq_getElem inParameters, ← entry.1]
  rfl

end ClientGen.Go
