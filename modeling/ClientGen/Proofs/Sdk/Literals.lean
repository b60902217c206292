import ClientGen.Proofs.Go.Quoting
import ClientGen.Proofs.TypeScript.Constants

/-!
# Texts in the code of clients

Texts of a document stand in the code of both languages as literals between double quotes, and in
TypeScript also as the names of members. Whatever a text is, the language reads it back: what could
end a literal, or a line, is escaped, and a text that is no name stands between quotes.

Literals are read by the grammars of the languages. What a compiler may refuse in a file as a whole,
such as a byte order mark that is not the first character, is no matter of a literal.

* `TypeScript.needsBrackets_eq_false_iff` — the texts that are names.
* `TypeScript.accessed?` — the object and the member of an access.
* `read_text` — texts are read back, from literals, keys and accesses.
-/

namespace ClientGen

open Text

namespace TypeScript

/-! ## Names of members -/

/-- **The texts that are names** need no brackets. -/
theorem needsBrackets_eq_false_iff {name : String} :
    needsBrackets name = false ↔ IsWord name.toList := by
  constructor
  · exact isWord_of_plain
  · rintro ⟨c, cs, letters, start, parts⟩
    simp [needsBrackets, letters, start, List.all_eq_true.mpr parts]

/-- **A key** is the text itself if it is a name, and otherwise a literal of it. -/
theorem key_cases (name : String) :
    IsWord name.toList ∧ key name = name ∨
      ¬ IsWord name.toList ∧ quoting.literal? (key name).toList = some (name, []) := by
  rw [← needsBrackets_eq_false_iff, key]
  cases needsBrackets name with
  | true => exact .inr ⟨by decide, literal?_toList_quote name⟩
  | false => exact .inl ⟨rfl, rfl⟩

/-! ## Accesses -/

/-- **An access to a member**: the name of the object, whether the object may be absent, and the
name of the member. -/
def accessed? (cs : List Char) : Option (String × Bool × String) := do
  let (object, behind) ← word? cs
  let (property, rest) ← property? behind
  if rest.isEmpty then some (object, behind.head? == some '?', property) else none

/-- What stands behind the object in an access is the name of the property. -/
theorem exists_property?_access (object property : String) (present : Bool) :
    ∃ behind, (access object property present).toList = object.toList ++ behind ∧
      property? behind = some (property, []) := by
  have ended : ∀ c ∈ ([] : List Char).head?, isIdentifierPart c = false := by simp
  obtain ⟨behind, written, read⟩ := property?_access object property present ended
  rw [List.append_nil] at read
  exact ⟨behind, written, read⟩

/-- What names a property does not go on with a name. -/
theorem isIdentifierPart_of_property? {cs rest : List Char} {property : String}
    (read : property? cs = some (property, rest)) :
    ∀ c ∈ cs.head?, isIdentifierPart c = false := by
  unfold property? at read
  split at read
  · rintro c ⟨⟩; rfl
  · rintro c ⟨⟩; rfl
  · rintro c ⟨⟩; rfl
  · rintro c ⟨⟩; rfl
  · cases read

/-- The object may be absent if a question mark stands behind it. -/
theorem head?_eq_questionMark_iff {object property : String} {present : Bool} {behind : List Char}
    (written : (access object property present).toList = object.toList ++ behind) :
    behind.head? = some '?' ↔ present = false := by
  have cut : behind = (access object property present).toList.drop object.toList.length := by
    rw [written, List.drop_left]
  rw [cut]
  unfold access
  cases needsBrackets property <;> cases present <;> simp

/-- **An access is read as the access** to the member, of an object that has a name. -/
theorem accessed?_access {object : String} (word : IsWord object.toList) (property : String)
    (present : Bool) :
    accessed? (access object property present).toList = some (object, !present, property) := by
  obtain ⟨behind, written, read⟩ := exists_property?_access object property present
  have named := needsBrackets_eq_false_iff.mpr word
  have absent : (behind.head? == some '?') = !present := by
    rw [Bool.eq_iff_iff, beq_iff_eq, head?_eq_questionMark_iff written, Bool.not_eq_true']
  rw [accessed?, written, word?_append named (isIdentifierPart_of_property? read)]
  simp [read, absent]

end TypeScript

/-- **Texts are read back.** Whatever a text is, the literals of both languages stand for it and
hold no character that could end a line; a key of TypeScript is the text if it is a name and
otherwise a literal of the text; and what an access of TypeScript puts behind an object is exactly
the member that is called by the text. -/
theorem read_text (text : String) :
    (TypeScript.quoting.literal? ("\"" ++ TypeScript.escapeString text ++ "\"").toList =
        some (text, []) ∧
      ∀ c ∈ (TypeScript.escapeString text).toList, TypeScript.isLineEnd c = false) ∧
    (Go.quoting.literal? (Go.quote text).toList = some (text, []) ∧
      ∀ c ∈ (Go.quote text).toList, isControl c = false) ∧
    (TypeScript.IsWord text.toList ∧ TypeScript.key text = text ∨
      ¬ TypeScript.IsWord text.toList ∧
        TypeScript.quoting.literal? (TypeScript.key text).toList = some (text, [])) ∧
    ∀ (object : String) (present : Bool),
      (∃ behind, (TypeScript.access object text present).toList = object.toList ++ behind ∧
        TypeScript.property? behind = some (text, []) ∧
        (behind.head? = some '?' ↔ present = false)) ∧
      (TypeScript.IsWord object.toList →
        TypeScript.accessed? (TypeScript.access object text present).toList =
          some (object, !present, text)) := by
  have script := TypeScript.literal?_toList_quote text
  have go := Go.literal?_toList_quote text
  refine ⟨⟨script, TypeScript.isLineEnd_of_mem_escapeString text⟩,
    ⟨go, Go.isControl_of_mem_quote text⟩, TypeScript.key_cases text, fun object present => ?_⟩
  refine ⟨?_, fun word => TypeScript.accessed?_access word text present⟩
  obtain ⟨behind, written, read⟩ := TypeScript.exists_property?_access object text present
  exact ⟨behind, written, read, TypeScript.head?_eq_questionMark_iff written⟩

end ClientGen
