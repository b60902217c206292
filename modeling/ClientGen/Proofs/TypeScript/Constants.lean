import ClientGen.Proofs.Json.Numerals
import ClientGen.Proofs.Naming.Runs
import ClientGen.Proofs.Naming.Unique
import ClientGen.Proofs.TypeScript.Identifiers
import ClientGen.Proofs.TypeScript.Quoting
import ClientGen.TypeScript.Shapes

/-!
# Constants of TypeScript

An enumeration of strings or of numbers becomes an object of constants. Its values are the literals
of the enumeration without repetitions that follow each other, and its keys are made of the literals
and told apart by numbers. A number behind an identifier makes another identifier; behind a literal
it makes nothing that could be a key.

* `IsKey` — an identifier, or one complete literal.
* `quotedStrings` — the strings that can be keys only between quotes.
* `isKey_freeName_quote` — a key between quotes is a key as long as it needs no number.
* `constants_exact` — the keys and values of an enumeration, and when they are what they should be.
-/

namespace ClientGen

/-! ## Equality of literals -/

theorem Decimal.Binary64.sameValue_iff {x y : Binary64} :
    x.sameValue y ↔ (x.isZero ∧ y.isZero) ∨ x = y := by
  simp [sameValue]

namespace TypeScript

open Text Naming Decimal.Binary64

theorem Literal.same_iff {l l' : Literal} :
    l == l' ↔ l = l' ∨ ∃ x y, l = .float x ∧ l' = .float y ∧ x.isZero ∧ y.isZero := by
  show Literal.same l l' ↔ _
  cases l <;> cases l' <;> simp [Literal.same, sameValue_iff, or_comm]

/-- Equality of literals is an equivalence. -/
instance : EquivBEq Literal where
  rfl := Literal.same_iff.mpr (.inl rfl)
  symm := by
    intro a b same
    rcases Literal.same_iff.mp same with rfl | ⟨x, y, rfl, rfl, zero, other⟩
    · exact same
    · exact Literal.same_iff.mpr (.inr ⟨y, x, rfl, rfl, other, zero⟩)
  trans := by
    intro a b c first second
    rcases Literal.same_iff.mp first with rfl | ⟨x, y, rfl, rfl, zero, other⟩
    · exact second
    · rcases Literal.same_iff.mp second with rfl | ⟨x', y', same, rfl, zero', other'⟩
      · exact first
      · exact Literal.same_iff.mpr (.inr ⟨x, y', rfl, rfl, zero, other'⟩)

/-! ## Keys -/

/-- **What the key of an object can be**: an identifier, or one complete literal. -/
def IsKey (key : String) : Prop :=
  IsWord key.toList ∨ ∃ text, quoting.literal? key.toList = some (text, [])

/-- The strings among literals that can be keys only between quotes. -/
def quotedStrings (ls : List Literal) : List String :=
  ls.filterMap fun
    | .string s => if needsBrackets s then some s else none
    | _ => none

theorem isWord_of_plain {name : String} (plain : needsBrackets name = false) :
    IsWord name.toList := by
  obtain ⟨c, cs, letters, start, parts⟩ := letters_of_plain plain
  exact ⟨c, cs, letters, start, (List.forall_mem_cons.mp parts).2⟩

theorem quote_injective {s t : String} (same : quote s = quote t) : s = t := by
  have read := literal?_toList_quote s
  rw [same, literal?_toList_quote t] at read
  exact (Prod.mk.inj (Option.some.inj read)).1.symm

theorem isKey_quote (text : String) : IsKey (quote text) :=
  .inr ⟨text, literal?_toList_quote text⟩

/-- What starts with a literal is no identifier. -/
theorem not_isWord_quote (text : String) (rest : List Char) :
    ¬ IsWord ((quote text).toList ++ rest) := by
  rintro ⟨c, cs, letters, start, -⟩
  have first : '"' = c := by
    have heads := congrArg List.head? letters
    simpa [quote] using heads
  exact absurd (first ▸ start) (by decide)

theorem not_isKey_numbered_quote (text : String) (k : Nat) :
    ¬ IsKey (numbered (quote text) k) := by
  rw [IsKey, toList_numbered]
  rintro (word | ⟨other, read⟩)
  · exact not_isWord_quote text _ word
  · rw [literal?_quote] at read
    exact Nat.toDigits_ne_nil (Prod.mk.inj (Option.some.inj read)).2

theorem isWord_freeName {taken : List String} {candidate : String}
    (word : IsWord candidate.toList) : IsWord (freeName taken candidate).toList := by
  obtain ⟨digits, same, every⟩ := exists_digits_freeName taken candidate
  have nonempty : candidate.toList ≠ [] := by
    obtain ⟨c, cs, letters, -⟩ := word
    exact letters ▸ List.cons_ne_nil c cs
  rw [same]
  exact (IsWord.append_iff nonempty every).mpr word

/-- **A key between quotes is a key** as long as it needs no number. -/
theorem isKey_freeName_quote {taken : List String} {text : String} :
    IsKey (freeName taken (quote text)) ↔ quote text ∉ taken := by
  constructor
  · intro isKey present
    rcases freeName_cases taken (quote text) with same | ⟨k, same⟩
    · exact freeName_notMem taken (quote text) (same.symm ▸ present)
    · exact not_isKey_numbered_quote text k (same ▸ isKey)
  · intro absent
    rw [freeName_of_not_mem absent]
    exact isKey_quote text

theorem isWord_value (n : Nat) : IsWord ("VALUE_" ++ Text.decimal n).toList := by
  have parts : ∀ c ∈ Nat.toDigits 10 n, isIdentifierPart c := fun c member =>
    isIdentifierPart_of_isAsciiDigit (Json.Numeral.isAsciiDigit_of_mem_toDigits member)
  have letters : ("VALUE_" ++ Text.decimal n).toList = "VALUE_".toList ++ Nat.toDigits 10 n :=
    toList_numbered "VALUE_" n
  have behind : ∀ c ∈ "ALUE_".toList, isIdentifierPart c := List.all_eq_true.mp rfl
  rw [letters]
  exact ⟨'V', "ALUE_".toList ++ Nat.toDigits 10 n, rfl, rfl,
    List.forall_mem_append.mpr ⟨behind, parts⟩⟩

/-- The key of a literal is an identifier, or a string between quotes. -/
theorem constantKey_cases (l : Literal) (position : Nat) :
    (∃ s, quotedStrings [l] = [s] ∧ constantKey l position = quote s) ∨
      (quotedStrings [l] = [] ∧ IsWord (constantKey l position).toList) := by
  cases l with
  | string s =>
      cases plain : needsBrackets s with
      | true => exact .inl ⟨s, by simp [quotedStrings, plain], by simp [constantKey, key, plain]⟩
      | false =>
          refine .inr ⟨by simp [quotedStrings, plain], ?_⟩
          rw [constantKey, key, plain]
          exact isWord_of_plain plain
  | int i =>
      refine .inr ⟨rfl, ?_⟩
      rw [constantKey]
      split
      · rename_i nonneg
        obtain ⟨n, rfl⟩ := Int.eq_ofNat_of_zero_le nonneg
        exact isWord_value n
      · exact isWord_value position
  | float x => exact .inr ⟨rfl, isWord_value position⟩
  | bool b =>
      refine .inr ⟨rfl, ?_⟩
      cases b with
      | true => exact (by decide : IsWord "TRUE".toList)
      | false => exact (by decide : IsWord "FALSE".toList)
  | null => exact .inr ⟨rfl, (by decide : IsWord "NULL".toList)⟩

/-- **All keys are keys** iff no string that needs quotes is taken or stands twice. -/
theorem forall_isKey_iff {ls : List Literal} {taken : List String} {start : Nat} :
    (∀ key ∈ (uniqueAll taken ((ls.zipIdx start).map fun (l, position) =>
        constantKey l position)).1, IsKey key) ↔
      (∀ s ∈ quotedStrings ls, quote s ∉ taken) ∧ (quotedStrings ls).Nodup := by
  induction ls generalizing taken start with
  | nil => simp [quotedStrings]
  | cons l ls ih =>
      have split : quotedStrings (l :: ls) = quotedStrings [l] ++ quotedStrings ls :=
        List.filterMap_append (l := [l])
      rw [List.zipIdx_cons, List.map_cons, uniqueAll_cons, List.forall_mem_cons, ih, split]
      dsimp only
      rcases constantKey_cases l start with ⟨s, quoted, key⟩ | ⟨plain, word⟩
      · rw [quoted, key, isKey_freeName_quote]
        by_cases present : quote s ∈ taken
        · simp [present]
        · have others : (∀ other ∈ quotedStrings ls, quote other ∉ quote s :: taken) ↔
              s ∉ quotedStrings ls ∧ ∀ other ∈ quotedStrings ls, quote other ∉ taken := by
            constructor
            · intro every
              exact ⟨fun member => every s member (List.mem_cons_self ..),
                fun other member before => every other member (List.mem_cons_of_mem _ before)⟩
            · rintro ⟨fresh, every⟩ other member listed
              rcases List.mem_cons.mp listed with same | before
              · exact fresh (quote_injective same ▸ member)
              · exact every other member before
          rw [freeName_of_not_mem present, others]
          simp only [List.singleton_append, List.forall_mem_cons, List.nodup_cons]
          tauto
      · have named : IsWord (freeName taken (constantKey l start)).toList := isWord_freeName word
        have others : (∀ other ∈ quotedStrings ls,
            quote other ∉ freeName taken (constantKey l start) :: taken) ↔
              ∀ other ∈ quotedStrings ls, quote other ∉ taken := by
          refine forall₂_congr fun other _ => ?_
          rw [List.mem_cons, not_or]
          refine and_iff_right fun same => not_isWord_quote other [] ?_
          rwa [List.append_nil, same]
        rw [plain, others, List.nil_append]
        exact and_iff_right (.inl named)

/-! ## Enumerations -/

theorem keys_constants (ls : List Literal) :
    (constants ls).map (·.1) =
      (uniqueAll [] (ls.zipIdx.map fun (l, position) => constantKey l position)).1 :=
  List.map_fst_zip (by simp)

theorem values_constants (ls : List Literal) : (constants ls).map (·.2) = ls :=
  List.map_snd_zip (by simp)

/-- **The keys of constants are keys** iff no string that needs quotes is there twice. -/
theorem isKey_constants_iff (ls : List Literal) :
    (∀ entry ∈ constants ls, IsKey entry.1) ↔ (quotedStrings ls).Nodup := by
  have keys : (∀ entry ∈ constants ls, IsKey entry.1) ↔
      ∀ key ∈ (constants ls).map (·.1), IsKey key := by simp
  rw [keys, keys_constants, forall_isKey_iff]
  exact and_iff_right fun _ _ => List.not_mem_nil

/-- Strings only, or numbers only, are the values of an object of constants. -/
theorem body_definition {m : Model} {values : List Json} (shape : m.shape = .enumeration values)
    (nonempty : values ≠ []) (uniform : values.all Json.isString ∨ values.all Json.isNumber) :
    (definition m).body = .constants (constants (literals values)) := by
  have listed : (!values.isEmpty &&
      (values.all Json.isString || values.all Json.isNumber)) = true := by
    rw [List.isEmpty_eq_false_iff.mpr nonempty, Bool.not_false, Bool.true_and, Bool.or_eq_true]
    exact uniform
  rw [definition, shape]
  exact if_pos listed

/-- **Constants of an enumeration.** A model that lists strings only, or numbers only, becomes an
object of constants with different keys, whose values are the literals of the list without
repetitions that follow each other. These are the literals each once, in the order of first
appearance, iff none of them comes back after a different one; and the keys are identifiers or
complete literals iff no string that needs quotes is among the values twice. -/
theorem constants_exact {m : Model} {values : List Json} (shape : m.shape = .enumeration values)
    (nonempty : values ≠ []) (uniform : values.all Json.isString ∨ values.all Json.isNumber) :
    ∃ entries, (definition m).body = .constants entries ∧ (entries.map (·.1)).Nodup ∧
      entries.map (·.2) = (values.filterMap Literal.ofJson?).eraseReps ∧
      (entries.map (·.2) = (values.filterMap Literal.ofJson?).eraseDups ↔
        Grouped (values.filterMap Literal.ofJson?)) ∧
      ((∀ entry ∈ entries, IsKey entry.1) ↔ (quotedStrings (entries.map (·.2))).Nodup) := by
  refine ⟨_, body_definition shape nonempty uniform, ?_, values_constants _, ?_, ?_⟩
  · rw [keys_constants]
    exact nodup_uniqueAll ..
  · rw [values_constants]
    exact eraseReps_eq_eraseDups_iff
  · rw [values_constants]
    exact isKey_constants_iff _

/-- Two strings, one of which needs quotes. -/
def modes : List Json :=
  [.string "read only", .string "all"]

theorem constants_exact_modes :
    modes ≠ [] ∧ (modes.all Json.isString ∨ modes.all Json.isNumber) ∧
      ∃ entries, (definition ⟨"Mode", .enumeration modes, none, none⟩).body = .constants entries ∧
        (entries.map (·.1)).Nodup ∧
        entries.map (·.2) = (modes.filterMap Literal.ofJson?).eraseReps ∧
        (entries.map (·.2) = (modes.filterMap Literal.ofJson?).eraseDups ↔
          Grouped (modes.filterMap Literal.ofJson?)) ∧
        ((∀ entry ∈ entries, IsKey entry.1) ↔ (quotedStrings (entries.map (·.2))).Nodup) :=
  ⟨List.cons_ne_nil _ _, .inl rfl, constants_exact rfl (List.cons_ne_nil _ _) (.inl rfl)⟩

/-- Strings of which one comes back after a different one. -/
def modesAgain : List Json :=
  [.string "a b", .string "c", .string "a b"]

/-- **A string that comes back** spoils the keys: the second one is no identifier and no complete
literal. -/
theorem not_isKey_modesAgain :
    ¬ ∃ entries,
      (definition ⟨"Mode", .enumeration modesAgain, none, none⟩).body = .constants entries ∧
        (entries.map (·.1)).Nodup ∧ (∀ entry ∈ entries, IsKey entry.1) ∧
        entries.map (·.2) = (modesAgain.filterMap Literal.ofJson?).eraseDups := by
  rintro ⟨entries, body, -, keys, -⟩
  rw [body_definition rfl (List.cons_ne_nil _ _) (.inl rfl)] at body
  obtain rfl := DefinitionBody.constants.inj body
  exact absurd ((isKey_constants_iff _).mp keys) (by decide)

end TypeScript

end ClientGen
