import ClientGen.Document.Form
import ClientGen.Pointer
import ClientGen.Proofs.Naming.Grammar
import Mathlib.Logic.Basic
import Mathlib.Tactic.ByContra

/-!
# Tokens of pointers

A written token holds no slash, so the last token of a pointer can be read off the pointer, and
reading it back gives the token. Writing a token leaves it as it is exactly if it has neither a
tilde nor a slash; then, and only then, the written token also has the name of a model that the
token itself has.

* `Pointer.unescape_escape`, `Pointer.child_injective` — nothing is lost.
* `Pointer.refName_child` — the last token of a pointer, as it is written.
* `Pointer.pascalCase_escape_eq_iff` — which tokens keep their name when they are written.
-/

namespace ClientGen.Pointer

open Naming Text

/-! ## Written tokens -/

theorem escapeChars_cons (c : Char) (cs : List Char) :
    escapeChars (c :: cs) =
      (if c = '~' then ['~', '0'] else if c = '/' then ['~', '1'] else [c]) ++ escapeChars cs := by
  rw [escapeChars]
  split
  · rfl
  · split <;> rfl

theorem unescapeChars_cons {c : Char} (plain : c ≠ '~') (cs : List Char) :
    unescapeChars (c :: cs) = c :: unescapeChars cs := by
  rw [unescapeChars]
  · exact fun rest tilde => absurd tilde plain
  · exact fun rest tilde => absurd tilde plain

theorem unescapeChars_escapeChars (cs : List Char) : unescapeChars (escapeChars cs) = cs := by
  induction cs with
  | nil => rfl
  | cons c cs ih =>
      rw [escapeChars_cons]
      split
      · rename_i tilde
        rw [tilde]
        exact congrArg _ ih
      · split
        · rename_i slash
          rw [slash]
          exact congrArg _ ih
        · rename_i tilde slash
          rw [List.singleton_append, unescapeChars_cons tilde, ih]

/-- **A token can be read back.** -/
theorem unescape_escape (token : String) : unescape (escape token) = token := by
  rw [unescape, escape, String.toList_ofList, unescapeChars_escapeChars, String.ofList_toList]

/-- **Children of one place differ in their tokens.** -/
theorem child_injective {parent token other : String}
    (same : child parent token = child parent other) : token = other := by
  have written : escape token = escape other := (String.append_right_inj _).mp same
  rw [← unescape_escape token, written, unescape_escape]

/-- A written token holds no slash. -/
theorem ne_slash_of_mem_escapeChars {c : Char} {cs : List Char} (member : c ∈ escapeChars cs) :
    c ≠ '/' := by
  induction cs with
  | nil => cases member
  | cons d ds ih =>
      rw [escapeChars_cons] at member
      rcases List.mem_append.mp member with here | later
      · split at here
        · rintro rfl
          simp at here
        · split at here
          · rintro rfl
            simp at here
          · rename_i slash
            obtain rfl := List.mem_singleton.mp here
            exact slash
      · exact ih later

/-- **The last token of a pointer**, as it is written. -/
theorem refName_child (parent token : String) :
    Schema.refName (child parent token) = escape token := by
  have tail : (child parent token).toList.reverse =
      (escape token).toList.reverse ++ '/' :: parent.toList.reverse := by
    simp [child]
  have kept : ∀ c ∈ (escape token).toList.reverse, (c != '/') = true := by
    intro c member
    have inside : c ∈ escapeChars token.toList := by simpa [escape] using member
    simpa using ne_slash_of_mem_escapeChars inside
  rw [Schema.refName, tail, List.takeWhile_append_of_pos kept, List.takeWhile_cons_of_neg (by simp),
    List.append_nil, List.reverse_reverse, String.ofList_toList]

/-! ## Tokens that are written as they are -/

/-- A token with neither a tilde nor a slash. -/
def Plain (token : String) : Prop :=
  '~' ∉ token.toList ∧ '/' ∉ token.toList

theorem escapeChars_eq_self {cs : List Char} (tilde : '~' ∉ cs) (slash : '/' ∉ cs) :
    escapeChars cs = cs := by
  induction cs with
  | nil => rfl
  | cons c cs ih =>
      rw [List.mem_cons, not_or] at tilde slash
      rw [escapeChars_cons, if_neg (Ne.symm tilde.1), if_neg (Ne.symm slash.1),
        List.singleton_append, ih tilde.2 slash.2]

theorem Plain.escape_eq {token : String} (plain : Plain token) : escape token = token := by
  rw [escape, escapeChars_eq_self plain.1 plain.2, String.ofList_toList]

/-! ## The names of written tokens -/

theorem length_lettersFrom (fresh : Bool) (raw : List Char) :
    (lettersFrom fresh raw).length = raw.countP isAsciiAlphanumeric := by
  induction raw generalizing fresh with
  | nil => rfl
  | cons c cs ih =>
      by_cases alphanumeric : isAsciiAlphanumeric c
      · simp [lettersFrom, alphanumeric, ih]
      · simp [lettersFrom, alphanumeric, ih]

/-- Each tilde and each slash adds a digit. -/
theorem countP_escapeChars (cs : List Char) :
    (escapeChars cs).countP isAsciiAlphanumeric =
      cs.countP isAsciiAlphanumeric + cs.countP (fun c => c == '~' || c == '/') := by
  induction cs with
  | nil => rfl
  | cons c cs ih =>
      rw [escapeChars_cons, List.countP_append, ih, List.countP_cons, List.countP_cons]
      split
      · rename_i tilde
        subst tilde
        simp [show isAsciiAlphanumeric '~' = false by decide,
          show isAsciiAlphanumeric '0' = true by decide]
        omega
      · split
        · rename_i slash
          subst slash
          simp [show isAsciiAlphanumeric '~' = false by decide,
            show isAsciiAlphanumeric '/' = false by decide,
            show isAsciiAlphanumeric '1' = true by decide]
          omega
        · rename_i tilde slash
          simp [tilde, slash]
          omega

/-- Without letters and digits a token is written with the digits of its tildes and slashes. -/
theorem isAsciiDigit_of_mem_lettersFrom_escapeChars {cs : List Char}
    (empty : cs.countP isAsciiAlphanumeric = 0) {fresh : Bool} {c : Char}
    (member : c ∈ lettersFrom fresh (escapeChars cs)) : isAsciiDigit c := by
  induction cs generalizing fresh with
  | nil => cases member
  | cons d ds ih =>
      have none_alphanumeric := List.countP_eq_zero.mp empty
      have head : isAsciiAlphanumeric d = false := by
        simpa using none_alphanumeric d (List.mem_cons_self ..)
      have rest : ds.countP isAsciiAlphanumeric = 0 :=
        List.countP_eq_zero.mpr fun x inside => none_alphanumeric x (List.mem_cons_of_mem d inside)
      have tilde : isAsciiAlphanumeric '~' = false := by decide
      have digit (x : Char) (isDigit : x = '0' ∨ x = '1')
          (inside : c ∈ lettersFrom fresh ('~' :: x :: escapeChars ds)) : isAsciiDigit c := by
        have alphanumeric : isAsciiAlphanumeric x := by
          rcases isDigit with rfl | rfl <;> decide
        have upper : asciiUpper x = x := by
          rcases isDigit with rfl | rfl <;> decide
        simp only [lettersFrom, tilde, alphanumeric, Bool.false_eq_true, if_false, if_true, upper,
          List.mem_cons] at inside
        rcases inside with rfl | inside
        · rcases isDigit with rfl | rfl <;> decide
        · exact ih rest inside
      rw [escapeChars_cons] at member
      split at member
      · exact digit '0' (.inl rfl) member
      · split at member
        · exact digit '1' (.inr rfl) member
        · simp only [List.singleton_append, lettersFrom, head, Bool.false_eq_true, if_false]
            at member
          exact ih rest member

/-- The letters and digits of a name are those of the identifier, if it has any. -/
theorem filter_pascalCase {raw : String} (letters : lettersFrom true raw.toList ≠ []) :
    (pascalCase raw).toList.filter isAsciiAlphanumeric = lettersFrom true raw.toList := by
  have all : ∀ c ∈ lettersFrom true raw.toList, isAsciiAlphanumeric c := fun c member =>
    isAsciiAlphanumeric_of_mem_lettersFrom member
  unfold pascalCase
  rw [joined_eq_lettersFrom]
  cases found : lettersFrom true raw.toList with
  | nil => exact absurd found letters
  | cons c cs =>
      rw [found] at all
      show (String.ofList (guardDigit (c :: cs))).toList.filter isAsciiAlphanumeric = c :: cs
      rw [String.toList_ofList, guardDigit]
      split
      · rw [List.filter_cons_of_neg (by decide), List.filter_eq_self.mpr all]
      · exact List.filter_eq_self.mpr all

/-- **A written token keeps its name** exactly if nothing in it had to be written otherwise. -/
theorem pascalCase_escape_eq_iff (token : String) :
    pascalCase (escape token) = pascalCase token ↔ Plain token := by
  refine ⟨fun same => ?_, fun plain => congrArg pascalCase plain.escape_eq⟩
  by_contra special
  have digits : 0 < token.toList.countP (fun c => c == '~' || c == '/') := by
    rw [List.countP_pos_iff]
    rcases not_and_or.mp special with tilde | slash
    · exact ⟨'~', not_not.mp tilde, rfl⟩
    · exact ⟨'/', not_not.mp slash, rfl⟩
  have longer : (lettersFrom true (escape token).toList).length =
      (lettersFrom true token.toList).length +
        token.toList.countP (fun c => c == '~' || c == '/') := by
    rw [length_lettersFrom, length_lettersFrom, escape, String.toList_ofList, countP_escapeChars]
  have written : lettersFrom true (escape token).toList ≠ [] := by
    intro nothing
    rw [nothing, List.length_nil] at longer
    omega
  have names := filter_pascalCase written
  rw [same] at names
  by_cases letters : lettersFrom true token.toList = []
  · -- then the name of the token is `Model`, and the name of its written form starts with a digit
    have empty : token.toList.countP isAsciiAlphanumeric = 0 := by
      rw [← length_lettersFrom true, letters, List.length_nil]
    have model : pascalCase token = "Model" := by
      rw [pascalCase, joined_eq_lettersFrom, letters]
    have capital : 'M' ∈ lettersFrom true (escape token).toList := by
      rw [← names, model]
      decide
    rw [escape, String.toList_ofList] at capital
    exact absurd (isAsciiDigit_of_mem_lettersFrom_escapeChars empty capital) (by decide)
  · rw [filter_pascalCase letters] at names
    rw [← names] at longer
    omega

end ClientGen.Pointer
