import ClientGen.Api.Basic
import Mathlib.Data.String.Basic

/-!
# Statuses as numbers

A response counts as the success of an operation for what its status says as a number, but responses
are listed in the order of their statuses as texts.

* `Text.Reads` — a text is a numeral of a number.
* `Text.IsSuccess`, `Response.isSuccess_iff` — the statuses of success.
* `Text.ofDigitChars_lt` — among digits of one length the order of texts is the order of numbers.

Texts of different lengths are in another order than their numbers, and so is a numeral with a plus
sign: only for statuses of three digits does the first one in the list have the smallest number.
-/

namespace ClientGen

namespace Text

/-! ## Numerals -/

/-- **A text reads as a number**: it consists of decimal digits, after a plus sign or none. -/
def Reads (text : String) (n : Nat) : Prop :=
  ∃ digits, digits ≠ [] ∧ (∀ c ∈ digits, isAsciiDigit c) ∧
    (text.toList = digits ∨ text.toList = '+' :: digits) ∧ Nat.ofDigitChars 10 digits 0 = n

/-- **A status of success** reads as a number from 200 to 299. -/
def IsSuccess (status : String) : Prop :=
  ∃ n, Reads status n ∧ 200 ≤ n ∧ n < 300

/-- A text of three digits. -/
def ThreeDigits (text : String) : Prop :=
  text.toList.length = 3 ∧ ∀ c ∈ text.toList, isAsciiDigit c

theorem digits_eq_self {cs : List Char} (decimal : ∀ c ∈ cs, isAsciiDigit c) :
    Response.digits cs = cs := by
  cases cs with
  | nil => rfl
  | cons c cs =>
      have other : c ≠ '+' := by
        rintro rfl
        exact absurd (decimal '+' (List.mem_cons_self ..)) (by decide)
      rw [Response.digits]
      rintro ds same
      exact other (List.cons.inj same).1

/-- The digits of a text are what it is read from. -/
theorem reads_iff {text : String} {n : Nat} :
    Reads text n ↔ Response.digits text.toList ≠ [] ∧
      (∀ c ∈ Response.digits text.toList, isAsciiDigit c) ∧
        Nat.ofDigitChars 10 (Response.digits text.toList) 0 = n := by
  constructor
  · rintro ⟨digits, nonempty, decimal, same | same, value⟩
    · rw [same, digits_eq_self decimal]
      exact ⟨nonempty, decimal, value⟩
    · rw [same]
      exact ⟨nonempty, decimal, value⟩
  · rintro ⟨nonempty, decimal, value⟩
    refine ⟨_, nonempty, decimal, ?_, value⟩
    unfold Response.digits
    split
    · rename_i same
      exact .inr same
    · exact .inl rfl

/-- A text reads as one number. -/
theorem Reads.unique {text : String} {n m : Nat} (reads : Reads text n) (again : Reads text m) :
    n = m := by
  obtain ⟨-, -, value⟩ := reads_iff.mp reads
  obtain ⟨-, -, value'⟩ := reads_iff.mp again
  exact value.symm.trans value'

theorem ThreeDigits.reads {text : String} (three : ThreeDigits text) :
    Reads text (Nat.ofDigitChars 10 text.toList 0) := by
  refine ⟨text.toList, fun empty => ?_, three.2, .inl rfl, rfl⟩
  have length := three.1
  rw [empty] at length
  cases length

/-! ## The order of numerals -/

/-- The places of the digits among the characters. -/
theorem isAsciiDigit_iff {c : Char} :
    isAsciiDigit c ↔ '0'.toNat ≤ c.toNat ∧ c.toNat ≤ '9'.toNat := by
  simp [isAsciiDigit, Char.le_def, UInt32.le_iff_toNat_le]

/-- A greater start outweighs all of the digits behind it. -/
theorem ofDigitChars_lt_of_lt {as bs : List Char} (length : as.length = bs.length)
    (decimal : ∀ c ∈ as, isAsciiDigit c) {start start' : Nat} (less : start < start') :
    Nat.ofDigitChars 10 as start < Nat.ofDigitChars 10 bs start' := by
  induction as generalizing bs start start' with
  | nil =>
      obtain rfl := List.length_eq_zero_iff.mp length.symm
      exact less
  | cons a as ih =>
      cases bs with
      | nil => cases length
      | cons b bs =>
          have rest : ∀ c ∈ as, isAsciiDigit c :=
            fun c listed => decimal c (List.mem_cons_of_mem _ listed)
          obtain ⟨-, nine⟩ := isAsciiDigit_iff.mp (decimal a (List.mem_cons_self ..))
          rw [Nat.ofDigitChars_cons, Nat.ofDigitChars_cons]
          refine ih (Nat.succ.inj length) rest ?_
          simp only [Char.reduceToNat] at nine ⊢
          omega

/-- **Among digits of one length the order of texts is the order of numbers.** -/
theorem ofDigitChars_lt {as bs : List Char} (length : as.length = bs.length)
    (decimal : ∀ c ∈ as, isAsciiDigit c) (less : as < bs) {start : Nat} :
    Nat.ofDigitChars 10 as start < Nat.ofDigitChars 10 bs start := by
  induction as generalizing bs start with
  | nil =>
      obtain rfl := List.length_eq_zero_iff.mp length.symm
      exact absurd less (List.not_lt_nil _)
  | cons a as ih =>
      cases bs with
      | nil => cases length
      | cons b bs =>
          have rest : ∀ c ∈ as, isAsciiDigit c :=
            fun c listed => decimal c (List.mem_cons_of_mem _ listed)
          rw [Nat.ofDigitChars_cons, Nat.ofDigitChars_cons]
          rcases List.cons_lt_cons_iff.mp less with first | ⟨rfl, later⟩
          · -- the first digits that differ decide, whatever follows them
            obtain ⟨zero, -⟩ := isAsciiDigit_iff.mp (decimal a (List.mem_cons_self ..))
            have smaller : a.toNat < b.toNat := first
            exact ofDigitChars_lt_of_lt (Nat.succ.inj length) rest (by omega)
          · exact ih (Nat.succ.inj length) rest later

/-- Statuses of three digits are in the order of their numbers. -/
theorem ThreeDigits.lt_of_lt {a b : String} (three : ThreeDigits a) (three' : ThreeDigits b)
    (less : a < b) {n m : Nat} (reads : Reads a n) (reads' : Reads b m) : n < m := by
  rw [reads.unique three.reads, reads'.unique three'.reads]
  exact ofDigitChars_lt (three.1.trans three'.1.symm) three.2 (String.lt_iff_toList_lt.mp less)

end Text

/-! ## Responses of success -/

namespace Response

open Text

theorem code?_eq_some {r : Response} {n : Nat} :
    r.code? = some n ↔ Reads r.status n ∧ n < twoTo 16 := by
  have value : (digits r.status.toList).foldl (fun n c => 10 * n + (c.toNat - 48)) 0 =
      Nat.ofDigitChars 10 (digits r.status.toList) 0 := rfl
  have numeral : (digits r.status.toList).isEmpty || !(digits r.status.toList).all isAsciiDigit ↔
      ¬ (digits r.status.toList ≠ [] ∧ ∀ c ∈ digits r.status.toList, isAsciiDigit c) := by
    rw [Bool.or_eq_true, List.isEmpty_iff, Bool.not_eq_true', ← Bool.not_eq_true, List.all_eq_true,
      Decidable.not_and_iff_not_or_not, Decidable.not_not]
  rw [reads_iff, code?, value, ← and_assoc]
  split
  · rename_i wrong
    exact iff_of_false nofun fun reads => numeral.mp wrong reads.1.1
  · rename_i right
    have decimal := Decidable.not_not.mp (mt numeral.mpr right)
    rw [Option.ite_none_right_eq_some, Option.some_inj]
    constructor
    · rintro ⟨small, rfl⟩
      exact ⟨⟨decimal, rfl⟩, small⟩
    · rintro ⟨⟨-, rfl⟩, small⟩
      exact ⟨small, rfl⟩

/-- **A response is one of success** iff its status is. -/
theorem isSuccess_iff {r : Response} : r.isSuccess ↔ IsSuccess r.status := by
  have range (code : Nat) : (decide (200 ≤ code) && decide (code < 300)) = true ↔
      200 ≤ code ∧ code < 300 := by simp
  unfold isSuccess IsSuccess
  split
  · rename_i code found
    rw [range]
    constructor
    · exact fun inside => ⟨code, (code?_eq_some.mp found).1, inside⟩
    · rintro ⟨n, reads, inside⟩
      rwa [(code?_eq_some.mp found).1.unique reads]
  · rename_i missing
    refine iff_of_false nofun ?_
    rintro ⟨n, reads, -, small⟩
    have found := code?_eq_some.mpr ⟨reads, Nat.lt_trans small (by decide)⟩
    rw [missing] at found
    cases found

end Response

end ClientGen
