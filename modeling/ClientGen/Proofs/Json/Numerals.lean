import ClientGen.Json.Printer
import ClientGen.Json.Token
import ClientGen.Proofs.Results
import Mathlib.Algebra.Group.Int.Defs
import Mathlib.Data.List.TakeWhile

/-!
# Numerals that are written and read

A numeral ends where a character stands that cannot continue it. So what is read at the start of a
text does not change when a further text follows, as long as that text does not continue the
numeral.

* `Numeral.Ended` — texts that do not continue a numeral.
* `Numeral.scan_eq_ok_iff` — a numeral is scanned part by part.
* `Numeral.scan_append` — the numeral at the start of a text, with a further text behind it.
* `scanNumber_text` — a written integer of at most sixty-four bits is read as itself.
-/

namespace ClientGen.Json

open Text

namespace Numeral

/-! ## Where numerals end -/

/-- Whether a character may stand inside a numeral after its first digit. -/
def continues (c : Char) : Bool :=
  isAsciiDigit c || c == '.' || c == 'e' || c == 'E'

/-- **A text that does not continue a numeral.** -/
def Ended (rest : List Char) : Prop :=
  ∀ c ∈ rest.head?, continues c = false

theorem ended_cons {c : Char} {cs : List Char} (other : continues c = false) : Ended (c :: cs) := by
  intro d member
  obtain rfl : c = d := by simpa using member
  exact other

/-- A digit would continue a numeral. -/
theorem Ended.notDigit {rest : List Char} (ended : Ended rest) :
    ∀ c ∈ rest.head?, isAsciiDigit c = false := by
  intro c member
  have all := ended c member
  simp only [continues, Bool.or_eq_false_iff] at all
  exact all.1.1.1

/-- A text after which nothing continues a numeral: it goes on by itself, or nothing follows that
would continue it. -/
def EndedAfter (cs rest : List Char) : Prop :=
  cs ≠ [] ∨ Ended rest

/-- The digits at the start of a text are the same with a further text behind. -/
theorem digits_append {cs rest : List Char} (ended : EndedAfter (afterDigits cs) rest) :
    digits (cs ++ rest) = digits cs := by
  induction cs with
  | nil =>
      have notDigit := (ended.resolve_left fun other => other rfl).notDigit
      cases rest with
      | nil => rfl
      | cons c rest => simp [digits, notDigit c rfl]
  | cons c cs ih =>
      by_cases digit : isAsciiDigit c
      · have inner : EndedAfter (afterDigits cs) rest := by
          simpa [EndedAfter, afterDigits, digit] using ended
        simpa [digits, digit] using ih inner
      · simp [digits, digit]

/-- What stands behind the digits is followed by the further text. -/
theorem afterDigits_append {cs rest : List Char} (ended : EndedAfter (afterDigits cs) rest) :
    afterDigits (cs ++ rest) = afterDigits cs ++ rest := by
  have whole : digits (cs ++ rest) ++ afterDigits (cs ++ rest) = cs ++ rest :=
    List.takeWhile_append_dropWhile
  have part : digits cs ++ afterDigits cs = cs := List.takeWhile_append_dropWhile
  rw [digits_append ended] at whole
  have same : digits cs ++ afterDigits (cs ++ rest) = digits cs ++ (afterDigits cs ++ rest) := by
    rw [whole, ← List.append_assoc, part]
  exact List.append_cancel_left same

/-- The whole part with a further text behind. No digit may stand behind a zero, and the further
text brings none. -/
theorem scanWhole_append {cs ds after rest : List Char} (scanned : scanWhole cs = .ok (ds, after))
    (ended : EndedAfter after rest) : scanWhole (cs ++ rest) = .ok (ds, after ++ rest) := by
  unfold scanWhole at scanned ⊢
  split at scanned
  · cases scanned
  · cases scanned
  · rename_i nonempty single
    obtain ⟨rfl, rfl⟩ := Prod.mk.inj (Except.ok.inj scanned)
    rw [digits_append ended, afterDigits_append ended]
    split
    · rename_i empty
      exact absurd empty nonempty
    · rename_i zeros
      exact absurd zeros (single _ _)
    · rfl

/-- The fraction with a further text behind. A text that starts with a point would add one. -/
theorem scanFraction_append {cs after rest : List Char} {fraction : Option (List Char)}
    (scanned : scanFraction cs = .ok (fraction, after)) (ended : EndedAfter after rest) :
    scanFraction (cs ++ rest) = .ok (fraction, after ++ rest) := by
  unfold scanFraction at scanned
  split at scanned
  · rename_i cs
    show scanFraction ('.' :: (cs ++ rest)) = _
    unfold scanFraction
    simp only
    split at scanned
    · cases scanned
    · rename_i nonempty
      obtain ⟨rfl, rfl⟩ := Prod.mk.inj (Except.ok.inj scanned)
      rw [digits_append ended, afterDigits_append ended]
      split
      · rename_i empty
        exact absurd empty nonempty
      · rfl
  · rename_i point
    obtain ⟨rfl, rfl⟩ := Prod.mk.inj (Except.ok.inj scanned)
    cases cs with
    | nil =>
        have ended := ended.resolve_left fun other => other rfl
        unfold scanFraction
        split
        · rename_i tail same
          rw [List.nil_append] at same
          have dot := ended '.' (by rw [same]; rfl)
          exact absurd dot (by decide)
        · rfl
    | cons c cs =>
        unfold scanFraction
        split
        · rename_i tail same
          obtain ⟨rfl, -⟩ := List.cons.inj same
          exact absurd rfl (point cs)
        · rfl

theorem scanSign_append {cs : List Char} (nonempty : cs ≠ []) (rest : List Char) :
    scanSign (cs ++ rest) = ((scanSign cs).1, (scanSign cs).2 ++ rest) := by
  cases cs with
  | nil => exact absurd rfl nonempty
  | cons c cs =>
      by_cases plus : c = '+'
      · subst plus
        rfl
      · by_cases minus : c = '-'
        · subst minus
          rfl
        · simp [scanSign, plus, minus]

/-- The power with a further text behind. A text that starts with the letter of a power would add
one. -/
theorem scanPower_append {cs after rest : List Char} {power : Option Power}
    (scanned : scanPower cs = .ok (power, after)) (ended : EndedAfter after rest) :
    scanPower (cs ++ rest) = .ok (power, after ++ rest) := by
  cases cs with
  | nil =>
      obtain ⟨rfl, rfl⟩ := Prod.mk.inj (Except.ok.inj scanned)
      have ended := ended.resolve_left fun other => other rfl
      cases rest with
      | nil => rfl
      | cons c rest =>
          have other := ended c rfl
          simp only [continues, Bool.or_eq_false_iff, beq_eq_false_iff_ne] at other
          have letter : ¬ (c = 'e' ∨ c = 'E') := fun same =>
            same.elim other.1.2 other.2
          show scanPower (c :: rest) = _
          rw [scanPower, if_neg letter]
          rfl
  | cons c cs =>
      unfold scanPower at scanned
      show scanPower (c :: (cs ++ rest)) = _
      unfold scanPower
      simp only at scanned ⊢
      split at scanned
      · rename_i letter
        rw [if_pos letter]
        split at scanned
        · cases scanned
        · rename_i digitsFound nonempty
          obtain ⟨rfl, rfl⟩ := Prod.mk.inj (Except.ok.inj scanned)
          have present : cs ≠ [] := by
            rintro rfl
            exact nonempty rfl
          rw [scanSign_append present]
          simp only [digits_append ended, afterDigits_append ended]
      · rename_i letter
        obtain ⟨rfl, rfl⟩ := Prod.mk.inj (Except.ok.inj scanned)
        rw [if_neg letter]
        rfl

theorem scanMinus_append {cs : List Char} (nonempty : cs ≠ []) (rest : List Char) :
    scanMinus (cs ++ rest) = ((scanMinus cs).1, (scanMinus cs).2 ++ rest) := by
  cases cs with
  | nil => exact absurd rfl nonempty
  | cons c cs =>
      by_cases minus : c = '-'
      · subst minus
        rfl
      · simp [scanMinus, minus]

/-- Where something is left late, something is left earlier: what ends a numeral behind a later part
ends it behind an earlier one. -/
theorem EndedAfter.of_length_le {after before rest : List Char} (ended : EndedAfter after rest)
    (shorter : after.length ≤ before.length) : EndedAfter before rest := by
  rcases ended with more | ended
  · refine .inl fun empty => more ?_
    rw [empty] at shorter
    exact List.length_eq_zero_iff.mp (Nat.le_zero.mp shorter)
  · exact .inr ended

/-- **A numeral is scanned part by part**, each part from what the one before it leaves. -/
theorem scan_eq_ok_iff {cs after : List Char} {numeral : Numeral} :
    scan cs = .ok (numeral, after) ↔ ∃ behind rest,
      numeral.negative = (scanMinus cs).1 ∧
      scanWhole (scanMinus cs).2 = .ok (numeral.whole, behind) ∧
      scanFraction behind = .ok (numeral.fraction, rest) ∧
      scanPower rest = .ok (numeral.power, after) := by
  constructor
  · intro scanned
    obtain ⟨⟨whole, behind⟩, front, scanned⟩ := bind_eq_ok_iff.mp scanned
    obtain ⟨⟨fraction, rest⟩, point, scanned⟩ := bind_eq_ok_iff.mp scanned
    obtain ⟨⟨power, last⟩, exponent, scanned⟩ := bind_eq_ok_iff.mp scanned
    obtain ⟨rfl, rfl⟩ := Prod.mk.inj (Except.ok.inj scanned)
    exact ⟨behind, rest, rfl, front, point, exponent⟩
  · obtain ⟨negative, whole, fraction, power⟩ := numeral
    rintro ⟨behind, rest, rfl, front, point, exponent⟩
    exact bind_eq_ok_iff.mpr ⟨_, front, bind_eq_ok_iff.mpr ⟨_, point,
      bind_eq_ok_iff.mpr ⟨_, exponent, rfl⟩⟩⟩

/-- **The numeral at the start of a text is the same with a further text behind it.** -/
theorem scan_append {cs after rest : List Char} {numeral : Numeral}
    (scanned : scan cs = .ok (numeral, after)) (ended : EndedAfter after rest) :
    scan (cs ++ rest) = .ok (numeral, after ++ rest) := by
  have nonempty : cs ≠ [] := by
    rintro rfl
    cases scanned
  obtain ⟨behind, last, sign, whole, fraction, power⟩ := scan_eq_ok_iff.mp scanned
  -- what the last part leaves is what follows; each part's rest contains the next one's
  have ended₂ := ended.of_length_le (length_of_scanPower power)
  have ended₁ := ended₂.of_length_le (length_of_scanFraction fraction)
  rw [scan_eq_ok_iff, scanMinus_append nonempty]
  exact ⟨_, _, sign, scanWhole_append whole ended₁, scanFraction_append fraction ended₂,
    scanPower_append power ended⟩

/-! ## Integers -/

theorem isAsciiDigit_of_mem_toDigits {n : Nat} {c : Char} (member : c ∈ Nat.toDigits 10 n) :
    isAsciiDigit c := by
  have digit := Nat.isDigit_of_mem_toDigits (by decide) (by decide) member
  simpa [Char.isDigit, isAsciiDigit, Char.le_def, UInt32.le_iff_toNat_le] using digit

theorem digits_toDigits (n : Nat) : digits (Nat.toDigits 10 n) = Nat.toDigits 10 n :=
  List.takeWhile_eq_self_iff.mpr fun _ member => isAsciiDigit_of_mem_toDigits member

theorem afterDigits_toDigits (n : Nat) : afterDigits (Nat.toDigits 10 n) = [] :=
  List.dropWhile_eq_nil_iff.mpr fun _ member => isAsciiDigit_of_mem_toDigits member

/-- A numeral with more than one digit does not start with a zero. -/
theorem eq_nil_of_toDigits_eq_zero_cons {n : Nat} {ds : List Char}
    (leading : Nat.toDigits 10 n = '0' :: ds) : ds = [] := by
  induction n using Nat.strongRecOn generalizing ds with
  | ind n smaller =>
      rcases Nat.lt_or_ge n 10 with single | several
      · rw [Nat.toDigits_of_lt_base single] at leading
        exact (List.cons.inj leading).2.symm
      · rw [Nat.toDigits_of_base_le (by decide) several] at leading
        cases front : Nat.toDigits 10 (n / 10) with
        | nil => exact absurd front Nat.toDigits_ne_nil
        | cons c cs =>
            rw [front, List.cons_append] at leading
            obtain ⟨rfl, -⟩ := List.cons.inj leading
            obtain rfl := smaller (n / 10) (by omega) front
            have zero := congrArg (fun ds => Nat.ofDigitChars 10 ds 0) front
            simp only [Nat.ofDigitChars_ten_toDigits] at zero
            have none : n / 10 = 0 := zero
            omega

/-- The digits of a number are a whole part, and nothing is left of them. -/
theorem scanWhole_toDigits (n : Nat) :
    scanWhole (Nat.toDigits 10 n) = .ok (Nat.toDigits 10 n, []) := by
  unfold scanWhole
  rw [digits_toDigits, afterDigits_toDigits]
  split
  · rename_i empty
    exact absurd empty Nat.toDigits_ne_nil
  · rename_i leading
    exact absurd (eq_nil_of_toDigits_eq_zero_cons leading) (List.cons_ne_nil _ _)
  · rfl

theorem scan_toDigits (n : Nat) :
    scan (Nat.toDigits 10 n) = .ok (⟨false, Nat.toDigits 10 n, none, none⟩, []) := by
  have positive : scanMinus (Nat.toDigits 10 n) = (false, Nat.toDigits 10 n) := by
    unfold scanMinus
    split
    · rename_i same
      have minus : '-' ∈ Nat.toDigits 10 n := same ▸ List.mem_cons_self ..
      exact absurd (isAsciiDigit_of_mem_toDigits minus) (by decide)
    · rfl
  rw [scan_eq_ok_iff, positive]
  exact ⟨[], [], rfl, scanWhole_toDigits n, rfl, rfl⟩

/-- A minus sign in front of digits is the sign of the numeral. -/
theorem scan_minus_toDigits (n : Nat) :
    scan ('-' :: Nat.toDigits 10 n) = .ok (⟨true, Nat.toDigits 10 n, none, none⟩, []) :=
  scan_eq_ok_iff.mpr ⟨[], [], rfl, scanWhole_toDigits n, rfl, rfl⟩

/-- A number does not become smaller when digits are added to it. -/
theorem le_foldl_digits (n : Nat) (ds : List Char) :
    n ≤ ds.foldl (fun n c => n * 10 + digitValue c) n := by
  induction ds generalizing n with
  | nil => exact Nat.le_refl n
  | cons c ds ih =>
      have next := ih (n * 10 + digitValue c)
      rw [List.foldl_cons]
      omega

/-- Digits are collected to their end if they fit. -/
theorem collect_eq {n : Nat} {ds : List Char}
    (fits : ds.foldl (fun n c => n * 10 + digitValue c) n ≤ greatest) :
    collect n ds = (ds.foldl (fun n c => n * 10 + digitValue c) n, []) := by
  induction ds generalizing n with
  | nil => rfl
  | cons c ds ih =>
      have next := le_foldl_digits (n * 10 + digitValue c) ds
      rw [List.foldl_cons] at fits
      rw [collect, if_neg (by omega), ih fits]
      rfl

theorem foldl_toDigits (n : Nat) :
    (Nat.toDigits 10 n).foldl (fun n c => n * 10 + digitValue c) 0 = n := by
  have value : Nat.ofDigitChars 10 (Nat.toDigits 10 n) 0 = n := Nat.ofDigitChars_ten_toDigits
  rw [Nat.ofDigitChars_eq_foldl] at value
  have steps : (fun n c => n * 10 + digitValue c) =
      fun (n : Nat) (c : Char) => 10 * n + (c.toNat - '0'.toNat) := by
    funext n c
    rw [Nat.mul_comm]
    rfl
  rw [steps, value]

theorem collect_toDigits {n : Nat} (fits : n ≤ greatest) :
    collect 0 (Nat.toDigits 10 n) = (n, []) := by
  have value := foldl_toDigits n
  rw [collect_eq (by rw [value]; exact fits), value]

end Numeral

/-- The number at the start of a text is the same with a further text behind. -/
theorem scanNumber_append {cs after rest : List Char} {lexeme : Lexeme Number}
    (scanned : scanNumber cs = (lexeme, some after)) (ended : Numeral.EndedAfter after rest) :
    scanNumber (cs ++ rest) = (lexeme, some (after ++ rest)) := by
  unfold scanNumber at scanned ⊢
  cases found : Numeral.scan cs with
  | error fault =>
      rw [found] at scanned
      cases scanned
  | ok result =>
      obtain ⟨numeral, tail⟩ := result
      rw [found] at scanned
      cases value : numeral.value? with
      | none =>
          simp only [value, Prod.mk.injEq, Option.some.injEq] at scanned
          obtain ⟨rfl, rfl⟩ := scanned
          simp only [Numeral.scan_append found ended, value]
      | some n =>
          simp only [value, Prod.mk.injEq, Option.some.injEq] at scanned
          obtain ⟨rfl, rfl⟩ := scanned
          simp only [Numeral.scan_append found ended, value]

/-- **A written integer of at most sixty-four bits is read as itself.** -/
theorem scanNumber_text {i : Int} (lower : -(2 ^ 63) ≤ i) (upper : i < 2 ^ 64) :
    scanNumber (Number.int i).text.toList = (⟨.ok (.int i), none⟩, some []) := by
  have bound : Numeral.greatest = 2 ^ 64 - 1 := rfl
  have half : twoTo 63 = 2 ^ 63 := rfl
  cases i with
  | ofNat n =>
      have text : (Number.int (Int.ofNat n)).text.toList = Nat.toDigits 10 n := Nat.toList_repr
      have fits : n ≤ Numeral.greatest := by
        rw [Int.ofNat_eq_natCast] at upper
        omega
      rw [text, scanNumber, Numeral.scan_toDigits]
      simp [Numeral.value?, Numeral.collect_toDigits fits]
  | negSucc n =>
      have text : (Number.int (Int.negSucc n)).text.toList = '-' :: Nat.toDigits 10 (n + 1) := by
        show ("-" ++ (n + 1).repr).toList = _
        rw [String.toList_append, Nat.toList_repr]
        rfl
      have fits : n + 1 ≤ Numeral.greatest := by omega
      have small : n + 1 ≤ twoTo 63 := by omega
      rw [text, scanNumber, Numeral.scan_minus_toDigits]
      simp [Numeral.value?, Numeral.collect_toDigits fits, small]
      omega

end ClientGen.Json
