import ClientGen.Json.Printer
import ClientGen.Proofs.Decimal.Finite
import ClientGen.Proofs.Json.Decimals
import ClientGen.Proofs.Json.Texts
import ClientGen.Proofs.Results

/-!
# Finite numbers

A floating-point number is read in three rounded steps, so what is read may differ from what was
written, and a step may lead beyond the finite numbers although the number does not. The shortest
digits of a number never do: the steps add less than half a unit of the last place, except for the
two greatest numbers, for which they are computed.

* `Numeral.scaled?_isSome` — when the steps stay among the finite numbers.
* `Numeral.exists_scan_render` — the text of a number is a numeral of a moderate size.
* `Number.readable_of_canonical` — the text of every number is read as a number.
-/

namespace ClientGen.Json

open Text Decimal

namespace Numeral

/-! ## Powers of ten -/

theorem ten_pow_lt_ceiling : (10 : ℚ) ^ 308 < Binary64.ceiling := by
  have quarter : (10 : ℚ) ^ 77 * (11 / 10) < 2 ^ 256 := by norm_num
  have fourth := pow_lt_pow_left₀ quarter (by positivity) (show 4 ≠ 0 by decide)
  have ten : (10 : ℚ) ^ 308 = (10 ^ 77) ^ 4 := by rw [← pow_mul]
  have two : ((2 : ℚ) ^ 256) ^ 4 = 2 ^ 53 * 2 ^ (971 : Int) := by
    rw [← pow_mul, ← two_zpow_add]
    exact (zpow_natCast 2 1024).symm
  have unit : (0 : ℚ) < 2 ^ (971 : Int) := zpow_pos two_pos _
  rw [mul_pow, ← ten, two] at fourth
  unfold Binary64.ceiling
  generalize (10 : ℚ) ^ 308 = t at fourth ⊢
  generalize (2 : ℚ) ^ (971 : Int) = u at fourth unit ⊢
  linarith

/-- The number nearest to a power of ten. -/
theorem exists_tenTo? {power : Nat} (small : power ≤ 308) :
    ∃ y, tenTo? power = some y ∧ 1 ≤ y.value ∧ y.value ≤ 10 ^ power * (1 + 1 / 2 ^ 53) := by
  have cast : ((tenTo power : Nat) : ℚ) / (1 : Nat) = 10 ^ power := by
    rw [cast_tenTo, Nat.cast_one, div_one]
  have below : ((tenTo power : Nat) : ℚ) / (1 : Nat) < Binary64.ceiling := by
    rw [cast]
    exact (pow_le_pow_right₀ (by norm_num) small).trans_lt ten_pow_lt_ceiling
  have large : (1 : ℚ) ≤ ((tenTo power : Nat) : ℚ) / (1 : Nat) := by
    rw [cast]
    exact one_le_pow₀ (by norm_num)
  obtain ⟨y, found⟩ := Option.isSome_iff_exists.mp
    (Binary64.ofRatio?_isSome_of_lt Nat.one_pos below false)
  have bounds := Binary64.value_bounds Nat.one_pos large found
  rw [cast] at bounds
  exact ⟨y, found, bounds⟩

/-- Division by a power of ten stays among the finite numbers. -/
theorem exists_lower {x : Binary64} (canonical : x.Canonical) (power : Nat) :
    ∃ z, lower x power = some z := by
  induction power using Nat.strongRecOn generalizing x with
  | ind power smaller =>
      rw [lower]
      split
      · exact ⟨x, rfl⟩
      split
      · rename_i small
        obtain ⟨y, found, large, -⟩ := exists_tenTo? small
        obtain ⟨z, quotient, -⟩ := Binary64.div?_isSome canonical large
        exact ⟨z, by rw [found, Option.bind_some, quotient]⟩
      · obtain ⟨y, found, large, -⟩ := exists_tenTo? (le_refl 308)
        obtain ⟨z, quotient, inside⟩ := Binary64.div?_isSome canonical large
        obtain ⟨w, rest⟩ := smaller (power - 308) (by omega) inside
        exact ⟨w, by rw [found, Option.bind_some, quotient, Option.bind_some, rest]⟩

/-- **The steps stay among the finite numbers** if there is room for two relative errors. -/
theorem scaled?_isSome {n : Nat} {power : Int} (small : n < 2 ^ 64) (low : power ≤ 308)
    (room : (n : ℚ) * 10 ^ power * (1 + 1 / 2 ^ 53) ^ 2 < Binary64.ceiling) :
    (scaled? n power).isSome := by
  obtain ⟨x, found, -, canonical⟩ := Binary64.exists_ofNat? small
  unfold scaled?
  rw [found, Option.bind_some]
  split
  · rfl
  rename_i nonzero
  rw [if_neg (not_lt.mpr low)]
  split
  · rename_i above
    obtain ⟨k, rfl⟩ := Int.eq_ofNat_of_zero_le above
    obtain ⟨y, ten, -, high⟩ := exists_tenTo? (show k ≤ 308 by omega)
    have positive : 0 < n := by
      by_contra none
      obtain rfl := Nat.eq_zero_of_not_pos none
      obtain rfl := Option.some.inj found
      exact nonzero rfl
    have cast : ((n : Nat) : ℚ) / (1 : Nat) = n := by rw [Nat.cast_one, div_one]
    have large : (1 : ℚ) ≤ (n : ℚ) / (1 : Nat) := by
      rw [cast]
      exact_mod_cast positive
    have factor := (Binary64.value_bounds Nat.one_pos large found).2
    rw [cast] at factor
    rw [Int.toNat_natCast, ten, Option.bind_some]
    refine Binary64.mul?_isSome (lt_of_le_of_lt ?_ room)
    calc x.value * y.value
        ≤ n * (1 + 1 / 2 ^ 53) * (10 ^ k * (1 + 1 / 2 ^ 53)) :=
          mul_le_mul factor high y.value_nonneg (by positivity)
      _ = n * 10 ^ (k : Int) * (1 + 1 / 2 ^ 53) ^ 2 := by
          rw [zpow_natCast]
          ring
  · exact Option.isSome_iff_exists.mpr (exists_lower canonical _)

/-! ## The number of a numeral -/

/-- The integer and the powers that belong to a numeral, if none of them is too long. -/
theorem float?_eq {numeral : Numeral} (n : Nat) (inner : Int)
    (moderate : ∀ power ∈ numeral.power, natural power.digits ≤ greatestPower) :
    float? n inner numeral.power = scaled? n (inner + numeral.exponent) := by
  unfold exponent
  cases given : numeral.power with
  | none => simp [float?]
  | some power =>
      have small : ¬ greatestPower < natural power.digits := not_lt.mpr (moderate power given)
      simp only [float?, if_neg small]
      split
      · rw [Int.sub_eq_add_neg]
      · rfl

/-- **A numeral has a number** if its digits fit into sixty-four bits and the steps stay among the
finite numbers. -/
theorem value?_isSome {numeral : Numeral} (fits : numeral.decimal.digits < 2 ^ 64)
    (moderate : ∀ power ∈ numeral.power, natural power.digits ≤ greatestPower)
    (scaled : (scaled? numeral.decimal.digits numeral.decimal.exponent).isSome) :
    numeral.value?.isSome := by
  have bound : greatest = 2 ^ 64 - 1 := rfl
  have digits : numeral.decimal.digits = (numeral.fraction.getD []).foldl
      (fun n c => n * 10 + digitValue c) (natural numeral.whole) := List.foldl_append
  have places : numeral.decimal.exponent = 0 - (numeral.fraction.getD []).length +
      numeral.exponent := by
    show numeral.exponent - _ = _
    omega
  have front : natural numeral.whole ≤ numeral.decimal.digits := digits ▸ le_foldl_digits _ _
  have whole : collect 0 numeral.whole = (natural numeral.whole, []) :=
    collect_eq (show natural numeral.whole ≤ greatest by omega)
  have all : collect (natural numeral.whole) (numeral.fraction.getD []) =
      (numeral.decimal.digits, []) := by
    rw [digits]
    exact collect_eq (by rw [← digits]; omega)
  unfold value?
  simp only [whole]
  split
  · split
    · rfl
    split
    · rfl
    · have small : natural numeral.whole < 2 ^ 64 * 1 := by omega
      rw [Option.isSome_map]
      exact Binary64.ofRatio?_isSome Nat.one_pos small true
  · have inner : (([] : List Char).length : Int) - ((numeral.fraction.getD []).length -
        ([] : List Char).length) = 0 - (numeral.fraction.getD []).length := by
      simp
    rw [Option.isSome_map, all, inner, float?_eq _ _ moderate, ← places]
    exact scaled

/-! ## Sizes of digits -/

variable {ds : List Char} {point : Int} {v : ℚ}

/-- **The place of the point is the magnitude** of what digits spell. -/
theorem Spelled.bounds (spelled : Spelled ds point v) :
    (10 : ℚ) ^ (point - 1) ≤ v ∧ v < 10 ^ point := by
  obtain ⟨c, cs, rfl, nonzero⟩ := spelled.leading
  have split : natural (c :: cs) = digitValue c * 10 ^ cs.length + natural cs := by
    rw [← List.singleton_append, natural_append, natural, List.foldl_cons, List.foldl_nil,
      Nat.zero_mul, Nat.zero_add]
  have first : 1 ≤ digitValue c := by
    have digit := spelled.digits c (List.mem_cons_self ..)
    simp only [isAsciiDigit, Bool.and_eq_true, decide_eq_true_eq, Char.le_def,
      UInt32.le_iff_toNat_le] at digit
    have lower : 48 ≤ c.toNat := digit.1
    have other : c.toNat ≠ 48 := fun same => nonzero (Char.toNat_inj.mp same)
    unfold digitValue
    omega
  have low : (10 : ℚ) ^ cs.length ≤ natural (c :: cs) := by
    have enough : 10 ^ cs.length ≤ natural (c :: cs) := by
      rw [split]
      exact (Nat.le_mul_of_pos_left _ first).trans (Nat.le_add_right _ _)
    exact_mod_cast enough
  have high : (natural (c :: cs) : ℚ) < 10 ^ (c :: cs).length := by
    exact_mod_cast natural_lt spelled.digits
  rw [← spelled.value]
  have unit : (0 : ℚ) < 10 ^ (point - (c :: cs).length) := zpow_pos (by norm_num) _
  have ten : (10 : ℚ) ≠ 0 := by norm_num
  constructor
  · calc (10 : ℚ) ^ (point - 1)
        = 10 ^ cs.length * 10 ^ (point - (c :: cs).length) := by
          rw [← zpow_natCast, ← zpow_add₀ ten, List.length_cons]
          congr 1
          push_cast
          ring
      _ ≤ _ := mul_le_mul_of_nonneg_right low unit.le
  · calc (natural (c :: cs) : ℚ) * 10 ^ (point - (c :: cs).length)
        < 10 ^ (c :: cs).length * 10 ^ (point - (c :: cs).length) :=
          mul_lt_mul_of_pos_right high unit
      _ = 10 ^ point := by
          rw [← zpow_natCast, ← zpow_add₀ ten]
          congr 1
          ring

/-! ## Numerals of texts -/

/-- **A numeral spells a rational**, without a sign, with digits and powers that are not too
long. -/
structure Spells (numeral : Numeral) (v : ℚ) : Prop where
  /-- There is no minus. -/
  unsigned : numeral.negative = false
  /-- The value. -/
  value : (numeral.decimal.digits : ℚ) * 10 ^ numeral.decimal.exponent = v
  /-- The digits fit into sixty-four bits. -/
  fits : numeral.decimal.digits < 2 ^ 64
  /-- The power can be written. -/
  moderate : ∀ power ∈ numeral.power, natural power.digits ≤ greatestPower

/-- A written power is scanned to the end. -/
theorem scanPower_written (e : Int) :
    scanPower ('e' :: (if 0 ≤ e then '+' else '-') :: Nat.toDigits 10 e.natAbs) =
      .ok (some ⟨decide (e < 0), Nat.toDigits 10 e.natAbs⟩, []) := by
  have taken := digits_toDigits e.natAbs
  have left := afterDigits_toDigits e.natAbs
  have found {sign : Char} {negative : Bool} (signed :
      scanSign (sign :: Nat.toDigits 10 e.natAbs) = (negative, Nat.toDigits 10 e.natAbs)) :
      scanPower ('e' :: sign :: Nat.toDigits 10 e.natAbs) =
        .ok (some ⟨negative, Nat.toDigits 10 e.natAbs⟩, []) := by
    rw [scanPower, if_pos (.inl rfl), signed]
    simp only [taken, left]
    split
    · rename_i empty
      exact absurd empty Nat.toDigits_ne_nil
    · rfl
  by_cases positive : 0 ≤ e
  · rw [if_pos positive, decide_eq_false (not_lt.mpr positive)]
    exact found rfl
  · rw [if_neg positive, decide_eq_true (not_le.mp positive)]
    exact found rfl

/-- The power of ten that is written. -/
theorem exponent_written {numeral : Numeral} {e : Int}
    (power : numeral.power = some ⟨decide (e < 0), Nat.toDigits 10 e.natAbs⟩) :
    numeral.exponent = e := by
  have value : natural (Nat.toDigits 10 e.natAbs) = e.natAbs := foldl_toDigits _
  rw [exponent, power]
  simp only [value, decide_eq_true_eq]
  split <;> omega

/-- Digits with a point behind the first one, and the power that belongs to them, spell what the
digits do. -/
theorem Spelled.spells_scaled {d : Char} {fraction : List Char}
    (spelled : Spelled (d :: fraction) point v) (fits : natural (d :: fraction) < 2 ^ 64)
    (moderate : (point - 1).natAbs ≤ greatestPower) (behind : Option (List Char))
    (same : behind.getD [] = fraction) :
    Spells ⟨false, [d], behind,
      some ⟨decide (point - 1 < 0), Nat.toDigits 10 (point - 1).natAbs⟩⟩ v := by
  subst same
  refine ⟨rfl, ?_, fits, ?_⟩
  · rw [← spelled.value, decimal, exponent_written rfl, List.length_cons]
    congr 2
    push_cast
    ring
  · rintro power ⟨⟩
    exact (foldl_toDigits _).trans_le moderate

/-- **A text with an exponent** spells what its digits do. -/
theorem Spelled.scan_exponentText (spelled : Spelled ds point v) (fits : natural ds < 2 ^ 64)
    (moderate : (point - 1).natAbs ≤ greatestPower) :
    ∃ numeral, scan (exponentText ds (point - 1)) = .ok (numeral, []) ∧ numeral.Spells v := by
  obtain ⟨d, fraction, rfl, nonzero⟩ := spelled.leading
  have whole : Whole [d] :=
    ⟨by simpa using spelled.digits d (List.mem_cons_self ..), List.cons_ne_nil _ _,
      fun _ _ same => nonzero (List.cons.inj same).1⟩
  have written := scanPower_written (point - 1)
  generalize spelledPower : 'e' :: (if 0 ≤ point - 1 then '+' else '-') ::
    Nat.toDigits 10 (point - 1).natAbs = tail at written
  have stop : ∀ c ∈ tail.head?, isAsciiDigit c = false := by
    rw [← spelledPower]
    intro c same
    obtain rfl : 'e' = c := Option.some.inj same
    rfl
  cases fraction with
  | nil =>
      have none : scanFraction tail = .ok (none, tail) := by
        rw [← spelledPower]
        rfl
      have text : exponentText [d] (point - 1) = [d] ++ tail := by
        rw [← spelledPower]
        rfl
      refine ⟨_, ?_, spelled.spells_scaled fits moderate .none rfl⟩
      rw [text, whole.scan_parts stop none written]
  | cons f fraction =>
      have digits : ∀ c ∈ f :: fraction, isAsciiDigit c := fun c member =>
        spelled.digits c (List.mem_cons_of_mem _ member)
      obtain ⟨taken, left⟩ := run_append digits stop
      have behind : scanFraction ('.' :: (f :: fraction ++ tail)) =
          .ok (some (f :: fraction), tail) := by
        unfold scanFraction
        simp only [Numeral.digits, afterDigits, taken, left]
      have dot : ∀ c ∈ ('.' :: (f :: fraction ++ tail)).head?, isAsciiDigit c = false := by
        intro c same
        obtain rfl : '.' = c := Option.some.inj same
        rfl
      have text : exponentText (d :: f :: fraction) (point - 1) =
          [d] ++ '.' :: (f :: fraction ++ tail) := by
        rw [← spelledPower]
        rfl
      refine ⟨_, ?_, spelled.spells_scaled fits moderate (some (f :: fraction)) rfl⟩
      rw [text, whole.scan_parts dot behind written]

/-- **A positional text with a point** spells what its digits do. -/
theorem Spelled.scan_pointedText (spelled : Spelled ds point v) (fits : natural ds < 2 ^ 64)
    (near : point ≤ 16) :
    ∃ numeral, scan (positionalText true ds point) = .ok (numeral, []) ∧ numeral.Spells v := by
  obtain ⟨numeral, scanned, denotes, digits⟩ := scan_positionalText spelled true
  refine ⟨numeral, scanned, denotes.unsigned, denotes.value, ?_, by simp [denotes.bare]⟩
  rcases digits with same | filled
  · exact same.trans_lt fits
  · have power : 10 ^ (point.toNat + 1) ≤ 10 ^ 17 :=
      Nat.pow_le_pow_right (by decide) (by omega)
    have bound : 10 ^ 17 < 2 ^ 64 := by decide
    exact (filled.trans_le power).trans bound

/-! ## Texts of numbers -/

/-- Leaving out the zeros at the end leaves a number that is not greater. -/
theorem natural_significant_le (d : Digits) : natural (significant d).1 ≤ d.digits := by
  obtain ⟨k, split⟩ := exists_zeros (Nat.toDigits 10 d.digits)
  have all : natural (Nat.toDigits 10 d.digits) = d.digits := foldl_toDigits d.digits
  rw [split, natural_append, natural_zeros, List.length_replicate, Nat.add_zero] at all
  exact (Nat.le_mul_of_pos_right _ (Nat.pow_pos (by decide))).trans all.le

variable {x : Binary64}

/-- The interval around a number does not reach beyond the ceiling. -/
theorem le_ceiling_of_near (canonical : x.Canonical) (near : x.Near v) : v ≤ Binary64.ceiling := by
  have short : (x.mantissa : ℚ) + 1 ≤ 2 ^ 53 := by exact_mod_cast canonical.short
  have scale : (2 : ℚ) ^ x.exponent ≤ 2 ^ (971 : Int) :=
    zpow_le_zpow_right₀ one_le_two canonical.greatest
  calc v ≤ (x.mantissa + 1 / 2) * 2 ^ x.exponent := near.upper
    _ ≤ (2 ^ 53 - 1 / 2) * 2 ^ (971 : Int) :=
        mul_le_mul (by linarith) scale (zpow_pos two_pos _).le (by norm_num)

theorem lt_ten_pow (canonical : x.Canonical) (near : x.Near v) : v < 10 ^ (309 : Int) := by
  have quarter : (2 : ℚ) ^ 256 < 10 ^ 77 * (12 / 10) := by norm_num
  have fourth := pow_lt_pow_left₀ quarter (by positivity) (show 4 ≠ 0 by decide)
  have two : (2 : ℚ) ^ (1024 : Int) = (2 ^ 256) ^ 4 := by
    rw [← pow_mul]
    exact zpow_natCast 2 1024
  have ten : (10 : ℚ) ^ (309 : Int) = 10 * (10 ^ 77) ^ 4 := by
    rw [← pow_mul, ← pow_succ']
    exact zpow_natCast 10 309
  have positive : (0 : ℚ) < (10 ^ 77) ^ 4 := by positivity
  have below := (le_ceiling_of_near canonical near).trans_lt Binary64.ceiling_lt
  rw [mul_pow] at fourth
  rw [two] at below
  rw [ten]
  generalize ((10 : ℚ) ^ 77) ^ 4 = t at fourth positive ⊢
  linarith

/-- The place of the point is moderate. -/
theorem Spelled.point_bounds (spelled : Spelled ds point v) (canonical : x.Canonical)
    (nonzero : 0 < x.mantissa) (near : x.Near v) : -1075 ≤ point ∧ point ≤ 309 := by
  obtain ⟨low, high⟩ := spelled.bounds
  have ten : (1 : ℚ) < 10 := by norm_num
  constructor
  · have half : (1 : ℚ) / 2 ≤ x.mantissa - x.gap := by
      have one : (1 : ℚ) ≤ x.mantissa := by exact_mod_cast nonzero
      linarith [x.gap_le]
    have scale : (2 : ℚ) ^ (-1074 : Int) ≤ 2 ^ x.exponent :=
      zpow_le_zpow_right₀ one_le_two canonical.least
    have powers : (2 : ℚ) ^ 1075 ≤ 10 ^ 1075 := pow_le_pow_left₀ two_pos.le (by norm_num) _
    have least : (10 : ℚ) ^ (-1075 : Int) < 10 ^ point := by
      calc (10 : ℚ) ^ (-1075 : Int) = (10 ^ 1075)⁻¹ := zpow_neg_coe_of_pos 10 (by decide)
        _ ≤ (2 ^ 1075)⁻¹ := inv_anti₀ (pow_pos two_pos _) powers
        _ = 1 / 2 * 2 ^ (-1074 : Int) := by
            rw [← zpow_natCast, ← zpow_neg, one_div, ← zpow_neg_one, ← zpow_add₀ two_ne_zero]
            rfl
        _ ≤ (x.mantissa - x.gap) * 2 ^ x.exponent :=
            mul_le_mul half scale (zpow_pos two_pos _).le (by linarith)
        _ ≤ v := near.lower
        _ < 10 ^ point := high
    exact ((zpow_lt_zpow_iff_right₀ ten).mp least).le
  · have most := (zpow_lt_zpow_iff_right₀ ten).mp (low.trans_lt (lt_ten_pow canonical near))
    omega

/-- There is room for two relative errors around every number but the two greatest ones. -/
theorem room_of_near (canonical : x.Canonical) (near : x.Near v)
    (room : x.exponent < 971 ∨ x.mantissa + 3 ≤ 2 ^ 53) :
    v * (1 + 1 / 2 ^ 53) ^ 2 < Binary64.ceiling := by
  have errors : (0 : ℚ) < (1 + 1 / 2 ^ 53) ^ 2 := by norm_num
  have unit : (0 : ℚ) < 2 ^ (971 : Int) := zpow_pos two_pos _
  have bound : v * (1 + 1 / 2 ^ 53) ^ 2 ≤
      (x.mantissa + 1 / 2) * 2 ^ x.exponent * (1 + 1 / 2 ^ 53) ^ 2 :=
    mul_le_mul_of_nonneg_right near.upper errors.le
  refine bound.trans_lt ?_
  rcases room with less | less
  · have short : (x.mantissa : ℚ) + 1 ≤ 2 ^ 53 := by exact_mod_cast canonical.short
    have scale : (2 : ℚ) ^ x.exponent ≤ 2 ^ (970 : Int) :=
      zpow_le_zpow_right₀ one_le_two (by omega)
    have double : (2 : ℚ) ^ (971 : Int) = 2 * 2 ^ (970 : Int) := by
      rw [show (971 : Int) = 970 + (1 : Nat) by rfl, two_zpow_add, pow_one]
    have step : ((x.mantissa : ℚ) + 1 / 2) * 2 ^ x.exponent ≤ (2 ^ 53 - 1 / 2) * 2 ^ (970 : Int) :=
      mul_le_mul (by linarith) scale (zpow_pos two_pos _).le (by norm_num)
    refine (mul_le_mul_of_nonneg_right step errors.le).trans_lt ?_
    rw [Binary64.ceiling, double]
    rw [double] at unit
    generalize (2 : ℚ) ^ (970 : Int) = u at unit ⊢
    norm_num
    linarith
  · have less : (x.mantissa : ℚ) + 3 ≤ 2 ^ 53 := by exact_mod_cast less
    have scale : (2 : ℚ) ^ x.exponent ≤ 2 ^ (971 : Int) :=
      zpow_le_zpow_right₀ one_le_two canonical.greatest
    have step : ((x.mantissa : ℚ) + 1 / 2) * 2 ^ x.exponent ≤
        (2 ^ 53 - 5 / 2) * 2 ^ (971 : Int) :=
      mul_le_mul (by linarith) scale (zpow_pos two_pos _).le (by norm_num)
    refine (mul_le_mul_of_nonneg_right step errors.le).trans_lt ?_
    rw [Binary64.ceiling]
    generalize (2 : ℚ) ^ (971 : Int) = u at unit ⊢
    norm_num
    linarith

/-- **A text that is an unsigned numeral** whose number stays finite with either sign. -/
def Numbered (cs : List Char) : Prop :=
  ∃ numeral, scan cs = .ok (numeral, []) ∧ numeral.negative = false ∧
    ∀ negative, ({ numeral with negative } : Numeral).value?.isSome

/-- What is spelled near a number has a number, unless it is one of the two greatest. -/
theorem Spells.value?_isSome {numeral : Numeral} (spells : numeral.Spells v)
    (canonical : x.Canonical) (nonzero : 0 < x.mantissa) (near : x.Near v)
    (room : x.exponent < 971 ∨ x.mantissa + 3 ≤ 2 ^ 53) (negative : Bool) :
    ({ numeral with negative } : Numeral).value?.isSome := by
  have positive := near.positive nonzero
  have unit : (0 : ℚ) < 10 ^ numeral.decimal.exponent := zpow_pos (by norm_num) _
  have some : (1 : ℚ) ≤ numeral.decimal.digits := by
    have digits : 0 < numeral.decimal.digits := by
      by_contra none
      rw [← spells.value, Nat.eq_zero_of_not_pos none, Nat.cast_zero, zero_mul] at positive
      exact lt_irrefl _ positive
    exact_mod_cast digits
  have power : (10 : ℚ) ^ numeral.decimal.exponent < 10 ^ (309 : Int) :=
    (le_mul_of_one_le_left unit.le some).trans_lt (spells.value ▸ lt_ten_pow canonical near)
  have low : numeral.decimal.exponent ≤ 308 :=
    Int.lt_add_one_iff.mp ((zpow_lt_zpow_iff_right₀ (by norm_num : (1 : ℚ) < 10)).mp power)
  refine Numeral.value?_isSome spells.fits spells.moderate ?_
  exact scaled?_isSome spells.fits low (spells.value ▸ room_of_near canonical near room)

/-- For the two greatest numbers the rounded steps are computed. -/
theorem numbered_greatest :
    ∀ m ∈ [2 ^ 53 - 2, 2 ^ 53 - 1], Numbered (render numberLayout ⟨false, m, 971⟩).toList := by
  intro m member
  obtain rfl | rfl : m = 2 ^ 53 - 2 ∨ m = 2 ^ 53 - 1 := by simpa using member
  · exact ⟨⟨false, ['1'], some "7976931348623155".toList, some ⟨false, "308".toList⟩⟩,
      by decide +kernel, rfl, by decide +kernel⟩
  · exact ⟨⟨false, ['1'], some "7976931348623157".toList, some ⟨false, "308".toList⟩⟩,
      by decide +kernel, rfl, by decide +kernel⟩

/-- The text of a positive number spells a rational near it. -/
theorem exists_scan_render (canonical : x.Canonical) (nonzero : 0 < x.mantissa)
    (unsigned : x.negative = false) :
    ∃ numeral v, scan (render numberLayout x).toList = .ok (numeral, []) ∧ numeral.Spells v ∧
      x.Near v := by
  have near := Binary64.near_shortest canonical nonzero numberLayout.tie
  have digits : 0 < (x.shortest numberLayout.tie).digits := by
    by_contra none
    have value := near.positive nonzero
    rw [Nat.eq_zero_of_not_pos none, Nat.cast_zero, zero_mul] at value
    exact lt_irrefl _ value
  have fits := (natural_significant_le _).trans_lt
    (Binary64.digits_shortest_lt nonzero numberLayout.tie)
  have spelled := spelled_significant digits
  have bounds := spelled.point_bounds canonical nonzero near
  have finite : x.isZero = false := beq_false_of_ne nonzero.ne'
  rw [render, finite, unsigned]
  generalize significant (x.shortest numberLayout.tie) = written at fits spelled bounds ⊢
  obtain ⟨ds, point⟩ := written
  simp only [numberLayout, Bool.false_eq_true, if_false, List.nil_append, String.toList_ofList,
    Bool.and_eq_true, decide_eq_true_eq]
  split
  · obtain ⟨numeral, scanned, spells⟩ := spelled.scan_pointedText fits (by omega)
    exact ⟨numeral, _, scanned, spells, near⟩
  · have moderate : (point - 1).natAbs ≤ greatestPower := by
      have power : greatestPower = 2 ^ 31 - 1 := rfl
      simp only at bounds
      omega
    obtain ⟨numeral, scanned, spells⟩ := spelled.scan_exponentText fits moderate
    exact ⟨numeral, _, scanned, spells, near⟩

/-- **The text of an unsigned number is a numeral that has a number.** -/
theorem numbered_render (canonical : x.Canonical) (unsigned : x.negative = false) :
    Numbered (render numberLayout x).toList := by
  rcases Nat.eq_zero_or_pos x.mantissa with zero | nonzero
  · have finite : x.isZero = true := beq_iff_eq.mpr zero
    have text : (render numberLayout x).toList = ['0', '.', '0'] := by
      rw [render, finite, unsigned, if_pos rfl, String.toList_ofList]
      rfl
    rw [text]
    exact ⟨⟨false, ['0'], some ['0'], none⟩, by decide +kernel, rfl, by decide +kernel⟩
  by_cases room : x.exponent < 971 ∨ x.mantissa + 3 ≤ 2 ^ 53
  · obtain ⟨numeral, v, scanned, spells, near⟩ := exists_scan_render canonical nonzero unsigned
    exact ⟨numeral, scanned, spells.unsigned, spells.value?_isSome canonical nonzero near room⟩
  · have short := canonical.short
    have greatest := canonical.greatest
    obtain ⟨sign, m, e⟩ := x
    simp only [not_or] at room short greatest unsigned
    obtain rfl : e = 971 := by omega
    obtain rfl := unsigned
    have two : m = 2 ^ 53 - 2 ∨ m = 2 ^ 53 - 1 := by omega
    exact numbered_greatest m (by simpa using two)

/-- A minus before an unsigned numeral. -/
theorem scan_minus {cs rest : List Char} {numeral : Numeral}
    (scanned : scan cs = .ok (numeral, rest)) (unsigned : numeral.negative = false) :
    scan ('-' :: cs) = .ok ({ numeral with negative := true }, rest) := by
  obtain ⟨c, after, rfl, digit⟩ := exists_digit_of_scan scanned unsigned
  have plain : scanMinus (c :: after) = (false, c :: after) := by
    unfold scanMinus
    split
    · rename_i same
      obtain rfl := (List.cons.inj same).1
      exact absurd digit (by decide)
    · rfl
  obtain ⟨behind, last, -, parts⟩ := scan_eq_ok_iff.mp scanned
  rw [plain] at parts
  exact scan_eq_ok_iff.mpr ⟨behind, last, rfl, parts⟩

end Numeral

/-- **A number that the format holds**: an integer of at most sixty-four bits, or a floating-point
number. -/
def Number.Canonical : Number → Prop
  | .int i => -(2 ^ 63) ≤ i ∧ i < 2 ^ 64
  | .float x => x.Canonical

theorem Numeral.Numbered.scanNumber_eq {cs : List Char} (numbered : Numbered cs) :
    ∃ n, scanNumber cs = (.pure n, some []) := by
  obtain ⟨numeral, scanned, unsigned, finite⟩ := numbered
  obtain ⟨n, value⟩ := Option.isSome_iff_exists.mp (finite numeral.negative)
  exact ⟨n, by rw [scanNumber, scanned]; simp only [value]; rfl⟩

theorem Numeral.Numbered.scanNumber_minus {cs : List Char} (numbered : Numbered cs) :
    ∃ n, scanNumber ('-' :: cs) = (.pure n, some []) := by
  obtain ⟨numeral, scanned, unsigned, finite⟩ := numbered
  obtain ⟨n, value⟩ := Option.isSome_iff_exists.mp (finite true)
  exact ⟨n, by rw [scanNumber, scan_minus scanned unsigned]; simp only [value]; rfl⟩

/-- **The text of every number is read as a number.** -/
theorem Number.readable_of_canonical {n : Number} (canonical : n.Canonical) : n.Readable := by
  cases n with
  | int i => exact ⟨_, parse_of_scanNumber (scanNumber_text canonical.1 canonical.2)⟩
  | float x =>
      have inside : (x.withSign false).Canonical := ⟨canonical.1, canonical.2, canonical.3,
        canonical.4⟩
      have numbered := Numeral.numbered_render inside rfl
      cases sign : x.negative with
      | false =>
          have same : x.withSign false = x := by
            rw [← sign]
            rfl
          rw [same] at numbered
          obtain ⟨m, scanned⟩ := numbered.scanNumber_eq
          exact ⟨m, parse_of_scanNumber scanned⟩
      | true =>
          obtain ⟨m, scanned⟩ := numbered.scanNumber_minus
          rw [← render_of_negative sign] at scanned
          exact ⟨m, parse_of_scanNumber scanned⟩

end ClientGen.Json
