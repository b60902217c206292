import ClientGen.Proofs.Decimal.Shortest
import Mathlib.Algebra.Order.Field.Basic

/-!
# Quotients that have a nearest number

Rounding fails only beyond the finite numbers: from half-way between the greatest number and the
power of two behind it. A product of numbers that were rounded before may pass that place although
the product of the unrounded ones does not, so the relative error of rounding is bounded as well.

* `Binary64.ceiling` — the least rational that has no nearest number.
* `Binary64.ofRatio?_isSome_of_lt` — a quotient below it has one.
* `Binary64.value_bounds` — rounding adds at most one part in `2 ^ 53`.
* `Binary64.mul?_isSome`, `Binary64.div?_isSome` — products and quotients.
* `Binary64.digits_shortest_lt` — the digits of the shortest decimal fit into sixty-four bits.
-/

namespace ClientGen.Decimal

/-- Rounding to an integer adds at most one half. -/
theorem roundedQuotient_le {n d : Nat} (positive : 0 < d) :
    (roundedQuotient n d : ℚ) ≤ n / d + 1 / 2 := by
  have divisor : (0 : ℚ) < d := Nat.cast_pos.mpr positive
  have parts : d * (n / d) + n % d = n := Nat.div_add_mod n d
  have whole : 2 * (d * roundedQuotient n d) ≤ 2 * n + d := by
    unfold roundedQuotient
    generalize n / d = q at parts ⊢
    generalize n % d = r at parts ⊢
    have next : d * (q + 1) = d * q + d := Nat.mul_succ d q
    simp only
    split_ifs <;> omega
  have bound : (2 * (d * roundedQuotient n d) : ℚ) ≤ 2 * n + d := by exact_mod_cast whole
  rw [← sub_le_iff_le_add, le_div_iff₀ divisor]
  linarith

/-- Rounding in units of a power of two adds at most one half of a unit. -/
theorem roundedQuotient_unscaled_le (num : Nat) {den : Nat} (divisor : 0 < den) (e : Int) :
    (roundedQuotient (unscaled num den e).1 (unscaled num den e).2 : ℚ) * 2 ^ e ≤
      num / den + 1 / 2 * 2 ^ e := by
  have unit : (0 : ℚ) < 2 ^ e := zpow_pos two_pos _
  have half := roundedQuotient_le (n := (unscaled num den e).1) (d := (unscaled num den e).2)
    (unscaled_snd_pos divisor e)
  have product := mul_le_mul_of_nonneg_right half unit.le
  rwa [unscaled_div, add_mul, div_mul_cancel₀ _ unit.ne'] at product

namespace Binary64

/-- **The absolute value** of a number. -/
def value (x : Binary64) : ℚ :=
  x.mantissa * 2 ^ x.exponent

/-- **The least rational beyond the finite numbers**, half-way between the greatest one and the
power of two behind it. -/
def ceiling : ℚ :=
  (2 ^ 53 - 1 / 2) * 2 ^ (971 : Int)

theorem value_nonneg (x : Binary64) : 0 ≤ x.value :=
  mul_nonneg (Nat.cast_nonneg _) (zpow_pos two_pos _).le

theorem ceiling_lt : ceiling < 2 ^ (1024 : Int) := by
  have bits : (2 : ℚ) ^ (1024 : Int) = 2 ^ 53 * 2 ^ (971 : Int) := two_zpow_add 971 53
  have unit : (0 : ℚ) < 2 ^ (971 : Int) := zpow_pos two_pos _
  rw [bits, ceiling]
  exact mul_lt_mul_of_pos_right (by norm_num) unit

/-- **Every number lies below the ceiling.** -/
theorem value_lt_ceiling {x : Binary64} (canonical : x.Canonical) : x.value < ceiling := by
  have short : (x.mantissa : ℚ) + 1 ≤ 2 ^ 53 := by exact_mod_cast canonical.short
  have scale : (2 : ℚ) ^ x.exponent ≤ 2 ^ (971 : Int) :=
    zpow_le_zpow_right₀ one_le_two canonical.greatest
  have unit : (0 : ℚ) < 2 ^ (971 : Int) := zpow_pos two_pos _
  calc x.value ≤ x.mantissa * 2 ^ (971 : Int) :=
        mul_le_mul_of_nonneg_left scale (Nat.cast_nonneg _)
    _ < ceiling := mul_lt_mul_of_pos_right (by linarith) unit

/-! ## Rounding -/

variable {num den : Nat} {x : Binary64}

/-- **A quotient below the ceiling has a nearest number.** -/
theorem ofRatio?_isSome_of_lt (divisor : 0 < den) (small : (num : ℚ) / den < ceiling)
    (negative : Bool) : (ofRatio? negative num den).isSome := by
  rcases Nat.eq_zero_or_pos num with rfl | positive
  · rfl
  have below : (2 : ℚ) ^ (normalExponent num den + 52) < 2 ^ (1024 : Int) :=
    (normalExponent_bounds positive divisor).1.trans_lt (small.trans ceiling_lt)
  have least := (zpow_lt_zpow_iff_right₀ (one_lt_two (α := ℚ))).mp below
  rw [ofRatio?_of_rounded positive.ne' rfl rfl]
  split
  · rename_i carried
    -- with the greatest exponent a carry takes half a unit more than there is below the ceiling
    rw [if_neg]
    · rfl
    intro beyond
    have exponent : max (normalExponent num den) (-1074) = 971 := by omega
    rw [exponent] at carried
    have half := roundedQuotient_unscaled_le num divisor 971
    rw [carried, cast_twoTo, ← sub_le_iff_le_add, ← sub_mul] at half
    exact absurd small (not_lt.mpr half)
  · rw [if_neg (by omega)]
    rfl

/-- The number nearest to a quotient of at least one: its size, and its relative error. -/
theorem value_bounds {negative : Bool} (divisor : 0 < den) (large : (1 : ℚ) ≤ num / den)
    (found : ofRatio? negative num den = some x) :
    1 ≤ x.value ∧ x.value ≤ num / den * (1 + 1 / 2 ^ 53) := by
  have positive : 0 < num := by
    by_contra none
    rw [Nat.eq_zero_of_not_pos none, Nat.cast_zero, zero_div] at large
    norm_num at large
  obtain ⟨low, high⟩ := normalExponent_bounds positive divisor
  have bits : (1 : ℚ) < 2 ^ (normalExponent num den + 53) := large.trans_lt high
  rw [← zpow_zero (2 : ℚ)] at bits
  have normal := (zpow_lt_zpow_iff_right₀ (one_lt_two (α := ℚ))).mp bits
  obtain ⟨e, own⟩ : ∃ e, normalExponent num den = e := ⟨_, rfl⟩
  rw [own] at low normal
  have exponent : max (normalExponent num den) (-1074) = e := by omega
  obtain ⟨-, leading⟩ := mantissa_bounds positive divisor exponent rfl
  have long := leading.resolve_right (by omega)
  have half := roundedQuotient_unscaled_le num divisor e
  rw [ofRatio?_of_rounded positive.ne' exponent rfl] at found
  generalize roundedQuotient (unscaled num den e).1 (unscaled num den e).2 = m at long half found
  have unit : (0 : ℚ) < 2 ^ e := zpow_pos two_pos _
  -- a carry does not change the value
  have value : x.value = m * 2 ^ e := by
    split at found
    · rename_i carried
      split at found
      · cases found
      · obtain rfl := Option.some.inj found
        rw [Binary64.value, carried, cast_twoTo, cast_twoTo, zpow_add_one₀ two_ne_zero]
        ring
    · split at found
      · cases found
      · obtain rfl := Option.some.inj found
        rfl
  rw [value]
  constructor
  · have least : (2 : ℚ) ^ (-52 : Int) ≤ 2 ^ e := zpow_le_zpow_right₀ one_le_two (by omega)
    have long : (2 : ℚ) ^ 52 ≤ m := by exact_mod_cast long
    calc (1 : ℚ) = 2 ^ 52 * 2 ^ (-52 : Int) := by norm_num
      _ ≤ m * 2 ^ e := mul_le_mul long least (by positivity) (by positivity)
  · have share : (2 : ℚ) ^ e * 2 ^ 52 ≤ num / den := by
      rw [mul_comm, ← two_zpow_add]
      exact low
    linarith

/-! ## Products and quotients -/

theorem num_div_den_eq (x : Binary64) : (x.num : ℚ) / x.den = x.value :=
  x.num_div_den

theorem mul?_isSome {x y : Binary64} (small : x.value * y.value < ceiling) :
    (x.mul? y).isSome := by
  refine ofRatio?_isSome_of_lt (Nat.mul_pos x.den_pos y.den_pos) ?_ _
  rw [Nat.cast_mul, Nat.cast_mul, mul_div_mul_comm, num_div_den_eq, num_div_den_eq]
  exact small

/-- Dividing by a number of at least one does not lead beyond the finite numbers. -/
theorem div?_isSome {x y : Binary64} (canonical : x.Canonical) (large : 1 ≤ y.value) :
    ∃ z, x.div? y = some z ∧ z.Canonical := by
  have positive : 0 < y.num := by
    by_contra none
    rw [← num_div_den_eq, Nat.eq_zero_of_not_pos none, Nat.cast_zero, zero_div] at large
    norm_num at large
  have divisor : 0 < x.den * y.num := Nat.mul_pos x.den_pos positive
  have quotient : ((x.num * y.den : Nat) : ℚ) / (x.den * y.num : Nat) = x.value / y.value := by
    rw [Nat.cast_mul, Nat.cast_mul, mul_div_mul_comm, num_div_den_eq, ← num_div_den_eq y,
      div_eq_mul_inv x.value, inv_div]
  have small : ((x.num * y.den : Nat) : ℚ) / (x.den * y.num : Nat) < ceiling := by
    rw [quotient]
    exact (div_le_self x.value_nonneg large).trans_lt (value_lt_ceiling canonical)
  obtain ⟨z, found⟩ := Option.isSome_iff_exists.mp
    (ofRatio?_isSome_of_lt divisor small (x.negative != y.negative))
  exact ⟨z, found, canonical_of_ofRatio? divisor found⟩

end Binary64

/-! ## The digits of the shortest decimal -/

/-- A quotient lies below the power of ten of its magnitude. -/
theorem lt_of_magnitude {num den : Nat} (positive : 0 < num) (divisor : 0 < den) :
    (num : ℚ) / den < 10 ^ magnitude num den := by
  have denPos : (0 : ℚ) < den := Nat.cast_pos.mpr divisor
  unfold magnitude
  split
  · rename_i whole
    have high := (digitCount_bounds (Nat.div_pos whole divisor)).2
    rw [zpow_natCast, div_lt_iff₀ denPos]
    have : num < 10 ^ digitCount (num / den) * den := (Nat.div_lt_iff_lt_mul divisor).mp high
    exact_mod_cast this
  · rename_i fraction
    have quotient : 0 < den / num := Nat.div_pos (by omega) positive
    have some : 0 < digitCount (den / num) := Nat.length_toDigits_pos
    have low : num * 10 ^ (digitCount (den / num) - 1) ≤ den := by
      have bound := (digitCount_bounds quotient).1
      exact (Nat.mul_le_mul_left num bound).trans (Nat.mul_div_le den num)
    have power : (0 : ℚ) < 10 ^ (digitCount (den / num) - 1) := by positivity
    simp only
    split
    · have low : (num : ℚ) * 10 ^ (digitCount (den / num) - 1) ≤ den := by exact_mod_cast low
      rw [show 2 - (digitCount (den / num) : Int) = 1 + -((digitCount (den / num) - 1 : Nat) : Int)
        by omega, zpow_add₀ (by norm_num), zpow_one, zpow_neg, zpow_natCast, ← div_eq_mul_inv,
        div_lt_div_iff₀ denPos power]
      linarith
    · rename_i less
      have less : num * 10 ^ (digitCount (den / num) - 1) < den := not_le.mp less
      have less : (num : ℚ) * 10 ^ (digitCount (den / num) - 1) < den := by exact_mod_cast less
      rw [show 1 - (digitCount (den / num) : Int) = -((digitCount (den / num) - 1 : Nat) : Int)
        by omega, zpow_neg, zpow_natCast, inv_eq_one_div, div_lt_div_iff₀ denPos power]
      linarith

namespace Binary64

variable {tie : Tie} {x : Binary64} {p : Int} {c : Nat}

theorem le_of_onGrid? (found : onGrid? tie x p = some c) : c ≤ x.below p + 1 := by
  have nearest : nearer tie x (x.below p) p ≤ x.below p + 1 := by
    unfold nearer
    split
    · exact Nat.le_succ _
    · exact Nat.le_refl _
    · cases tie with
      | up => exact Nat.le_refl _
      | even =>
          simp only
          split <;> omega
  unfold onGrid? at found
  simp only at found
  split at found
  · exact Option.some.inj found ▸ nearest
  · exact Option.some.inj found ▸ Nat.le_succ _
  · exact Option.some.inj found ▸ Nat.le_refl _
  · cases found

/-- The digits on a grid are as many as its place lies below the magnitude. -/
theorem digits_search_le {grids n : Nat} (small : x.value < 10 ^ (p - grids + n)) :
    (search tie x grids p).digits ≤ 10 ^ n := by
  have coarse {q : Int} (above : p - grids ≤ q) : x.below q < 10 ^ n := by
    have low := (x.below_bounds q).1
    have unit : (0 : ℚ) < 10 ^ q := zpow_pos (by norm_num) _
    have step : (10 : ℚ) ^ (p - grids + n) ≤ 10 ^ n * 10 ^ q := by
      rw [← zpow_natCast, ← zpow_add₀ (by norm_num)]
      exact zpow_le_zpow_right₀ (by norm_num) (by omega)
    have product : (x.below q : ℚ) * 10 ^ q < 10 ^ n * 10 ^ q := (low.trans_lt small).trans_le step
    have := lt_of_mul_lt_mul_right product unit.le
    exact_mod_cast this
  induction grids generalizing p with
  | zero =>
      rw [search]
      exact (coarse (by omega)).le
  | succ grids ih =>
      rw [search]
      split
      · rename_i c found
        exact (le_of_onGrid? found).trans (coarse (by omega))
      · exact ih (by convert small using 2; omega) fun above => coarse (by omega)

/-- **The digits of the shortest decimal fit into sixty-four bits.** -/
theorem digits_shortest_lt (nonzero : 0 < x.mantissa) (tie : Tie) :
    (x.shortest tie).digits < 2 ^ 64 := by
  have positive : 0 < x.num := Nat.mul_pos nonzero (Nat.two_pow_pos _)
  have below := lt_of_magnitude positive x.den_pos
  rw [num_div_den_eq] at below
  have digits : (x.shortest tie).digits ≤ 10 ^ 18 := by
    refine digits_search_le ?_
    convert below using 2
    push_cast
    omega
  have bound : 10 ^ 18 < 2 ^ 64 := by decide
  exact digits.trans_lt bound

end Binary64

end ClientGen.Decimal
