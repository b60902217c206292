import ClientGen.Decimal.Shortest
import ClientGen.Proofs.Decimal.Nearest
import Mathlib.Data.Nat.Digits.Defs

/-!
# The shortest decimal reads back

The search stops at the first grid of decimals that has a point in the interval around the number.
It does not run out of grids: on the grid of seventeen digits the two neighbours of the number are
closer to each other than the ends of the interval.

* `compareDecimal_lt`, `compareDecimal_eq`, `compareDecimal_gt` — comparison, in rationals.
* `Binary64.admits_iff` — the decimals in the interval.
* `Binary64.exists_admits` — a neighbour on the grid of seventeen digits is in the interval.
* `Binary64.near_shortest` — the shortest decimal is near its number.
* `Binary64.ofDecimal?_eq_some` — a decimal near a number is read as the number.
* `render_of_negative` — the text of a negative number.
-/

namespace ClientGen.Decimal

/-! ## Decimals -/

theorem cast_tenTo (n : Nat) : ((tenTo n : Nat) : ℚ) = 10 ^ n := by
  show ((10 ^ n : Nat) : ℚ) = 10 ^ n
  push_cast
  rfl

section

variable {num den c : Nat} {p : Int}

/-- The two integers that are compared are the quotient and the decimal, in one unit. -/
theorem exists_compareDecimal (divisor : 0 < den) (num c : Nat) (p : Int) :
    ∃ (a b : Nat) (unit : ℚ), 0 < unit ∧ compareDecimal num den c p = compare a b ∧
      (a : ℚ) = num / den * unit ∧ (b : ℚ) = c * 10 ^ p * unit := by
  have nonzero : (den : ℚ) ≠ 0 := Nat.cast_ne_zero.mpr divisor.ne'
  unfold compareDecimal
  split
  · rename_i above
    obtain ⟨n, rfl⟩ := Int.eq_ofNat_of_zero_le above
    refine ⟨_, _, den, Nat.cast_pos.mpr divisor, rfl, (div_mul_cancel₀ _ nonzero).symm, ?_⟩
    rw [Int.toNat_natCast, Nat.cast_mul, Nat.cast_mul, cast_tenTo, zpow_natCast]
  · rename_i below
    obtain ⟨n, rfl⟩ := Int.exists_eq_neg_ofNat (show p ≤ 0 by omega)
    have power : (10 : ℚ) ^ n ≠ 0 := pow_ne_zero n (by norm_num)
    refine ⟨_, _, den * 10 ^ n, mul_pos (Nat.cast_pos.mpr divisor) (by positivity), rfl, ?_, ?_⟩
    · rw [neg_neg, Int.toNat_natCast, Nat.cast_mul, cast_tenTo, ← mul_assoc,
        div_mul_cancel₀ _ nonzero]
    · rw [Nat.cast_mul, zpow_neg, zpow_natCast, mul_comm (den : ℚ), ← mul_assoc,
        inv_mul_cancel_right₀ power]

theorem compareDecimal_lt (divisor : 0 < den) :
    compareDecimal num den c p = .lt ↔ (num : ℚ) / den < c * 10 ^ p := by
  obtain ⟨a, b, unit, positive, same, left, right⟩ := exists_compareDecimal divisor num c p
  rw [same, Nat.compare_eq_lt, ← Nat.cast_lt (α := ℚ), left, right, mul_lt_mul_iff_left₀ positive]

theorem compareDecimal_eq (divisor : 0 < den) :
    compareDecimal num den c p = .eq ↔ (num : ℚ) / den = c * 10 ^ p := by
  obtain ⟨a, b, unit, positive, same, left, right⟩ := exists_compareDecimal divisor num c p
  rw [same, Nat.compare_eq_eq, ← Nat.cast_inj (R := ℚ), left, right, mul_left_inj' positive.ne']

theorem compareDecimal_gt (divisor : 0 < den) :
    compareDecimal num den c p = .gt ↔ (c : ℚ) * 10 ^ p < num / den := by
  obtain ⟨a, b, unit, positive, same, left, right⟩ := exists_compareDecimal divisor num c p
  rw [same, Nat.compare_eq_gt, ← Nat.cast_lt (α := ℚ), left, right, mul_lt_mul_iff_left₀ positive]

end

theorem digitCount_bounds {n : Nat} (positive : 0 < n) :
    10 ^ (digitCount n - 1) ≤ n ∧ n < 10 ^ digitCount n := by
  have some : 0 < digitCount n := Nat.length_toDigits_pos
  refine ⟨?_, (Nat.length_toDigits_le_iff (by decide) some).mp (Nat.le_refl _)⟩
  rcases Nat.eq_or_lt_of_le (show 1 ≤ digitCount n from some) with one | more
  · rw [← one]
    exact positive
  · by_contra small
    have fewer := (Nat.length_toDigits_le_iff (b := 10) (by decide)
      (show 0 < digitCount n - 1 by omega)).mpr (not_le.mp small)
    have : digitCount n ≤ digitCount n - 1 := fewer
    omega

/-- **The magnitude of a quotient** is the number of its digits before the point. -/
theorem le_of_magnitude {num den : Nat} (positive : 0 < num) (divisor : 0 < den) :
    (10 : ℚ) ^ (magnitude num den - 1) ≤ num / den := by
  have denPos : (0 : ℚ) < den := Nat.cast_pos.mpr divisor
  have numPos : (0 : ℚ) < num := Nat.cast_pos.mpr positive
  unfold magnitude
  split
  · rename_i whole
    have quotient : 0 < num / den := Nat.div_pos whole divisor
    have some : 0 < digitCount (num / den) := Nat.length_toDigits_pos
    rw [show (digitCount (num / den) : Int) - 1 = (digitCount (num / den) - 1 : Nat) by omega,
      zpow_natCast, le_div_iff₀ denPos]
    have bound := (digitCount_bounds quotient).1
    have : 10 ^ (digitCount (num / den) - 1) * den ≤ num :=
      (Nat.mul_le_mul_right den bound).trans (Nat.div_mul_le_self num den)
    exact_mod_cast this
  · rename_i fraction
    have quotient : 0 < den / num := Nat.div_pos (by omega) positive
    have some : 0 < digitCount (den / num) := Nat.length_toDigits_pos
    simp only
    split
    · rename_i more
      have exponent : 2 - (digitCount (den / num) : Int) - 1 =
          -(digitCount (den / num) - 1 : Nat) := by omega
      rw [exponent, zpow_neg, zpow_natCast, inv_eq_one_div,
        div_le_div_iff₀ (by positivity) denPos, one_mul]
      exact_mod_cast more
    · rw [show 1 - (digitCount (den / num) : Int) - 1 = -(digitCount (den / num) : Int) by omega,
        zpow_neg, zpow_natCast, inv_eq_one_div, div_le_div_iff₀ (by positivity) denPos, one_mul]
      have bound := (digitCount_bounds quotient).2
      have : den ≤ num * 10 ^ digitCount (den / num) := by
        have := Nat.lt_mul_div_succ den positive
        exact this.le.trans (Nat.mul_le_mul_left num bound)
      exact_mod_cast this

namespace Binary64

/-! ## The interval around a number -/

/-- Numerator and denominator of a power of two. -/
theorem two_pow_div (k : Int) : (2 : ℚ) ^ k.toNat / 2 ^ (-k).toNat = 2 ^ k := by
  rcases Int.le_total 0 k with above | below
  · obtain ⟨n, rfl⟩ := Int.eq_ofNat_of_zero_le above
    rw [Int.toNat_natCast, Int.toNat_neg_natCast, pow_zero, div_one, zpow_natCast]
  · obtain ⟨n, rfl⟩ := Int.exists_eq_neg_ofNat below
    rw [neg_neg, Int.toNat_natCast, Int.toNat_neg_natCast, pow_zero, zpow_neg, zpow_natCast,
      one_div]

variable (x : Binary64)

theorem den_pos : 0 < x.den :=
  Nat.two_pow_pos _

theorem num_div_den : (x.num : ℚ) / x.den = x.mantissa * 2 ^ x.exponent := by
  rw [num, den, Nat.cast_mul, cast_twoTo, cast_twoTo, mul_div_assoc, two_pow_div]

/-- A number of quarters of the last place. -/
theorem quarters_div (k : Nat) :
    ((k * twoTo (x.exponent - 2).toNat : Nat) : ℚ) / twoTo (2 - x.exponent).toNat =
      k / 4 * 2 ^ x.exponent := by
  rw [Nat.cast_mul, cast_twoTo, cast_twoTo, mul_div_assoc,
    show 2 - x.exponent = -(x.exponent - 2) by ring, two_pow_div, zpow_sub₀ two_ne_zero]
  ring

variable {x} {c : Nat} {p : Int}

theorem lowerEnd_div (nonzero : 0 < x.mantissa) :
    (x.lowerEnd.1 : ℚ) / x.lowerEnd.2 = (x.mantissa - x.gap) * 2 ^ x.exponent := by
  have same : twoTo 52 = 2 ^ 52 := rfl
  unfold lowerEnd gap
  simp only [quarters_div, same]
  split
  · rw [Nat.cast_sub (by omega)]
    push_cast
    ring
  · rw [Nat.cast_sub (by omega)]
    push_cast
    ring

theorem upperEnd_div :
    (x.upperEnd.1 : ℚ) / x.upperEnd.2 = (x.mantissa + 1 / 2) * 2 ^ x.exponent := by
  unfold upperEnd
  simp only [quarters_div]
  push_cast
  ring

/-- **The decimals that are admitted are those near the number.** -/
theorem admits_iff (nonzero : 0 < x.mantissa) :
    x.admits c p = true ↔ x.Near (c * 10 ^ p) := by
  have low : 0 < x.lowerEnd.2 := Nat.two_pow_pos _
  have high : 0 < x.upperEnd.2 := Nat.two_pow_pos _
  simp only [admits, Bool.and_eq_true, Bool.or_eq_true, beq_iff_eq, compareDecimal_lt low,
    compareDecimal_eq low, compareDecimal_gt high, compareDecimal_eq high, lowerEnd_div nonzero,
    upperEnd_div]
  constructor
  · rintro ⟨below | ⟨even, start⟩, above | ⟨even, stop⟩⟩
    · exact ⟨below.le, above.le, .inr ⟨below, above⟩⟩
    · exact ⟨below.le, stop.ge, .inl even⟩
    · exact ⟨start.le, above.le, .inl even⟩
    · exact ⟨start.le, stop.ge, .inl even⟩
  · rintro ⟨lower, upper, even | ⟨below, above⟩⟩
    · exact ⟨lower.lt_or_eq.imp_right fun start => ⟨even, start⟩,
        upper.lt_or_eq.imp_right fun stop => ⟨even, stop.symm⟩⟩
    · exact ⟨.inl below, .inl above⟩

/-! ## Neighbours on a grid -/

/-- **A number lies between its neighbours on a grid.** -/
theorem below_bounds (x : Binary64) (p : Int) :
    (x.below p : ℚ) * 10 ^ p ≤ x.mantissa * 2 ^ x.exponent ∧
      (x.mantissa : ℚ) * 2 ^ x.exponent < (x.below p + 1 : Nat) * 10 ^ p := by
  have den : (0 : ℚ) < x.den := Nat.cast_pos.mpr x.den_pos
  rw [← num_div_den, le_div_iff₀ den, div_lt_iff₀ den]
  unfold below
  split
  · rename_i above
    obtain ⟨n, rfl⟩ := Int.eq_ofNat_of_zero_le above
    have unit : 0 < x.den * 10 ^ n := Nat.mul_pos x.den_pos (Nat.pow_pos (by decide))
    have low := Nat.div_mul_le_self x.num (x.den * 10 ^ n)
    have high := Nat.lt_mul_div_succ x.num unit
    rw [Int.toNat_natCast, zpow_natCast]
    constructor
    · have : x.num / (x.den * 10 ^ n) * 10 ^ n * x.den ≤ x.num := by linarith
      exact_mod_cast this
    · have : x.num < (x.num / (x.den * 10 ^ n) + 1) * 10 ^ n * x.den := by linarith
      exact_mod_cast this
  · rename_i below
    obtain ⟨n, rfl⟩ := Int.exists_eq_neg_ofNat (show p ≤ 0 by omega)
    have power : (0 : ℚ) < 10 ^ n := by positivity
    have low := Nat.div_mul_le_self (x.num * 10 ^ n) x.den
    have high := Nat.lt_mul_div_succ (x.num * 10 ^ n) x.den_pos
    rw [neg_neg, Int.toNat_natCast, zpow_neg, zpow_natCast]
    constructor
    · have : ((x.num * 10 ^ n / x.den : Nat) : ℚ) * x.den ≤ x.num * 10 ^ n := by exact_mod_cast low
      rw [mul_right_comm, ← div_eq_mul_inv, div_le_iff₀ power]
      exact this
    · have : (x.num : ℚ) * 10 ^ n < x.den * (x.num * 10 ^ n / x.den + 1 : Nat) := by
        exact_mod_cast high
      rw [mul_right_comm, ← div_eq_mul_inv, lt_div_iff₀ power, mul_comm (_ : ℚ) (x.den : ℚ)]
      exact this

/-- What lies below a number and above the lower end is near it. -/
theorem near_of_below {v : ℚ} (low : (x.mantissa - x.gap) * 2 ^ x.exponent < v)
    (high : v ≤ x.mantissa * 2 ^ x.exponent) : x.Near v := by
  have unit : (0 : ℚ) < 2 ^ x.exponent := zpow_pos two_pos _
  have inside : v < (x.mantissa + 1 / 2) * 2 ^ x.exponent := by linarith
  exact ⟨low.le, inside.le, .inr ⟨low, inside⟩⟩

/-- What lies above a number and below the upper end is near it. -/
theorem near_of_above {v : ℚ} (low : x.mantissa * 2 ^ x.exponent ≤ v)
    (high : v < (x.mantissa + 1 / 2) * 2 ^ x.exponent) : x.Near v := by
  have unit : (0 : ℚ) < 2 ^ x.exponent := zpow_pos two_pos _
  have reach : 0 < x.gap := by
    unfold gap
    split <;> norm_num
  have inside : (x.mantissa - x.gap) * 2 ^ x.exponent < v := by nlinarith
  exact ⟨inside.le, high.le, .inr ⟨inside, high⟩⟩

/-- **One of the neighbours is near the number** on a grid as fine as that of seventeen digits: the
ends of the interval are further apart than the neighbours. -/
theorem exists_admits (canonical : x.Canonical) (nonzero : 0 < x.mantissa)
    (fine : (10 : ℚ) ^ p * 10 ^ 16 ≤ x.mantissa * 2 ^ x.exponent) :
    x.admits (x.below p) p = true ∨ x.admits (x.below p + 1) p = true := by
  rw [admits_iff nonzero, admits_iff nonzero]
  by_contra neither
  obtain ⟨notBelow, notAbove⟩ := not_or.mp neither
  obtain ⟨low, high⟩ := x.below_bounds p
  have start : (x.below p : ℚ) * 10 ^ p ≤ (x.mantissa - x.gap) * 2 ^ x.exponent :=
    not_lt.mp fun inside => notBelow (near_of_below inside low)
  have stop : (x.mantissa + 1 / 2) * 2 ^ x.exponent ≤ (x.below p + 1 : Nat) * (10 : ℚ) ^ p :=
    not_lt.mp fun inside => notAbove (near_of_above high.le inside)
  have unit : (0 : ℚ) < 2 ^ x.exponent := zpow_pos two_pos _
  have wide : (1 / 2 + x.gap) * 2 ^ x.exponent ≤ (10 : ℚ) ^ p := by
    push_cast at stop
    linarith
  have long : (1 / 2 + x.gap) * 10 ^ 16 ≤ x.mantissa := by
    refine le_of_mul_le_mul_right ?_ unit
    linarith
  have short : (x.mantissa : ℚ) < 2 ^ 53 := by exact_mod_cast canonical.short
  unfold gap at long
  split at long
  · rename_i power
    rw [power.1] at long
    norm_num at long
  · linarith

/-! ## The search -/

variable {tie : Tie}

theorem onGrid?_isSome :
    (onGrid? tie x p).isSome ↔
      x.admits (x.below p) p = true ∨ x.admits (x.below p + 1) p = true := by
  unfold onGrid?
  simp only
  split <;> rename_i low high <;> simp [low, high]

theorem admits_of_onGrid? (found : onGrid? tie x p = some c) : x.admits c p = true := by
  have either (d : Nat) : nearer tie x d p = d ∨ nearer tie x d p = d + 1 := by
    unfold nearer
    split
    · exact .inl rfl
    · exact .inr rfl
    · cases tie with
      | up => exact .inr rfl
      | even =>
          simp only
          split
          · exact .inl rfl
          · exact .inr rfl
  unfold onGrid? at found
  simp only at found
  split at found <;> rename_i low high
  · obtain rfl := Option.some.inj found
    rcases either (x.below p) with same | same
    · rw [same]
      exact low
    · rw [same]
      exact high
  · obtain rfl := Option.some.inj found
    exact low
  · obtain rfl := Option.some.inj found
    exact high
  · cases found

/-- **A search that comes to a grid with a neighbour inside** ends with a decimal that is
admitted. -/
theorem admits_search {grids : Nat} (hit : (onGrid? tie x (p - grids)).isSome) :
    x.admits (search tie x (grids + 1) p).digits (search tie x (grids + 1) p).exponent = true := by
  induction grids generalizing p with
  | zero =>
      rw [Nat.cast_zero, sub_zero] at hit
      obtain ⟨c, found⟩ := Option.isSome_iff_exists.mp hit
      rw [search, found]
      exact admits_of_onGrid? found
  | succ grids ih =>
      rw [search]
      split
      · rename_i c found
        exact admits_of_onGrid? found
      · refine ih ?_
        rwa [show p - 1 - (grids : Int) = p - (grids + 1 : Nat) by omega]

/-- **The shortest decimal is near its number.** -/
theorem near_shortest (canonical : x.Canonical) (nonzero : 0 < x.mantissa) (tie : Tie) :
    x.Near ((x.shortest tie).digits * 10 ^ (x.shortest tie).exponent) := by
  have positive : 0 < x.num := Nat.mul_pos nonzero (Nat.two_pow_pos _)
  have fine : (10 : ℚ) ^ (magnitude x.num x.den - 1 - (16 : Nat)) * 10 ^ 16 ≤
      x.mantissa * 2 ^ x.exponent := by
    have leading := le_of_magnitude positive x.den_pos
    rw [num_div_den] at leading
    rw [zpow_sub₀ (by norm_num), zpow_natCast, div_mul_cancel₀ _ (by norm_num)]
    exact leading
  have hit : (onGrid? tie x _).isSome := onGrid?_isSome.mpr (exists_admits canonical nonzero fine)
  exact (admits_iff nonzero).mp (admits_search hit)

/-- **What is written near a number is read as it.** -/
theorem ofDecimal?_eq_some (canonical : x.Canonical) (nonzero : 0 < x.mantissa)
    (near : x.Near (c * 10 ^ p)) (negative : Bool) :
    ofDecimal? negative c p = some (x.withSign negative) := by
  unfold ofDecimal?
  split
  · rename_i above
    obtain ⟨n, rfl⟩ := Int.eq_ofNat_of_zero_le above
    refine ofRatio?_eq_some canonical nonzero Nat.one_pos ?_ negative
    rwa [Int.toNat_natCast, Nat.cast_mul, cast_tenTo, Nat.cast_one, div_one, ← zpow_natCast]
  · rename_i below
    obtain ⟨n, rfl⟩ := Int.exists_eq_neg_ofNat (show p ≤ 0 by omega)
    refine ofRatio?_eq_some canonical nonzero (Nat.pow_pos (by decide)) ?_ negative
    rw [neg_neg, Int.toNat_natCast]
    show x.Near (c / (tenTo n : Nat))
    rwa [cast_tenTo, div_eq_mul_inv, ← zpow_natCast, ← zpow_neg]

/-! ## Signs -/

theorem search_withSign (tie : Tie) (x : Binary64) (negative : Bool) (grids : Nat) (p : Int) :
    search tie (x.withSign negative) grids p = search tie x grids p := by
  induction grids generalizing p with
  | zero => rfl
  | succ grids ih =>
      have same : onGrid? tie (x.withSign negative) p = onGrid? tie x p := rfl
      rw [search, search, same]
      split
      · rfl
      · exact ih (p - 1)

end Binary64

/-- **The text of a negative number** is a minus and the text of its opposite. -/
theorem render_of_negative {layout : Layout} {x : Binary64} (negative : x.negative = true) :
    (render layout x).toList = '-' :: (render layout (x.withSign false)).toList := by
  have digits : (x.withSign false).shortest layout.tie = x.shortest layout.tie :=
    Binary64.search_withSign ..
  have zero : (x.withSign false).isZero = x.isZero := rfl
  rw [render, render, digits, zero, negative]
  split
  · simp
  · simp

end ClientGen.Decimal
