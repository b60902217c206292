import ClientGen.Decimal.Binary64
import Mathlib.Algebra.Order.Field.Power
import Mathlib.Data.Rat.Cast.Order
import Mathlib.Tactic.FieldSimp
import Mathlib.Tactic.Linarith
import Mathlib.Tactic.NormNum
import Mathlib.Tactic.Ring

/-!
# The nearest number to a quotient

Rounding is correct where it matters for reading back: every rational in the interval around a
number is rounded to that number. The interval reaches half-way to the neighbours, and its ends
belong to it if the mantissa is even. Below a power of two the neighbours are twice as dense, so
there the interval ends earlier.

* `Binary64.Canonical` — the numbers of the format.
* `Binary64.Near` — the interval around a number.
* `roundedQuotient_eq` — the nearest integer, half-way cases to the even one.
* `Binary64.normalExponent_bounds` — the binade of a quotient.
* `Binary64.ofRatio?_eq_some` — what is near a number is rounded to it.
* `Binary64.canonical_of_ofRatio?` — rounding gives numbers of the format.
* `Binary64.exists_ofNat?` — a natural number of at most sixty-four bits has a nearest number.
-/

namespace ClientGen.Decimal

/-! ## Powers of two -/

theorem cast_twoTo (n : Nat) : ((twoTo n : Nat) : ℚ) = 2 ^ n := by
  show ((2 ^ n : Nat) : ℚ) = 2 ^ n
  push_cast
  rfl

theorem two_zpow_add (e : Int) (k : Nat) : (2 : ℚ) ^ (e + k) = 2 ^ k * 2 ^ e := by
  rw [zpow_add₀ two_ne_zero, zpow_natCast, mul_comm]

theorem unscaled_snd_pos {num den : Nat} (positive : 0 < den) (e : Int) :
    0 < (unscaled num den e).2 := by
  unfold unscaled
  split
  · exact Nat.mul_pos positive (Nat.two_pow_pos _)
  · exact positive

/-- Taking a power of two out of a quotient divides by it. -/
theorem unscaled_div (num den : Nat) (e : Int) :
    ((unscaled num den e).1 : ℚ) / (unscaled num den e).2 = num / den / 2 ^ e := by
  unfold unscaled
  split
  · rename_i above
    obtain ⟨n, rfl⟩ := Int.eq_ofNat_of_zero_le above
    rw [Int.toNat_natCast, Nat.cast_mul, cast_twoTo, zpow_natCast, div_mul_eq_div_div]
  · rename_i below
    obtain ⟨n, rfl⟩ := Int.exists_eq_neg_ofNat (show e ≤ 0 by omega)
    rw [neg_neg, Int.toNat_natCast, Nat.cast_mul, cast_twoTo, zpow_neg, zpow_natCast,
      div_inv_eq_mul, mul_div_right_comm]

/-! ## The nearest integer -/

/-- **A quotient is rounded to the integer it is at most one half away from**; an odd integer has to
be nearer than that. -/
theorem roundedQuotient_eq {n d m : Nat} (positive : 0 < d) (lower : (m : ℚ) - 1 / 2 ≤ n / d)
    (upper : (n : ℚ) / d ≤ m + 1 / 2)
    (inside : m % 2 = 0 ∨ ((m : ℚ) - 1 / 2 < n / d ∧ (n : ℚ) / d < m + 1 / 2)) :
    roundedQuotient n d = m := by
  have divisor : (0 : ℚ) < d := Nat.cast_pos.mpr positive
  -- the bounds without fractions, and strict ones for an odd integer
  have lower : 2 * (d * m) ≤ 2 * n + d := by
    rw [le_div_iff₀ divisor] at lower
    have : (2 * (d * m) : ℚ) ≤ 2 * n + d := by linarith
    exact_mod_cast this
  have upper : 2 * n ≤ 2 * (d * m) + d := by
    rw [div_le_iff₀ divisor] at upper
    have : (2 * n : ℚ) ≤ 2 * (d * m) + d := by linarith
    exact_mod_cast this
  have inside : m % 2 = 0 ∨ (2 * (d * m) < 2 * n + d ∧ 2 * n < 2 * (d * m) + d) := by
    refine inside.imp_right fun ⟨above, below⟩ => ⟨?_, ?_⟩
    · rw [lt_div_iff₀ divisor] at above
      have : (2 * (d * m) : ℚ) < 2 * n + d := by linarith
      exact_mod_cast this
    · rw [div_lt_iff₀ divisor] at below
      have : (2 * n : ℚ) < 2 * (d * m) + d := by linarith
      exact_mod_cast this
  have parts : d * (n / d) + n % d = n := Nat.div_add_mod n d
  have rest : n % d < d := Nat.mod_lt n positive
  unfold roundedQuotient
  generalize n / d = q at parts ⊢
  generalize n % d = r at parts rest ⊢
  rcases Nat.lt_trichotomy q m with less | rfl | more
  · obtain ⟨j, rfl⟩ := Nat.exists_eq_add_of_lt less
    have product : d * (q + j + 1) = d * q + d * j + d := by ring
    have next : j = 0 := by
      by_contra further
      have : d * 1 ≤ d * j := Nat.mul_le_mul_left d (Nat.pos_of_ne_zero further)
      omega
    subst next
    simp only
    split_ifs <;> omega
  · simp only
    split_ifs <;> omega
  · obtain ⟨j, rfl⟩ := Nat.exists_eq_add_of_lt more
    have product : d * (m + j + 1) = d * m + d * j + d := by ring
    omega

namespace Binary64

/-! ## Binades -/

/-- **A quotient has fifty-three bits before the point** once its normal exponent is taken out. -/
theorem normalExponent_bounds {num den : Nat} (positive : 0 < num) (divisor : 0 < den) :
    (2 : ℚ) ^ (normalExponent num den + 52) ≤ num / den ∧
      (num : ℚ) / den < 2 ^ (normalExponent num den + 53) := by
  have nonzero : (2 : ℚ) ≠ 0 := two_ne_zero
  have numLow : (2 : ℚ) ^ (num.log2 : Int) ≤ num := by
    exact_mod_cast Nat.log2_self_le positive.ne'
  have numHigh : (num : ℚ) < 2 ^ (num.log2 : Int) * 2 := by
    have bound : num < 2 ^ (num.log2 + 1) := Nat.lt_log2_self
    rw [pow_succ] at bound
    exact_mod_cast bound
  have denLow : (2 : ℚ) ^ (den.log2 : Int) ≤ den := by
    exact_mod_cast Nat.log2_self_le divisor.ne'
  have denHigh : (den : ℚ) < 2 ^ (den.log2 : Int) * 2 := by
    have bound : den < 2 ^ (den.log2 + 1) := Nat.lt_log2_self
    rw [pow_succ] at bound
    exact_mod_cast bound
  have denPos : (0 : ℚ) < den := Nat.cast_pos.mpr divisor
  have scale : (0 : ℚ) < 2 ^ (den.log2 : Int) := zpow_pos two_pos _
  -- the logarithms give two binades, and one comparison decides between them
  have low : (2 : ℚ) ^ ((num.log2 : Int) - den.log2 - 53 + 52) ≤ num / den := by
    rw [show (num.log2 : Int) - den.log2 - 53 + 52 = num.log2 - (den.log2 + 1) by ring,
      zpow_sub₀ nonzero, zpow_add_one₀ nonzero, div_le_div_iff₀ (by positivity) denPos]
    nlinarith
  have high : (num : ℚ) / den < 2 ^ ((num.log2 : Int) - den.log2 - 53 + 54) := by
    rw [show (num.log2 : Int) - den.log2 - 53 + 54 = num.log2 + 1 - den.log2 by ring,
      zpow_sub₀ nonzero, zpow_add_one₀ nonzero, div_lt_div_iff₀ denPos scale]
    nlinarith
  unfold normalExponent
  generalize (num.log2 : Int) - den.log2 - 53 = e at low high ⊢
  have unit : (0 : ℚ) < 2 ^ e := zpow_pos two_pos _
  have bits : (2 : ℚ) ^ (e + 53) = 2 ^ 53 * 2 ^ e := two_zpow_add e 53
  have decided : (unscaled num den e).2 * twoTo 53 ≤ (unscaled num den e).1 ↔
      (2 : ℚ) ^ (e + 53) ≤ num / den := by
    have below : (0 : ℚ) < (unscaled num den e).2 :=
      Nat.cast_pos.mpr (unscaled_snd_pos divisor e)
    rw [bits, ← le_div_iff₀ unit, ← unscaled_div, le_div_iff₀ below, mul_comm,
      ← Nat.cast_le (α := ℚ), Nat.cast_mul, cast_twoTo]
  simp only [decided]
  split
  · rename_i more
    rw [show e + 1 + 52 = e + 53 by ring, show e + 1 + 53 = e + 54 by ring]
    exact ⟨more, high⟩
  · rename_i less
    exact ⟨low, not_le.mp less⟩

/-! ## Numbers and the intervals around them -/

/-- **A number of the format.** The mantissa has fifty-three bits unless the exponent is the least
one. -/
structure Canonical (x : Binary64) : Prop where
  /-- The mantissa is not longer. -/
  short : x.mantissa < 2 ^ 53
  /-- The exponent is not below the least one. -/
  least : -1074 ≤ x.exponent
  /-- The exponent is not above the greatest one. -/
  greatest : x.exponent ≤ 971
  /-- The mantissa is not shorter. -/
  leading : 2 ^ 52 ≤ x.mantissa ∨ x.exponent = -1074

/-- How far the interval around a number reaches below it, in units of the last place. -/
def gap (x : Binary64) : ℚ :=
  if x.mantissa = 2 ^ 52 ∧ -1074 < x.exponent then 1 / 4 else 1 / 2

/-- **A rational in the interval around a positive number.** The ends belong to it if the mantissa
is even. -/
structure Near (x : Binary64) (v : ℚ) : Prop where
  /-- Not below the interval. -/
  lower : (x.mantissa - x.gap) * 2 ^ x.exponent ≤ v
  /-- Not above the interval. -/
  upper : v ≤ (x.mantissa + 1 / 2) * 2 ^ x.exponent
  /-- Not at an end that does not belong to it. -/
  inside : x.mantissa % 2 = 0 ∨
    ((x.mantissa - x.gap) * 2 ^ x.exponent < v ∧ v < (x.mantissa + 1 / 2) * 2 ^ x.exponent)

theorem gap_le (x : Binary64) : x.gap ≤ 1 / 2 := by
  unfold gap
  split <;> norm_num

variable {x : Binary64} {v : ℚ}

theorem Near.positive (near : x.Near v) (nonzero : 0 < x.mantissa) : 0 < v := by
  refine lt_of_lt_of_le (mul_pos ?_ (zpow_pos two_pos _)) near.lower
  have one : (1 : ℚ) ≤ x.mantissa := by exact_mod_cast nonzero
  linarith [x.gap_le]

/-! ## What is rounded to a number -/

variable {num den m : Nat} {e : Int}

/-- A quotient in units of a power of two is rounded to the integer it is at most one half away
from. -/
theorem roundedQuotient_unscaled (divisor : 0 < den)
    (lower : ((m : ℚ) - 1 / 2) * 2 ^ e ≤ num / den) (upper : (num : ℚ) / den ≤ (m + 1 / 2) * 2 ^ e)
    (inside : m % 2 = 0 ∨
      (((m : ℚ) - 1 / 2) * 2 ^ e < num / den ∧ (num : ℚ) / den < (m + 1 / 2) * 2 ^ e)) :
    roundedQuotient (unscaled num den e).1 (unscaled num den e).2 = m := by
  have unit : (0 : ℚ) < 2 ^ e := zpow_pos two_pos _
  refine roundedQuotient_eq (unscaled_snd_pos divisor e) ?_ ?_ ?_
  · rwa [unscaled_div, le_div_iff₀ unit]
  · rwa [unscaled_div, div_le_iff₀ unit]
  · rwa [unscaled_div, lt_div_iff₀ unit, div_lt_iff₀ unit]

/-- Rounding, once the exponent and the mantissa are known: a mantissa that has become one bit too
long is carried over into the exponent. -/
theorem ofRatio?_of_rounded (nonzero : num ≠ 0)
    (exponent : max (normalExponent num den) (-1074) = e)
    (rounded : roundedQuotient (unscaled num den e).1 (unscaled num den e).2 = m)
    (negative : Bool) :
    ofRatio? negative num den =
      if m = twoTo 53 then
        if 971 < e + 1 then none else some ⟨negative, twoTo 52, e + 1⟩
      else if 971 < e then none else some ⟨negative, m, e⟩ := by
  unfold ofRatio?
  rw [if_neg nonzero]
  extract_lets chosen
  obtain rfl : e = chosen := exponent.symm
  clear_value chosen
  generalize unscaled num den chosen = parts at rounded ⊢
  obtain ⟨n, d⟩ := parts
  obtain rfl : roundedQuotient n d = m := rounded
  by_cases carried : roundedQuotient n d = twoTo 53
  · simp only [if_pos carried]
  · simp only [if_neg carried]

/-- Half-way to the next number is still below the next power of two. -/
theorem normalExponent_le (canonical : x.Canonical) (positive : 0 < num) (divisor : 0 < den)
    (near : x.Near (num / den)) : normalExponent num den ≤ x.exponent := by
  have bits : (2 : ℚ) ^ (x.exponent + 53) = 2 ^ 53 * 2 ^ x.exponent := two_zpow_add x.exponent 53
  have short : (x.mantissa : ℚ) + 1 ≤ 2 ^ 53 := by exact_mod_cast canonical.short
  have below : (2 : ℚ) ^ (normalExponent num den + 52) < 2 ^ (x.exponent + 53) := by
    rw [bits]
    refine lt_of_le_of_lt ((normalExponent_bounds positive divisor).1.trans near.upper) ?_
    refine mul_lt_mul_of_pos_right ?_ (zpow_pos two_pos _)
    linarith
  have := (zpow_lt_zpow_iff_right₀ (one_lt_two (α := ℚ))).mp below
  omega

/-- Half-way to the number before a long mantissa is above the power of two before. -/
theorem le_normalExponent (long : 2 ^ 52 ≤ x.mantissa) (positive : 0 < num) (divisor : 0 < den)
    (near : x.Near (num / den)) : x.exponent - 1 ≤ normalExponent num den := by
  have bits : (2 : ℚ) ^ (x.exponent + 51) = 2 ^ 51 * 2 ^ x.exponent := two_zpow_add x.exponent 51
  have long : (2 : ℚ) ^ 52 ≤ x.mantissa := by exact_mod_cast long
  have below : (2 : ℚ) ^ (x.exponent + 51) < 2 ^ (normalExponent num den + 53) := by
    rw [bits]
    refine lt_of_lt_of_le ?_ (near.lower.trans (normalExponent_bounds positive divisor).2.le)
    refine mul_lt_mul_of_pos_right ?_ (zpow_pos two_pos _)
    linarith [x.gap_le]
  have := (zpow_lt_zpow_iff_right₀ (one_lt_two (α := ℚ))).mp below
  omega

/-- What is near a number and rounded with its exponent is rounded to it. -/
theorem ofRatio?_of_exponent (canonical : x.Canonical) (nonzero : num ≠ 0) (divisor : 0 < den)
    (near : x.Near (num / den)) (exponent : max (normalExponent num den) (-1074) = x.exponent)
    (negative : Bool) : ofRatio? negative num den = some (x.withSign negative) := by
  have lower : ((x.mantissa : ℚ) - 1 / 2) * 2 ^ x.exponent ≤
      (x.mantissa - x.gap) * 2 ^ x.exponent :=
    mul_le_mul_of_nonneg_right (sub_le_sub_left x.gap_le _) (zpow_pos two_pos _).le
  have rounded := roundedQuotient_unscaled divisor (lower.trans near.lower) near.upper
    (near.inside.imp_right fun inside => ⟨lower.trans_lt inside.1, inside.2⟩)
  have notCarried : x.mantissa ≠ twoTo 53 := canonical.short.ne
  rw [ofRatio?_of_rounded nonzero exponent rounded, if_neg notCarried,
    if_neg (not_lt.mpr canonical.greatest)]
  rfl

/-- **Below a power of two** the exponent is one less, and rounding carries one bit over. -/
theorem ofRatio?_of_carried (canonical : x.Canonical) (positive : 0 < num) (divisor : 0 < den)
    (near : x.Near (num / den)) (long : 2 ^ 52 ≤ x.mantissa) (above : -1074 < x.exponent)
    (exponent : normalExponent num den = x.exponent - 1) (negative : Bool) :
    ofRatio? negative num den = some (x.withSign negative) := by
  have greatest := canonical.greatest
  obtain ⟨sign, m, e⟩ := x
  simp only at long above exponent greatest
  have unit : (0 : ℚ) < 2 ^ e := zpow_pos two_pos _
  have top : (num : ℚ) / den < 2 ^ 52 * 2 ^ e := by
    have high := (normalExponent_bounds positive divisor).2
    have bits : (2 : ℚ) ^ (e + 52) = 2 ^ 52 * 2 ^ e := two_zpow_add e 52
    rwa [exponent, show e - 1 + 53 = e + 52 by ring, bits] at high
  have power : m = 2 ^ 52 := by
    have least : ((m : ℚ) - gap ⟨sign, m, e⟩) * 2 ^ e < 2 ^ 52 * 2 ^ e := near.lower.trans_lt top
    have below := lt_of_mul_lt_mul_right least unit.le
    have next : (m : ℚ) < 2 ^ 52 + 1 := by linarith [gap_le ⟨sign, m, e⟩]
    have : m < 2 ^ 52 + 1 := by exact_mod_cast next
    omega
  have bottom : ((2 : ℚ) ^ 52 - 1 / 4) * 2 ^ e ≤ num / den := by
    have reach : gap ⟨sign, m, e⟩ = 1 / 4 := if_pos ⟨power, above⟩
    have lower : ((m : ℚ) - gap ⟨sign, m, e⟩) * 2 ^ e ≤ num / den := near.lower
    have same : (m : ℚ) = 2 ^ 52 := by exact_mod_cast power
    rwa [reach, same] at lower
  -- in units of the smaller exponent the quotient lies just below fifty-four bits
  have half : (2 : ℚ) ^ (e - 1) * 2 = 2 ^ e := by
    rw [zpow_sub_one₀ two_ne_zero, inv_mul_cancel_right₀ two_ne_zero]
  have carried : roundedQuotient (unscaled num den (e - 1)).1 (unscaled num den (e - 1)).2 =
      twoTo 53 := by
    refine roundedQuotient_unscaled divisor ?_ ?_ (.inl rfl)
    · rw [cast_twoTo]
      rw [← half] at bottom
      linarith
    · have smaller : (0 : ℚ) < 2 ^ (e - 1) := zpow_pos two_pos _
      rw [cast_twoTo]
      rw [← half] at top
      linarith
  rw [ofRatio?_of_rounded positive.ne' (by omega) carried, if_pos rfl, Int.sub_add_cancel,
    if_neg (not_lt.mpr greatest), power]
  rfl

/-- **What is near a number is rounded to it.** -/
theorem ofRatio?_eq_some (canonical : x.Canonical) (nonzero : 0 < x.mantissa) (divisor : 0 < den)
    (near : x.Near (num / den)) (negative : Bool) :
    ofRatio? negative num den = some (x.withSign negative) := by
  have positive : 0 < num := by
    have quotient := near.positive nonzero
    by_contra zero
    obtain rfl : num = 0 := by omega
    rw [Nat.cast_zero, zero_div] at quotient
    exact lt_irrefl _ quotient
  have least := canonical.least
  have notAbove := normalExponent_le canonical positive divisor near
  by_cases own : max (normalExponent num den) (-1074) = x.exponent
  · exact ofRatio?_of_exponent canonical positive.ne' divisor near own negative
  · have long : 2 ^ 52 ≤ x.mantissa := canonical.leading.resolve_right (by omega)
    have notFarBelow := le_normalExponent long positive divisor near
    exact ofRatio?_of_carried canonical positive divisor near long (by omega) (by omega) negative

/-! ## The numbers that rounding gives -/

/-- Rounding to an integer does not pass over another integer. -/
theorem roundedQuotient_bounds {n d low high : Nat} (positive : 0 < d) (lower : low * d ≤ n)
    (upper : n < high * d) : low ≤ roundedQuotient n d ∧ roundedQuotient n d ≤ high := by
  have least : low ≤ n / d := (Nat.le_div_iff_mul_le positive).mpr lower
  have greatest : n / d < high := (Nat.div_lt_iff_lt_mul positive).mpr upper
  unfold roundedQuotient
  simp only
  split_ifs <;> omega

/-- The mantissa is at most one bit too long, and not too short unless the exponent is the least
one. -/
theorem mantissa_bounds (positive : 0 < num) (divisor : 0 < den)
    (exponent : max (normalExponent num den) (-1074) = e)
    (rounded : roundedQuotient (unscaled num den e).1 (unscaled num den e).2 = m) :
    m ≤ 2 ^ 53 ∧ (2 ^ 52 ≤ m ∨ e = -1074) := by
  obtain ⟨low, high⟩ := normalExponent_bounds positive divisor
  have unit : (0 : ℚ) < 2 ^ e := zpow_pos two_pos _
  have below : 0 < (unscaled num den e).2 := unscaled_snd_pos divisor e
  have belowQ : (0 : ℚ) < (unscaled num den e).2 := Nat.cast_pos.mpr below
  have upper : (unscaled num den e).1 < 2 ^ 53 * (unscaled num den e).2 := by
    have bits : (2 : ℚ) ^ (e + 53) = 2 ^ 53 * 2 ^ e := two_zpow_add e 53
    have larger : (2 : ℚ) ^ (normalExponent num den + 53) ≤ 2 ^ (e + 53) :=
      zpow_le_zpow_right₀ one_le_two (by omega)
    have quotient : (num : ℚ) / den < 2 ^ 53 * 2 ^ e := bits ▸ high.trans_le larger
    rw [← div_lt_iff₀ unit, ← unscaled_div, div_lt_iff₀ belowQ] at quotient
    exact_mod_cast quotient
  rcases eq_or_ne e (-1074) with least | above
  · have nonneg : 0 * (unscaled num den e).2 ≤ (unscaled num den e).1 := by omega
    have bounds := roundedQuotient_bounds below nonneg upper
    rw [rounded] at bounds
    exact ⟨bounds.2, .inr least⟩
  · have own : normalExponent num den = e := by omega
    have lower : 2 ^ 52 * (unscaled num den e).2 ≤ (unscaled num den e).1 := by
      have bits : (2 : ℚ) ^ (e + 52) = 2 ^ 52 * 2 ^ e := two_zpow_add e 52
      rw [own, bits, ← le_div_iff₀ unit, ← unscaled_div, le_div_iff₀ belowQ] at low
      exact_mod_cast low
    have bounds := roundedQuotient_bounds below lower upper
    rw [rounded] at bounds
    exact ⟨bounds.2, .inl bounds.1⟩

theorem canonical_zero (negative : Bool) : (zero negative).Canonical := by
  refine ⟨Nat.two_pow_pos 53, le_refl _, ?_, .inr rfl⟩
  show (-1074 : Int) ≤ 971
  decide

/-- **Rounding gives numbers of the format.** -/
theorem canonical_of_ofRatio? {negative : Bool} (divisor : 0 < den)
    (found : ofRatio? negative num den = some x) : x.Canonical := by
  rcases Nat.eq_zero_or_pos num with rfl | positive
  · obtain rfl := Option.some.inj found
    exact canonical_zero negative
  · obtain ⟨long, leading⟩ := mantissa_bounds positive divisor rfl rfl
    rw [ofRatio?_of_rounded positive.ne' rfl rfl] at found
    split at found
    · split at found
      · cases found
      · rename_i greatest
        obtain rfl := Option.some.inj found
        have short : 2 ^ 52 < 2 ^ 53 := Nat.pow_lt_pow_right (by decide) (by decide)
        exact ⟨short, by simp only; omega, by simp only; omega, .inl (Nat.le_refl _)⟩
    · rename_i notCarried
      split at found
      · cases found
      · rename_i greatest
        obtain rfl := Option.some.inj found
        exact ⟨lt_of_le_of_ne long notCarried, le_max_right _ _, not_lt.mp greatest, leading⟩

/-- Rounding keeps the sign. -/
theorem negative_of_ofRatio? {negative : Bool} (found : ofRatio? negative num den = some x) :
    x.negative = negative := by
  rcases eq_or_ne num 0 with rfl | nonzero
  · obtain rfl := Option.some.inj found
    rfl
  · rw [ofRatio?_of_rounded nonzero rfl rfl] at found
    split at found <;> split at found
    · cases found
    · obtain rfl := Option.some.inj found
      rfl
    · cases found
    · obtain rfl := Option.some.inj found
      rfl

/-- **A quotient of at most sixty-four bits is rounded to a number.** -/
theorem ofRatio?_isSome (divisor : 0 < den) (small : num < 2 ^ 64 * den) (negative : Bool) :
    (ofRatio? negative num den).isSome := by
  rcases Nat.eq_zero_or_pos num with rfl | positive
  · rfl
  · have below : (2 : ℚ) ^ (normalExponent num den + 52) < 2 ^ (64 : Int) := by
      refine lt_of_le_of_lt (normalExponent_bounds positive divisor).1 ?_
      rw [div_lt_iff₀ (Nat.cast_pos.mpr divisor), show (64 : Int) = (64 : Nat) from rfl,
        zpow_natCast]
      exact_mod_cast small
    have := (zpow_lt_zpow_iff_right₀ (one_lt_two (α := ℚ))).mp below
    rw [ofRatio?_of_rounded positive.ne' rfl rfl]
    split
    · rw [if_neg (by omega)]
      rfl
    · rw [if_neg (by omega)]
      rfl

/-- **A natural number of at most sixty-four bits has a nearest number.** -/
theorem exists_ofNat? {n : Nat} (small : n < 2 ^ 64) :
    ∃ x : Binary64, ofNat? false n = some x ∧ x.negative = false ∧ x.Canonical := by
  have fits : n < 2 ^ 64 * 1 := by omega
  obtain ⟨x, found⟩ := Option.isSome_iff_exists.mp (ofRatio?_isSome Nat.one_pos fits false)
  exact ⟨x, found, negative_of_ofRatio? found, canonical_of_ofRatio? Nat.one_pos found⟩

end Binary64

end ClientGen.Decimal
