/-!
# Binary floating point of sixty-four bits

Finite numbers of the format *binary64*, in exact arithmetic on natural numbers.

* `twoTo`, `tenTo` — powers of natural numbers: the scales of binary numbers and of decimals.
* `Binary64` — sign, mantissa and exponent of a finite number.
* `Binary64.ofRatio?` — the number nearest to a quotient, `none` beyond the greatest finite number.
* `Binary64.mul?`, `Binary64.div?` — product and quotient, each rounded once.
* `Binary64.sameValue` — equality of values, where the two zeros are equal.

**Rounding** is to the nearest number, and half-way cases go to the even mantissa. The exponent is
chosen so that the mantissa has fifty-three bits, unless that exponent would lie below `-1074`.
-/

namespace ClientGen

/-- **A power of two.** -/
abbrev twoTo (exponent : Nat) : Nat :=
  Nat.pow 2 exponent

/-- **A power of ten.** -/
abbrev tenTo (exponent : Nat) : Nat :=
  Nat.pow 10 exponent

end ClientGen

namespace ClientGen.Decimal

/-- **A finite number**: `± mantissa · 2 ^ exponent`. -/
structure Binary64 where
  /-- Whether the sign is minus; zero has both signs. -/
  negative : Bool
  /-- At most fifty-three bits. -/
  mantissa : Nat
  /-- At least `-1074`. -/
  exponent : Int
  deriving DecidableEq, Repr, Inhabited

/-- A quotient rounded to the nearest integer, half-way cases to the even one. -/
def roundedQuotient (num den : Nat) : Nat :=
  let q := num / den
  let twice := 2 * (num % den)
  if twice < den then q
  else if den < twice then q + 1
  else if q % 2 = 0 then q else q + 1

/-- Numerator and denominator of `num / den / 2 ^ e`. -/
def unscaled (num den : Nat) (e : Int) : Nat × Nat :=
  if 0 ≤ e then (num, den * twoTo e.toNat) else (num * twoTo (-e).toNat, den)

namespace Binary64

/-- Zero with a sign. -/
def zero (negative : Bool) : Binary64 :=
  ⟨negative, 0, -1074⟩

/-- Zero of either sign. -/
def isZero (x : Binary64) : Bool :=
  x.mantissa == 0

/-- The exponent for which a positive quotient has a mantissa of fifty-three bits. -/
def normalExponent (num den : Nat) : Int :=
  let e := (num.log2 : Int) - den.log2 - 53
  let (n, d) := unscaled num den e
  if d * twoTo 53 ≤ n then e + 1 else e

/-- **The nearest number to a quotient**, or `none` if it lies beyond the finite numbers. -/
def ofRatio? (negative : Bool) (num den : Nat) : Option Binary64 :=
  if num = 0 then some (zero negative)
  else
    let e := max (normalExponent num den) (-1074)
    let (n, d) := unscaled num den e
    let m := roundedQuotient n d
    let (m, e) := if m = twoTo 53 then (twoTo 52, e + 1) else (m, e)
    if 971 < e then none else some ⟨negative, m, e⟩

/-- The nearest number to a natural number. -/
def ofNat? (negative : Bool) (n : Nat) : Option Binary64 :=
  ofRatio? negative n 1

/-- Numerator of the absolute value. -/
def num (x : Binary64) : Nat :=
  x.mantissa * twoTo x.exponent.toNat

/-- Denominator of the absolute value. -/
def den (x : Binary64) : Nat :=
  twoTo (-x.exponent).toNat

/-- The product, rounded. -/
def mul? (x y : Binary64) : Option Binary64 :=
  ofRatio? (x.negative != y.negative) (x.num * y.num) (x.den * y.den)

/-- The quotient by a number other than zero, rounded. -/
def div? (x y : Binary64) : Option Binary64 :=
  ofRatio? (x.negative != y.negative) (x.num * y.den) (x.den * y.num)

/-- The same number with a chosen sign. -/
def withSign (negative : Bool) (x : Binary64) : Binary64 :=
  { x with negative }

/-- **Equality of values**: the two zeros are equal, all other numbers differ from each other. -/
def sameValue (x y : Binary64) : Bool :=
  (x.isZero && y.isZero) || x == y

/-- The nearest number to `digits · 10 ^ exponent`. -/
def ofDecimal? (negative : Bool) (digits : Nat) (exponent : Int) : Option Binary64 :=
  if 0 ≤ exponent then ofRatio? negative (digits * tenTo exponent.toNat) 1
  else ofRatio? negative digits (tenTo (-exponent).toNat)

@[simp] theorem withSign_negative (negative : Bool) (x : Binary64) :
    (x.withSign negative).negative = negative := rfl

end Binary64

end ClientGen.Decimal
