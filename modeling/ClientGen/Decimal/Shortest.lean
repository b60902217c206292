import ClientGen.Decimal.Binary64

/-!
# The shortest decimal of a number

Among the decimals that read back as a given number, the ones with the fewest digits are
the shortest, and of those the nearest to the number is chosen.

* `Digits` — a decimal as an integer times a power of ten.
* `shortest` — the shortest decimal of a positive number.
* `Layout`, `render` — how a number is written: positionally or with an exponent.

**How it is found.** The reals that round to a number form an interval, whose ends belong to it iff
the mantissa is even. For one digit, two digits and so on, the two neighbours of the number on the
grid of decimals with that many digits are tested; the first grid with a neighbour inside wins.
Seventeen digits always suffice.
-/

namespace ClientGen.Decimal

/-- **A decimal**: `digits · 10 ^ exponent`. -/
structure Digits where
  /-- The digits, read as an integer. -/
  digits : Nat
  /-- The place of the last digit. -/
  exponent : Int
  deriving DecidableEq, Repr

/-- Which of two equally near decimals is taken. -/
inductive Tie where
  /-- The one whose last digit is even. -/
  | even
  /-- The greater one. -/
  | up
  deriving DecidableEq, Repr

/-- The number of decimal digits of a positive number. -/
def digitCount (n : Nat) : Nat :=
  (Nat.toDigits 10 n).length

/-- The `k` for which a positive quotient lies in `[10 ^ (k - 1), 10 ^ k)`. -/
def magnitude (num den : Nat) : Int :=
  if den ≤ num then (digitCount (num / den) : Int)
  else
    let d := digitCount (den / num)
    if den ≤ num * tenTo (d - 1) then 2 - (d : Int) else 1 - (d : Int)

/-- Compare a quotient with `c · 10 ^ p`. -/
def compareDecimal (num den c : Nat) (p : Int) : Ordering :=
  if 0 ≤ p then compare num (c * tenTo p.toNat * den)
  else compare (num * tenTo (-p).toNat) (c * den)

namespace Binary64

/-- The lower end of the interval of reals that round to a positive number. -/
def lowerEnd (x : Binary64) : Nat × Nat :=
  let gap := if x.mantissa = twoTo 52 ∧ -1074 < x.exponent then 1 else 2
  ((4 * x.mantissa - gap) * twoTo (x.exponent - 2).toNat, twoTo (2 - x.exponent).toNat)

/-- The upper end of that interval. -/
def upperEnd (x : Binary64) : Nat × Nat :=
  ((4 * x.mantissa + 2) * twoTo (x.exponent - 2).toNat, twoTo (2 - x.exponent).toNat)

/-- Whether `c · 10 ^ p` rounds to a positive number. -/
def admits (x : Binary64) (c : Nat) (p : Int) : Bool :=
  let closed := x.mantissa % 2 == 0
  let low := compareDecimal x.lowerEnd.1 x.lowerEnd.2 c p
  let high := compareDecimal x.upperEnd.1 x.upperEnd.2 c p
  (low == .lt || (closed && low == .eq)) && (high == .gt || (closed && high == .eq))

/-- The neighbour below a number on the grid of multiples of `10 ^ p`. -/
def below (x : Binary64) (p : Int) : Nat :=
  if 0 ≤ p then x.num / (x.den * tenTo p.toNat) else x.num * tenTo (-p).toNat / x.den

/-- Of the neighbours `c` and `c + 1` on a grid the nearer one. -/
def nearer (tie : Tie) (x : Binary64) (c : Nat) (p : Int) : Nat :=
  match compareDecimal (2 * x.num) x.den (2 * c + 1) p with
  | .lt => c
  | .gt => c + 1
  | .eq => match tie with
    | .up => c + 1
    | .even => if c % 2 = 0 then c else c + 1

/-- The neighbour on one grid that rounds to the number, if there is one. -/
def onGrid? (tie : Tie) (x : Binary64) (p : Int) : Option Nat :=
  let c := x.below p
  match x.admits c p, x.admits (c + 1) p with
  | true, true => some (nearer tie x c p)
  | true, false => some c
  | false, true => some (c + 1)
  | false, false => none

/-- The first hit among grids of fewer and fewer places, from the place `p` downwards. -/
def search (tie : Tie) (x : Binary64) : (grids : Nat) → (p : Int) → Digits
  | 0, p => ⟨x.below p, p⟩
  | grids + 1, p =>
    match onGrid? tie x p with
    | some c => ⟨c, p⟩
    | none => search tie x grids (p - 1)

/-- **The shortest decimal of a positive number.** -/
def shortest (tie : Tie) (x : Binary64) : Digits :=
  search tie x 17 (magnitude x.num x.den - 1)

end Binary64

/-- **How numbers are written.** -/
structure Layout where
  /-- Which of two equally near decimals is taken. -/
  tie : Tie
  /-- The exponents, of the first digit, that are written positionally; all if there is none. -/
  positional : Option (Int × Int)
  /-- Whether an integer is followed by a point and a zero in positional notation. -/
  keepsPoint : Bool
  deriving DecidableEq, Repr

/-- A positional text of digits of which `point` stand before the decimal point. -/
def positionalText (keepsPoint : Bool) (ds : List Char) (point : Int) : List Char :=
  if point ≤ 0 then ['0', '.'] ++ List.replicate (-point).toNat '0' ++ ds
  else
    let whole := ds.take point.toNat
    let fraction := ds.drop point.toNat
    let whole := whole ++ List.replicate (point.toNat - ds.length) '0'
    if fraction.isEmpty then whole ++ (if keepsPoint then ['.', '0'] else [])
    else whole ++ '.' :: fraction

/-- A text with an exponent, whose sign is always written. -/
def exponentText (ds : List Char) (exponent : Int) : List Char :=
  let sign := if 0 ≤ exponent then '+' else '-'
  let power := Nat.toDigits 10 exponent.natAbs
  match ds with
  | [] => []
  | [d] => d :: 'e' :: sign :: power
  | d :: fraction => d :: '.' :: fraction ++ 'e' :: sign :: power

/-- The digits of a decimal without zeros at the end, and how many stand before the point. -/
def significant (d : Digits) : List Char × Int :=
  let ds := Nat.toDigits 10 d.digits
  ((ds.reverse.dropWhile (· == '0')).reverse, ds.length + d.exponent)

/-- **The text of a number.** -/
def render (layout : Layout) (x : Binary64) : String :=
  let sign := if x.negative then ['-'] else []
  if x.isZero then String.ofList (sign ++ if layout.keepsPoint then "0.0".toList else ['0'])
  else
    let (ds, point) := significant (x.shortest layout.tie)
    let positional := match layout.positional with
      | some (low, high) => decide (low ≤ point - 1) && decide (point - 1 ≤ high)
      | none => true
    String.ofList (sign ++
      if positional then positionalText layout.keepsPoint ds point else exponentText ds (point - 1))

end ClientGen.Decimal
