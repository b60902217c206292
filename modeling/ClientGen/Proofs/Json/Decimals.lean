import ClientGen.Proofs.Decimal.Shortest
import ClientGen.Proofs.Json.Numerals
import ClientGen.Proofs.Text.Quoting
import Mathlib.Data.List.Induction

/-!
# Positional decimals

A numeral denotes a decimal: its digits without the point, times a power of ten. What is written
positionally denotes the decimal it was written for, so the shortest decimal of a number reads back
as the number.

* `Numeral.decimal` — the decimal that a numeral denotes, apart from its sign.
* `Numeral.nearest?` — the number nearest to it.
* `Spelled` — digits and the place of the point spell a rational; `Denotes` — so does a numeral.
* `scan_positionalText` — a positional text denotes what its digits spell.
* `nearest?_render` — a number that is written positionally is read as itself.
-/

namespace ClientGen.Json.Numeral

open Text Decimal

/-! ## The decimal of a numeral -/

/-- The power of ten that a numeral is multiplied with. -/
def exponent (numeral : Numeral) : Int :=
  match numeral.power with
  | none => 0
  | some power => if power.negative then -(natural power.digits : Int) else natural power.digits

/-- **The decimal that a numeral denotes**, apart from its sign. -/
def decimal (numeral : Numeral) : Digits :=
  let fraction := numeral.fraction.getD []
  ⟨natural (numeral.whole ++ fraction), numeral.exponent - fraction.length⟩

/-- **The number nearest to a numeral**, unless it lies beyond the finite numbers. -/
def nearest? (numeral : Numeral) : Option Binary64 :=
  Binary64.ofDecimal? numeral.negative numeral.decimal.digits numeral.decimal.exponent

/-! ## Digits -/

theorem foldl_digits (n : Nat) (ds : List Char) :
    ds.foldl (fun n c => n * 10 + digitValue c) n = n * 10 ^ ds.length + natural ds := by
  induction ds generalizing n with
  | nil => simp [natural]
  | cons d ds ih =>
      rw [natural, List.foldl_cons, List.foldl_cons, ih (n * 10 + digitValue d),
        ih (0 * 10 + digitValue d), List.length_cons]
      ring

theorem natural_append (ds es : List Char) :
    natural (ds ++ es) = natural ds * 10 ^ es.length + natural es := by
  rw [natural, List.foldl_append, foldl_digits]
  rfl

theorem natural_zeros (k : Nat) : natural (List.replicate k '0') = 0 := by
  induction k with
  | zero => rfl
  | succ k ih =>
      rw [List.replicate_succ, ← List.singleton_append, natural_append, ih]
      exact Nat.zero_mul _

theorem natural_lt {ds : List Char} (digits : ∀ c ∈ ds, isAsciiDigit c) :
    natural ds < 10 ^ ds.length := by
  induction ds using List.reverseRecOn with
  | nil => exact Nat.one_pos
  | append_singleton ds d ih =>
      have front := ih fun c member => digits c (List.mem_append_left _ member)
      have last : digitValue d < 10 := by
        have digit := digits d (List.mem_append_right _ (List.mem_singleton_self d))
        simp only [isAsciiDigit, Bool.and_eq_true, decide_eq_true_eq, Char.le_def,
          UInt32.le_iff_toNat_le] at digit
        have upper : d.toNat ≤ 57 := digit.2
        unfold digitValue
        omega
      have single : natural [d] = digitValue d := by simp [natural]
      rw [natural_append, single, List.length_append, List.length_singleton, pow_one,
        Nat.pow_succ]
      omega

/-! ## Scanning -/

/-- Digits that can stand before a point: several do not start with a zero. -/
structure Whole (ds : List Char) : Prop where
  /-- Only digits. -/
  digits : ∀ c ∈ ds, isAsciiDigit c
  /-- At least one. -/
  nonempty : ds ≠ []
  /-- Several do not start with a zero. -/
  leading : ∀ c cs, ds = '0' :: c :: cs → False

variable {ds rest : List Char}

theorem Whole.scan (whole : Whole ds) (stop : ∀ c ∈ rest.head?, isAsciiDigit c = false) :
    scanWhole (ds ++ rest) = .ok (ds, rest) := by
  have taken : Numeral.digits (ds ++ rest) = ds := (run_append whole.digits stop).1
  have left : afterDigits (ds ++ rest) = rest := (run_append whole.digits stop).2
  unfold scanWhole
  rw [taken, left]
  split
  · exact absurd rfl whole.nonempty
  · exact (whole.leading _ _ rfl).elim
  · rfl

theorem Whole.scanMinus (whole : Whole ds) (rest : List Char) :
    scanMinus (ds ++ rest) = (false, ds ++ rest) := by
  obtain ⟨c, cs, rfl⟩ := List.exists_cons_of_ne_nil whole.nonempty
  have digit := whole.digits c (List.mem_cons_self ..)
  unfold Numeral.scanMinus
  split
  · rename_i same
    obtain rfl := (List.cons.inj same).1
    exact absurd digit (by decide)
  · rfl

/-- Digits alone are a numeral. -/
theorem Whole.scan_eq (whole : Whole ds) :
    Numeral.scan ds = .ok (⟨false, ds, none, none⟩, []) := by
  have minus := whole.scanMinus []
  have front := whole.scan (by simp : ∀ c ∈ ([] : List Char).head?, isAsciiDigit c = false)
  rw [List.append_nil] at minus front
  rw [scan_eq_ok_iff, minus]
  exact ⟨[], [], rfl, front, rfl, rfl⟩

/-- The parts behind digits are scanned one after the other. -/
theorem Whole.scan_parts (whole : Whole ds) {rest behind : List Char}
    {fraction : Option (List Char)} {power : Option Power}
    (stop : ∀ c ∈ rest.head?, isAsciiDigit c = false)
    (point : scanFraction rest = .ok (fraction, behind))
    (exponent : scanPower behind = .ok (power, [])) :
    Numeral.scan (ds ++ rest) = .ok (⟨false, ds, fraction, power⟩, []) := by
  rw [scan_eq_ok_iff, whole.scanMinus]
  exact ⟨rest, behind, rfl, whole.scan stop, point, exponent⟩

/-- Digits on both sides of a point are a numeral. -/
theorem Whole.scan_point (whole : Whole ds) {fraction : List Char}
    (digits : ∀ c ∈ fraction, isAsciiDigit c) (nonempty : fraction ≠ []) :
    Numeral.scan (ds ++ '.' :: fraction) = .ok (⟨false, ds, some fraction, none⟩, []) := by
  have behind : scanFraction ('.' :: fraction) = .ok (some fraction, []) := by
    have taken : Numeral.digits fraction = fraction := List.takeWhile_eq_self_iff.mpr digits
    have left : afterDigits fraction = [] := List.dropWhile_eq_nil_iff.mpr digits
    unfold scanFraction
    simp only [taken, left]
  have point : ∀ c ∈ ('.' :: fraction).head?, isAsciiDigit c = false := by
    intro c same
    obtain rfl : '.' = c := Option.some.inj same
    rfl
  exact whole.scan_parts point behind rfl

/-- A numeral without sign starts with a digit. -/
theorem exists_digit_of_scan {cs rest : List Char} {numeral : Numeral}
    (scanned : Numeral.scan cs = .ok (numeral, rest)) (unsigned : numeral.negative = false) :
    ∃ c after, cs = c :: after ∧ isAsciiDigit c := by
  obtain ⟨behind, last, sign, whole, -⟩ := scan_eq_ok_iff.mp scanned
  have plain : Numeral.scanMinus cs = (false, cs) := by
    rw [sign] at unsigned
    unfold Numeral.scanMinus at unsigned ⊢
    split at unsigned
    · cases unsigned
    · rfl
  rw [plain] at whole
  cases cs with
  | nil => cases whole
  | cons c cs =>
      refine ⟨c, cs, rfl, ?_⟩
      by_contra other
      have none : digits (c :: cs) = [] := List.takeWhile_cons_of_neg other
      rw [scanWhole, none] at whole
      cases whole

/-! ## What digits spell -/

/-- **Digits and the place of the point spell a rational.** -/
structure Spelled (ds : List Char) (point : Int) (v : ℚ) : Prop where
  /-- Only digits. -/
  digits : ∀ c ∈ ds, isAsciiDigit c
  /-- The first one is not a zero. -/
  leading : ∃ c cs, ds = c :: cs ∧ c ≠ '0'
  /-- Their value. -/
  value : (natural ds : ℚ) * 10 ^ (point - ds.length) = v

/-- Zeros at the end are left out. -/
theorem exists_zeros (ds : List Char) :
    ∃ k, ds = (ds.reverse.dropWhile (· == '0')).reverse ++ List.replicate k '0' := by
  refine ⟨(ds.reverse.takeWhile (· == '0')).length, ?_⟩
  have zeros : ds.reverse.takeWhile (· == '0') =
      List.replicate (ds.reverse.takeWhile (· == '0')).length '0' := by
    refine List.eq_replicate_of_mem fun c member => ?_
    have same : (c == '0') = true := List.mem_takeWhile_imp (p := (· == '0')) member
    exact eq_of_beq same
  rw [← List.reverse_replicate, ← zeros, ← List.reverse_append, List.takeWhile_append_dropWhile,
    List.reverse_reverse]

/-- **The significant digits of a decimal spell it.** -/
theorem spelled_significant {d : Digits} (positive : 0 < d.digits) :
    Spelled (significant d).1 (significant d).2 (d.digits * 10 ^ d.exponent) := by
  obtain ⟨k, split⟩ := exists_zeros (Nat.toDigits 10 d.digits)
  have first : (significant d).1 =
      ((Nat.toDigits 10 d.digits).reverse.dropWhile (· == '0')).reverse := rfl
  have place : (significant d).2 = (Nat.toDigits 10 d.digits).length + d.exponent := rfl
  rw [← first] at split
  rw [place]
  generalize (significant d).1 = ds at split
  have value : natural ds * 10 ^ k = d.digits := by
    have all : natural (Nat.toDigits 10 d.digits) = d.digits := foldl_toDigits d.digits
    rwa [split, natural_append, natural_zeros, List.length_replicate, Nat.add_zero] at all
  refine ⟨fun c member => ?_, ?_, ?_⟩
  · refine isAsciiDigit_of_mem_toDigits (n := d.digits) ?_
    rw [split]
    exact List.mem_append_left _ member
  · cases ds with
    | nil =>
        have zero : (0 : Nat) * 10 ^ k = d.digits := value
        omega
    | cons c cs =>
        refine ⟨c, cs, rfl, ?_⟩
        rintro rfl
        have empty := eq_nil_of_toDigits_eq_zero_cons split
        obtain ⟨rfl, -⟩ := List.append_eq_nil_iff.mp empty
        have zero : (0 : Nat) * 10 ^ k = d.digits := value
        omega
  · rw [split, List.length_append, List.length_replicate, ← value]
    push_cast
    rw [show (ds.length : Int) + k + d.exponent - ds.length = k + d.exponent by ring,
      zpow_add₀ (by norm_num), zpow_natCast, mul_assoc]

/-! ## Positional texts -/

/-- **A numeral denotes a rational**, with neither a sign nor a written power. -/
structure Denotes (numeral : Numeral) (v : ℚ) : Prop where
  /-- There is no minus. -/
  unsigned : numeral.negative = false
  /-- There is no written power. -/
  bare : numeral.power = none
  /-- The value. -/
  value : (numeral.decimal.digits : ℚ) * 10 ^ numeral.decimal.exponent = v

/-- Digits around a point denote what they spell without it. -/
theorem denotes_of_value {front fraction : List Char} {v : ℚ}
    (value : (natural (front ++ fraction) : ℚ) * 10 ^ (-(fraction.length : Int)) = v) :
    Denotes ⟨false, front, some fraction, none⟩ v := by
  refine ⟨rfl, rfl, ?_⟩
  rw [← value, decimal]
  congr 2
  exact Int.zero_sub _

theorem isAsciiDigit_of_mem_zeros {k : Nat} {c : Char} (member : c ∈ List.replicate k '0') :
    isAsciiDigit c := by
  rw [List.eq_of_mem_replicate member]
  rfl

variable {point : Int} {v : ℚ} {n : Nat}

/-- The digits in front of the point, filled up with zeros. -/
theorem Spelled.whole_take (spelled : Spelled ds point v) (positive : 0 < n) (k : Nat) :
    Whole (ds.take n ++ List.replicate k '0') := by
  obtain ⟨c, cs, written, nonzero⟩ := spelled.leading
  obtain ⟨m, rfl⟩ := Nat.exists_eq_succ_of_ne_zero positive.ne'
  refine ⟨List.forall_mem_append.mpr ⟨fun d member => ?_, fun _ => isAsciiDigit_of_mem_zeros⟩,
    by simp [written], fun d rest same => ?_⟩
  · exact spelled.digits d (List.mem_of_mem_take member)
  · rw [written, List.take_succ_cons, List.cons_append] at same
    exact nonzero (List.cons.inj same).1

/-- The point stands in front of the digits, with zeros between them. -/
theorem Spelled.scan_behind (spelled : Spelled ds (-(n : Int)) v) (keepsPoint : Bool) :
    ∃ numeral, scan (positionalText keepsPoint ds (-(n : Int))) = .ok (numeral, []) ∧
      numeral.Denotes v ∧ numeral.decimal.digits = natural ds := by
  have text : positionalText keepsPoint ds (-(n : Int)) =
      ['0'] ++ '.' :: (List.replicate n '0' ++ ds) := by
    rw [positionalText, if_pos (by omega), Int.neg_neg, Int.toNat_natCast]
    rfl
  have same : natural (['0'] ++ (List.replicate n '0' ++ ds)) = natural ds := by
    rw [natural_append, natural_append, natural_zeros]
    simp [natural, digitValue]
  have zero : Whole ['0'] := ⟨List.all_eq_true.mp rfl, by decide, by simp⟩
  have digits : ∀ c ∈ List.replicate n '0' ++ ds, isAsciiDigit c :=
    List.forall_mem_append.mpr ⟨fun _ => isAsciiDigit_of_mem_zeros, spelled.digits⟩
  obtain ⟨c, cs, written, -⟩ := spelled.leading
  have scanned := zero.scan_point digits (by simp [written])
  rw [← text] at scanned
  refine ⟨_, scanned, denotes_of_value ?_, same⟩
  rw [same, ← spelled.value, List.length_append, List.length_replicate]
  congr 2
  omega

/-- The point stands among the digits. -/
theorem Spelled.scan_among (spelled : Spelled ds n v) (positive : 0 < n) (long : n < ds.length)
    (keepsPoint : Bool) :
    ∃ numeral, scan (positionalText keepsPoint ds n) = .ok (numeral, []) ∧
      numeral.Denotes v ∧ numeral.decimal.digits = natural ds := by
  have tail : ds.drop n ≠ [] := fun empty => absurd (List.drop_eq_nil_iff.mp empty) (by omega)
  have text : positionalText keepsPoint ds n = ds.take n ++ '.' :: ds.drop n := by
    rw [positionalText, if_neg (by omega), Int.toNat_natCast, Nat.sub_eq_zero_of_le long.le]
    simp [tail]
  have front := spelled.whole_take positive 0
  rw [List.replicate_zero, List.append_nil] at front
  have same : natural (ds.take n ++ ds.drop n) = natural ds := by rw [List.take_append_drop]
  have scanned := front.scan_point
    (fun d member => spelled.digits d (List.mem_of_mem_drop member)) tail
  rw [← text] at scanned
  refine ⟨_, scanned, denotes_of_value ?_, same⟩
  rw [same, ← spelled.value, List.length_drop]
  congr 2
  omega

/-- The digits are filled up with zeros to where the point would stand. -/
theorem Spelled.scan_filled (spelled : Spelled ds n v) (positive : 0 < n) (short : ds.length ≤ n)
    (keepsPoint : Bool) :
    ∃ numeral, scan (positionalText keepsPoint ds n) = .ok (numeral, []) ∧
      numeral.Denotes v ∧ numeral.decimal.digits < 10 ^ (n + 1) := by
  have text : positionalText keepsPoint ds n =
      ds ++ List.replicate (n - ds.length) '0' ++ (if keepsPoint then ['.', '0'] else []) := by
    rw [positionalText, if_neg (by omega), Int.toNat_natCast, List.take_of_length_le short]
    simp [short]
  have front := spelled.whole_take positive (n - ds.length)
  rw [List.take_of_length_le short] at front
  have length : (ds ++ List.replicate (n - ds.length) '0').length = n := by
    rw [List.length_append, List.length_replicate, Nat.add_sub_cancel' short]
  have value : (natural (ds ++ List.replicate (n - ds.length) '0') : ℚ) = v := by
    rw [natural_append, natural_zeros, List.length_replicate, Nat.add_zero, ← spelled.value,
      ← Nat.cast_sub short, zpow_natCast]
    push_cast
    rfl
  have bound := natural_lt front.digits
  rw [length] at bound
  rw [text]
  generalize ds ++ List.replicate (n - ds.length) '0' = filled at front value bound
  cases keepsPoint with
  | false =>
      have digits : (⟨false, filled, none, none⟩ : Numeral).decimal = ⟨natural filled, 0⟩ := by
        rw [decimal, Option.getD_none, List.append_nil]
        rfl
      refine ⟨⟨false, filled, none, none⟩, ?_, ⟨rfl, rfl, ?_⟩, ?_⟩
      · rw [if_neg Bool.false_ne_true, List.append_nil, front.scan_eq]
      · rw [digits, value, zpow_zero, mul_one]
      · rw [digits]
        exact bound.trans (Nat.pow_lt_pow_right (by decide) n.lt_succ_self)
  | true =>
      have zero : natural (filled ++ ['0']) = natural filled * 10 := by
        rw [natural_append]
        rfl
      refine ⟨_, front.scan_point (fun _ => isAsciiDigit_of_mem_zeros (k := 1)) (by simp),
        denotes_of_value ?_, ?_⟩
      · rw [zero, ← value]
        simp
      · rw [decimal, Option.getD_some, zero, Nat.pow_succ]
        exact Nat.mul_lt_mul_of_pos_right bound (by decide)

/-- **A positional text denotes what its digits spell**, with no other digits than these and the
zeros that fill them up. -/
theorem scan_positionalText (spelled : Spelled ds point v) (keepsPoint : Bool) :
    ∃ numeral, scan (positionalText keepsPoint ds point) = .ok (numeral, []) ∧
      numeral.Denotes v ∧ (numeral.decimal.digits = natural ds ∨
        numeral.decimal.digits < 10 ^ (point.toNat + 1)) := by
  rcases le_or_gt point 0 with behind | among
  · obtain ⟨n, rfl⟩ := Int.exists_eq_neg_ofNat behind
    obtain ⟨numeral, scanned, denotes, digits⟩ := spelled.scan_behind keepsPoint
    exact ⟨numeral, scanned, denotes, .inl digits⟩
  · obtain ⟨n, rfl⟩ := Int.eq_ofNat_of_zero_le among.le
    have positive : 0 < n := by omega
    rcases le_or_gt ds.length n with short | long
    · obtain ⟨numeral, scanned, denotes, digits⟩ := spelled.scan_filled positive short keepsPoint
      exact ⟨numeral, scanned, denotes, .inr digits⟩
    · obtain ⟨numeral, scanned, denotes, digits⟩ := spelled.scan_among positive long keepsPoint
      exact ⟨numeral, scanned, denotes, .inl digits⟩

/-! ## Reading back -/

/-- A numeral without sign whose value is near a number is read as the number. -/
theorem nearest?_eq_some {numeral : Numeral} {x : Binary64} (canonical : x.Canonical)
    (nonzero : 0 < x.mantissa) (unsigned : numeral.negative = false)
    (near : x.Near (numeral.decimal.digits * 10 ^ numeral.decimal.exponent)) :
    numeral.nearest? = some (x.withSign false) := by
  rw [nearest?, unsigned]
  exact Binary64.ofDecimal?_eq_some canonical nonzero near false

/-- **A number that is written positionally is read as itself.** -/
theorem nearest?_render {x : Binary64} (canonical : x.Canonical) (unsigned : x.negative = false)
    (tie : Tie) :
    ∃ numeral, scan (render ⟨tie, none, false⟩ x).toList = .ok (numeral, []) ∧
      numeral.negative = false ∧ numeral.nearest? = some x := by
  have same : x.withSign false = x := by
    rw [← unsigned]
    rfl
  rcases Nat.eq_zero_or_pos x.mantissa with zero | positive
  · have least : x.exponent = -1074 := canonical.leading.resolve_left (by omega)
    have text : (render ⟨tie, none, false⟩ x).toList = ['0'] := by
      have isZero : x.isZero = true := beq_iff_eq.mpr zero
      rw [render, isZero, unsigned]
      simp
    obtain ⟨sign, m, e⟩ := x
    simp only at zero least unsigned
    subst zero
    subst least
    subst unsigned
    exact ⟨_, by rw [text]; rfl, rfl, rfl⟩
  · have near := Binary64.near_shortest canonical positive tie
    have digits : 0 < (x.shortest tie).digits := by
      by_contra none
      have value := near.positive positive
      rw [Nat.eq_zero_of_not_pos none, Nat.cast_zero, zero_mul] at value
      exact lt_irrefl _ value
    obtain ⟨numeral, scanned, denotes, -⟩ := scan_positionalText (spelled_significant digits) false
    have nonzero : x.isZero = false := beq_false_of_ne positive.ne'
    have text : (render ⟨tie, none, false⟩ x).toList =
        positionalText false (significant (x.shortest tie)).1 (significant (x.shortest tie)).2 := by
      rw [render, nonzero, unsigned]
      simp
    refine ⟨numeral, by rw [text, scanned], denotes.unsigned, ?_⟩
    rw [← denotes.value] at near
    rw [nearest?_eq_some canonical positive denotes.unsigned near, same]

/-- **An integer of at most sixty-four bits is read as the number nearest to it.** -/
theorem nearest?_toDigits (n : Nat) :
    (⟨false, Nat.toDigits 10 n, none, none⟩ : Numeral).nearest? = Binary64.ofNat? false n := by
  have value : natural (Nat.toDigits 10 n ++ []) = n := by
    rw [List.append_nil]
    exact foldl_toDigits n
  have unit : tenTo 0 = 1 := rfl
  simp only [nearest?, decimal, exponent, Option.getD_none, value, List.length_nil, Nat.cast_zero,
    sub_zero]
  rw [Binary64.ofDecimal?, if_pos (le_refl _), Int.toNat_zero, unit, Nat.mul_one, Binary64.ofNat?]

end ClientGen.Json.Numeral
