import ClientGen.Json.Failure

/-!
# Numerals

* `Numeral` — the parts of a number's text: sign, whole part, fraction, power of ten.
* `Numeral.scan` — the parts at the start of a text.
* `Numeral.value?` — the number, unless it lies beyond the finite numbers.

**Value.** A numeral of whole part alone is an integer if it fits into sixty-four bits. Every other
numeral is a floating-point number, found in three steps: the digits are collected into an integer
of sixty-four bits, that integer is rounded, and the result is multiplied or divided by the power of
ten, rounded again. A digit that does not fit any more stops the collection: further digits of the
whole part only raise the power, further digits of the fraction are dropped.
-/

namespace ClientGen.Json

open Text Decimal

/-- A power of ten with its own sign. -/
structure Power where
  /-- Whether the sign is minus. -/
  negative : Bool
  /-- The digits, at least one. -/
  digits : List Char
  deriving DecidableEq, Repr

/-- **The parts of a number's text.** -/
structure Numeral where
  /-- Whether the sign is minus. -/
  negative : Bool
  /-- The digits before the point. -/
  whole : List Char
  /-- The digits after the point, if there is a point. -/
  fraction : Option (List Char)
  /-- The power of ten, if there is one. -/
  power : Option Power
  deriving DecidableEq, Repr

namespace Numeral

/-- The digits at the start of a text. -/
def digits (cs : List Char) : List Char :=
  cs.takeWhile isAsciiDigit

/-- What follows the digits at the start of a text. -/
def afterDigits (cs : List Char) : List Char :=
  cs.dropWhile isAsciiDigit

theorem length_afterDigits_le (cs : List Char) : (afterDigits cs).length ≤ cs.length :=
  (List.dropWhile_sublist isAsciiDigit).length_le

/-- Digits and what stands behind them make up the text. -/
theorem length_digits_add (cs : List Char) :
    (digits cs).length + (afterDigits cs).length = cs.length := by
  rw [← List.length_append, digits, afterDigits, List.takeWhile_append_dropWhile]

/-- The fault of a text in which a digit is missing. -/
def digitMissing (cs : List Char) : Fault :=
  if cs.isEmpty then .ended else .malformed

/-- The whole part: a single zero, or digits that do not start with one. -/
def scanWhole (cs : List Char) : Except Fault (List Char × List Char) :=
  match digits cs with
  | [] => .error (digitMissing cs)
  | '0' :: _ :: _ => .error .malformed
  | ds => .ok (ds, afterDigits cs)

/-- The fraction, if a point follows. -/
def scanFraction : List Char → Except Fault (Option (List Char) × List Char)
  | '.' :: cs =>
    match digits cs with
    | [] => .error (digitMissing cs)
    | ds => .ok (some ds, afterDigits cs)
  | cs => .ok (none, cs)

/-- The sign of a power of ten. -/
def scanSign : List Char → Bool × List Char
  | '+' :: cs => (false, cs)
  | '-' :: cs => (true, cs)
  | cs => (false, cs)

/-- The power of ten, if one follows. -/
def scanPower : List Char → Except Fault (Option Power × List Char)
  | [] => .ok (none, [])
  | c :: cs =>
    if c = 'e' ∨ c = 'E' then
      let (negative, cs) := scanSign cs
      match digits cs with
      | [] => .error (digitMissing cs)
      | ds => .ok (some ⟨negative, ds⟩, afterDigits cs)
    else .ok (none, c :: cs)

/-- The sign of a number. -/
def scanMinus : List Char → Bool × List Char
  | '-' :: cs => (true, cs)
  | cs => (false, cs)

/-- **The numeral at the start of a text**, and what follows it. -/
def scan (cs : List Char) : Except Fault (Numeral × List Char) := do
  let (negative, cs) := scanMinus cs
  let (whole, cs) ← scanWhole cs
  let (fraction, cs) ← scanFraction cs
  let (power, cs) ← scanPower cs
  return (⟨negative, whole, fraction, power⟩, cs)

theorem length_scanMinus_le (cs : List Char) : (scanMinus cs).2.length ≤ cs.length := by
  unfold scanMinus
  split <;> simp

theorem length_scanSign_le (cs : List Char) : (scanSign cs).2.length ≤ cs.length := by
  unfold scanSign
  split <;> simp

/-- A whole part takes a character at least: this makes reading a text come to its end. -/
theorem length_of_scanWhole {cs ds rest : List Char} (h : scanWhole cs = .ok (ds, rest)) :
    rest.length < cs.length := by
  have hlen := length_digits_add cs
  unfold scanWhole at h
  split at h
  · simp at h
  · simp at h
  · rename_i hne _
    have hpos : 0 < (digits cs).length := List.length_pos_iff.2 hne
    simp only [Except.ok.injEq, Prod.mk.injEq] at h
    rw [← h.2]
    omega

/-- A fraction takes its characters from the front, or none if there is no fraction. -/
theorem length_of_scanFraction {cs rest : List Char} {ds : Option (List Char)}
    (h : scanFraction cs = .ok (ds, rest)) : rest.length ≤ cs.length := by
  unfold scanFraction at h
  split at h
  · rename_i cs
    have := length_afterDigits_le cs
    split at h
    · simp at h
    · simp only [Except.ok.injEq, Prod.mk.injEq] at h
      rw [← h.2, List.length_cons]
      omega
  · simp only [Except.ok.injEq, Prod.mk.injEq] at h
    simp [h.2]

/-- A power takes its characters from the front, or none if there is no power. -/
theorem length_of_scanPower {cs rest : List Char} {power : Option Power}
    (h : scanPower cs = .ok (power, rest)) : rest.length ≤ cs.length := by
  unfold scanPower at h
  split at h
  · simp only [Except.ok.injEq, Prod.mk.injEq] at h
    simp [← h.2]
  · rename_i c cs
    split at h
    · have h₁ := length_scanSign_le cs
      have h₂ := length_afterDigits_le (scanSign cs).2
      simp only at h
      split at h
      · simp at h
      · simp only [Except.ok.injEq, Prod.mk.injEq] at h
        rw [← h.2, List.length_cons]
        omega
    · simp only [Except.ok.injEq, Prod.mk.injEq] at h
      simp [← h.2]

/-- **A numeral takes a character at least.** -/
theorem length_of_scan {cs rest : List Char} {numeral : Numeral}
    (h : scan cs = .ok (numeral, rest)) : rest.length < cs.length := by
  have h₀ := length_scanMinus_le cs
  unfold scan at h
  cases h₁ : scanWhole (scanMinus cs).2 with
  | error f => simp [h₁, bind, Except.bind] at h
  | ok r₁ =>
    cases h₂ : scanFraction r₁.2 with
    | error f => simp [h₁, h₂, bind, Except.bind] at h
    | ok r₂ =>
      cases h₃ : scanPower r₂.2 with
      | error f => simp [h₁, h₂, h₃, bind, Except.bind] at h
      | ok r₃ =>
        have e₁ := length_of_scanWhole h₁
        have e₂ := length_of_scanFraction h₂
        have e₃ := length_of_scanPower h₃
        simp [h₁, h₂, h₃, bind, Except.bind, pure, Except.pure] at h
        rw [← h.2]
        omega

/-- The value of a digit. -/
def digitValue (c : Char) : Nat :=
  c.toNat - 48

/-- The greatest integer of sixty-four bits. -/
def greatest : Nat :=
  twoTo 64 - 1

/-- Collect digits into an integer until one does not fit: the integer, and the digits from that one
on. -/
def collect (n : Nat) : List Char → Nat × List Char
  | [] => (n, [])
  | c :: cs =>
    let m := n * 10 + digitValue c
    if greatest < m then (n, c :: cs) else collect m cs

/-- The number that digits denote. -/
def natural (ds : List Char) : Nat :=
  ds.foldl (fun n c => n * 10 + digitValue c) 0

/-- The number nearest to a power of ten. -/
def tenTo? (power : Nat) : Option Binary64 :=
  Binary64.ofNat? false (tenTo power)

/-- A number divided by a power of ten, by at most `10 ^ 308` at a time. -/
def lower (x : Binary64) (power : Nat) : Option Binary64 :=
  if x.isZero then some x
  else if power ≤ 308 then (tenTo? power).bind x.div?
  else ((tenTo? 308).bind x.div?).bind fun y => lower y (power - 308)
termination_by power

/-- An integer times a power of ten, in two rounded steps; `none` beyond the finite numbers. -/
def scaled? (n : Nat) (power : Int) : Option Binary64 :=
  (Binary64.ofNat? false n).bind fun x =>
    if x.isZero then some x
    else if 308 < power then none
    else if 0 ≤ power then (tenTo? power.toNat).bind x.mul?
    else lower x (-power).toNat

/-- The greatest power of ten that can be written. -/
def greatestPower : Nat :=
  twoTo 31 - 1

/-- The number of an integer, a power of ten that belongs to it, and the written power. -/
def float? (n : Nat) (inner : Int) : Option Power → Option Binary64
  | none => scaled? n inner
  | some power =>
    let p := natural power.digits
    if greatestPower < p then
      if n ≠ 0 ∧ !power.negative then none else some (.zero false)
    else if power.negative then scaled? n (inner - p)
    else scaled? n (inner + p)

/-- **The number of a numeral**, or `none` if it lies beyond the finite numbers. -/
def value? (numeral : Numeral) : Option Number :=
  let (n, tooMany) := collect 0 numeral.whole
  match numeral.fraction, numeral.power, tooMany with
  | none, none, [] =>
    if !numeral.negative then some (.int n)
    else if 0 < n ∧ n ≤ twoTo 63 then some (.int (-n))
    else (Binary64.ofNat? true n).map .float
  | fraction, power, tooMany =>
    let fraction := fraction.getD []
    let (n, dropped) := collect n fraction
    let places : Int := fraction.length - dropped.length
    (float? n (tooMany.length - places) power).map fun x =>
      .float (x.withSign numeral.negative)

end Numeral

end ClientGen.Json
