import ClientGen.Json.Numeral
import ClientGen.Json.Value
import ClientGen.Yaml.Node

/-!
# What scalars mean

* `Scalar.plainValue?` — the value of a plain scalar: null, a truth value, a number or a string.
* `Scalar.value?` — the value of any scalar, which its tag may decide.

**Plain scalars** are read by their form. Integers are decimal, or hexadecimal, octal or binary
after a zero and a letter; a decimal integer must not start with a zero. Other numerals have a point
or a power of ten. Infinities and what is no number are numerals too, and count as null.

**Great integers.** An integer that needs more than sixty-four bits has no value, unless it needs
more than 128 bits: then it is a number like any other if it is decimal, and a string if it is not.
-/

namespace ClientGen.Yaml.Scalar

open Text Decimal

/-- Whether a text is a name of null. -/
def isNull (s : String) : Bool :=
  ["null", "Null", "NULL", "~"].contains s

/-- The truth value that a text names. -/
def flag? (s : String) : Option Bool :=
  if ["true", "True", "TRUE"].contains s then some true
  else if ["false", "False", "FALSE"].contains s then some false
  else none

/-- The number that digits of a radix up to sixteen denote. -/
def digits? (radix : Nat) (cs : List Char) : Option Nat :=
  if cs.isEmpty then none
  else
    cs.foldlM
      (fun n c => (hexValue? c).bind fun d => if d < radix then some (n * radix + d) else none) 0

/-- Whether decimal digits start with a zero that is not the only one. -/
def hasLeadingZero : List Char → Bool
  | '0' :: c :: cs => (c :: cs).all isAsciiDigit
  | _ => false

/-- An integer without a sign. -/
def unsigned? : List Char → Option Nat
  | '0' :: 'x' :: cs => digits? 16 cs
  | '0' :: 'o' :: cs => digits? 8 cs
  | '0' :: 'b' :: cs => digits? 2 cs
  | cs => if hasLeadingZero cs then none else digits? 10 cs

/-- **An integer.** -/
def integer? : List Char → Option Int
  | '-' :: cs => (unsigned? cs).map fun n => -(n : Int)
  | '+' :: cs => (unsigned? cs).map Int.ofNat
  | cs => (unsigned? cs).map Int.ofNat

/-- Whether an integer fits into a number of bits, with a sign only if it is negative. -/
def fits (bits : Nat) (i : Int) : Bool :=
  -(twoTo (bits - 1) : Int) ≤ i && i < twoTo bits

/-- Digits with perhaps a point among them: the number without the point, the number of digits after
it, and what follows. -/
def mantissa? (cs : List Char) : Option (List Char × Nat × List Char) :=
  let whole := cs.takeWhile isAsciiDigit
  let rest := cs.drop whole.length
  let (fraction, rest) :=
    match rest with
    | '.' :: rest =>
      let fraction := rest.takeWhile isAsciiDigit
      (fraction, rest.drop fraction.length)
    | rest => ([], rest)
  if whole.isEmpty && fraction.isEmpty then none
  else some (whole ++ fraction, fraction.length, rest)

/-- A power of ten at the end of a numeral. -/
def power? : List Char → Option Int
  | [] => some 0
  | c :: cs =>
    if c = 'e' ∨ c = 'E' then
      match cs with
      | '-' :: cs => (digits? 10 cs).map fun n => -(n : Int)
      | '+' :: cs => (digits? 10 cs).map Int.ofNat
      | cs => (digits? 10 cs).map Int.ofNat
    else none

/-- The number nearest to digits times a power of ten. A power that is out of all proportion to the
number of digits leaves the finite numbers, or leaves nothing. -/
def nearest? (negative : Bool) (digits : List Char) (power : Int) : Option Binary64 :=
  let digits := digits.dropWhile (· == '0')
  let magnitude := digits.length + power
  if digits.isEmpty || magnitude < -400 then some (.zero negative)
  else if 400 < magnitude then none
  else Binary64.ofDecimal? negative (Json.Numeral.natural digits) power

/-- **A finite number**, with a minus sign or none. -/
def finite? (cs : List Char) : Option Binary64 := do
  let (negative, cs) := Json.Numeral.scanMinus cs
  let (digits, places, rest) ← mantissa? cs
  nearest? negative digits ((← power? rest) - places)

/-- Without a plus sign, which no further sign may follow. -/
def withoutPlus? : List Char → Option (List Char)
  | '+' :: '+' :: _ => none
  | '+' :: '-' :: _ => none
  | '+' :: cs => some cs
  | cs => some cs

/-- The numerals that stand for no finite number; a minus sign may not stand before the last three,
and a plus sign may stand before all but the middle ones. -/
def isUnbounded (s : String) (withoutPlus : String) : Bool :=
  [".inf", ".Inf", ".INF"].contains withoutPlus || ["-.inf", "-.Inf", "-.INF"].contains s ||
  [".nan", ".NaN", ".NAN"].contains s

/-- **A numeral**: a finite number, or null for what is none. -/
def numeral? (s : String) : Option Json := do
  let cs ← withoutPlus? s.toList
  if isUnbounded s (String.ofList cs) then some .null
  else (finite? cs).map fun x => .number (.float x)

/-- The value of an integer, which may have none. -/
def integerValue? (i : Int) : Option Json :=
  if fits 64 i then some (Json.ofInt i) else none

/-- Whether decimal digits with or without a sign start with a zero that is not the only one. -/
def isPadded : List Char → Bool
  | '-' :: cs => hasLeadingZero cs
  | '+' :: cs => hasLeadingZero cs
  | cs => hasLeadingZero cs

/-- **The value of a plain scalar**, or nothing if it has none. -/
def plainValue? (s : String) : Option Json :=
  if s.isEmpty || isNull s then some .null
  else
    match flag? s, (integer? s.toList).filter (fits 128) with
    | some b, _ => some (.bool b)
    | none, some i => integerValue? i
    | none, none =>
      if isPadded s.toList then some (.string s) else some ((numeral? s).getD (.string s))

/-- The type of strings, and of the other values that a tag can ask for, starts like this. -/
def coreTag (name : String) : String :=
  "tag:yaml.org,2002:" ++ name

/-- The value of a scalar with a tag. Four tags ask for values of one kind, and the other ones that
are known everywhere leave the text as it is. A tag that is known only locally has no meaning. -/
def taggedValue? (tag : String) (s : String) : Option Json :=
  if tag.startsWith "!" then none
  else if tag = coreTag "bool" then (flag? s).map .bool
  else if tag = coreTag "int" then (integer? s.toList).bind integerValue?
  else if tag = coreTag "float" then numeral? s
  else if tag = coreTag "null" then if isNull s then some .null else none
  else some (.string s)

/-- **The value of a scalar**, or nothing if it has none. -/
def value? (tag : Option String) (style : Style) (s : String) : Option Json :=
  match tag with
  | some tag => taggedValue? tag s
  | none => if style = .plain then plainValue? s else some (.string s)

end ClientGen.Yaml.Scalar
