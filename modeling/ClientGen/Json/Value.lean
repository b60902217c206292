import ClientGen.Decimal.Shortest
import ClientGen.OrderedMap

/-!
# JSON values

* `Json` — a value; the members of an object are kept in order, repeated names included.
* `Json.Number` — an integer of at most sixty-four bits, or a floating-point number.
* `Json.same` — equality of values.
* `Json.canonical` — the value in which every object has its names once and in ascending order.

**Equality.** Two numbers are equal if both are integers or both are floating-point numbers, and
their values are equal; the two floating-point zeros are equal.
-/

namespace ClientGen

open Decimal

/-- **A JSON number.** -/
inductive Json.Number where
  /-- An integer from `-2 ^ 63` to `2 ^ 64 - 1`. -/
  | int (value : Int)
  /-- Every other number. -/
  | float (value : Binary64)
  deriving Repr, DecidableEq, Inhabited

instance : BEq Json.Number where
  beq
    | .int a, .int b => a == b
    | .float a, .float b => a.sameValue b
    | _, _ => false

/-- **A JSON value.** -/
inductive Json where
  /-- `null` -/
  | null
  /-- `true` and `false` -/
  | bool (value : Bool)
  /-- A number. -/
  | number (value : Json.Number)
  /-- A string. -/
  | string (value : String)
  /-- An array. -/
  | array (items : List Json)
  /-- An object, as a list of named values. -/
  | object (members : List (String × Json))
  deriving Inhabited

namespace Json

mutual

/-- **Equality of values**, member by member. -/
def same : Json → Json → Bool
  | .null, .null => true
  | .bool a, .bool b => a == b
  | .number a, .number b => a == b
  | .string a, .string b => a == b
  | .array vs, .array ws => sameItems vs ws
  | .object ms, .object ns => sameMembers ms ns
  | _, _ => false

/-- Equality of the items of arrays. -/
def sameItems : List Json → List Json → Bool
  | [], [] => true
  | v :: vs, w :: ws => same v w && sameItems vs ws
  | _, _ => false

/-- Equality of the members of objects, in their order. -/
def sameMembers : List (String × Json) → List (String × Json) → Bool
  | [], [] => true
  | (a, v) :: ms, (b, w) :: ns => a == b && same v w && sameMembers ms ns
  | _, _ => false

end

instance : BEq Json :=
  ⟨same⟩

/-- An integer as a value. -/
def ofInt (i : Int) : Json :=
  .number (.int i)

/-- A natural number as a value. -/
def ofNat (n : Nat) : Json :=
  .number (.int n)

/-- A list of strings as a value. -/
def ofStrings (ss : List String) : Json :=
  .array (ss.map .string)

mutual

/-- **The canonical form of a value**: in every object the names ascend, and of several members with
one name the last one stays. -/
def canonical : Json → Json
  | .array items => .array (canonicalItems items)
  | .object members => .object (OrderedMap.sorted (OrderedMap.ofEntries (canonicalMembers members)))
  | .null => .null
  | .bool b => .bool b
  | .number n => .number n
  | .string s => .string s

/-- The canonical forms of the items of an array. -/
def canonicalItems : List Json → List Json
  | [] => []
  | v :: vs => canonical v :: canonicalItems vs

/-- Members with canonical values. -/
def canonicalMembers : List (String × Json) → List (String × Json)
  | [] => []
  | (k, v) :: ms => (k, canonical v) :: canonicalMembers ms

end

/-- Whether a value is null. -/
def isNull : Json → Bool
  | .null => true
  | _ => false

/-- Whether a value is a string. -/
def isString : Json → Bool
  | .string _ => true
  | _ => false

/-- Whether a value is a number. -/
def isNumber : Json → Bool
  | .number _ => true
  | _ => false

/-- Whether a value is an integer. -/
def isInteger : Json → Bool
  | .number (.int _) => true
  | _ => false

/-- Whether a value is a truth value. -/
def isBool : Json → Bool
  | .bool _ => true
  | _ => false

/-- The text of a string. -/
def string? : Json → Option String
  | .string s => some s
  | _ => none

/-- The value of the first member with a name. -/
def member? (v : Json) (name : String) : Option Json :=
  match v with
  | .object members => members.lookup name
  | _ => none

end Json

end ClientGen
