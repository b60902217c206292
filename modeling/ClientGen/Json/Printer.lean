import ClientGen.Json.Value
import ClientGen.Text.Blank

/-!
# JSON texts of values

* `Json.compact` — a value without blanks.
* `Json.pretty` — a value over several lines, two spaces deeper at each level.

**Layout of numbers.** A floating-point number is written with its shortest digits: positionally if
its first digit stands between the fifth place after the point and the sixteenth before it, and
always with a point; otherwise with a signed exponent.

**Escapes.** Only quotes, backslashes and the characters below the space are escaped.
-/

namespace ClientGen.Json

open Text Decimal

/-- The layout of floating-point numbers in JSON texts. -/
def numberLayout : Layout :=
  { tie := .even, positional := some (-5, 15), keepsPoint := true }

/-- The text of a number. -/
def Number.text : Number → String
  | .int i => toString i
  | .float x => Decimal.render numberLayout x

/-- A character inside a JSON string. -/
def escapeChar (c : Char) : List Char :=
  if c == '"' then ['\\', '"']
  else if c == '\\' then ['\\', '\\']
  else if c == '\n' then ['\\', 'n']
  else if c == '\r' then ['\\', 'r']
  else if c == '\t' then ['\\', 't']
  else if c.toNat == 8 then ['\\', 'b']
  else if c.toNat == 12 then ['\\', 'f']
  else if c.toNat < 0x20 then '\\' :: 'u' :: hex4 c.toNat
  else [c]

/-- A string between quotes. -/
def stringText (s : String) : List Char :=
  '"' :: s.toList.flatMap escapeChar ++ ['"']

mutual

/-- The characters of a value without blanks. -/
def compactChars : Json → List Char
  | .null => "null".toList
  | .bool true => "true".toList
  | .bool false => "false".toList
  | .number n => n.text.toList
  | .string s => stringText s
  | .array [] => ['[', ']']
  | .array (v :: vs) => '[' :: (compactChars v ++ compactItems vs)
  | .object [] => ['{', '}']
  | .object ((k, v) :: ms) => '{' :: (stringText k ++ ':' :: (compactChars v ++ compactMembers ms))

/-- Further items and the end of an array. -/
def compactItems : List Json → List Char
  | [] => [']']
  | v :: vs => ',' :: (compactChars v ++ compactItems vs)

/-- Further members and the end of an object. -/
def compactMembers : List (String × Json) → List Char
  | [] => ['}']
  | (k, v) :: ms => ',' :: (stringText k ++ ':' :: (compactChars v ++ compactMembers ms))

end

/-- **A value without blanks.** -/
def compact (v : Json) : String :=
  String.ofList (compactChars v)

/-- A line end and the blanks of a level. -/
def newline (level : Nat) : List Char :=
  '\n' :: List.replicate (2 * level) ' '

mutual

/-- The characters of a value whose own line is indented to a level. -/
def prettyChars (level : Nat) : Json → List Char
  | .null => "null".toList
  | .bool true => "true".toList
  | .bool false => "false".toList
  | .number n => n.text.toList
  | .string s => stringText s
  | .array [] => ['[', ']']
  | .array (v :: vs) =>
    '[' :: (newline (level + 1) ++ prettyChars (level + 1) v ++ prettyItems level vs)
  | .object [] => ['{', '}']
  | .object ((k, v) :: ms) =>
    '{' :: (newline (level + 1) ++ stringText k ++
      ':' :: ' ' :: (prettyChars (level + 1) v ++ prettyMembers level ms))

/-- Further items and the end of an array that starts on a line of a level. -/
def prettyItems (level : Nat) : List Json → List Char
  | [] => newline level ++ [']']
  | v :: vs =>
    ',' :: (newline (level + 1) ++ prettyChars (level + 1) v ++ prettyItems level vs)

/-- Further members and the end of an object that starts on a line of a level. -/
def prettyMembers (level : Nat) : List (String × Json) → List Char
  | [] => newline level ++ ['}']
  | (k, v) :: ms =>
    ',' :: (newline (level + 1) ++ stringText k ++
      ':' :: ' ' :: (prettyChars (level + 1) v ++ prettyMembers level ms))

end

/-- **A value over several lines**, ended by a line feed. -/
def pretty (v : Json) : String :=
  String.ofList (prettyChars 0 v ++ ['\n'])

end ClientGen.Json
