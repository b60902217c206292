/-!
# Blanks, lines and pieces of a text

A text is worked on as its list of characters. This module holds the cuts that the rest of the
library makes: at separators, at line ends, at the blank edges.

* `isBlank` — the characters with the Unicode property *White_Space*.
* `trimStart`, `trimEnd`, `trim` — a text without its blank edges.
* `pieces` — the non-empty pieces between separators.
* `lines` — the lines of a text.

**Line ends.** A line ends with a line feed, and a carriage return directly before that line feed
belongs to the end as well. A carriage return anywhere else is an ordinary character, also at the
very end of the text. The last line may lack its line feed.
-/

namespace ClientGen.Text

/-- **Blank characters**: the property *White_Space*, which has twenty-five members. -/
def isBlank (c : Char) : Bool :=
  let n := c.toNat
  (0x9 ≤ n && n ≤ 0xD) || n == 0x20 || n == 0x85 || n == 0xA0 || n == 0x1680 ||
  (0x2000 ≤ n && n ≤ 0x200A) || n == 0x2028 || n == 0x2029 || n == 0x202F || n == 0x205F ||
  n == 0x3000

/-- **Control characters**: the general category *Cc*. -/
def isControl (c : Char) : Bool :=
  c.toNat < 0x20 || (0x7F ≤ c.toNat && c.toNat ≤ 0x9F)

/-- ASCII letters. -/
def isAsciiLetter (c : Char) : Bool :=
  ('a' ≤ c && c ≤ 'z') || ('A' ≤ c && c ≤ 'Z')

/-- ASCII digits. -/
def isAsciiDigit (c : Char) : Bool :=
  '0' ≤ c && c ≤ '9'

/-- ASCII letters and digits. -/
def isAsciiAlphanumeric (c : Char) : Bool :=
  isAsciiLetter c || isAsciiDigit c

/-- Lower case for ASCII letters, every other character unchanged. -/
def asciiLower (c : Char) : Char :=
  if 'A' ≤ c && c ≤ 'Z' then Char.ofNat (c.toNat + 32) else c

/-- Upper case for ASCII letters, every other character unchanged. -/
def asciiUpper (c : Char) : Char :=
  if 'a' ≤ c && c ≤ 'z' then Char.ofNat (c.toNat - 32) else c

/-- A text in ASCII lower case. -/
def lowerAscii (s : String) : String :=
  String.ofList (s.toList.map asciiLower)

/-- A text without the blanks at its start. -/
def trimStart (cs : List Char) : List Char :=
  cs.dropWhile isBlank

/-- A text without the blanks at its end. -/
def trimEnd (cs : List Char) : List Char :=
  (cs.reverse.dropWhile isBlank).reverse

/-- A text without the blanks at both ends. -/
def trim (cs : List Char) : List Char :=
  trimEnd (trimStart cs)

/-- The non-empty pieces between separators, in order. -/
def pieces (isSeparator : Char → Bool) (cs : List Char) : List (List Char) :=
  (cs.splitOnP isSeparator).filter (!·.isEmpty)

/-- The words of a text: its pieces between blanks. -/
def blankSeparated (cs : List Char) : List (List Char) :=
  pieces isBlank cs

/-- Without a carriage return at the end, if there is one. -/
def dropCarriageReturn (cs : List Char) : List Char :=
  if cs.getLast? == some '\r' then cs.dropLast else cs

/-- The lines of a text, from its pieces between line feeds: the last piece is a line only if it is
not empty, and it keeps its carriage return. -/
def linesOfPieces : List (List Char) → List (List Char)
  | [] => []
  | [last] => if last.isEmpty then [] else [last]
  | piece :: rest => dropCarriageReturn piece :: linesOfPieces rest

/-- The lines of a text, without their ends. -/
def lines (cs : List Char) : List (List Char) :=
  linesOfPieces (cs.splitOnP (· == '\n'))

/-- The digit of a value below sixteen, in lower case. -/
def hexDigit (n : Nat) : Char :=
  if n < 10 then Char.ofNat (48 + n) else Char.ofNat (87 + n)

/-- The lowest sixteen bits of a number as four hexadecimal digits. -/
def hex4 (n : Nat) : List Char :=
  [hexDigit (n / 4096 % 16), hexDigit (n / 256 % 16), hexDigit (n / 16 % 16), hexDigit (n % 16)]

/-- The value of a hexadecimal digit of either case. -/
def hexValue? (c : Char) : Option Nat :=
  if '0' ≤ c && c ≤ '9' then some (c.toNat - 48)
  else if 'a' ≤ c && c ≤ 'f' then some (c.toNat - 87)
  else if 'A' ≤ c && c ≤ 'F' then some (c.toNat - 55)
  else none

/-- The character with a number, unless there is none. -/
def charOf? (n : Nat) : Option Char :=
  if n < 0xD800 ∨ (0xDFFF < n ∧ n ≤ 0x10FFFF) then some (Char.ofNat n) else none

/-- The decimal numeral of a number. -/
def decimal (n : Nat) : String :=
  toString n

/-- Blanks between the words of a text reduced to single spaces, none at the ends. -/
def squeeze (s : String) : String :=
  String.intercalate " " ((blankSeparated s.toList).map String.ofList)

@[simp] theorem trimStart_nil : trimStart [] = [] := rfl

@[simp] theorem lines_nil : lines [] = [] := by simp [lines, linesOfPieces]

end ClientGen.Text
