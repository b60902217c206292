import ClientGen.Text.Blank

/-!
# Characters of a YAML text

* `characters?` — the characters of a text, every line end written in one way.
* `isSpace`, `isBreak` — the blanks inside a line, and the characters that end one.
* `atEdge` — whether a word can end before what follows.
* `Position` — a place in a text, by offset, line and column.
* `Gap` — the blanks and line ends between two words of a scalar, and what is left of them.

**Line ends.** A carriage return, a line feed, both in this order and the next-line character all
count as one line feed. The separators of lines and of paragraphs end a line too, but they are kept
apart: folding turns a single line feed into a space and leaves a separator alone.
-/

namespace ClientGen.Yaml

/-- Whether a character may stand in a text. -/
def isAllowed (c : Char) : Bool :=
  let n := c.toNat
  n == 0x9 || n == 0xA || n == 0xD || (0x20 ≤ n && n ≤ 0x7E) || n == 0x85 ||
  (0xA0 ≤ n && n ≤ 0xD7FF) || (0xE000 ≤ n && n ≤ 0xFFFD) || 0x10000 ≤ n

/-- A text with one character for every line end. -/
def withLineFeeds : List Char → List Char
  | [] => []
  | '\r' :: '\n' :: cs => '\n' :: withLineFeeds cs
  | c :: cs => (if c = '\r' ∨ c = '\x85' then '\n' else c) :: withLineFeeds cs

/-- **The characters of a text**, unless there is one that must not occur. -/
def characters? (text : String) : Option (List Char) :=
  if text.toList.all isAllowed then some (withLineFeeds text.toList) else none

/-- Blanks inside a line. -/
def isSpace (c : Char) : Bool :=
  c == ' ' || c == '\t'

/-- Characters that end a line. -/
def isBreak (c : Char) : Bool :=
  c == '\n' || c == '\u2028' || c == '\u2029'

/-- Whether the text ends, or a blank or a line end comes next. -/
def atEdge : List Char → Bool
  | [] => true
  | c :: _ => isSpace c || isBreak c

/-- The characters of names. -/
def isWord (c : Char) : Bool :=
  Text.isAsciiAlphanumeric c || c == '-' || c == '_'

/-- The punctuation of collections that are written in brackets. -/
def isFlowMark (c : Char) : Bool :=
  c == ',' || c == '[' || c == ']' || c == '\x7b' || c == '\x7d'

/-- Whether three dashes or three points stand alone at the start of a line. -/
def atDocumentMark : List Char → Bool
  | '-' :: '-' :: '-' :: cs => atEdge cs
  | '.' :: '.' :: '.' :: cs => atEdge cs
  | _ => false

/-- **A place in a text.** All three numbers count from zero. -/
structure Position where
  /-- The characters before it. -/
  offset : Nat := 0
  /-- The lines before it. -/
  line : Nat := 0
  /-- The characters before it in its line. -/
  column : Nat := 0
  deriving Repr, DecidableEq

namespace Position

/-- The place after a character. -/
def past (p : Position) (c : Char) : Position :=
  if isBreak c then ⟨p.offset + 1, p.line + 1, 0⟩ else ⟨p.offset + 1, p.line, p.column + 1⟩

/-- The place after several characters. -/
def pastAll (p : Position) (cs : List Char) : Position :=
  cs.foldl past p

@[simp] theorem pastAll_nil (p : Position) : p.pastAll [] = p := rfl

@[simp] theorem pastAll_cons (p : Position) (c : Char) (cs : List Char) :
    p.pastAll (c :: cs) = (p.past c).pastAll cs := rfl

end Position

/-- **Blanks and line ends between two words**, the last character first. -/
inductive Gap where
  /-- Blanks inside one line. -/
  | blanks (cs : List Char)
  /-- At least one line end: the first one, unless it was escaped, and those after it. -/
  | lines (first : Option Char) (more : List Char)
  deriving Repr

namespace Gap

/-- A gap after one more character. Blanks beside a line end are dropped. -/
def add (c : Char) : Gap → Gap
  | .blanks cs => if isBreak c then .lines (some c) [] else .blanks (c :: cs)
  | .lines first more => if isBreak c then .lines first (c :: more) else .lines first more

/-- Whether a line ends in a gap. -/
def isBroken : Gap → Bool
  | .blanks _ => false
  | .lines _ _ => true

/-- **What is left of a gap inside a scalar**, the last character first: blanks stay, a single line
end becomes a space, and of several line ends the first one goes. -/
def folded : Gap → List Char
  | .blanks cs => cs
  | .lines (some '\n') [] => [' ']
  | .lines (some '\n') more => more
  | .lines (some c) more => more ++ [c]
  | .lines none more => more

end Gap

end ClientGen.Yaml
