import ClientGen.Yaml.Character

/-!
# Scalars of a YAML text

The texts of scalars, in each of their styles. Every function starts at a place of the text, and
gives the text of the scalar and the place after it, or nothing where the text goes wrong.

* `Scalar.plain` — a scalar without marks.
* `Scalar.quoted` — a scalar in single or double quotes.
* `Scalar.block` — a scalar that is set off by its indentation, line by line or folded.

**Ends.** A plain scalar ends before a colon or after a blank before a number sign, and where a line
lies to the left of the margin. A quoted scalar ends with its quote. A block scalar ends before the
first line that is indented less than its first line.
-/

namespace ClientGen.Yaml

open Text

/-- The styles of scalars. -/
inductive Style where
  /-- Without marks. -/
  | plain
  /-- In quotes of either kind. -/
  | quoted
  /-- A block, line by line. -/
  | literal
  /-- A block whose lines are folded. -/
  | folded
  deriving DecidableEq, Repr, Inhabited

namespace Scalar

/-- A text from its characters, the last one first. -/
def ofReversed (cs : List Char) : String :=
  String.ofList cs.reverse

/-! ## Plain scalars -/

/-- A plain scalar. -/
structure Plain where
  /-- The text. -/
  text : String
  /-- The place after the scalar and the gap that follows it. -/
  stop : Position
  /-- Whether that gap has a line end. -/
  broken : Bool
  deriving Repr

/-- The scalar that ends before a gap. -/
def endPlain (gap : Option Gap) (text : List Char) (p : Position) : Plain :=
  ⟨ofReversed text, p, gap.any Gap.isBroken⟩

/-- Whether a plain scalar cannot go on after a gap with a word that starts here. -/
def endsAfterGap (flow : Bool) (margin : Nat) (p : Position) (cs : List Char) : Bool :=
  (!flow && p.column < margin) || (p.column == 0 && atDocumentMark cs) || cs.head? == some '#'

/-- Whether a colon starts a value here. -/
def atValue (cs : List Char) : Bool :=
  match cs with
  | ':' :: cs => atEdge cs
  | _ => false

/-- Whether a colon stands directly before punctuation that may not follow it in a flow. -/
def atStrayColon : List Char → Bool
  | ':' :: c :: _ => isFlowMark c || c == '?'
  | _ => false

/-- **A plain scalar**, after a text and a gap. -/
def plain (flow : Bool) (margin : Nat) (gap : Option Gap) (text : List Char) (p : Position) :
    List Char → Option Plain
  | [] => some (endPlain gap text p)
  | c :: cs =>
    if isSpace c || isBreak c then
      let before := gap.getD (.blanks [])
      if c == '\t' && before.isBroken && p.column < margin then none
      else plain flow margin (some (before.add c)) text (p.past c) cs
    else if gap.isSome && endsAfterGap flow margin p (c :: cs) then some (endPlain gap text p)
    else if flow && atStrayColon (c :: cs) then none
    else if atValue (c :: cs) || (flow && isFlowMark c) then some (endPlain gap text p)
    else
      let between := (gap.map Gap.folded).getD []
      plain flow margin none (c :: (between ++ text)) (p.past c) cs

/-! ## Quoted scalars -/

/-- The character of an escape of two characters. -/
def escape? : Char → Option Char
  | '0' => some '\x00'
  | 'a' => some '\x07'
  | 'b' => some '\x08'
  | 't' => some '\t'
  | '\t' => some '\t'
  | 'n' => some '\n'
  | 'v' => some '\x0b'
  | 'f' => some '\x0c'
  | 'r' => some '\r'
  | 'e' => some '\x1b'
  | ' ' => some ' '
  | '"' => some '"'
  | '/' => some '/'
  | '\\' => some '\\'
  | 'N' => some '\x85'
  | '_' => some '\xa0'
  | 'L' => some '\u2028'
  | 'P' => some '\u2029'
  | _ => none

/-- The number of hexadecimal digits after an escape character. -/
def hexDigits? : Char → Option Nat
  | 'x' => some 2
  | 'u' => some 4
  | 'U' => some 8
  | _ => none

/-- What a quoted scalar is in the middle of. -/
inductive Within where
  /-- A word. -/
  | word
  /-- A gap. -/
  | gap (gap : Gap)
  /-- An escape with some digits to come. -/
  | escape (digits : Nat) (value : Nat)
  deriving Repr

/-- What is left of a gap. -/
def Within.folded : Within → List Char
  | .gap g => g.folded
  | _ => []

/-- The gap so far. -/
def Within.before : Within → Gap
  | .gap g => g
  | _ => .blanks []

/-- **A quoted scalar**, after its first quote, a text and what it is in the middle of. -/
def quoted (double : Bool) (within : Within) (text : List Char) (p : Position) :
    List Char → Option (String × Position)
  | [] => none
  | c :: cs =>
    match within with
    | .escape digits value => do
      let digit ← hexValue? c
      let value := value * 16 + digit
      if digits ≤ 1 then
        let char ← charOf? value
        quoted double .word (char :: text) (p.past c) cs
      else quoted double (.escape (digits - 1) value) text (p.past c) cs
    | within =>
      if isSpace c || isBreak c then
        quoted double (.gap (within.before.add c)) text (p.past c) cs
      else if p.column == 0 && atDocumentMark (c :: cs) then none
      else
        let text := within.folded ++ text
        let next := p.past c
        if double then
          if c = '"' then some (ofReversed text, next)
          else if c = '\\' then
            match cs with
            | [] => none
            | d :: cs =>
              if isBreak d then quoted double (.gap (.lines none [])) text (next.past d) cs
              else
                match escape? d, hexDigits? d with
                | some char, _ => quoted double .word (char :: text) (next.past d) cs
                | none, some digits => quoted double (.escape digits 0) text (next.past d) cs
                | none, none => none
          else quoted double .word (c :: text) next cs
        else if c = '\x27' then
          match cs with
          | '\x27' :: cs => quoted double .word ('\x27' :: text) (next.past '\x27') cs
          | _ => some (ofReversed text, next)
        else quoted double .word (c :: text) next cs

/-! ## Block scalars -/

/-- What becomes of the line ends at the end of a block scalar. -/
inductive Tail where
  /-- All of them go. -/
  | strip
  /-- The first one stays. -/
  | clip
  /-- All of them stay. -/
  | keep
  deriving DecidableEq, Repr

/-- The marks after the character that starts a block scalar. -/
structure Header where
  /-- What becomes of the last line ends. -/
  tail : Tail := .clip
  /-- The indentation, if it is given. -/
  indent : Option Nat := none
  deriving Repr

/-- The meaning of a sign in a header. -/
def tail? : Char → Option Tail
  | '+' => some .keep
  | '-' => some .strip
  | _ => none

/-- The indentation that a digit gives; zero is refused by `header?`. -/
def indent? (c : Char) : Option Nat :=
  if isAsciiDigit c then some (c.toNat - 48) else none

/-- The header of a block scalar and what follows it. -/
def marks : List Char → Header × List Char
  | [] => ({}, [])
  | c :: cs =>
    match tail? c, indent? c, cs with
    | some tail, _, d :: ds =>
      match indent? d with
      | some n => ({ tail, indent := some n }, ds)
      | none => ({ tail }, cs)
    | some tail, _, [] => ({ tail }, [])
    | none, some n, d :: ds =>
      match tail? d with
      | some tail => ({ tail, indent := some n }, ds)
      | none => ({ indent := some n }, cs)
    | none, some n, [] => ({ indent := some n }, [])
    | none, none, _ => ({}, c :: cs)

/-- Whether the rest of a line has nothing but blanks and a comment. -/
def isIdle (line : List Char) : Bool :=
  match line.dropWhile isSpace with
  | [] => true
  | c :: _ => c == '#'

/-- The header of a block scalar from the first line after its mark. -/
def header? (line : List Char) : Option Header :=
  let (header, rest) := marks line
  if header.indent == some 0 || !isIdle rest then none else some header

/-- How far a block scalar has been read. -/
structure Block where
  /-- The column of its lines, once it is known. -/
  indent : Option Nat
  /-- The greatest indentation so far. -/
  deepest : Nat := 0
  /-- The end of the last line that has a text. -/
  first : Option Char := none
  /-- The line ends after that one, the last one first. -/
  more : List Char := []
  /-- Whether the last line that has a text starts with a blank. -/
  blank : Bool := false
  /-- Whether this is in the middle of a line. -/
  inLine : Bool := false
  /-- The text so far, the last character first. -/
  text : List Char := []
  deriving Repr

/-- Before a line that starts with a character: the text with the line ends that come first. -/
def Block.joined (folds : Bool) (c : Char) (b : Block) : List Char :=
  let single :=
    if folds && b.first == some '\n' && !b.blank && !isSpace c then
      if b.more.isEmpty then [' '] else []
    else b.first.toList
  b.more ++ (single ++ b.text)

/-- The text of a whole block scalar. -/
def Block.finished (tail : Tail) (b : Block) : String :=
  match tail with
  | .strip => ofReversed b.text
  | .clip => ofReversed (b.first.toList ++ b.text)
  | .keep => ofReversed (b.more ++ (b.first.toList ++ b.text))

/-- **The lines of a block scalar**: its text and the place after it. -/
def blockLines (folds : Bool) (margin : Nat) (tail : Tail) (b : Block) (p : Position) :
    List Char → Option (String × Position)
  | [] => some (b.finished tail, p)
  | c :: cs =>
    let next := p.past c
    if b.inLine then
      if isBreak c then
        blockLines folds margin tail { b with inLine := false, first := some c } next cs
      else blockLines folds margin tail { b with text := c :: b.text } next cs
    else
      let inside := b.indent.all (p.column < ·)
      if c == ' ' && inside then
        blockLines folds margin tail { b with deepest := max b.deepest next.column } next cs
      else if c == '\t' && inside then none
      else if isBreak c then
        blockLines folds margin tail { b with more := c :: b.more } next cs
      else
        let indent := b.indent.getD (max b.deepest (max margin 1))
        if p.column = indent then
          let b :=
            { b with
              indent := some indent, first := none, more := [], blank := isSpace c, inLine := true
              text := c :: b.joined folds c }
          blockLines folds margin tail b next cs
        else some (b.finished tail, p)

/-- **A block scalar** after its mark. Its indentation is given from the enclosing one, or else it
is that of its first line. -/
def block (folds : Bool) (margin : Nat) (p : Position) (cs : List Char) :
    Option (String × Position) := do
  let line := cs.takeWhile fun c => !isBreak c
  let header ← header? line
  let rest := cs.drop line.length
  let indent := header.indent.map (margin - 1 + ·)
  blockLines folds margin header.tail { indent } ((p.pastAll line).pastAll (rest.take 1))
    (rest.drop 1)

end Scalar

end ClientGen.Yaml
