import ClientGen.Text.Blank

/-!
# Tokens of a TOML text

* `Token` — words, strings, punctuation and line ends.
* `Token.scan?` — the tokens of a text, or nothing if it has none.

Blanks and comments separate tokens and mean nothing else. A string over several lines is one token,
so that the line ends that are left end statements.

**Strings** stand between single quotes, as they are, or between double quotes, with escapes.
Between triple quotes they may have line ends, each of which is one line feed; a line end directly
after the opening quotes does not count. Up to two quotes may stand directly before the closing
quotes.
-/

namespace ClientGen.Toml

/-- **A token.** -/
inductive Token where
  /-- A word without quotes. -/
  | word (text : String)
  /-- A string, perhaps over several lines. -/
  | text (multiline : Bool) (text : String)
  /-- The end of a line. -/
  | newline
  /-- An equals sign. -/
  | equals
  /-- A point. -/
  | dot
  /-- A comma. -/
  | comma
  /-- An opening square bracket. -/
  | openBracket
  /-- A closing square bracket. -/
  | closeBracket
  /-- An opening brace. -/
  | openBrace
  /-- A closing brace. -/
  | closeBrace
  deriving Repr, DecidableEq, Inhabited

namespace Token

open Text

/-- The characters of words. -/
def isWord (c : Char) : Bool :=
  isAsciiAlphanumeric c || c == '-' || c == '_'

/-- Blanks inside a line. -/
def isSpace (c : Char) : Bool :=
  c == ' ' || c == '\t'

/-- The characters of comments and strings. -/
def isPlain (c : Char) : Bool :=
  c == '\t' || (0x20 ≤ c.toNat && c.toNat != 0x7F)

/-- The character of an escape of two characters. -/
def escape? : Char → Option Char
  | 'b' => some '\x08'
  | 't' => some '\t'
  | 'n' => some '\n'
  | 'f' => some '\x0c'
  | 'r' => some '\r'
  | '"' => some '"'
  | '\\' => some '\\'
  | _ => none

/-- The number of hexadecimal digits after an escape character. -/
def hexDigits? : Char → Option Nat
  | 'u' => some 4
  | 'U' => some 8
  | _ => none

/-- How a string is written. -/
structure Quoting where
  /-- Its quote. -/
  quote : Char
  /-- Whether there are three of them. -/
  multiline : Bool
  deriving Repr

/-- What a string is in the middle of. -/
inductive Within where
  /-- Characters. -/
  | word
  /-- An escape with some digits to come. -/
  | escape (digits : Nat) (value : Nat)
  /-- Blanks after a backslash, and perhaps a line end among them. -/
  | fold (broken : Bool)
  deriving Repr

/-- The number of quotes at the start of a text. -/
def quotes (quote : Char) (cs : List Char) : Nat :=
  (cs.takeWhile (· == quote)).length

/-- **A string** after its opening quotes, the characters so far and their number: the string, and
the number of characters up to the end of the closing quotes. -/
def quoted? (q : Quoting) (within : Within) (text : List Char) (passed : Nat) :
    List Char → Option (String × Nat)
  | [] => none
  | c :: cs =>
    match within with
    | .escape digits value => do
      let value := value * 16 + (← hexValue? c)
      if digits ≤ 1 then
        let char ← charOf? value
        quoted? q .word (char :: text) (passed + 1) cs
      else quoted? q (.escape (digits - 1) value) text (passed + 1) cs
    | within =>
      let folding := within matches .fold _
      if folding && isSpace c then quoted? q within text (passed + 1) cs
      else if q.multiline && c == '\n' then
        if folding then quoted? q (.fold true) text (passed + 1) cs
        else quoted? q .word ('\n' :: text) (passed + 1) cs
      else if q.multiline && c == '\r' then
        match cs with
        | '\n' :: cs =>
          if folding then quoted? q (.fold true) text (passed + 2) cs
          else quoted? q .word ('\n' :: text) (passed + 2) cs
        | _ => none
      else if within matches .fold false then none
      else if c = q.quote then
        if q.multiline then
          let run := quotes c (c :: cs)
          if run < 3 then quoted? q .word (c :: text) (passed + 1) cs
          else
            let inner := List.replicate (min (run - 3) 2) c
            some (String.ofList (inner ++ text).reverse, passed + min run 5)
        else some (String.ofList text.reverse, passed + 1)
      else if c = '\\' ∧ q.quote = '"' then
        match cs with
        | [] => none
        | e :: rest =>
          match escape? e, hexDigits? e with
          | some char, _ => quoted? q .word (char :: text) (passed + 2) rest
          | none, some digits => quoted? q (.escape digits 0) text (passed + 2) rest
          | none, none =>
            if q.multiline then quoted? q (.fold false) text (passed + 1) (e :: rest) else none
      else if isPlain c then quoted? q .word (c :: text) (passed + 1) cs
      else none

/-- The number of characters of a line end at the start of a text. -/
def lineEnd : List Char → Nat
  | '\n' :: _ => 1
  | '\r' :: '\n' :: _ => 2
  | _ => 0

/-- The string after a quote, and the number of its characters. -/
def string? (quote : Char) (cs : List Char) : Option (Token × Nat) :=
  if 2 ≤ quotes quote cs then do
    let rest := cs.drop 2
    let skipped := lineEnd rest
    let (body, count) ← quoted? ⟨quote, true⟩ .word [] 0 (rest.drop skipped)
    return (.text true body, 2 + skipped + count)
  else do
    let (body, count) ← quoted? ⟨quote, false⟩ .word [] 0 cs
    return (.text false body, count)

/-- The punctuation that a character is. -/
def punctuation? : Char → Option Token
  | '\n' => some .newline
  | '=' => some .equals
  | '.' => some .dot
  | ',' => some .comma
  | '[' => some .openBracket
  | ']' => some .closeBracket
  | '\x7b' => some .openBrace
  | '\x7d' => some .closeBrace
  | _ => none

/-- What starts with a character: perhaps a token, and the number of its further characters. -/
def next? (c : Char) (cs : List Char) : Option (Option Token × Nat) :=
  if isSpace c then some (none, 0)
  else if c = '#' then some (none, (cs.takeWhile isPlain).length)
  else if c = '\r' then if cs.head? = some '\n' then some (some .newline, 1) else none
  else if c = '"' ∨ c = '\x27' then (string? c cs).map fun (token, count) => (some token, count)
  else if isWord c then
    let more := cs.takeWhile isWord
    some (some (.word (String.ofList (c :: more))), more.length)
  else (punctuation? c).map fun token => (some token, 0)

/-- The tokens of a text, after some characters that have been read already. -/
def scanFrom? : (passed : Nat) → List Char → Option (List Token)
  | _, [] => some []
  | passed + 1, _ :: cs => scanFrom? passed cs
  | 0, c :: cs => do
    let (token, count) ← next? c cs
    let tokens ← scanFrom? count cs
    return token.toList ++ tokens

/-- A text without a mark of byte order at its start. -/
def withoutMark : List Char → List Char
  | '\ufeff' :: cs => cs
  | cs => cs

/-- **The tokens of a text.** -/
def scan? (text : String) : Option (List Token) :=
  scanFrom? 0 (withoutMark text.toList)

end Token

end ClientGen.Toml
