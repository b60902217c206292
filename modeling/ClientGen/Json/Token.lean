import ClientGen.Json.Lexeme

/-!
# Tokens of a JSON text

* `Token` — a mark, a word, a number or a string.
* `Token.scan` — the tokens of a text.

The tokens of a text end where its first unreadable character stands: with a token that says so.
Nothing after it matters, since whoever comes that far stops there.
-/

namespace ClientGen.Json

open Text

/-- **A token.** -/
inductive Token where
  /-- `[` -/
  | openArray
  /-- `]` -/
  | closeArray
  /-- An opening brace. -/
  | openObject
  /-- A closing brace. -/
  | closeObject
  /-- `,` -/
  | comma
  /-- `:` -/
  | colon
  /-- `null` -/
  | null
  /-- `true` and `false` -/
  | bool (value : Bool)
  /-- A number. -/
  | number (lexeme : Lexeme Number)
  /-- A string. -/
  | string (lexeme : Lexeme String)
  /-- An unreadable character or a broken word. -/
  | fault (fault : Fault)
  deriving Repr

namespace Token

/-- The characters that may stand between tokens. -/
def isSpace (c : Char) : Bool :=
  c == ' ' || c == '\n' || c == '\t' || c == '\r'

/-- The token of a mark. -/
def mark? (c : Char) : Option Token :=
  if c = '[' then some .openArray
  else if c = ']' then some .closeArray
  else if c = '\x7b' then some .openObject
  else if c = '\x7d' then some .closeObject
  else if c = ',' then some .comma
  else if c = ':' then some .colon
  else none

/-- The token of the word that starts with a character, and the rest of that word. -/
def word? (c : Char) : Option (Token × List Char) :=
  if c = 'n' then some (.null, ['u', 'l', 'l'])
  else if c = 't' then some (.bool true, ['r', 'u', 'e'])
  else if c = 'f' then some (.bool false, ['a', 'l', 's', 'e'])
  else none

/-- What follows a piece of text that has to stand at the start. -/
def after : (wanted cs : List Char) → Except Fault (List Char)
  | [], cs => .ok cs
  | _ :: _, [] => .error .ended
  | w :: ws, c :: cs => if w = c then after ws cs else .error .malformed

theorem length_of_after {ws cs rest : List Char} (h : after ws cs = .ok rest) :
    rest.length ≤ cs.length := by
  induction ws generalizing cs with
  | nil => simp [after] at h; simp [h]
  | cons w ws ih =>
    cases cs with
    | nil => simp [after] at h
    | cons c cs =>
      by_cases hw : w = c
      · have := ih (by simpa [after, hw] using h)
        simp only [List.length_cons]
        omega
      · simp [after, hw] at h

/-- **The tokens of a text.** -/
def scan (cs : List Char) : List Token :=
  match cs with
  | [] => []
  | c :: cs =>
    if isSpace c then scan cs
    else if c = '"' then
      match _h : scanString cs with
      | (s, some rest) => .string s :: scan rest
      | (s, none) => [.string s]
    else if c = '-' ∨ isAsciiDigit c then
      match _h : scanNumber (c :: cs) with
      | (n, some rest) => .number n :: scan rest
      | (n, none) => [.number n]
    else match mark? c, word? c with
      | some token, _ => token :: scan cs
      | none, some (token, letters) =>
        match _h : after letters cs with
        | .ok rest => token :: scan rest
        | .error f => [.fault f]
      | none, none => [.fault .malformed]
termination_by cs.length
decreasing_by
  · simp
  · have := length_of_scanString _h
    simp only [List.length_cons]
    omega
  · have := length_of_scanNumber _h
    simpa using this
  · simp
  · have := length_of_after _h
    simp only [List.length_cons]
    omega

end Token

end ClientGen.Json
