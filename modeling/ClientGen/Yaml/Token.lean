import ClientGen.Naming
import ClientGen.Yaml.Scalar

/-!
# Tokens of a YAML text

* `Token` — what a text is made of: scalars, names, punctuation, and the starts and ends of
  collections that are written by indentation.
* `Token.scan?` — the tokens of a text, or nothing if it has none.

**Indentation.** The *margin* is the column of the innermost collection that is written by
indentation, plus one; it is zero outside of all of them. A line that starts to the left of the
margin ends collections.

**Keys.** Whether a node is a key shows only at the colon after it. Until then its place among the
tokens is remembered, as long as the line lasts and for 1024 characters. A node that starts exactly
where the keys of a collection stand has to be a key.
-/

namespace ClientGen.Yaml

/-- **A token.** -/
inductive Token where
  /-- The version of the language. -/
  | version (major minor : Nat)
  /-- A short form for the start of tags. -/
  | handle (name : String) (start : String)
  /-- The start of a document. -/
  | documentStart
  /-- The end of a document. -/
  | documentEnd
  /-- The start of a list that is written by indentation. -/
  | blockList
  /-- The start of a map that is written by indentation. -/
  | blockMap
  /-- The end of a collection that is written by indentation. -/
  | blockEnd
  /-- An opening square bracket. -/
  | openList
  /-- A closing square bracket. -/
  | closeList
  /-- An opening brace. -/
  | openMap
  /-- A closing brace. -/
  | closeMap
  /-- A comma. -/
  | comma
  /-- The dash before an item. -/
  | item
  /-- The start of a key. -/
  | key
  /-- The start of a value. -/
  | value
  /-- The repetition of a node. -/
  | alias (name : String)
  /-- The name of a node. -/
  | anchor (name : String)
  /-- The type of a node, as a short form and what follows it. -/
  | tag (handle : String) (rest : String)
  /-- A scalar. -/
  | scalar (style : Style) (text : String)
  deriving Repr, DecidableEq, Inhabited

namespace Token

open Text

/-! ## Directives -/

/-- A number of at most nine digits at the start of a text, and what follows it. -/
def number? (cs : List Char) : Option (Nat × List Char) :=
  let digits := cs.takeWhile isAsciiDigit
  if digits.isEmpty || 9 < digits.length then none
  else some (digits.foldl (fun n c => n * 10 + (c.toNat - 48)) 0, cs.drop digits.length)

/-- A version and what follows it. Other versions than 1.1 and 1.2 are refused. -/
def version? (cs : List Char) : Option (Token × List Char) := do
  let (major, cs) ← number? cs
  let cs ← match cs with
    | '.' :: cs => some cs
    | _ => none
  let (minor, cs) ← number? cs
  if major = 1 ∧ (minor = 1 ∨ minor = 2) then some (.version major minor, cs) else none

/-- The characters of tags apart from punctuation of collections. -/
def isTagMark (c : Char) : Bool :=
  isWord c || ";/?:@&=+$.%!~*'()".contains c

/-- The characters of tags that are written out. -/
def isFullTagMark (c : Char) : Bool :=
  isTagMark c || c == ',' || c == '[' || c == ']'

/-- The bytes after the first one of a character, and the part of its number in the first one. -/
def firstByte? (byte : Nat) : Option (Nat × Nat) :=
  if byte < 0x80 then some (0, byte)
  else if byte < 0xC0 then none
  else if byte < 0xE0 then some (1, byte - 0xC0)
  else if byte < 0xF0 then some (2, byte - 0xE0)
  else if byte < 0xF8 then some (3, byte - 0xF0)
  else none

/-- A tag with its escapes replaced, where a character still lacks some bytes. -/
def unescaped? (left value : Nat) : List Char → Option (List Char)
  | [] => if left = 0 then some [] else none
  | '%' :: a :: b :: cs => do
    let byte := (← hexValue? a) * 16 + (← hexValue? b)
    let (left, value) ←
      if left = 0 then firstByte? byte
      else if byte / 64 = 2 then some (left - 1, value * 64 + byte % 64)
      else none
    let rest ← unescaped? left value cs
    return if left = 0 then Char.ofNat value :: rest else rest
  | c :: cs =>
    if c = '%' ∨ left ≠ 0 then none else (unescaped? 0 0 cs).map (c :: ·)

/-- A text as a tag. -/
def tagText? (cs : List Char) : Option String :=
  (unescaped? 0 0 cs).map String.ofList

/-- The short form of a tag at the start of a text: a mark, a word, and perhaps a mark again. -/
def handleAt (cs : List Char) : List Char :=
  match cs with
  | '!' :: cs =>
    let word := cs.takeWhile isWord
    '!' :: word ++ ((cs.drop word.length).take 1).filter (· == '!')
  | _ => []

/-- Whether a short form is complete by itself. -/
def isWholeHandle (handle : List Char) : Bool :=
  1 < handle.length && handle.getLast? == some '!'

/-- A declaration of a short form and what follows it. -/
def handle? (cs : List Char) : Option (Token × List Char) := do
  let handle := handleAt cs
  let rest := cs.drop handle.length
  let start := rest.dropWhile isSpace
  let tag := start.takeWhile isFullTagMark
  let after := start.drop tag.length
  let text ← tagText? tag
  if (handle == ['!'] || isWholeHandle handle) && start.length < rest.length && !tag.isEmpty &&
      atEdge after then
    some (.handle (String.ofList handle) text, after)
  else none

/-- **The directive on a line**, which may end with a comment. -/
def directive? (line : List Char) : Option Token := do
  let name := line.takeWhile isWord
  let rest := line.drop name.length
  let content := rest.dropWhile isSpace
  let (token, after) ←
    match String.ofList name with
    | "YAML" => version? content
    | "TAG" => handle? content
    | _ => none
  if atEdge rest && Scalar.isIdle after then some token else none

/-! ## Names and tags -/

/-- Whether a name can end before what follows. -/
def atNameEdge (cs : List Char) : Bool :=
  atEdge cs || cs.head?.any fun c => "?:,]\x7d%@\x60".contains c

/-- A name and the number of its characters. -/
def name? (cs : List Char) : Option (String × Nat) :=
  let word := cs.takeWhile isWord
  if word.isEmpty || !atNameEdge (cs.drop word.length) then none
  else some (String.ofList word, word.length)

/-- A tag that is written out, between angle brackets: the tag and the number of its characters. -/
def verbatim? (cs : List Char) : Option (Token × Nat) := do
  let tag := cs.takeWhile isFullTagMark
  let text ← tagText? tag
  if tag.isEmpty || (cs.drop tag.length).head? != some '>' then none
  else some (.tag "" text, tag.length + 1)

/-- A tag with a short form: the tag and the number of its characters. -/
def shortTag? (cs : List Char) : Option (Token × Nat) := do
  let handle := handleAt cs
  if isWholeHandle handle then
    let tag := (cs.drop handle.length).takeWhile isTagMark
    let text ← tagText? tag
    if tag.isEmpty then none
    else some (.tag (String.ofList handle) text, handle.length + tag.length)
  else
    let more := (cs.drop handle.length).takeWhile isTagMark
    let text ← tagText? more
    let word := String.ofList (handle.drop 1) ++ text
    some (if word.isEmpty then .tag "" "!" else .tag "!" word, handle.length + more.length)

/-- **The tag at the start of a text**, and the number of its characters. -/
def tag? (flow : Bool) (cs : List Char) : Option (Token × Nat) := do
  let (token, count) ←
    match cs with
    | '!' :: '<' :: cs => (verbatim? cs).map fun (token, count) => (token, count + 2)
    | cs => shortTag? cs
  let rest := cs.drop count
  if atEdge rest || (flow && rest.head? == some ',') then some (token, count) else none

/-! ## The state between two tokens -/

/-- A node that may turn out to be a key. -/
structure Candidate where
  /-- Whether it has to be a key. -/
  required : Bool
  /-- The number of tokens before it. -/
  index : Nat
  /-- Where it starts. -/
  position : Position
  deriving Repr

/-- **The state between two tokens.** -/
structure State where
  /-- The place in the text. -/
  position : Position := {}
  /-- One more than the column of the innermost collection that is written by indentation. -/
  margin : Nat := 0
  /-- The margins of the collections around that one. -/
  margins : List Nat := []
  /-- Whether a key may start here. -/
  keyAllowed : Bool := true
  /-- The node that may be a key, inside the innermost brackets. -/
  candidate : Option Candidate := none
  /-- The same outside of these brackets and of those around them. -/
  candidates : List (Option Candidate) := []
  /-- The tokens so far, the last one first. -/
  tokens : List Token := []
  /-- Their number. -/
  count : Nat := 0
  deriving Repr

namespace State

/-- Whether the place is inside of brackets. -/
def inFlow (s : State) : Bool :=
  !s.candidates.isEmpty

/-- After one more token. -/
def emit (token : Token) (s : State) : State :=
  { s with tokens := token :: s.tokens, count := s.count + 1 }

/-- After a token that belongs before those from a number on. -/
def emitAt (index : Nat) (token : Token) (s : State) : State :=
  let after := s.count - index
  { s with
    tokens := s.tokens.take after ++ token :: s.tokens.drop after
    count := s.count + 1 }

/-- A candidate that is still near enough, and nothing for one that is not. A candidate that has to
be a key must not be given up. -/
def freshened? (p : Position) : Option Candidate → Option (Option Candidate)
  | none => some none
  | some c =>
    if c.position.line < p.line || c.position.offset + 1024 < p.offset then
      if c.required then none else some none
    else some (some c)

/-- Without the candidates that are too far away. -/
def dropStale? (s : State) : Option State := do
  let candidate ← freshened? s.position s.candidate
  let candidates ← s.candidates.mapM (freshened? s.position)
  return { s with candidate, candidates }

/-- Without the innermost candidate. -/
def dropCandidate? (s : State) : Option State :=
  if s.candidate.any (·.required) then none else some { s with candidate := none }

/-- With a candidate that starts here, if a key may start here. -/
def saveCandidate? (s : State) : Option State :=
  if s.keyAllowed then do
    let s ← s.dropCandidate?
    let required := !s.inFlow && s.margin == s.position.column + 1
    return { s with candidate := some ⟨required, s.count, s.position⟩ }
  else some s

/-- Ends the collections whose margin lies to the right of a given one. -/
def endDown (margin : Nat) (s : State) : List Nat → State
  | [] => s
  | outer :: margins =>
    if margin < s.margin then
      endDown margin { s.emit .blockEnd with margin := outer, margins } margins
    else s

/-- Ends the collections that a line at some column is not part of; a line has its column plus one
as its margin. Inside of brackets there is nothing to end. -/
def endTo (margin : Nat) (s : State) : State :=
  if s.inFlow then s else s.endDown margin s.margins

/-- Starts a collection at a column, before the token with a number, unless it has started. -/
def startAt (column : Nat) (index : Nat) (token : Token) (s : State) : State :=
  if s.inFlow || column < s.margin then s
  else { s.emitAt index token with margin := column + 1, margins := s.margin :: s.margins }

/-- The end of the tokens. -/
def finish? (s : State) : Option (List Token) := do
  let s ← s.dropStale?
  let s ← (s.endTo 0).dropCandidate?
  return s.tokens.reverse

/-- After some characters. -/
def skip (cs : List Char) (s : State) : State :=
  { s with position := s.position.pastAll cs }

/-! ## The tokens by their first characters -/

/-- After a directive or a mark between documents. -/
def betweenDocuments? (token : Token) (cs : List Char) (s : State) : Option State := do
  let s ← (s.endTo 0).dropCandidate?
  return { (s.skip cs).emit token with keyAllowed := false }

/-- After a line that holds a directive. -/
def directive? (cs : List Char) (s : State) : Option State := do
  let line := cs.takeWhile fun c => !isBreak c
  let token ← Token.directive? (line.drop 1)
  s.betweenDocuments? token (cs.take (line.length + 1))

/-- After an opening bracket. -/
def open? (token : Token) (c : Char) (s : State) : Option State := do
  let s ← s.saveCandidate?
  return { (s.skip [c]).emit token with
    keyAllowed := true, candidate := none, candidates := s.candidate :: s.candidates }

/-- After a closing bracket. -/
def close? (token : Token) (c : Char) (s : State) : Option State := do
  let s ← s.dropCandidate?
  let s := match s.candidates with
    | [] => s
    | candidate :: candidates => { s with candidate, candidates }
  return { (s.skip [c]).emit token with keyAllowed := false }

/-- After a comma. -/
def comma? (c : Char) (s : State) : Option State := do
  let s ← s.dropCandidate?
  return { (s.skip [c]).emit .comma with keyAllowed := true }

/-- After a mark that starts a collection by itself, outside of brackets only where a key may
start. -/
def start? (collection : Token) (s : State) : Option State :=
  if s.inFlow then some s
  else if s.keyAllowed then some (s.startAt s.position.column s.count collection)
  else none

/-- After the dash before an item. -/
def item? (c : Char) (s : State) : Option State := do
  let s ← s.start? .blockList
  let s ← s.dropCandidate?
  return { (s.skip [c]).emit .item with keyAllowed := true }

/-- After the mark of a key. -/
def key? (c : Char) (s : State) : Option State := do
  let s ← s.start? .blockMap
  let s ← s.dropCandidate?
  return { (s.skip [c]).emit .key with keyAllowed := !s.inFlow }

/-- After the colon before a value. -/
def value? (c : Char) (s : State) : Option State :=
  match s.candidate with
  | some start =>
    let s := (s.emitAt start.index Token.key).startAt start.position.column start.index .blockMap
    some { (s.skip [c]).emit .value with candidate := none, keyAllowed := false }
  | none => do
    let s ← s.start? .blockMap
    return { (s.skip [c]).emit .value with keyAllowed := !s.inFlow }

/-- After a node, or a part of it, that may be a key. -/
def node? (read : Position → Option (Token × Position)) (s : State) : Option State := do
  let s ← s.saveCandidate?
  let (token, position) ← read s.position
  return { s.emit token with position, keyAllowed := false }

/-- After a name with its mark. -/
def name? (token : String → Token) (c : Char) (cs : List Char) (s : State) : Option State :=
  s.node? fun p => do
    let (name, count) ← Token.name? cs
    return (token name, p.pastAll (c :: cs.take count))

/-- After a tag. -/
def tag? (cs : List Char) (s : State) : Option State :=
  s.node? fun p => do
    let (token, count) ← Token.tag? s.inFlow cs
    return (token, p.pastAll (cs.take count))

/-- After a quoted scalar. -/
def quoted? (double : Bool) (c : Char) (cs : List Char) (s : State) : Option State :=
  s.node? fun p => do
    let (text, position) ← Scalar.quoted double .word [] (p.past c) cs
    return (.scalar .quoted text, position)

/-- After a block scalar. -/
def block? (style : Style) (c : Char) (cs : List Char) (s : State) : Option State := do
  let s ← s.dropCandidate?
  let (text, position) ← Scalar.block (style == .folded) s.margin (s.position.past c) cs
  return { s.emit (.scalar style text) with position, keyAllowed := true }

/-- After a plain scalar. A key may follow it on a further line. -/
def plain? (cs : List Char) (s : State) : Option State := do
  let s ← s.saveCandidate?
  let plain ← Scalar.plain s.inFlow s.margin none [] s.position cs
  return { s.emit (.scalar .plain plain.text) with
    position := plain.stop, keyAllowed := plain.broken }

/-- Whether a plain scalar can start here. -/
def startsPlain (s : State) (c : Char) (cs : List Char) : Bool :=
  !(isSpace c || "-?:,[]\x7b\x7d#&*!|>'\"%@\x60".contains c) ||
  (c == '-' && !cs.head?.any isSpace) || (!s.inFlow && (c == '?' || c == ':') && !atEdge cs)

/-- After the token that starts with a character. -/
def token? (c : Char) (cs : List Char) (s : State) : Option State :=
  if s.position.column = 0 ∧ c = '%' then s.directive? (c :: cs)
  else if s.position.column = 0 ∧ atDocumentMark (c :: cs) then
    s.betweenDocuments? (if c = '-' then .documentStart else .documentEnd) (c :: cs.take 2)
  else if c = '[' then s.open? .openList c
  else if c = '\x7b' then s.open? .openMap c
  else if c = ']' then s.close? .closeList c
  else if c = '\x7d' then s.close? .closeMap c
  else if c = ',' then s.comma? c
  else if c = '-' ∧ atEdge cs then s.item? c
  else if c = '?' ∧ (s.inFlow ∨ atEdge cs) then s.key? c
  else if c = ':' ∧ (s.inFlow ∨ atEdge cs) then s.value? c
  else if c = '*' then s.name? .alias c cs
  else if c = '&' then s.name? .anchor c cs
  else if c = '!' then s.tag? (c :: cs)
  else if c = '|' ∧ !s.inFlow then s.block? .literal c cs
  else if c = '>' ∧ !s.inFlow then s.block? .folded c cs
  else if c = '\x27' then s.quoted? false c cs
  else if c = '"' then s.quoted? true c cs
  else if s.startsPlain c cs then s.plain? (c :: cs)
  else none

/-- The characters before the next token that start here: a blank, a comment, a line end, or a mark
of byte order at the start of a line. Tabs do not count where a block key may start. -/
def idle (c : Char) (cs : List Char) (s : State) : List Char :=
  if c = ' ' ∨ isBreak c ∨ (c = '\t' ∧ (s.inFlow ∨ !s.keyAllowed)) ∨
      (c = '\ufeff' ∧ s.position.column = 0) then [c]
  else if c = '#' then c :: cs.takeWhile fun c => !isBreak c
  else []

/-- After what comes next: a token, or characters before it. -/
def next? (c : Char) (cs : List Char) (s : State) : Option State :=
  match s.idle c cs with
  | [] => do
    let s ← s.dropStale?
    (s.endTo (s.position.column + 1)).token? c cs
  | passed =>
    some { s.skip passed with keyAllowed := s.keyAllowed || (isBreak c && !s.inFlow) }

/-- The tokens of a text, after some characters that have been read already. -/
def scan? (s : State) : (passed : Nat) → List Char → Option (List Token)
  | _, [] => s.finish?
  | passed + 1, _ :: cs => scan? s passed cs
  | 0, c :: cs => do
    let next ← s.next? c cs
    scan? next (next.position.offset - s.position.offset - 1) cs

end State

/-- **The tokens of a text.** -/
def scan? (text : String) : Option (List Token) := do
  State.scan? {} 0 (← characters? text)

end Token

end ClientGen.Yaml
