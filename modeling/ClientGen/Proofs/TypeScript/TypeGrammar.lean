import ClientGen.Proofs.Json.Decimals
import ClientGen.Proofs.TypeScript.Quoting
import ClientGen.TypeScript.Type

/-!
# The grammar of types

Types of TypeScript are read in two steps: a text is taken apart into tokens, and the tokens are
read by descent along the levels of the grammar. A union binds weakest, then an intersection, then
the brackets of an array; at the bottom stand types in parentheses, object types, literals, records
and names. Operators on types, other type arguments, qualified names and separators in front of a
union are not read.

* `Alphabet` — the characters of identifiers.
* `Token`, `Alphabet.tokens?` — the tokens of a text.
* `Grammar.type?` — the type at the beginning of some tokens.
* `Alphabet.type?` — the type that a text denotes.

**Names.** Beyond ASCII the characters of identifiers come from the Unicode database, so they are a
parameter. Reserved words are not names, and neither are the words that are types by themselves.

**Numbers** are read as the language has them: a numeral denotes the floating-point number nearest
to it.
-/

namespace ClientGen.TypeScript

open Text Decimal

/-! ## Tokens -/

/-- **The characters of identifiers.** -/
structure Alphabet where
  /-- The characters that start an identifier. -/
  starts : Char → Bool
  /-- The characters that continue an identifier. -/
  continues : Char → Bool
  /-- Of ASCII these start an identifier. -/
  starts_ascii : ∀ c, c.toNat < 128 → starts c = isIdentifierStart c
  /-- Of ASCII these continue an identifier. -/
  continues_ascii : ∀ c, c.toNat < 128 → continues c = isIdentifierPart c

/-- **A token.** -/
inductive Token where
  /-- A punctuation mark. -/
  | mark (c : Char)
  /-- An identifier or a reserved word. -/
  | word (name : String)
  /-- The text of a string literal. -/
  | string (value : String)
  /-- The number of a numeral. -/
  | number (value : Binary64)
  deriving DecidableEq

/-- The punctuation marks. -/
def marks : List Char :=
  ['|', '&', '[', ']', '(', ')', '{', '}', '<', '>', ',', ';', ':', '?', '-']

/-- The characters that separate tokens. -/
def spaces : List Char :=
  [' ', '\t', '\n', '\r']

namespace Alphabet

variable (alphabet : Alphabet)

/-- The number of a numeral, and what follows: neither an identifier nor a digit does. -/
def number? (cs : List Char) : Option (Token × List Char) :=
  match Json.Numeral.scan cs with
  | .ok (numeral, rest) =>
    if rest.head?.any alphabet.continues then none
    else numeral.nearest?.map (.number ·, rest)
  | .error _ => none

/-- **The token at the beginning**, and what follows. -/
def token? : List Char → Option (Token × List Char)
  | [] => none
  | c :: cs =>
    if c ∈ marks then some (.mark c, cs)
    else if c = '"' then (quoting.literal? (c :: cs)).map fun (text, rest) => (.string text, rest)
    else if isAsciiDigit c then alphabet.number? (c :: cs)
    else if alphabet.starts c then
      some (.word (String.ofList (c :: cs.takeWhile alphabet.continues)),
        cs.dropWhile alphabet.continues)
    else none

theorem length_of_token? {cs rest : List Char} {token : Token}
    (read : alphabet.token? cs = some (token, rest)) : rest.length < cs.length := by
  cases cs with
  | nil => cases read
  | cons c cs =>
      rw [token?] at read
      split at read
      · cases read
        exact Nat.lt_succ_self _
      split at read
      · obtain ⟨⟨text, after⟩, found, same⟩ := Option.map_eq_some_iff.mp read
        cases same
        exact quoting.length_of_literal? found
      split at read
      · unfold number? at read
        split at read
        · rename_i numeral after scanned
          split at read
          · cases read
          · obtain ⟨value, -, same⟩ := Option.map_eq_some_iff.mp read
            cases same
            exact Json.Numeral.length_of_scan scanned
        · cases read
      split at read
      · cases read
        exact Nat.lt_succ_of_le (List.dropWhile_sublist _).length_le
      · cases read

/-- **The tokens of a text.** -/
def tokens? (cs : List Char) : Option (List Token) :=
  match cs with
  | [] => some []
  | c :: cs =>
    if c ∈ spaces then tokens? cs
    else
      match _h : alphabet.token? (c :: cs) with
      | some (token, rest) => (tokens? rest).map (token :: ·)
      | none => none
termination_by cs.length
decreasing_by
  · simp
  · exact alphabet.length_of_token? _h

end Alphabet

/-! ## The words of types -/

/-- The words that cannot be names. -/
def keywords : List String :=
  ["break", "case", "catch", "class", "const", "continue", "debugger", "default", "delete", "do",
    "else", "enum", "export", "extends", "finally", "for", "function", "if", "import", "in",
    "instanceof", "new", "return", "super", "switch", "this", "throw", "try", "typeof", "var",
    "void", "while", "with"]

/-- The words that are types by themselves, though of no shape. -/
def otherTypes : List String :=
  ["any", "bigint", "never", "object", "symbol", "undefined"]

/-- The words that are types or literals by themselves. -/
def wordTypes : List (String × TypeExpr) :=
  [("string", .primitive .string), ("number", .primitive .number),
    ("boolean", .primitive .boolean), ("unknown", .primitive .unknown),
    ("true", .literal (.bool true)), ("false", .literal (.bool false)),
    ("null", .literal .null)]

/-- The type that a word denotes. -/
def wordType? (name : String) : Option TypeExpr :=
  match wordTypes.lookup name with
  | some type => some type
  | none => if name ∈ keywords ∨ name ∈ otherTypes then none else some (.ref name)

/-! ## Levels -/

namespace Grammar

/-- A reader of what stands at the beginning of some tokens, which leaves the others. -/
abbrev Reader (α : Type) :=
  List Token → Option (α × List Token)

/-- **Items between separators**, at most as many as asked for. -/
def chain? {α : Type} (separator : Char) (item? : Reader α) : Nat → Reader (List α)
  | 0, _ => none
  | count + 1, ts => do
    let (item, ts) ← item? ts
    match ts with
    | .mark c :: rest =>
      if c = separator then
        let (items, rest) ← chain? separator item? count rest
        return (item :: items, rest)
      else return ([item], ts)
    | ts => return ([item], ts)

/-- Several types as one: one type alone stays as it is. -/
def joined (join : List TypeExpr → TypeExpr) : List TypeExpr → TypeExpr
  | [type] => type
  | types => join types

/-- The brackets of arrays behind a type. -/
def arrays (type : TypeExpr) : List Token → TypeExpr × List Token
  | .mark '[' :: .mark ']' :: ts => arrays (.array type) ts
  | ts => (type, ts)

/-- A member of an object type. -/
inductive Member where
  /-- A property. -/
  | property (property : Property TypeExpr)
  /-- The type of all further properties. -/
  | index (type : TypeExpr)

/-- The property of a member. -/
def Member.property? : Member → Option (Property TypeExpr)
  | .property p => some p
  | .index _ => none

/-- The index signature of a member. -/
def Member.index? : Member → Option TypeExpr
  | .property _ => none
  | .index type => some type

/-- The object type of members, among which is at most one index signature. -/
def object? (members : List Member) : Option TypeExpr :=
  let properties := members.filterMap Member.property?
  match members.filterMap Member.index? with
  | [] => some (.object properties none)
  | [type] => some (.object properties (some type))
  | _ => none

/-- What follows a punctuation mark. -/
def expect? (c : Char) : List Token → Option (List Token)
  | .mark d :: ts => if d = c then some ts else none
  | _ => none

/-- The key of a property. -/
def key? : Reader String
  | .word name :: ts => some (name, ts)
  | .string name :: ts => some (name, ts)
  | _ => none

/-- Whether a property may be absent. -/
def questionMark : List Token → Bool × List Token
  | .mark '?' :: ts => (true, ts)
  | ts => (false, ts)

section

variable (type? : Reader TypeExpr)

/-- A property: its key and its type. -/
def property? (ts : List Token) : Option (Member × List Token) := do
  let (name, ts) ← key? ts
  let (optional, ts) := questionMark ts
  let ts ← expect? ':' ts
  let (type, ts) ← type? ts
  return (.property { name, type, optional, doc := none }, ts)

/-- **A member of an object type**: an index signature, or a property. -/
def member? : Reader Member
  | .mark '[' :: .word _ :: .mark ':' :: .word key :: .mark ']' :: .mark ':' :: ts => do
    if key = "string" then
      let (type, ts) ← type? ts
      return (.index type, ts)
    else none
  | ts => property? type? ts

/-- **The members of an object type** up to its closing brace, at most as many as asked for. A
semicolon may stand behind the last one. -/
def members? : Nat → Reader (List Member)
  | _, .mark '}' :: ts => some ([], ts)
  | 0, _ => none
  | count + 1, ts => do
    let (member, ts) ← member? type? ts
    match ts with
    | .mark ';' :: ts =>
      let (members, ts) ← members? count ts
      return (member :: members, ts)
    | .mark '}' :: ts => return ([member], ts)
    | _ => none

/-- The type that a name with two arguments denotes, from behind the opening bracket. -/
def record? (name : String) (ts : List Token) : Option (TypeExpr × List Token) := do
  let (key, ts) ← type? ts
  let ts ← expect? ',' ts
  let (value, ts) ← type? ts
  let ts ← expect? '>' ts
  if name = "Record" then return (.record key value, ts) else none

/-- **A type of the lowest level**: in parentheses, an object type, a literal, a record, or a
name. -/
def primary? : Reader TypeExpr
  | .mark '(' :: ts => do
    let (type, ts) ← type? ts
    let ts ← expect? ')' ts
    return (type, ts)
  | .mark '{' :: ts => do
    let (members, ts) ← members? type? ts.length ts
    let type ← object? members
    return (type, ts)
  | .mark '-' :: .number x :: ts => some (.literal (.float (x.withSign true)), ts)
  | .number x :: ts => some (.literal (.float x), ts)
  | .string text :: ts => some (.literal (.string text), ts)
  | .word name :: .mark '<' :: ts => record? type? name ts
  | .word name :: ts => (wordType? name).map (·, ts)
  | _ => none

/-- **A type of the lowest level and the brackets behind it.** -/
def postfix? (ts : List Token) : Option (TypeExpr × List Token) :=
  (primary? type? ts).map fun (type, ts) => arrays type ts

/-- **An intersection**, or a type of the level below. -/
def intersection? (ts : List Token) : Option (TypeExpr × List Token) :=
  (chain? '&' (postfix? type?) (ts.length + 1) ts).map fun (types, ts) =>
    (joined .intersection types, ts)

/-- **A union**, or a type of the level below. -/
def union? (ts : List Token) : Option (TypeExpr × List Token) :=
  (chain? '|' (intersection? type?) (ts.length + 1) ts).map fun (types, ts) =>
    (joined .union types, ts)

end

/-- **The type at the beginning of some tokens**, with types in braces and parentheses down to a
depth. -/
def type? : (depth : Nat) → Reader TypeExpr
  | 0 => fun _ => none
  | depth + 1 => union? (type? depth)

end Grammar

/-- **The type that a text denotes.** Types are nested at most as deeply as there are tokens. -/
def Alphabet.type? (alphabet : Alphabet) (text : String) : Option TypeExpr := do
  let ts ← alphabet.tokens? text.toList
  match Grammar.type? (ts.length + 1) ts with
  | some (type, []) => some type
  | _ => none

end ClientGen.TypeScript
