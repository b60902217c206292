import ClientGen.Naming

/-!
# Words of TypeScript

* `needsBrackets` — whether a name cannot be written as an identifier.
* `escapeString`, `quote` — the inside of a string literal, and the literal.
* `escapeTemplate` — the inside of a template literal.
* `key`, `access` — a name as a property key, and as a property access.
* `identifier` — an identifier made from any name.
* `fileName` — the stem of a file made from any name.
* `docComment` — a documentation comment.
-/

namespace ClientGen.TypeScript

open Text

/-- The words that cannot be identifiers. -/
def reservedWords : List String :=
  ["break", "case", "catch", "class", "const", "continue", "debugger", "default", "delete", "do",
    "else", "enum", "export", "extends", "false", "finally", "for", "function", "if", "import",
    "in", "instanceof", "new", "null", "return", "super", "switch", "this", "throw", "true",
    "try", "typeof", "var", "void", "while", "with", "yield", "let", "static", "implements",
    "interface", "package", "private", "protected", "public", "await", "async"]

/-- The characters that start an identifier. -/
def isIdentifierStart (c : Char) : Bool :=
  isAsciiLetter c || c == '_' || c == '$'

/-- The characters that continue an identifier. -/
def isIdentifierPart (c : Char) : Bool :=
  isAsciiAlphanumeric c || c == '_' || c == '$'

/-- **Whether a name cannot be written as an identifier.** -/
def needsBrackets (name : String) : Bool :=
  match name.toList with
  | [] => true
  | c :: cs => !isIdentifierStart c || !cs.all isIdentifierPart

/-- A character inside a string literal. Besides the controls the two separators that end a line are
escaped. -/
def escapeChar (c : Char) : List Char :=
  if c == '\\' then ['\\', '\\']
  else if c == '"' then ['\\', '"']
  else if c == '\n' then ['\\', 'n']
  else if c == '\r' then ['\\', 'r']
  else if c == '\t' then ['\\', 't']
  else if isControl c || c.toNat == 0x2028 || c.toNat == 0x2029 then '\\' :: 'u' :: hex4 c.toNat
  else [c]

/-- **The inside of a string literal.** -/
def escapeString (s : String) : String :=
  String.ofList (s.toList.flatMap escapeChar)

/-- **A string literal.** -/
def quote (s : String) : String :=
  "\"" ++ escapeString s ++ "\""

/-- A character inside a template literal. -/
def escapeTemplateChar (c : Char) : List Char :=
  if c == '\\' || c == '\x60' || c == '$' then ['\\', c] else [c]

/-- **The inside of a template literal.** -/
def escapeTemplate (s : String) : String :=
  String.ofList (s.toList.flatMap escapeTemplateChar)

/-- **A property key.** -/
def key (name : String) : String :=
  if needsBrackets name then quote name else name

/-- **A property access.** Where the object may be absent, so may the property. -/
def access (object property : String) (present : Bool) : String :=
  match needsBrackets property, present with
  | true, true => object ++ "[" ++ quote property ++ "]"
  | true, false => object ++ "?.[" ++ quote property ++ "]"
  | false, true => object ++ "." ++ property
  | false, false => object ++ "?." ++ property

/-- The words of a name joined, each but the first with a capital first letter. -/
def joinedParts (name : List Char) : List Char :=
  match pieces (!isIdentifierPart ·) name with
  | [] => []
  | part :: parts => part ++ parts.flatMap Naming.capitalize

/-- **An identifier made from a name.** A leading digit and a reserved word get an underscore in
front, and a name without any usable character is called `_empty`. -/
def identifier (name : String) : String :=
  match joinedParts name.toList with
  | [] => "_empty"
  | c :: cs =>
    let joined := String.ofList (c :: cs)
    if isAsciiDigit c || reservedWords.contains joined then "_" ++ joined else joined

/-- The capital letters. -/
def isCapital (c : Char) : Bool :=
  'A' ≤ c && c ≤ 'Z'

/-- A word cut before every capital letter that follows another letter or a digit. -/
def humps (word : List Char) : List (List Char) :=
  word.splitBy fun a b => isCapital a || !isCapital b

/-- **The stem of a file made from a name**: its words and their humps in lower case, joined by
hyphens. -/
def fileName (name : String) : String :=
  match (Naming.words name.toList).flatMap humps with
  | [] => "default"
  | parts => String.ofList (List.intercalate ['-'] (parts.map (·.map asciiLower)))

/-- A line of a comment in which no comment ends. -/
def escapeCommentEnd : List Char → List Char
  | '*' :: '/' :: cs => '*' :: '\\' :: '/' :: escapeCommentEnd cs
  | c :: cs => c :: escapeCommentEnd cs
  | [] => []

/-- Blanks in front of a line. -/
def padding (indent : Nat) : String :=
  String.ofList (List.replicate indent ' ')

/-- A line of a documentation comment. -/
def docLine (pad : String) (line : List Char) : String :=
  match escapeCommentEnd (trimEnd line) with
  | [] => pad ++ " *\n"
  | line => pad ++ " * " ++ String.ofList line ++ "\n"

/-- **A documentation comment**, or nothing if there is nothing to say. -/
def docComment (doc : Option String) (indent : Nat) : String :=
  let pad := padding indent
  match trim (doc.getD "").toList with
  | [] => ""
  | text => pad ++ "/**\n" ++ String.join ((lines text).map (docLine pad)) ++ pad ++ " */\n"

end ClientGen.TypeScript
