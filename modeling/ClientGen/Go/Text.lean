import ClientGen.Naming

/-!
# Words of Go

* `exportedName` — an exported identifier made from any name.
* `localName` — an identifier for an argument made from any name.
* `quote` — a string literal.
* `comment` — comment lines.
* `isNilable` — whether a type has a value for absence.
-/

namespace ClientGen.Go

open Text

/-- The names that an argument must not take: keywords, predeclared names that the output uses,
imported packages, and the names that methods use themselves. -/
def reservedNames : List String :=
  ["break", "case", "chan", "const", "continue", "default", "defer", "else", "fallthrough", "for",
    "func", "go", "goto", "if", "import", "interface", "map", "package", "range", "return",
    "select", "struct", "switch", "type", "var",
    "any", "bool", "byte", "error", "float64", "int64", "nil", "string", "true", "false",
    "c", "err", "fmt", "headers", "out", "query", "url", "body"]

/-- **An exported identifier made from a name.** A leading digit gets an `X` in front, and a name
without any usable character is called `Value`. -/
def exportedName (name : String) : String :=
  match Naming.joined name.toList with
  | [] => "Value"
  | c :: cs => String.ofList (if isAsciiDigit c then 'X' :: c :: cs else c :: cs)

/-- The words of a name joined, each but the first with a capital first letter. -/
def localWords (name : List Char) : List Char :=
  match Naming.words name with
  | [] => []
  | word :: words => Naming.uncapitalize word ++ words.flatMap Naming.capitalize

/-- **An identifier for an argument made from a name.** A leading digit gets a `p` in front, a
reserved name gets `Param` at its end, and a name without any usable character is called `arg`. -/
def localName (name : String) : String :=
  match localWords name.toList with
  | [] => "arg"
  | c :: cs =>
    let joined := String.ofList (if isAsciiDigit c then 'p' :: c :: cs else c :: cs)
    if reservedNames.contains joined then joined ++ "Param" else joined

/-- A character inside a string literal. -/
def escapeChar (c : Char) : List Char :=
  if c == '\\' then ['\\', '\\']
  else if c == '"' then ['\\', '"']
  else if c == '\n' then ['\\', 'n']
  else if c == '\r' then ['\\', 'r']
  else if c == '\t' then ['\\', 't']
  else if isControl c then '\\' :: 'u' :: hex4 c.toNat
  else [c]

/-- **A string literal.** -/
def quote (s : String) : String :=
  "\"" ++ String.ofList (s.toList.flatMap escapeChar) ++ "\""

/-- A comment line. -/
def commentLine (line : List Char) : String :=
  match trimEnd line with
  | [] => "//\n"
  | line => "// " ++ String.ofList line ++ "\n"

/-- **Comment lines**, or nothing if there is nothing to say. -/
def comment (doc : Option String) : String :=
  String.join ((lines (trim (doc.getD "").toList)).map commentLine)

/-- **Whether a type has a value for absence.** -/
def isNilable (type : String) : Bool :=
  type == "any" || type.startsWith "*" || type.startsWith "[]" || type.startsWith "map["

end ClientGen.Go
