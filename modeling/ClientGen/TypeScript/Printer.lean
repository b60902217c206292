import ClientGen.TypeScript.Code
import ClientGen.TypeScript.Text

/-!
# The text of TypeScript code

* `TypeExpr.text` — a type.
* `Expression.text`, `Statement.text`, `Function.text` — code.
* `Definition.text`, `Import.text`, `Module.text` — a file and its parts.

**Precedence.** Arrays bind closer than intersections, and intersections closer than unions: a union
or an intersection that is the item of an array stands in parentheses, and so does a union that is
part of an intersection.

**Numbers** are written positionally, with the fewest digits that read back; a half-way case between
two shortest decimals is rounded up.
-/

namespace ClientGen.TypeScript

/-- The layout of floating-point numbers. -/
def numberLayout : Decimal.Layout :=
  { tie := .up, positional := none, keepsPoint := false }

/-- Texts between separators. -/
def commaSeparated (texts : List String) : String :=
  String.intercalate ", " texts

/-- A text between braces with blanks inside. -/
def inBraces (text : String) : String :=
  "\x7b " ++ text ++ " \x7d"

/-- Nothing between braces. -/
def emptyBraces : String :=
  "\x7b\x7d"

/-- A text in parentheses. -/
def inParentheses (text : String) : String :=
  "(" ++ text ++ ")"

/-- The name of a primitive type. -/
def PrimitiveType.text : PrimitiveType → String
  | .string => "string"
  | .number => "number"
  | .boolean => "boolean"
  | .unknown => "unknown"

/-- **The text of a literal.** -/
def Literal.text : Literal → String
  | .string s => quote s
  | .int i => toString i
  | .float x => Decimal.render numberLayout x
  | .bool true => "true"
  | .bool false => "false"
  | .null => "null"

/-- The text of a property whose type has a text. -/
def Property.line {τ : Type} (p : Property τ) (type : String) : String :=
  key p.name ++ (if p.optional then "?" else "") ++ ": " ++ type

/-- The text of the type of all further properties. -/
def indexLine (type : String) : String :=
  "[key: string]: " ++ type

namespace TypeExpr

/-- Whether a type needs parentheses as the item of an array. -/
def isCompound : TypeExpr → Bool
  | .union _ => true
  | .intersection _ => true
  | _ => false

/-- Whether a type is a union. -/
def isUnion : TypeExpr → Bool
  | .union _ => true
  | _ => false

mutual

/-- **The text of a type.** -/
def text : TypeExpr → String
  | .primitive type => type.text
  | .array items => (if items.isCompound then inParentheses items.text else items.text) ++ "[]"
  | .union members => String.intercalate " | " (texts members)
  | .intersection parts => String.intercalate " & " (partTexts parts)
  | .object properties index =>
    match propertyTexts properties ++ indexTexts index with
    | [] => emptyBraces
    | parts => inBraces (String.intercalate "; " parts)
  | .record key value => "Record<" ++ key.text ++ ", " ++ value.text ++ ">"
  | .literal value => value.text
  | .ref name => name

/-- The texts of several types. -/
def texts : List TypeExpr → List String
  | [] => []
  | type :: types => type.text :: texts types

/-- The texts of the parts of an intersection. -/
def partTexts : List TypeExpr → List String
  | [] => []
  | type :: types =>
    (if type.isUnion then inParentheses type.text else type.text) :: partTexts types

/-- The texts of properties. -/
def propertyTexts : List (Property TypeExpr) → List String
  | [] => []
  | ⟨name, type, optional, doc⟩ :: properties =>
    Property.line (τ := TypeExpr) ⟨name, type, optional, doc⟩ type.text :: propertyTexts properties

/-- The text of the type of all further properties. -/
def indexTexts : Option TypeExpr → List String
  | some type => [indexLine type.text]
  | none => []

end

end TypeExpr

namespace Expression

/-- The text of a member of an object. -/
def memberText (name : String) : Option String → String
  | some value => key name ++ ": " ++ value
  | none => name

/-- The text of a call. -/
def callText (callee : String) (types arguments : List String) : String :=
  callee ++ (if types.isEmpty then "" else "<" ++ commaSeparated types ++ ">") ++
    inParentheses (commaSeparated arguments)

mutual

/-- **The text of an expression.** -/
def text : Expression → String
  | .identifier name => name
  | .literal value => value.text
  | .object members =>
    match memberTexts members with
    | [] => emptyBraces
    | texts => inBraces (commaSeparated texts)
  | .template parts => "\x60" ++ String.join (partTexts parts) ++ "\x60"
  | .call callee types args => callText callee.text (TypeExpr.texts types) (texts args)
  | .member e property => e.text ++ "." ++ property
  | .raw code => code

/-- The texts of several expressions. -/
def texts : List Expression → List String
  | [] => []
  | e :: es => e.text :: texts es

/-- The texts of the members of an object. -/
def memberTexts : List (String × Option Expression) → List String
  | [] => []
  | (name, value) :: members => memberText name (optionalText value) :: memberTexts members

/-- The text of an expression that may be absent. -/
def optionalText : Option Expression → Option String
  | some e => some e.text
  | none => none

/-- The texts of the parts of a template literal. -/
def partTexts : List (TemplatePart Expression) → List String
  | [] => []
  | .text t :: parts => escapeTemplate t :: partTexts parts
  | .substitution e :: parts => ("$\x7b" ++ e.text ++ "\x7d") :: partTexts parts

end

end Expression

/-- **The text of a statement** at a level of indentation. -/
def Statement.text (level : Nat) : Statement → String
  | .const pattern value =>
    padding (2 * level) ++ "const " ++ pattern ++ " = " ++ value.text ++ ";\n"
  | .result value => padding (2 * level) ++ "return " ++ value.text ++ ";\n"

/-- The text of an argument. -/
def Argument.text (a : Argument) : String :=
  a.name ++ ": " ++ a.type.text ++
    match a.fallback with
    | some value => " = " ++ value.text
    | none => ""

/-- **The text of a function.** -/
def Function.text (f : Function) : String :=
  let result := match f.result with
    | some type => ": " ++ type.text
    | none => ""
  docComment f.doc 0 ++ (if f.isExported then "export " else "") ++
    (if f.isAsync then "async " else "") ++ "function " ++ f.name ++
    inParentheses (commaSeparated (f.arguments.map Argument.text)) ++ result ++ " \x7b\n" ++
    String.join (f.body.map (Statement.text 1)) ++ "\x7d\n"

/-- The text of an interface. -/
def interfaceText (name : String) (properties : List (Property TypeExpr))
    (index : Option TypeExpr) : String :=
  let line (p : Property TypeExpr) : String :=
    docComment p.doc 2 ++ "  " ++ p.line p.type.text ++ ";\n"
  let indexLines := (TypeExpr.indexTexts index).map fun text => "  " ++ text ++ ";\n"
  "export interface " ++ name ++ " \x7b\n" ++ String.join (properties.map line ++ indexLines) ++
    "\x7d\n"

/-- The text of a constant object and the type of its values. -/
def constantsText (name : String) (values : List (String × Literal)) : String :=
  let line (entry : String × Literal) : String :=
    "  " ++ entry.1 ++ ": " ++ entry.2.text ++ ",\n"
  "export const " ++ name ++ " = \x7b\n" ++ String.join (values.map line) ++
    "\x7d as const;\n\nexport type " ++ name ++ " = (typeof " ++ name ++ ")[keyof typeof " ++
    name ++ "];\n"

/-- **The text of an exported type.** -/
def Definition.text (d : Definition) : String :=
  docComment d.doc 0 ++
    match d.body with
    | .interface properties index => interfaceText d.name properties index
    | .alias type => "export type " ++ d.name ++ " = " ++ type.text ++ ";\n"
    | .constants values => constantsText d.name values

/-- **The text of an import.** -/
def Import.text (i : Import) : String :=
  "import " ++ (if i.typesOnly then "type " else "") ++ inBraces (commaSeparated i.items) ++
    " from \"" ++ i.source ++ "\";\n"

/-- **The text of a file.** An empty line stands between its parts. -/
def Module.text (m : Module) : String :=
  let imports := String.join (m.imports.map Import.text)
  let blocks := m.types.map Definition.text ++ m.functions.map Function.text
  imports ++ (if m.imports.isEmpty || blocks.isEmpty then "" else "\n") ++
    String.intercalate "\n" blocks

end ClientGen.TypeScript
