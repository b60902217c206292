import ClientGen.TypeScript.Type

/-!
# Code of TypeScript

Only what generated clients need.

* `Expression`, `Statement`, `Function`, `Import` — the parts of a module.
* `Module` — a file: imports, then types, then functions.
-/

namespace ClientGen.TypeScript

/-- A part of a template literal. -/
inductive TemplatePart (ε : Type) where
  /-- Text. -/
  | text (text : String)
  /-- A substitution. -/
  | substitution (expression : ε)
  deriving Inhabited

/-- **An expression.** -/
inductive Expression where
  /-- An identifier. -/
  | identifier (name : String)
  /-- A literal. -/
  | literal (value : Literal)
  /-- An object; a name without a value stands for the variable of that name. -/
  | object (members : List (String × Option Expression))
  /-- A template literal. -/
  | template (parts : List (TemplatePart Expression))
  /-- A call, with types as arguments as well. -/
  | call (callee : Expression) (types : List TypeExpr) (arguments : List Expression)
  /-- A property. -/
  | member (object : Expression) (property : String)
  /-- Code as it is. -/
  | raw (code : String)
  deriving Inhabited

/-- **A statement.** -/
inductive Statement where
  /-- A constant, or a pattern of constants. -/
  | const (pattern : String) (value : Expression)
  /-- The result. -/
  | result (value : Expression)
  deriving Inhabited

/-- An argument that a function takes. -/
structure Argument where
  /-- The name or pattern. -/
  name : String
  /-- The type. -/
  type : TypeExpr
  /-- What it is if it is not given. -/
  fallback : Option Expression
  deriving Inhabited

/-- **A function.** -/
structure Function where
  /-- The name. -/
  name : String
  /-- The description. -/
  doc : Option String
  /-- The arguments. -/
  arguments : List Argument
  /-- The type of the result. -/
  result : Option TypeExpr
  /-- The statements. -/
  body : List Statement
  /-- Whether its result is a promise. -/
  isAsync : Bool
  /-- Whether it is exported. -/
  isExported : Bool
  deriving Inhabited

/-- **An import.** -/
structure Import where
  /-- What is imported. -/
  items : List String
  /-- From where. -/
  source : String
  /-- Whether only types are imported. -/
  typesOnly : Bool
  deriving Inhabited

/-- **A file.** -/
structure Module where
  /-- The imports. -/
  imports : List Import
  /-- The types. -/
  types : List Definition
  /-- The functions. -/
  functions : List Function
  deriving Inhabited

end ClientGen.TypeScript
