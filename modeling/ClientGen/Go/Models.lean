import ClientGen.Go.Shapes

/-!
# The models of a Go client

* `structText` — a struct.
* `constantsText` — a type of strings with its constants.
* `modelsFile` — the file of all models.

**Names.** The fields of a struct and the constants of the package are made different by numbers.
Names and types stand in columns; a column is as wide as its longest entry in bytes, and a narrower
entry is filled up with blanks.
-/

namespace ClientGen.Go

/-- The first lines of every file. -/
def header : String :=
  "// Code generated by oapigen. DO NOT EDIT.\n\n"

/-- The greatest number of bytes of a text. -/
def width (texts : List String) : Nat :=
  (texts.map String.utf8ByteSize).foldl max 0

/-- A text filled up with blanks. -/
def filled (width : Nat) (text : String) : String :=
  text ++ String.ofList (List.replicate (width - text.length) ' ')

/-- The tag of a field: the name of the member, and whether it is left out if it is absent. -/
def fieldTag (name : String) (required : Bool) : String :=
  let tag := "json:" ++ quote (name ++ if required then "" else ",omitempty")
  if tag.toList.contains '\x60' then quote tag else "\x60" ++ tag ++ "\x60"

/-- A field of a struct. -/
structure StructField where
  /-- The name. -/
  name : String
  /-- The type. -/
  type : String
  /-- The tag. -/
  tag : String
  deriving DecidableEq, Repr

/-- The fields for properties. -/
def fields (properties : OrderedMap Shape) (required : List String) : List StructField :=
  let names := (Naming.uniqueAll [] (properties.map fun p => exportedName p.1)).1
  (names.zip properties).map fun (name, property, shape) =>
    let isRequired := required.contains property
    { name, type := fieldType shape isRequired, tag := fieldTag property isRequired }

/-- **A struct.** -/
def structText (name : String) (properties : OrderedMap Shape) (required : List String) : String :=
  if properties.isEmpty then "type " ++ name ++ " struct\x7b\x7d\n"
  else
    let fs := fields properties required
    let names := width (fs.map (·.name))
    let types := width (fs.map (·.type))
    let line (f : StructField) : String :=
      "\t" ++ filled names f.name ++ " " ++ filled types f.type ++ " " ++ f.tag ++ "\n"
    "type " ++ name ++ " struct \x7b\n" ++ String.join (fs.map line) ++ "\x7d\n"

/-- The different strings of an enumeration. -/
def strings (values : List Json) : List String :=
  (values.filterMap Json.string?).eraseDups

/-- The constants for the strings of an enumeration, and the names taken after them. -/
def constants (name : String) (values : List String) (taken : List String) :
    List (String × String) × List String :=
  let (names, taken) := Naming.uniqueAll taken (values.map fun value => name ++ exportedName value)
  (names.zip values, taken)

/-- **A type of strings with its constants.** -/
def constantsText (name : String) (constants : List (String × String)) : String :=
  let names := width (constants.map (·.1))
  let line (c : String × String) : String :=
    "\t" ++ filled names c.1 ++ " " ++ name ++ " = " ++ quote c.2 ++ "\n"
  "type " ++ name ++ " string\n" ++
    if constants.isEmpty then "" else "\nconst (\n" ++ String.join (constants.map line) ++ ")\n"

/-- Whether a shape of objects becomes a struct and not a map. -/
def isStruct (properties : OrderedMap Shape) (extra : Extra Shape) : Bool :=
  !properties.isEmpty || extra.allowed?.isNone

/-- The declarations of a model, and the names taken after them. -/
def declarations (name : String) (shape : Shape) (taken : List String) : String × List String :=
  let plain := "type " ++ name ++ " " ++ typeOf shape ++ "\n"
  match shape with
  | .object properties required extra =>
    (if isStruct properties extra then structText name properties required else plain, taken)
  | .enumeration values =>
    if !values.isEmpty && values.all Json.isString then
      let (constants, taken) := constants name (strings values) taken
      (constantsText name constants, taken)
    else (plain, taken)
  | _ => (plain, taken)

/-- The declarations of several models, each after an empty line. -/
def modelTexts (taken : List String) : List Model → List String
  | [] => []
  | m :: models =>
    let (text, taken) := declarations m.name m.shape taken
    ("\n" ++ comment m.doc ++ text) :: modelTexts taken models

/-- **The file of all models**, where some names of the package are taken. -/
def modelsFile (models : List Model) (taken : List String) : String :=
  header ++ "package gen\n" ++ String.join (modelTexts taken models)

end ClientGen.Go
