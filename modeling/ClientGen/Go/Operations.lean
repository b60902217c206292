import ClientGen.Go.Models
import ClientGen.PathTemplate

/-!
# The operations of a Go client

* `pathExpression` — the expression that makes the path of a request.
* `method` — the method for an operation.
* `operationsFile` — the file of all operations.

**Arguments.** Every path parameter is an argument of its own; query and headers follow, and the
body, if there is one. Path segments in braces for which no parameter is declared stay as they are.
-/

namespace ClientGen.Go

open PathTemplate

/-- The members of the client that no method may be called like. -/
def clientMembers : List String :=
  ["BaseURL", "HTTPClient", "Headers", "Request"]

/-- The literal of a text that may be empty. -/
def literalTerms (text : String) : List String :=
  if text.isEmpty then [] else [quote text]

/-- The terms of a path whose literal text so far has not been written yet. -/
def pathTerms (names : List (String × String)) (text : String) : List Segment → List String
  | [] => literalTerms text
  | .literal t :: segments => pathTerms names (text ++ t) segments
  | .param name :: segments =>
    match names.lookup name with
    | some argument =>
      literalTerms text ++
        ("url.PathEscape(fmt.Sprint(" ++ argument ++ "))") :: pathTerms names "" segments
    | none => pathTerms names (text ++ (Segment.param name).text) segments

/-- **The expression that makes a path**, where parameters have names as arguments. -/
def pathExpression (path : String) (names : List (String × String)) : String :=
  match pathTerms names "" (split path) with
  | [] => quote ""
  | terms => String.intercalate " + " terms

/-- The arguments for path parameters: the name of the parameter, the name of the argument, and its
type. -/
def pathArguments (op : Operation) : List (String × String × String) :=
  let parameters := op.parametersAt .path
  let names := (Naming.uniqueAll [] (parameters.map fun p => localName p.name)).1
  (parameters.zip names).map fun (p, name) => (p.name, name, typeOf p.shape)

/-- The arguments of the method for an operation. -/
def signature (op : Operation) : List String :=
  (pathArguments op).map (fun (_, name, type) => name ++ " " ++ type) ++
    ["query url.Values", "headers map[string]string"] ++
    op.body.toList.map fun b => "body " ++ typeOf b.shape

/-- **The method for an operation.** -/
def method (op : Operation) (name : String) : String :=
  let result := typeOf op.successShape
  let names := (pathArguments op).map fun (parameter, argument, _) => (parameter, argument)
  let body := if op.body.isSome then "body" else "nil"
  let mediaType := quote ((op.body.map (·.mediaType)).getD "")
  let doc := match op.doc with
    | some doc => "//\n" ++ comment (some doc)
    | none => ""
  "// " ++ name ++ " calls " ++ op.method.wireName ++ " " ++ op.path ++ ".\n" ++ doc ++
    "func (c *Client) " ++ name ++ "(" ++ String.intercalate ", " (signature op) ++ ") (" ++
    result ++ ", error) \x7b\n" ++
    "\tvar out " ++ result ++ "\n" ++
    "\terr := c.Request(" ++ quote op.method.wireName ++ ", " ++ pathExpression op.path names ++
    ", query, headers, " ++ body ++ ", " ++ mediaType ++ ", &out, " ++ quote op.decoding ++ ")\n" ++
    "\treturn out, err\n\x7d\n"

/-- Whether the path of an operation takes an argument. -/
def splices (op : Operation) : Bool :=
  (split op.path).any fun
    | .param name => op.pathNames.contains name
    | .literal _ => false

/-- The imports of the file of operations. -/
def imports (operations : List Operation) : String :=
  if operations.any splices then "\nimport (\n\t\"fmt\"\n\t\"net/url\"\n)\n"
  else "\nimport \"net/url\"\n"

/-- **The file of all operations.** -/
def operationsFile (operations : List Operation) : String :=
  header ++ "package gen\n" ++
    if operations.isEmpty then ""
    else
      let names :=
        (Naming.uniqueAll clientMembers (operations.map fun op => exportedName op.id)).1
      imports operations ++
        String.join ((operations.zip names).map fun (op, name) => "\n" ++ method op name)

end ClientGen.Go
