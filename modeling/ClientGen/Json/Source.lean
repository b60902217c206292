import ClientGen.Json.Token

/-!
# The tree of a JSON text

* `Source` — a value of a text, with everything that is wrong with the text still in it.
* `SourceText` — the outermost value, and what is wrong after it.
* `build` — the tree of a list of tokens.
* `parse` — the tree of a text.

A tree is built for every text. A fault stands in it where the text goes wrong, and whoever reads
the tree in the order of the text meets the faults in the order of the text.

**Building.** Tokens are taken one by one. The arrays and objects that are still open form a stack,
and a fault closes them all.
-/

namespace ClientGen.Json

/-- **A value of a text.** -/
inductive Source where
  /-- `null` -/
  | null
  /-- `true` and `false` -/
  | bool (value : Bool)
  /-- A number. -/
  | number (lexeme : Lexeme Number)
  /-- A string. -/
  | string (lexeme : Lexeme String)
  /-- An array, and what is wrong after its last item. -/
  | array (items : List Source) (atEnd : Option Fault)
  /-- An object, and what is wrong after its last member. -/
  | object (members : List (Lexeme String × Source)) (atEnd : Option Fault)
  /-- No value. -/
  | fault (fault : Fault)
  deriving Inhabited

/-- **The tree of a whole text.** -/
structure SourceText where
  /-- The outermost value. -/
  value : Source
  /-- What is wrong after that value. -/
  atEnd : Option Fault

namespace Source

/-- An array or object that is still open; its contents are kept in reverse. -/
inductive Frame where
  /-- An array with the items before the current one. -/
  | array (items : List Source)
  /-- An object with the members before the current one, and the name of that one. -/
  | object (members : List (Lexeme String × Source)) (name : Lexeme String)

/-- The array or object of a frame that ends with the current value. -/
def Frame.close (value : Source) (atEnd : Option Fault) : Frame → Source
  | .array items => .array (value :: items).reverse atEnd
  | .object members name => .object ((name, value) :: members).reverse atEnd

/-- The tree whose current value is the last one that the text has. -/
def breakOff (stack : List Frame) (value : Source) : SourceText :=
  ⟨stack.foldl (fun value frame => frame.close value none) value, none⟩

/-- What may come next. -/
inductive Place where
  /-- A value. -/
  | value
  /-- The first value of an array, or its end. -/
  | firstItem
  /-- The first name of an object, or its end. -/
  | firstName (members : List (Lexeme String × Source))
  /-- A further name. -/
  | name (members : List (Lexeme String × Source))
  /-- The colon after a name. -/
  | colon (members : List (Lexeme String × Source)) (name : Lexeme String)
  /-- What follows a value. -/
  | after (value : Source)

/-- The value of a token that is a whole value. -/
def ofToken? : Token → Option Source
  | .null => some .null
  | .bool b => some (.bool b)
  | .number n => some (.number n)
  | .string s => some (.string s)
  | .fault f => some (.fault f)
  | _ => none

/-- The place after a token that stands where a value has to start. -/
def startValue : Token → Place
  | .openArray => .firstItem
  | .openObject => .firstName []
  | token => .after ((ofToken? token).getD (.fault .malformed))

/-- The tree where the tokens end. -/
def atEnd (stack : List Frame) : Place → SourceText
  | .value => breakOff stack (.fault .ended)
  | .firstItem => breakOff stack (.array [] (some .ended))
  | .firstName members => breakOff stack (.object members.reverse (some .ended))
  | .name members => breakOff stack (.object members.reverse (some .ended))
  | .colon members name => breakOff stack (.object ((name, .fault .ended) :: members).reverse none)
  | .after value =>
    match stack with
    | [] => ⟨value, none⟩
    | frame :: stack => breakOff stack (frame.close value (some .ended))

/-- **The tree of a list of tokens** that come next at a place inside open frames. -/
def build (stack : List Frame) (place : Place) : List Token → SourceText
  | [] => atEnd stack place
  | token :: tokens =>
    match place with
    | .value => build stack (startValue token) tokens
    | .firstItem =>
      match token with
      | .closeArray => build stack (.after (.array [] none)) tokens
      | token => build (.array [] :: stack) (startValue token) tokens
    | .firstName members =>
      match token with
      | .string s => build stack (.colon members s) tokens
      | .closeObject => build stack (.after (.object members.reverse none)) tokens
      | _ => breakOff stack (.object members.reverse (some .malformed))
    | .name members =>
      match token with
      | .string s => build stack (.colon members s) tokens
      | _ => breakOff stack (.object members.reverse (some .malformed))
    | .colon members name =>
      match token with
      | .colon => build (.object members name :: stack) .value tokens
      | _ => breakOff stack (.object ((name, .fault .malformed) :: members).reverse none)
    | .after value =>
      match stack, token with
      | [], _ => ⟨value, some .malformed⟩
      | .array items :: stack, .comma => build (.array (value :: items) :: stack) .value tokens
      | .array items :: stack, .closeArray =>
        build stack (.after (.array (value :: items).reverse none)) tokens
      | .object members name :: stack, .comma =>
        build stack (.name ((name, value) :: members)) tokens
      | .object members name :: stack, .closeObject =>
        build stack (.after (.object ((name, value) :: members).reverse none)) tokens
      | frame :: stack, _ => breakOff stack (frame.close value (some .malformed))

/-- **The tree of a text.** -/
def parse (text : String) : SourceText :=
  build [] .value (Token.scan text.toList)

end Source

end ClientGen.Json
