import ClientGen.Json.Printer
import ClientGen.Text.Quoted

/-!
# Why a JSON text cannot be read

* `Json.Fault` — the text is no JSON text.
* `Mismatch` — the text is fine so far, but a value has the wrong shape.
* `Json.Failure` — one or the other.

**Wording.** A mismatch says what stood there and what was wanted. A number is shown by its text, a
string between quotes, an array or object only by its kind.
-/

namespace ClientGen

/-- **What is wrong with a text.** -/
inductive Json.Fault where
  /-- A character that cannot stand where it does, or a number out of range. -/
  | malformed
  /-- The text ends too early. -/
  | ended
  deriving DecidableEq, Repr, Inhabited

/-- **What is wrong with a value.** -/
inductive Mismatch where
  /-- A value of another type than the wanted one. -/
  | wrongType (found expected : String)
  /-- A value of the right type that is out of range. -/
  | wrongValue (found expected : String)
  /-- An array with the wrong number of items. -/
  | wrongLength (length : Nat) (expected : String)
  /-- A member that has to be there is not. -/
  | missingField (name : String)
  /-- A member is there twice. -/
  | duplicateField (name : String)
  /-- A name that is none of the choices. -/
  | unknownVariant (name : String) (choices : List String)
  /-- A value that none of the shapes of a type fits. -/
  | noneFits (type : String)
  deriving DecidableEq, Repr, Inhabited

/-- A name between backquotes. -/
def Mismatch.marked (name : String) : String :=
  "`" ++ name ++ "`"

/-- A list of choices: two of them with `or`, more of them with `one of`. -/
def Mismatch.oneOf : List String → String
  | [] => "there are no variants"
  | [a] => "expected " ++ marked a
  | [a, b] => "expected " ++ marked a ++ " or " ++ marked b
  | choices => "expected one of " ++ String.intercalate ", " (choices.map marked)

/-- **The wording of a mismatch.** -/
def Mismatch.message : Mismatch → String
  | .wrongType found expected => "invalid type: " ++ found ++ ", expected " ++ expected
  | .wrongValue found expected => "invalid value: " ++ found ++ ", expected " ++ expected
  | .wrongLength length expected =>
    "invalid length " ++ Text.decimal length ++ ", expected " ++ expected
  | .missingField name => "missing field " ++ marked name
  | .duplicateField name => "duplicate field " ++ marked name
  | .unknownVariant name choices => "unknown variant " ++ marked name ++ ", " ++ oneOf choices
  | .noneFits type => "data did not match any variant of untagged enum " ++ type

namespace Json

/-- A number as a mismatch shows it. -/
def Number.shown : Number → String
  | .int i => "integer " ++ Mismatch.marked (toString i)
  | .float x => "floating point " ++ Mismatch.marked (Number.float x).text

/-- A string as a mismatch shows it. -/
def shownString (s : String) : String :=
  "string " ++ Text.quoted s

/-- **A value as a mismatch shows it.** -/
def shown : Json → String
  | .null => "null"
  | .bool b => "boolean " ++ Mismatch.marked (if b then "true" else "false")
  | .number n => n.shown
  | .string s => shownString s
  | .array _ => "sequence"
  | .object _ => "map"

/-- **Why a text could not be read.** -/
inductive Failure where
  /-- The text is no JSON text. -/
  | fault (fault : Fault)
  /-- A value has the wrong shape. -/
  | mismatch (mismatch : Mismatch)
  deriving DecidableEq, Repr, Inhabited

/-- The wording of a failure. -/
def Failure.message : Failure → String
  | .fault .malformed => "malformed text"
  | .fault .ended => "unexpected end of the text"
  | .mismatch m => m.message

end Json

end ClientGen
