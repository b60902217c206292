import ClientGen.Go.Package
import ClientGen.TypeScript.Package

/-!
# Languages of clients

* `Language` — the languages that clients can be written in.
* `Language.named?` — the language that a name means.
* `Language.generate` — the files of a client in a language.
-/

namespace ClientGen

/-- **The languages that clients can be written in.** -/
inductive Language where
  /-- TypeScript. -/
  | typeScript
  /-- Go. -/
  | go
  deriving DecidableEq, Repr, Inhabited

namespace Language

/-- All languages, in the order in which they are offered. -/
def all : List Language :=
  [.typeScript, .go]

/-- The name of a language. -/
def id : Language → String
  | .typeScript => "ts"
  | .go => "go"

/-- Other names of a language. -/
def aliases : Language → List String
  | .typeScript => ["typescript"]
  | .go => ["golang"]

/-- **The language that a name means.** Blanks around the name and the case of ASCII letters do not
matter. -/
def named? (name : String) : Option Language :=
  let name := String.ofList ((Text.trim name.toList).map Text.asciiLower)
  all.find? fun language => language.id == name || language.aliases.contains name

/-- **The files of a client**, or why they cannot be made. -/
def generate (language : Language) (api : Api) (formatter : Option Formatter) :
    Except SourceError (List SourceFile) :=
  SourceFile.finished formatter <|
    match language with
    | .typeScript => TypeScript.files api
    | .go => Go.files api

end Language

end ClientGen
