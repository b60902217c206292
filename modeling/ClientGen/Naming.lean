import ClientGen.Text.Casing

/-!
# Names of models and operations

Raw identifiers of a document become names by one rule: the runs of ASCII letters and digits are
the *words*, and the words are joined with a capital at the start of each.

* `pascalCase` — the name of a model: `pet_store` gives `PetStore`.
* `camelCase` — the name of an operation: `list_pets` gives `listPets`.
* `operationId` — the identifier of an operation that declares none.
* `unique` — a name that is not taken yet.

**Leading digits.** A name that would start with a digit gets an underscore in front.

**Taken names.** The names of one namespace are a list; only membership matters. A taken name is
followed by the least number from two upwards that makes it free. The search tries as many numbers
as there are taken names before it settles on the next one, and that many failures leave no taken
name for it.
-/

namespace ClientGen.Naming

open Text

/-- The words of an identifier: its runs of ASCII letters and digits. -/
def words (raw : List Char) : List (List Char) :=
  pieces (!isAsciiAlphanumeric ·) raw

/-- A word with its first letter in upper case. -/
def capitalize : List Char → List Char
  | [] => []
  | c :: cs => asciiUpper c :: cs

/-- A word with its first letter in lower case. -/
def uncapitalize : List Char → List Char
  | [] => []
  | c :: cs => asciiLower c :: cs

/-- The words of an identifier joined, each with a capital first letter. -/
def joined (raw : List Char) : List Char :=
  (words raw).flatMap capitalize

/-- Put an underscore before a leading digit. -/
def guardDigit : List Char → List Char
  | [] => []
  | c :: cs => if isAsciiDigit c then '_' :: c :: cs else c :: cs

/-- **The name of a model.** An identifier without a word is called `Model`. -/
def pascalCase (raw : String) : String :=
  match joined raw.toList with
  | [] => "Model"
  | name => String.ofList (guardDigit name)

/-- **The name of an operation.** An identifier without a word is called `operation`. -/
def camelCase (raw : String) : String :=
  match joined raw.toList with
  | [] => "operation"
  | name => String.ofList (guardDigit (uncapitalize name))

/-- The segments of a path without their braces, empty ones left out. -/
def pathWords (path : List Char) : List (List Char) :=
  ((path.splitOnP (· == '/')).map fun segment =>
    segment.filter fun c => c != '{' && c != '}').filter (!·.isEmpty)

/-- **The identifier of an operation that declares none**: its method and the segments of its path,
joined by underscores. -/
def operationId (method path : String) : String :=
  String.intercalate "_" (lowerText method :: (pathWords path.toList).map String.ofList)

/-- A name followed by a number. -/
def numbered (name : String) (k : Nat) : String :=
  name ++ decimal k

/-- The first free one of `name` followed by `k`, `k + 1`, …, where at most `tries` are taken. -/
def firstFree (name : String) (taken : List String) : (tries k : Nat) → String
  | 0, k => numbered name k
  | tries + 1, k =>
    if numbered name k ∈ taken then firstFree name taken tries (k + 1) else numbered name k

/-- **A free name**: the candidate itself, or the candidate followed by the least number from two
upwards that frees it. -/
def freeName (taken : List String) (candidate : String) : String :=
  if candidate ∈ taken then firstFree candidate taken taken.length 2 else candidate

/-- Choose a free name and take it. -/
def unique (taken : List String) (candidate : String) : String × List String :=
  let name := freeName taken candidate
  (name, name :: taken)

/-- Choose and take a free name for each candidate in turn. -/
def uniqueAll (taken : List String) : List String → List String × List String
  | [] => ([], taken)
  | candidate :: rest =>
    let (name, taken) := unique taken candidate
    let (names, taken) := uniqueAll taken rest
    (name :: names, taken)

/-- The names of a list in ascending order, each once. -/
def ascending (names : List String) : List String :=
  (names.mergeSort fun a b => decide (a ≤ b)).eraseReps

end ClientGen.Naming
