import ClientGen.OrderedMap
import ClientGen.Toml.Token

/-!
# Settings

Named texts, and named tables of texts: the part of TOML in which every value is a string and tables
do not nest. A text that holds anything else is refused.

* `Settings` — the settings of a text, by name.
* `Settings.parse?` — the settings of a text, or nothing if it holds none.

**A table is written in one place**: under a heading, in braces, or, before all headings, as names
with a point in them. Only the last form may be continued. No name stands twice.
-/

namespace ClientGen.Toml

/-- **A setting.** -/
inductive Setting where
  /-- A text. -/
  | text (text : String)
  /-- A table of texts, and whether more may be added under names with a point. -/
  | table (isOpen : Bool) (entries : OrderedMap String)
  deriving Repr, DecidableEq

/-- **The settings of a text.** -/
structure Settings where
  /-- The settings by name. -/
  entries : OrderedMap Setting := []
  /-- The table under the last heading. -/
  heading : Option String := none
  deriving Repr

namespace Settings

/-- The names of a key, separated by points, and what follows them. -/
def path? : List Token → Option (List String × List Token)
  | .word name :: .dot :: rest => (path? rest).map fun (names, rest) => (name :: names, rest)
  | .text false name :: .dot :: rest => (path? rest).map fun (names, rest) => (name :: names, rest)
  | .word name :: rest => some ([name], rest)
  | .text false name :: rest => some ([name], rest)
  | _ => none

/-- A map with one more entry under a name that is new to it. -/
def addNew? {α : Type} (name : String) (value : α) (m : OrderedMap α) : Option (OrderedMap α) :=
  if (m.lookup name).isSome then none else some (m.insert name value)

/-- The name of an entry. -/
def name? : Token → Option String
  | .word name => some name
  | .text false name => some name
  | _ => none

/-- The rest of a table in braces after one of its entries. -/
def inlineRest? (entries : OrderedMap String) : List Token → Option (OrderedMap String)
  | [.closeBrace] => some entries
  | .comma :: key :: .equals :: .text _ text :: rest => do
    let name ← name? key
    inlineRest? (← addNew? name text entries) rest
  | _ => none

/-- A table in braces, after the opening one. -/
def inline? : List Token → Option (OrderedMap String)
  | [.closeBrace] => some []
  | tokens => inlineRest? [] (.comma :: tokens)

/-- A value. -/
def value? : List Token → Option Setting
  | [.text _ text] => some (.text text)
  | .openBrace :: rest => (inline? rest).map (.table false)
  | _ => none

/-- The texts that can be added to under a name. -/
def extensible? (s : Settings) (name : String) : Option (OrderedMap String) :=
  match s.entries.lookup name with
  | none => some []
  | some (.table true entries) => some entries
  | some _ => none

/-- The table under the last heading. -/
def current? (s : Settings) (name : String) : Option (OrderedMap String) :=
  match s.entries.lookup name with
  | some (.table _ entries) => some entries
  | _ => none

/-- With one more setting. -/
def assign? (names : List String) (value : Setting) (s : Settings) : Option Settings :=
  match s.heading, names, value with
  | none, [name], value => do
    return { s with entries := ← addNew? name value s.entries }
  | none, [table, name], .text text => do
    let entries ← addNew? name text (← s.extensible? table)
    return { s with entries := s.entries.insert table (.table true entries) }
  | some table, [name], .text text => do
    let entries ← addNew? name text (← s.current? table)
    return { s with entries := s.entries.insert table (.table false entries) }
  | _, _, _ => none

/-- After a line. -/
def line? (s : Settings) : List Token → Option Settings
  | [] => some s
  | .openBracket :: rest =>
    match path? rest with
    | some ([name], [.closeBracket]) => do
      return { entries := ← addNew? name (.table false []) s.entries, heading := some name }
    | _ => none
  | tokens => do
    match ← path? tokens with
    | (names, .equals :: rest) => s.assign? names (← value? rest)
    | _ => none

/-- **The settings of a text.** -/
def parse? (text : String) : Option (OrderedMap Setting) := do
  let tokens ← Token.scan? text
  let s ← (tokens.splitOnP (· == .newline)).foldlM line? ({} : Settings)
  return s.entries

end Settings

end ClientGen.Toml
