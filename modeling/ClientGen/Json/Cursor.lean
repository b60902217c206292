import ClientGen.Json.Source
import ClientGen.Reading

/-!
# Reading data from JSON texts

* `Cursor` — a value of a text, and how many arrays and objects may still be opened there.
* `Source.skip` — the first fault of a value that is passed over.
* `Source.value` — the value itself.
* `Cursor.choice` — one of several names.
* `Cursor.ofText` — the outermost value of a text, read to the end of the text.

**Order.** Faults and mismatches are met in the order of the text, and the first one is reported. A
value of the wrong type is read to its end if it is a number or a string, so that a fault in it
comes first; an array or an object is refused at its first character.

**Depth.** A text that is read may nest 127 arrays and objects. What is passed over may nest deeper.

**Records.** A record is an object with named members or an array with one item for each field.
-/

namespace ClientGen.Json

/-- How many arrays and objects may be open at one place of a text. -/
def depthLimit : Nat :=
  127

/-- Succeed unless there is a fault. -/
def check : Option Fault → Except Failure Unit
  | none => .ok ()
  | some f => .error (.fault f)

/-- The value of a lexeme. -/
def Lexeme.read {α : Type} (lexeme : Lexeme α) : Except Failure α :=
  lexeme.value.mapError .fault

/-- The room inside an array or object, if it may be opened. -/
def enter : (room : Nat) → Except Failure Nat
  | 0 => .error (.fault .malformed)
  | room + 1 => .ok room

namespace Source

mutual

/-- **The first fault of a value that is passed over.** -/
def skip : Source → Option Fault
  | .null => none
  | .bool _ => none
  | .number n => n.skipped
  | .string s => s.skipped
  | .array items atEnd => (skipItems items).or atEnd
  | .object members atEnd => (skipMembers members).or atEnd
  | .fault f => some f

/-- The first fault of items that are passed over. -/
def skipItems : List Source → Option Fault
  | [] => none
  | v :: vs => (skip v).or (skipItems vs)

/-- The first fault of members that are passed over. -/
def skipMembers : List (Lexeme String × Source) → Option Fault
  | [] => none
  | (k, v) :: ms => (k.skipped.or (skip v)).or (skipMembers ms)

end

mutual

/-- **The value of a tree**, members in their order and with repeated names. -/
def value (room : Nat) : Source → Except Failure Json
  | .null => .ok .null
  | .bool b => .ok (.bool b)
  | .number n => n.read.map .number
  | .string s => s.read.map .string
  | .array items atEnd => do
    let room ← enter room
    let items ← itemValues room items
    check atEnd
    return .array items
  | .object members atEnd => do
    let room ← enter room
    let members ← memberValues room members
    check atEnd
    return .object members
  | .fault f => .error (.fault f)

/-- The values of items. -/
def itemValues (room : Nat) : List Source → Except Failure (List Json)
  | [] => .ok []
  | v :: vs => do
    let item ← value room v
    let items ← itemValues room vs
    return item :: items

/-- The values of members. -/
def memberValues (room : Nat) :
    List (Lexeme String × Source) → Except Failure (List (String × Json))
  | [] => .ok []
  | (k, v) :: ms => do
    let name ← k.read
    let member ← value room v
    let members ← memberValues room ms
    return (name, member) :: members

end

/-- The failure to find what was expected. -/
def mismatch (expected : String) : Source → Failure
  | .null => .mismatch (.wrongType (shown .null) expected)
  | .bool b => .mismatch (.wrongType (shown (.bool b)) expected)
  | .number n =>
    match n.value with
    | .ok n => .mismatch (.wrongType n.shown expected)
    | .error f => .fault f
  | .string s =>
    match s.value with
    | .ok s => .mismatch (.wrongType (shownString s) expected)
    | .error f => .fault f
  | .array _ _ => .mismatch (.wrongType (shown (.array [])) expected)
  | .object _ _ => .mismatch (.wrongType (shown (.object [])) expected)
  | .fault f => .fault f

end Source

/-- **A place in a text.** -/
structure Cursor where
  /-- The value that stands there. -/
  source : Source
  /-- How many arrays and objects may still be opened. -/
  room : Nat

namespace Cursor

variable {α : Type}

/-- The failure to find what was expected. -/
def refuse (c : Cursor) (expected : String) : Except Failure α :=
  .error (c.source.mismatch expected)

/-- Nothing where a null stands. -/
def optional (read : Cursor → Except Failure α) (c : Cursor) : Except Failure (Option α) :=
  match c.source with
  | .null => .ok none
  | _ => (read c).map some

/-- A string. -/
def text (c : Cursor) : Except Failure String :=
  match c.source with
  | .string s => s.read
  | _ => c.refuse "a string"

/-- A truth value. -/
def flag (c : Cursor) : Except Failure Bool :=
  match c.source with
  | .bool b => .ok b
  | _ => c.refuse "a boolean"

/-- An integer from zero to `2 ^ 32 - 1`. -/
def natural (c : Cursor) : Except Failure Nat :=
  match c.source with
  | .number ⟨.ok (.int i), _⟩ =>
    if 0 ≤ i ∧ i < twoTo 32 then .ok i.toNat
    else .error (.mismatch (.wrongValue (Number.int i).shown "u32"))
  | _ => c.refuse "u32"

/-- An array. -/
def list (read : Cursor → Except Failure α) (c : Cursor) : Except Failure (List α) :=
  match c.source with
  | .array items atEnd => do
    let room ← enter c.room
    let values ← items.mapM fun item => read ⟨item, room⟩
    check atEnd
    return values
  | _ => c.refuse "a sequence"

/-- An object with values of one type. -/
def map (read : Cursor → Except Failure α) (c : Cursor) : Except Failure (OrderedMap α) :=
  match c.source with
  | .object members atEnd => do
    let room ← enter c.room
    let entries ← members.mapM fun (k, v) => do
      let name ← k.read
      let value ← read ⟨v, room⟩
      return (name, value)
    check atEnd
    return OrderedMap.ofEntries entries
  | _ => c.refuse "a map"

/-- Fields by their places: the record after the fields, of which `index` have been read. -/
def placedFields (kind : String) (room : Nat) (atEnd : Option Fault) (index : Nat) (record : α) :
    List (Field Cursor (Except Failure) α) → List Source → Except Failure α
  | [], [] => do
    check atEnd
    return record
  | [], _ :: _ => .error (.fault .malformed)
  | field :: fields, item :: items => do
    let change ← field.read ⟨item, room⟩
    placedFields kind room atEnd (index + 1) (change record) fields items
  | field :: fields, [] => do
    check atEnd
    match field.absence with
    | .allowed => placedFields kind room atEnd (index + 1) record fields []
    | _ => .error (.mismatch (.wrongLength index kind))

/-- Fields by their names: the record and the names that were there. -/
def namedFields (type : Record Cursor (Except Failure) α) (room : Nat) (record : α)
    (seen : List String) : List (Lexeme String × Source) → Except Failure (α × List String)
  | [] => .ok (record, seen)
  | (k, v) :: members => do
    let name ← k.read
    match type.field? name with
    | none =>
      check v.skip
      namedFields type room record seen members
    | some field =>
      if name ∈ seen then .error (.mismatch (.duplicateField name))
      else
        let change ← field.read ⟨v, room⟩
        namedFields type room (change record) (name :: seen) members

/-- The first field that has to be there and is not. -/
def missing? (fields : List (Field Cursor (Except Failure) α)) (seen : List String) :
    Option String :=
  (fields.find? fun field => field.absence == .refused && !seen.contains field.name).map (·.name)

/-- The kind of a record type, with its number of fields. -/
def countedKind (type : Record Cursor (Except Failure) α) : String :=
  "struct " ++ type.name ++ " with " ++ Text.decimal type.fields.length ++
    (if type.fields.length = 1 then " element" else " elements")

/-- A record. -/
def record (type : Record Cursor (Except Failure) α) (c : Cursor) : Except Failure α :=
  match c.source with
  | .array items atEnd => do
    let room ← enter c.room
    placedFields (countedKind type) room atEnd 0 type.blank type.fields items
  | .object members atEnd => do
    let room ← enter c.room
    let (record, seen) ← namedFields type room type.blank [] members
    check atEnd
    match missing? type.fields seen with
    | some name => .error (.mismatch (.missingField name))
    | none => return record
  | _ => c.refuse ("struct " ++ type.name)

/-- Any value. -/
def value (c : Cursor) : Except Failure Json :=
  c.source.value c.room

instance : Readable Cursor (Except Failure) where
  optional := optional
  text := text
  flag := flag
  list := list
  map := map
  record := record
  value := value

/-- The choice with a name. -/
def chosen (choices : List (String × α)) (name : String) : Except Failure α :=
  match choices.lookup name with
  | some choice => .ok choice
  | none => .error (.mismatch (.unknownVariant name (choices.map (·.1))))

/-- One of several names, alone or as the only name of an object with the value null. -/
def choice (choices : List (String × α)) (c : Cursor) : Except Failure α :=
  match c.source with
  | .string s => do chosen choices (← s.read)
  | .object members atEnd => do
    let _ ← enter c.room
    match members with
    | [] => .error (.fault (atEnd.getD .malformed))
    | (k, v) :: rest =>
      let choice ← chosen choices (← k.read)
      match v with
      | .null =>
        check (if rest.isEmpty then atEnd else some .malformed)
        return choice
      | v => .error (v.mismatch "unit")
  | .fault f => .error (.fault f)
  | _ => .error (.fault .malformed)

/-- **What a reader makes of a whole text.** -/
def ofText (read : Cursor → Except Failure α) (text : String) : Except Failure α := do
  let tree := Source.parse text
  let result ← read ⟨tree.value, depthLimit⟩
  check tree.atEnd
  return result

end Cursor

/-- **The value of a text**, members in their order and with repeated names. -/
def parse (text : String) : Except Failure Json :=
  Cursor.ofText Cursor.value text

end ClientGen.Json
