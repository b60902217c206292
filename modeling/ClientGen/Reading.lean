import ClientGen.Json.Value

/-!
# Reading data from trees

A document comes as a tree, in one of several notations. How its parts are read is said once, for
every kind of tree that offers the readers of this module.

* `Readable` — a kind of tree that data can be read from.
* `Record` — a record type: its name, its fields, and the record before anything is read.
* `Field.optional`, `Field.withDefault`, `Field.required` — the three kinds of fields.

**Absence.** A required field has to be there. The other two need not, but they differ where a
record is written as a plain list of its fields: there only a field with a default may be left out.
An optional field moreover takes an explicit null for absence.

**Effects.** Reading happens in a monad that belongs to the kind of tree: it holds the failures, and
whatever else has to be kept on the way.
-/

namespace ClientGen

/-- What it means that a field is not there. -/
inductive Absence where
  /-- A fault. -/
  | refused
  /-- Nothing, unless fields are told apart by their places. -/
  | named
  /-- Nothing. -/
  | allowed
  deriving DecidableEq, Repr

/-- **A field of a record**: what is read changes the record. -/
structure Field (σ : Type) (m : Type → Type) (α : Type) where
  /-- The name of the field. -/
  name : String
  /-- What it means that the field is not there. -/
  absence : Absence
  /-- The change that a tree makes. -/
  read : σ → m (α → α)

/-- **A record type.** -/
structure Record (σ : Type) (m : Type → Type) (α : Type) where
  /-- The name of the type. -/
  name : String
  /-- The record in which nothing is there. -/
  blank : α
  /-- The fields in order. -/
  fields : List (Field σ m α)

/-- The field with a name. -/
def Record.field? {σ : Type} {m : Type → Type} {α : Type} (r : Record σ m α) (name : String) :
    Option (Field σ m α) :=
  r.fields.find? (·.name == name)

/-- **A kind of tree that data can be read from.** -/
class Readable (σ : Type) (m : outParam (Type → Type)) where
  /-- Nothing where the tree is a null, otherwise what a reader makes of it. -/
  optional : {α : Type} → (σ → m α) → σ → m (Option α)
  /-- A text. -/
  text : σ → m String
  /-- A truth value. -/
  flag : σ → m Bool
  /-- A list. -/
  list : {α : Type} → (σ → m α) → σ → m (List α)
  /-- A map. -/
  map : {α : Type} → (σ → m α) → σ → m (OrderedMap α)
  /-- A record. -/
  record : {α : Type} → Record σ m α → σ → m α
  /-- Any value, members in their order and with repeated names. -/
  value : σ → m Json

namespace Field

variable {σ : Type} {m : Type → Type} {α β : Type} [Monad m]

/-- A field that has to be there. -/
def required (name : String) (read : σ → m β) (put : β → α → α) : Field σ m α :=
  ⟨name, .refused, fun tree => put <$> read tree⟩

/-- A field that keeps its first value if it is not there. -/
def withDefault (name : String) (read : σ → m β) (put : β → α → α) : Field σ m α :=
  ⟨name, .allowed, fun tree => put <$> read tree⟩

/-- A field that may be null or absent. -/
def optional [Readable σ m] (name : String) (read : σ → m β) (put : Option β → α → α) :
    Field σ m α :=
  ⟨name, .named, fun tree => put <$> Readable.optional read tree⟩

/-- A field that may be null or absent, also in a plain list of fields. -/
def optionalAnywhere [Readable σ m] (name : String) (read : σ → m β)
    (put : Option β → α → α) : Field σ m α :=
  ⟨name, .allowed, fun tree => put <$> Readable.optional read tree⟩

end Field

end ClientGen
