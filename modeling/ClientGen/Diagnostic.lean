import ClientGen.Json.Printer

/-!
# Diagnostics

What cannot be taken over from a document is noted, and the work goes on.

* `Diagnostic` — one note: how bad it is, a code, a message, and a place in the document.
* `Diagnostic.line` — its line for people.
* `Diagnostic.toJson` — its record for programs.
* `Diagnostic.anyError` — whether nothing may be written because of them.
* `Noted` — a result with the diagnostics noted on the way to it.
-/

namespace ClientGen

/-- **How bad a diagnostic is.** -/
inductive Severity where
  /-- Something was approximated or left out. -/
  | warning
  /-- Nothing may be written. -/
  | error
  deriving DecidableEq, Repr, Inhabited

/-- The name of a severity. -/
def Severity.name : Severity → String
  | .warning => "warning"
  | .error => "error"

/-- **A note about a document.** -/
structure Diagnostic where
  /-- How bad it is. -/
  severity : Severity
  /-- What kind of note it is. -/
  code : String
  /-- The note in words. -/
  message : String
  /-- The place in the document. -/
  pointer : Option String
  deriving DecidableEq, Repr, Inhabited

namespace Diagnostic

/-- **The line of a diagnostic.** -/
def line (d : Diagnostic) : String :=
  "[" ++ d.severity.name ++ "] " ++ d.code ++ " " ++ d.message ++
    match d.pointer with
    | some pointer => " (" ++ pointer ++ ")"
    | none => ""

/-- **The record of a diagnostic.** -/
def toJson (d : Diagnostic) : Json :=
  .object <|
    [("level", .string d.severity.name), ("code", .string d.code),
      ("message", .string d.message)] ++
    match d.pointer with
    | some pointer => [("pointer", .string pointer)]
    | none => []

/-- **Whether there is an error.** -/
def anyError (ds : List Diagnostic) : Bool :=
  ds.any (·.severity == .error)

end Diagnostic

/-- **A result with the diagnostics noted on the way to it**, in the order of discovery. -/
structure Noted (α : Type) where
  /-- The result. -/
  value : α
  /-- The diagnostics. -/
  notes : List Diagnostic
  deriving Repr

namespace Noted

variable {α β : Type}

instance : Monad Noted where
  pure value := ⟨value, []⟩
  bind x f :=
    let y := f x.value
    ⟨y.value, x.notes ++ y.notes⟩

/-- Note a warning. -/
def warn (code message : String) (pointer : Option String) : Noted Unit :=
  ⟨(), [{ severity := .warning, code, message, pointer }]⟩

@[simp] theorem value_pure (a : α) : (pure a : Noted α).value = a := rfl

@[simp] theorem notes_pure (a : α) : (pure a : Noted α).notes = [] := rfl

@[simp] theorem value_bind (x : Noted α) (f : α → Noted β) :
    (x >>= f).value = (f x.value).value := rfl

@[simp] theorem notes_bind (x : Noted α) (f : α → Noted β) :
    (x >>= f).notes = x.notes ++ (f x.value).notes := rfl

end Noted

end ClientGen
