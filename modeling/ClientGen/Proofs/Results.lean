import ClientGen.Diagnostic
import Mathlib.Init

/-!
# Computations that have a result

A computation that may fail has a result iff its steps have theirs. What a successful run did is
therefore read off step by step.

* `bind_eq_ok_iff`, `map_eq_ok_iff`, `mapError_eq_ok_iff` — one step.
* `exists_of_mem_mapM`, `exists_of_mapM` — a walk along a list, seen from its results and from its
  items.

A result with notes is a pair, and the notes of two steps are joined in the order of the steps. So
noting obeys the laws of a monad, and a walk along a list yields the results of its steps and notes
what they note (`Noted.value_mapM`, `Noted.notes_mapM`).
-/

namespace ClientGen

variable {ε ε' α β : Type}

theorem bind_eq_ok_iff {x : Except ε α} {f : α → Except ε β} {b : β} :
    x >>= f = .ok b ↔ ∃ a, x = .ok a ∧ f a = .ok b := by
  constructor
  · intro result
    cases x with
    | error e => cases result
    | ok a => exact ⟨a, rfl, result⟩
  · rintro ⟨a, rfl, result⟩
    exact result

theorem map_eq_ok_iff {x : Except ε α} {f : α → β} {b : β} :
    x.map f = .ok b ↔ ∃ a, x = .ok a ∧ f a = b := by
  cases x with
  | error e => exact ⟨nofun, nofun⟩
  | ok a =>
      constructor
      · intro result
        exact ⟨a, rfl, Except.ok.inj result⟩
      · rintro ⟨b, same, rfl⟩
        obtain rfl := Except.ok.inj same
        rfl

theorem mapError_eq_ok_iff {f : ε → ε'} {x : Except ε α} {a : α} :
    x.mapError f = .ok a ↔ x = .ok a := by
  cases x with
  | error e => exact ⟨nofun, nofun⟩
  | ok b =>
      constructor
      · intro result
        exact congrArg Except.ok (Except.ok.inj result)
      · intro result
        exact congrArg Except.ok (Except.ok.inj result)

/-- What is among the results of a walk along a list is the result of a step. -/
theorem exists_of_mem_mapM {f : α → Except ε β} {items : List α} {results : List β}
    (walked : items.mapM f = .ok results) : ∀ b ∈ results, ∃ a ∈ items, f a = .ok b := by
  induction items generalizing results with
  | nil =>
      obtain rfl := Except.ok.inj walked
      exact List.forall_mem_nil _
  | cons item items ih =>
      rw [List.mapM_cons] at walked
      obtain ⟨first, here, walked⟩ := bind_eq_ok_iff.mp walked
      obtain ⟨rest, later, walked⟩ := bind_eq_ok_iff.mp walked
      obtain rfl := Except.ok.inj walked
      refine List.forall_mem_cons.mpr ⟨⟨item, List.mem_cons_self .., here⟩, fun b member => ?_⟩
      obtain ⟨a, listed, same⟩ := ih later b member
      exact ⟨a, List.mem_cons_of_mem _ listed, same⟩

/-- Every step of a walk along a list has a result. -/
theorem exists_of_mapM {f : α → Except ε β} {items : List α} {results : List β}
    (walked : items.mapM f = .ok results) : ∀ a ∈ items, ∃ b, f a = .ok b := by
  induction items generalizing results with
  | nil => exact List.forall_mem_nil _
  | cons item items ih =>
      rw [List.mapM_cons] at walked
      obtain ⟨first, here, walked⟩ := bind_eq_ok_iff.mp walked
      obtain ⟨rest, later, walked⟩ := bind_eq_ok_iff.mp walked
      exact List.forall_mem_cons.mpr ⟨⟨first, here⟩, ih later⟩

end ClientGen

namespace ClientGen.Noted

variable {α β : Type}

instance : LawfulMonad Noted := by
  refine LawfulMonad.mk' Noted ?_ ?_ ?_
  · intro α x
    show (⟨x.value, x.notes ++ []⟩ : Noted α) = x
    rw [List.append_nil]
  · intro α β a f
    show (⟨(f a).value, [] ++ (f a).notes⟩ : Noted β) = f a
    rw [List.nil_append]
  · intro α β γ x f g
    have notes := List.append_assoc x.notes (f x.value).notes (g (f x.value).value).notes
    exact congrArg (Noted.mk (g (f x.value).value).value) notes

@[simp] theorem value_map (f : α → β) (x : Noted α) : (f <$> x).value = f x.value := rfl

@[simp] theorem notes_map (f : α → β) (x : Noted α) : (f <$> x).notes = x.notes :=
  List.append_nil x.notes

/-- The results of a walk along a list are the results of its steps. -/
@[simp] theorem value_mapM (f : α → Noted β) (items : List α) :
    (items.mapM f).value = items.map fun item => (f item).value := by
  induction items with
  | nil => rfl
  | cons item items ih => simp [List.mapM_cons, ih]

/-- The notes of a walk along a list are the notes of its steps, one after the other. -/
@[simp] theorem notes_mapM (f : α → Noted β) (items : List α) :
    (items.mapM f).notes = items.flatMap fun item => (f item).notes := by
  induction items with
  | nil => rfl
  | cons item items ih => simp [List.mapM_cons, ih]

end ClientGen.Noted
