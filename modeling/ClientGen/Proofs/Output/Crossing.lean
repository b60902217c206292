import ClientGen.Proofs.Output.Repeating

/-!
# Paths through directories that go

A path may enter a directory by its name and leave it again by a double dot. Where the path leads
does not depend on that directory, but it has to be there on the way.

* `Path.Crosses` — a place on the way of a path, which is not its end.
* `follow_ne_ok_of_crosses` — a path through something that is missing is not found.
* `Within.follow_eq_ok` — where all that a path crosses is left, it still leads to its place.
* `Sound.follow_vacate` — when an empty directory goes, a path that does not cross it still leads to
  its place.
* `Path.not_crosses_of_isStraight` — a path without detours crosses nothing below its end.

The way out of a working directory that is gone does not count: it leads up by double dots alone,
and it can be found whatever has been removed.
-/

namespace ClientGen

namespace Path

/-- **A place on the way of a path**: some of its solid steps lead there, and there are more of
them. At least one name is among the steps, so a place that double dots alone lead through is not
meant. -/
def Crosses (here : List String) (path : String) (place : List String) : Prop :=
  ∃ front rest, solidSteps path = front ++ rest ∧ rest ≠ [] ∧ (∃ step ∈ front, step ≠ ['.', '.']) ∧
    front.foldl move (if isAbsolute path then [] else here) = place

/-- **A path without detours**: no double dot comes after a name. -/
def IsStraight (path : String) : Prop :=
  (solidSteps path).Pairwise fun step next => next = ['.', '.'] → step = ['.', '.']

instance (path : String) : Decidable (IsStraight path) :=
  inferInstanceAs (Decidable (List.Pairwise _ _))

/-- Double dots lead upwards. -/
theorem foldl_move_ups {steps : List (List Char)} (ups : ∀ step ∈ steps, step = ['.', '.'])
    (place : List String) : steps.foldl move place <+: place := by
  induction steps generalizing place with
  | nil => exact List.prefix_refl place
  | cons step steps ih =>
      rw [List.forall_mem_cons] at ups
      have up : move place step = place.dropLast := by
        rw [ups.1]
        rfl
      rw [List.foldl_cons, up]
      exact (ih ups.2 _).trans (List.dropLast_prefix place)

/-- Solid steps that are no double dots lead downwards, one name each. -/
theorem length_foldl_move {steps : List (List Char)} (solid : ∀ step ∈ steps, isVoid step = false)
    (names : ∀ step ∈ steps, step ≠ ['.', '.']) (place : List String) :
    (steps.foldl move place).length = place.length + steps.length := by
  induction steps generalizing place with
  | nil => rfl
  | cons step steps ih =>
      rw [List.forall_mem_cons] at solid names
      have down : move place step = place ++ [String.ofList step] := by
        rw [move, solid.1, if_neg Bool.false_ne_true, if_neg names.1]
      rw [List.foldl_cons, ih solid.2 names.2, down, List.length_append, List.length_singleton,
        List.length_cons]
      omega

/-- **A path without detours crosses nothing below its end**: behind a place on its way there are
only names, which lead further down. -/
theorem not_crosses_of_isStraight {path : String} (straight : IsStraight path)
    (here names : List String) : ¬Crosses here path (destination here path ++ names) := by
  rintro ⟨front, rest, split, proper, ⟨step, member, named⟩, led⟩
  have downwards : ∀ next ∈ rest, next ≠ ['.', '.'] := by
    intro next later up
    rw [IsStraight, split, List.pairwise_append] at straight
    exact named (straight.2.2 step member next later up)
  have solid : ∀ next ∈ rest, isVoid next = false := fun next later =>
    isVoid_of_mem_solidSteps (split ▸ List.mem_append_right front later)
  have long := length_foldl_move solid downwards (destination here path ++ names)
  have whole : rest.foldl move (destination here path ++ names) = destination here path := by
    rw [← led, ← List.foldl_append, ← split]
    rfl
  rw [whole, List.length_append] at long
  have more := List.length_pos_iff.mpr proper
  omega

end Path

namespace FileTree

open ClientGen.Path

/-! ## The way out of directories that are gone -/

/-- The way out leads up by double dots alone. -/
theorem up_of_climb {levels : Nat} {place last : List String} {front rest : List (List Char)}
    (climbed : climb levels place (front ++ rest) = .ok (last, rest)) :
    ∀ step ∈ front, isVoid step = true ∨ step = ['.', '.'] := by
  induction front generalizing levels place with
  | nil => nofun
  | cons step front ih =>
      rw [List.forall_mem_cons]
      cases levels with
      | zero =>
          rw [climb_zero, Except.ok.injEq, Prod.mk.injEq] at climbed
          exact absurd (List.append_left_eq_self.mp climbed.2) (List.cons_ne_nil _ _)
      | succ levels =>
          rw [List.cons_append, climb] at climbed
          split at climbed
          · rename_i void
            exact ⟨.inl void, ih climbed⟩
          · split at climbed
            · rename_i up
              exact ⟨.inr up, ih climbed⟩
            · cases climbed

/-- **The beginning of a path in a tree**: double dots that lead to where its steps start. -/
theorem start_solidSteps {t : FileTree} {path : String} {place : List String}
    {rest : List (List Char)} (started : t.start path (solidSteps path) = .ok (place, rest)) :
    ∃ way, solidSteps path = way ++ rest ∧ way.foldl move (t.origin path) = place ∧
      ∀ step ∈ way, step = ['.', '.'] := by
  obtain ⟨way, split, led⟩ := start_split started
  refine ⟨way, split, led, ?_⟩
  rw [split] at started
  unfold start at started
  split at started
  · rw [Except.ok.injEq, Prod.mk.injEq] at started
    rw [List.append_left_eq_self.mp started.2]
    nofun
  · intro step member
    refine (up_of_climb started step member).resolve_left fun void => ?_
    have solid := isVoid_of_mem_solidSteps (split ▸ List.mem_append_left rest member)
    rw [void] at solid
    cases solid

/-! ## A path and what it crosses -/

/-- **A path through something that is no directory leads nowhere.** -/
theorem follow_ne_ok_of_crosses {t : FileTree} {path : String} {place : List String}
    (crosses : Crosses t.here path place) (other : t.lookup? place ≠ some .directory)
    (last : List String) : t.follow path ≠ .ok last := by
  intro followed
  obtain ⟨front, rest, split, proper, ⟨step, member, named⟩, led⟩ := crosses
  obtain ⟨⟨first, later⟩, started, walked⟩ := bind_eq_ok_iff.mp followed
  obtain ⟨way, splitWay, ledWay, ups⟩ := start_solidSteps started
  rcases List.append_eq_append_iff.mp (split.symm.trans splitWay) with
    ⟨more, rfl, -⟩ | ⟨middle, rfl, rfl⟩
  · -- the place would be on the way out, which has no names
    exact named (ups step (List.mem_append_left more member))
  · dsimp only at walked
    rw [List.foldlM_append] at walked
    obtain ⟨reached, walkedFront, walked⟩ := bind_eq_ok_iff.mp walked
    obtain rfl : reached = place := by
      rw [foldlM_step_eq_ok walkedFront, ← ledWay, ← List.foldl_append]
      exact led
    obtain ⟨next, rest, rfl⟩ := List.exists_cons_of_ne_nil proper
    rw [List.foldlM_cons] at walked
    obtain ⟨_, stepped, -⟩ := bind_eq_ok_iff.mp walked
    exact other (step_eq_ok stepped).1

/-- Steps are made alike in trees that agree along them. -/
theorem foldlM_step_congr {t t' : FileTree} {steps : List (List Char)} {place : List String}
    (same : ∀ front rest, steps = front ++ rest → rest ≠ [] →
      t'.lookup? (front.foldl move place) = t.lookup? (front.foldl move place)) :
    steps.foldlM t'.step place = steps.foldlM t.step place := by
  induction steps generalizing place with
  | nil => rfl
  | cons step steps ih =>
      have here : t'.lookup? place = t.lookup? place :=
        same [] (step :: steps) rfl (List.cons_ne_nil _ _)
      have stepHere : t'.step place step = t.step place step := by
        unfold FileTree.step
        rw [here]
      rw [List.foldlM_cons, List.foldlM_cons, stepHere]
      cases stepped : t.step place step with
      | error fault => rfl
      | ok next =>
          obtain rfl := (step_eq_ok stepped).2
          refine ih fun front rest split proper => ?_
          exact same (step :: front) rest (by rw [split, List.cons_append]) proper

/-- **A path leads on where all that it crosses is left.** The places that only double dots lead
through are above a directory from which the path starts, so they are left anyway. -/
theorem Within.follow_eq_ok {t whole : FileTree} (within : Within t whole) (sound : t.Sound)
    {path : String} (starts : ∃ found, t.start path (solidSteps path) = .ok found)
    (kept : ∀ place, Crosses whole.here path place → t.lookup? place = whole.lookup? place)
    {last : List String} (followed : whole.follow path = .ok last) :
    t.follow path = .ok last := by
  obtain ⟨⟨first, rest⟩, started⟩ := starts
  obtain ⟨⟨firstWhole, restWhole⟩, startedWhole, walked⟩ := bind_eq_ok_iff.mp followed
  rcases within.start startedWhole with missing | ⟨front, later, place, same, split, led⟩
  · rw [started] at missing
    cases missing
  rw [started] at same
  cases same
  dsimp only at walked
  rw [split, List.foldlM_append] at walked
  obtain ⟨middle, walkedFront, walked⟩ := bind_eq_ok_iff.mp walked
  rw [foldlM_step_eq_ok walkedFront, led] at walked
  obtain ⟨way, splitWay, ledWay, ups⟩ := start_solidSteps started
  refine bind_eq_ok_iff.mpr ⟨_, started, Eq.trans (foldlM_step_congr ?_) walked⟩
  intro before after splitRest proper
  by_cases named : ∃ step ∈ way ++ before, step ≠ ['.', '.']
  · refine kept _ ⟨way ++ before, after, ?_, proper, named, ?_⟩
    · rw [splitWay, splitRest, List.append_assoc]
    · rw [List.foldl_append, ← ledWay, origin, within.here]
  · have upwards : ∀ step ∈ before, step = ['.', '.'] := by
      intro step member
      by_contra name
      exact named ⟨step, List.mem_append_right way member, name⟩
    have directory : t.lookup? (before.foldl move first) = some .directory := by
      obtain ⟨below, above⟩ := foldl_move_ups upwards first
      have present := sound.directory_of_start started
      by_cases nothing : below = []
      · rw [nothing, List.append_nil] at above
        rw [above, present]
      · rw [← above] at present
        exact sound.directory_of_append (by rw [present]; nofun) nothing
    rcases within.part (before.foldl move first) with absent | same
    · rw [directory] at absent
      cases absent
    · exact same

/-- **When an empty directory goes**, the path of the output directory still leads to its place,
unless it crosses the one that goes. -/
theorem Sound.follow_vacate {t : FileTree} (sound : t.Sound) {dir : String}
    {base names : List String} (nonempty : names ≠ []) (all : ∀ name ∈ names, IsName name)
    (followed : t.follow dir = .ok base)
    (located : t.follow (OutputPlan.target dir names) = .ok (base ++ names))
    (directory : t.lookup? (base ++ names) = some .directory)
    (empty : ∀ name, t.lookup? (base ++ names ++ [name]) = none)
    (apart : ¬Crosses t.here dir (base ++ names)) :
    (t.vacate (base ++ names)).follow dir = .ok base := by
  have inner : base ++ names ≠ [] := by simp [nonempty]
  obtain ⟨found, started, -⟩ := bind_eq_ok_iff.mp followed
  have part : Part t dir t := ⟨sound, .refl t, found, started⟩
  have smaller := part.vacate nonempty all located inner directory empty
  refine smaller.within.follow_eq_ok smaller.sound smaller.starts (fun place crosses => ?_) followed
  rw [lookup?_vacate inner, if_neg]
  rintro rfl
  exact apart crosses

end FileTree

end ClientGen
