import ClientGen.Proofs.Files.Destination

/-!
# Paths that stay below their directory

A path is walked from left to right. A name leads further down, a double dot leads back to where the
last name was entered, and a walk that would leave its directory ends. Two descriptions of the same
thing do not walk at all: counting says which walks come to an end below the directory, and nesting
says which names are left of them.

* `Path.StaysInside` — never more double dots than names before them.
* `Path.Returns` — components that take back every name that they enter.
* `Path.Leaves` — the names that components leave: those that nothing takes back.
* `Path.Contained` — what the names of a path below its directory are.
* `Path.contained?_exact` — a path has such names iff the counts allow it, and these are the names.

A walk is taken apart at its end (`walk?_append`): what the last component does to the names that
are left decides, and the stack of the walk never has to be described.
-/

namespace ClientGen.Path

/-! ## Counting -/

/-- The name of a component that is one. -/
def Component.name? : Component → Option String
  | .name text => some text
  | _ => none

/-- The names among components. -/
def named (parts : List Component) : List String :=
  parts.filterMap Component.name?

@[simp] theorem named_nil : named [] = [] := rfl

@[simp] theorem named_here (parts : List Component) : named (.here :: parts) = named parts := rfl

@[simp] theorem named_up (parts : List Component) : named (.up :: parts) = named parts := rfl

@[simp] theorem named_name (text : String) (parts : List Component) :
    named (.name text :: parts) = text :: named parts := rfl

/-- **Read from left to right, there are never more double dots than names before them.** -/
def StaysInside (parts : List Component) : Prop :=
  ∀ front, front <+: parts → front.count .up ≤ (named front).length

theorem forall_prefix_cons {α : Type} {P : List α → Prop} {a : α} {as : List α} :
    (∀ front, front <+: a :: as → P front) ↔ P [] ∧ ∀ front, front <+: as → P (a :: front) := by
  constructor
  · intro every
    refine ⟨every [] List.nil_prefix, fun front inside => every _ ?_⟩
    exact (List.prefix_append_right_inj [a]).mpr inside
  · rintro ⟨first, later⟩ front inside
    rcases List.prefix_cons_iff.mp inside with rfl | ⟨rest, rfl, behind⟩
    · exact first
    · exact later rest behind

/-- **A walk ends below its directory** iff no root stands in its way and, together with the names
that were entered before, there are always enough names to take back. -/
theorem isSome_walk?_iff (names : List String) (parts : List Component) :
    (walk? names parts).isSome ↔ .root ∉ parts ∧
      ∀ front, front <+: parts → front.count .up ≤ names.length + (named front).length := by
  induction parts generalizing names with
  | nil => simp
  | cons part parts ih =>
      rw [forall_prefix_cons]
      cases part with
      | root => simp [walk?]
      | here =>
          rw [walk?, ih]
          simp
      | up =>
          cases names with
          | nil =>
              rw [walk?]
              constructor
              · intro ends
                cases ends
              · rintro ⟨-, -, every⟩
                have none := every [] List.nil_prefix
                simp at none
          | cons name names =>
              have taken (front : List Component) :
                  front.count .up + 1 ≤ names.length + 1 + (named front).length ↔
                    front.count .up ≤ names.length + (named front).length := by omega
              rw [walk?, ih]
              simp [taken]
      | name text =>
          rw [walk?, ih]
          simp [Nat.add_right_comm _ 1, Nat.add_assoc]

/-- What is left of a walk, and what was taken back, are the names. -/
theorem length_walk? {names result : List String} {parts : List Component}
    (walked : walk? names parts = some result) :
    result.length + parts.count .up = names.length + (named parts).length := by
  induction parts generalizing names with
  | nil =>
      rw [walk?_nil, Option.some.injEq] at walked
      simp [← walked]
  | cons part parts ih =>
      cases part with
      | root => cases walked
      | here => simpa using ih walked
      | up =>
          cases names with
          | nil => cases walked
          | cons name names =>
              have count := ih walked
              simp at count ⊢
              omega
      | name text =>
          have count := ih walked
          simp at count ⊢
          omega

/-! ## Nesting -/

/-- **Components that take back every name that they enter.** -/
inductive Returns : List Component → Prop
  /-- No components. -/
  | nil : Returns []
  /-- A dot leads nowhere. -/
  | here {rest : List Component} (behind : Returns rest) : Returns (.here :: rest)
  /-- A name, and the double dot that takes it back. -/
  | enter (text : String) {inside rest : List Component} (within : Returns inside)
      (behind : Returns rest) : Returns (.name text :: (inside ++ .up :: rest))

/-- **The names that components leave**: those that nothing takes back. -/
inductive Leaves : List Component → List String → Prop
  /-- Everything is taken back. -/
  | nothing {parts : List Component} (returns : Returns parts) : Leaves parts []
  /-- The first name that stays. -/
  | name (text : String) {before rest : List Component} {names : List String}
      (returns : Returns before) (behind : Leaves rest names) :
      Leaves (before ++ .name text :: rest) (text :: names)

theorem Returns.append {xs ys : List Component} (first : Returns xs) (second : Returns ys) :
    Returns (xs ++ ys) := by
  induction first with
  | nil => exact second
  | here _ ih => exact .here ih
  | enter text within _ _ ih =>
      rw [List.cons_append, List.append_assoc, List.cons_append]
      exact .enter text within ih

theorem Leaves.append {parts more : List Component} {names : List String}
    (leaves : Leaves parts names) (returns : Returns more) : Leaves (parts ++ more) names := by
  induction leaves with
  | nothing before => exact .nothing (before.append returns)
  | name text before _ ih =>
      rw [List.append_assoc, List.cons_append]
      exact .name text before ih

theorem Leaves.enter {parts : List Component} {names : List String} (leaves : Leaves parts names)
    (text : String) : Leaves (parts ++ [.name text]) (names ++ [text]) := by
  induction leaves with
  | nothing before => exact .name text before (.nothing .nil)
  | name first before _ ih =>
      rw [List.append_assoc, List.cons_append, List.cons_append]
      exact .name first before ih

/-- A double dot takes back the last name that is left. -/
theorem Leaves.up {parts : List Component} {names : List String} {last : String}
    (leaves : Leaves parts (names ++ [last])) : Leaves (parts ++ [.up]) names := by
  generalize left : names ++ [last] = found at leaves
  induction leaves generalizing names with
  | nothing => simp at left
  | @name text before rest later returns behind ih =>
      rw [List.append_assoc, List.cons_append]
      cases names with
      | nil =>
          -- the last name is the first one: behind it everything is taken back
          obtain ⟨rfl, rfl⟩ : last = text ∧ [] = later := by simpa using left
          cases behind with
          | nothing within => exact .nothing (returns.append (.enter last within .nil))
      | cons first names =>
          obtain ⟨rfl, same⟩ : first = text ∧ names ++ [last] = later := by simpa using left
          exact .name first returns (ih same)

/-! ## What a walk leaves -/

/-- **Components are walked one after the other.** -/
theorem walk?_append (names : List String) (xs ys : List Component) :
    walk? names (xs ++ ys) = (walk? names xs).bind fun left => walk? left.reverse ys := by
  induction xs generalizing names with
  | nil => simp
  | cons x xs ih =>
      cases x with
      | root => rfl
      | here => exact ih names
      | up =>
          cases names with
          | nil => rfl
          | cons name names => exact ih names
      | name text => exact ih (text :: names)

theorem walk?_of_returns {parts : List Component} (returns : Returns parts) (names : List String)
    (rest : List Component) : walk? names (parts ++ rest) = walk? names rest := by
  induction returns generalizing names rest with
  | nil => rfl
  | here _ ih => exact ih names rest
  | enter text _ _ inner outer =>
      rw [List.cons_append, List.append_assoc, List.cons_append, walk?, inner, walk?, outer]

theorem walk?_of_leaves {parts : List Component} {left : List String} (leaves : Leaves parts left)
    (names : List String) : walk? names parts = some (names.reverse ++ left) := by
  induction leaves generalizing names with
  | nothing returns =>
      have walked := walk?_of_returns returns names []
      simpa using walked
  | name text returns _ ih =>
      rw [walk?_of_returns returns, walk?, ih]
      simp

theorem leaves_of_walk? {parts : List Component} {left : List String}
    (walked : walk? [] parts = some left) : Leaves parts left := by
  induction parts using List.reverseRecOn generalizing left with
  | nil =>
      obtain rfl : [] = left := by simpa using walked
      exact .nothing .nil
  | append_singleton parts part ih =>
      rw [walk?_append, Option.bind_eq_some_iff] at walked
      obtain ⟨before, earlier, step⟩ := walked
      have leaves := ih earlier
      cases part with
      | root => cases step
      | here =>
          obtain rfl : before = left := by simpa [walk?] using step
          exact leaves.append (.here .nil)
      | up =>
          cases before using List.reverseRecOn with
          | nil => cases step
          | append_singleton before last =>
              obtain rfl : before = left := by simpa [walk?] using step
              exact leaves.up
      | name text =>
          obtain rfl : before ++ [text] = left := by simpa [walk?] using step
          exact leaves.enter text

/-- **A walk leaves the names that nothing takes back.** -/
theorem walk?_eq_some_iff {parts : List Component} {left : List String} :
    walk? [] parts = some left ↔ Leaves parts left :=
  ⟨leaves_of_walk?, fun leaves => walk?_of_leaves leaves []⟩

/-! ## Where a walk leads -/

/-- **A walk leads where the steps lead**, from every directory. -/
theorem foldl_move_of_walk? {steps : List (List Char)} (solid : ∀ s ∈ steps, isVoid s = false)
    {names left : List String} (walked : walk? names (steps.map component) = some left)
    (place : List String) :
    steps.foldl move (place ++ names.reverse) = place ++ left := by
  induction steps generalizing names with
  | nil =>
      obtain rfl : names.reverse = left := by simpa using walked
      rfl
  | cons step steps ih =>
      obtain ⟨firm, later⟩ := List.forall_mem_cons.mp solid
      rw [List.map_cons, component] at walked
      rw [List.foldl_cons, move, if_neg (by simp [firm])]
      split at walked
      · rename_i up
        rw [if_pos up]
        cases names with
        | nil => cases walked
        | cons name names =>
            rw [List.reverse_cons, ← List.append_assoc, List.dropLast_concat]
            exact ih later walked
      · rename_i notUp
        rw [if_neg notUp, List.append_assoc, ← List.reverse_cons]
        exact ih later walked

/-- The components of a relative path are its solid steps, but for a leading dot. -/
theorem components_of_relative {path : String} (relative : isAbsolute path = false) :
    components path = (solidSteps path).map component ∨
      components path = .here :: (solidSteps path).map component := by
  unfold components
  rw [relative, if_neg Bool.false_ne_true]
  split
  · exact .inr rfl
  · exact .inl rfl

theorem root_notMem_components_iff {path : String} :
    .root ∉ components path ↔ isAbsolute path = false := by
  constructor
  · intro absent
    rw [← Bool.not_eq_true]
    intro absolute
    simp [components, absolute] at absent
  · intro relative present
    have body : .root ∉ (solidSteps path).map component := by
      intro listed
      obtain ⟨step, -, same⟩ := List.mem_map.mp listed
      unfold component at same
      split at same <;> cases same
    rcases components_of_relative relative with plain | dotted
    · exact body (plain ▸ present)
    · rw [dotted] at present
      exact body (List.mem_of_ne_of_mem (by simp) present)

/-! ## Paths below their directory -/

theorem contained?_eq_some_iff {path : String} {names : List String} :
    contained? path = some names ↔ names ≠ [] ∧ Leaves (components path) names := by
  rw [← walk?_eq_some_iff]
  unfold contained?
  cases walk? [] (components path) with
  | none => simp
  | some left =>
      cases left with
      | nil => simp
      | cons name rest =>
          simp only [Option.some.injEq]
          exact ⟨fun same => ⟨same ▸ List.cons_ne_nil _ _, same⟩, And.right⟩

/-- **The names of a path below its directory.** -/
structure Contained (path : String) (names : List String) : Prop where
  /-- There is a name. -/
  nonempty : names ≠ []
  /-- They are the names that the path leaves. -/
  leaves : Leaves (components path) names
  /-- Each of them is a name of a file: not empty, no dot, no double dot, without a slash. -/
  isName : ∀ name ∈ names, IsName name
  /-- Put together, they are the only components. -/
  components : components (ofNames names) = names.map .name
  /-- From every directory, they lead where the path leads. -/
  destination : ∀ here dir, destination here (join dir (ofNames names)) =
    destination here (join dir path)
  /-- They lead below that directory. -/
  below : ∀ here dir, Path.destination here (join dir path) = Path.destination here dir ++ names
  /-- Put together, they are the names of their path. -/
  again : contained? (ofNames names) = some names

/-- Joined to a directory, a path leads to the names that it leaves. -/
theorem destination_join_of_leaves {path : String} {names : List String}
    (relative : isAbsolute path = false) (leaves : Leaves (components path) names)
    (here : List String) (dir : String) :
    destination here (join dir path) = destination here dir ++ names := by
  have walked : walk? [] ((solidSteps path).map component) = some names := by
    have whole := walk?_eq_some_iff.mpr leaves
    rcases components_of_relative relative with plain | dotted
    · rwa [plain] at whole
    · rwa [dotted] at whole
  have solid : ∀ s ∈ solidSteps path, isVoid s = false := fun s => isVoid_of_mem_solidSteps
  have moved := foldl_move_of_walk? solid walked (destination here dir)
  rw [destination, (steps_join dir relative).1, solidSteps_join dir relative, List.foldl_append,
    ← destination]
  simpa using moved

theorem contained?_eq_some_iff_contained {path : String} {names : List String} :
    contained? path = some names ↔ Contained path names := by
  constructor
  · intro inside
    obtain ⟨nonempty, leaves⟩ := contained?_eq_some_iff.mp inside
    obtain ⟨-, isName⟩ := isName_of_contained? inside
    have relative : isAbsolute path = false := by
      rw [← root_notMem_components_iff]
      have walked := walk?_eq_some_iff.mpr leaves
      exact ((isSome_walk?_iff [] _).mp (Option.isSome_of_eq_some walked)).1
    have below := destination_join_of_leaves relative leaves
    exact
      { nonempty, leaves, isName, below
        components := components_ofNames nonempty isName
        destination := fun here dir => by rw [below, destination_join here dir nonempty isName]
        again := contained?_ofNames nonempty isName }
  · intro contained
    exact contained?_eq_some_iff.mpr ⟨contained.nonempty, contained.leaves⟩

/-- **Containment is exact.** A path has names below its directory iff it is relative, never has
more double dots than names before them, and has more names than double dots in the end; and these
are the names that nothing takes back, which lead where the path leads. -/
theorem contained?_exact (path : String) :
    ((∃ names, contained? path = some names) ↔
      isAbsolute path = false ∧ StaysInside (components path) ∧
        (components path).count .up < (named (components path)).length) ∧
      ∀ names, contained? path = some names ↔ Contained path names := by
  refine ⟨?_, fun names => contained?_eq_some_iff_contained⟩
  have stays : (walk? [] (components path)).isSome ↔
      isAbsolute path = false ∧ StaysInside (components path) := by
    rw [isSome_walk?_iff, root_notMem_components_iff]
    simp only [List.length_nil, Nat.zero_add, StaysInside]
  rw [← and_assoc, ← stays]
  simp only [contained?_eq_some_iff, ← walk?_eq_some_iff]
  constructor
  · rintro ⟨names, nonempty, walked⟩
    have count := length_walk? walked
    have some := List.length_pos_iff.mpr nonempty
    rw [List.length_nil] at count
    exact ⟨Option.isSome_of_eq_some walked, by omega⟩
  · rintro ⟨ends, more⟩
    obtain ⟨names, walked⟩ := Option.isSome_iff_exists.mp ends
    have count := length_walk? walked
    rw [List.length_nil] at count
    exact ⟨names, List.length_pos_iff.mp (by omega), walked⟩

/-- A name and the double dot behind it lead nowhere, wherever they stand. -/
example : contained? "./a//../b/./c/" = some ["b", "c"] ∧ contained? "a/../../a/b" = none := by
  decide +kernel

end ClientGen.Path
