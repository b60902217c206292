import ClientGen.Files.Path
import ClientGen.Proofs.Text.Lines
import Mathlib.Data.List.Induction

/-!
# The steps of a path

A path is read as steps between slashes, and most of what is asked of it depends on its solid steps
alone: those that are neither empty nor a single dot.

* `Path.IsName` — the texts that are names of files: `contained?` yields nothing else.
* `steps_ofNames`, `components_ofNames`, `contained?_ofNames`, `solidSteps_join` — names put
  together, and joined to a directory, are the steps again.
* `Path.Parent` — how a path and its parent are related: one solid step is taken away, and the text
  of the parent is the beginning of the text.

Everything about parents goes through `Parent`, so nothing after this module looks at the three ways
in which the text of a parent is put together.
-/

namespace ClientGen.Path

/-! ## Texts between slashes -/

/-- The two kinds of paths, and their steps. -/
theorem steps_cases (path : String) :
    (∃ cs, path.toList = '/' :: cs ∧ isAbsolute path = true ∧ steps path = cs.splitOnP (· == '/')) ∨
      isAbsolute path = false ∧ steps path = path.toList.splitOnP (· == '/') := by
  unfold isAbsolute steps
  split
  · rename_i cs text
    exact .inl ⟨cs, text, by simp [text], rfl⟩
  · rename_i absent
    refine .inr ⟨?_, rfl⟩
    cases text : path.toList with
    | nil => rfl
    | cons c cs =>
        have differs : c ≠ '/' := fun same => absent cs (same ▸ text)
        simpa using differs

/-- The slash in front of an absolute path. -/
def lead (path : String) : List Char :=
  if isAbsolute path then ['/'] else []

theorem intercalate_splitOnP (cs : List Char) :
    List.intercalate ['/'] (cs.splitOnP (· == '/')) = cs := by
  rw [← List.splitOn_eq_splitOnP]
  exact List.intercalate_splitOn '/'

theorem splitOnP_intercalate {parts : List (List Char)} (nonempty : parts ≠ [])
    (plain : ∀ part ∈ parts, '/' ∉ part) :
    (List.intercalate ['/'] parts).splitOnP (· == '/') = parts := by
  rw [← List.splitOn_eq_splitOnP]
  exact List.splitOn_intercalate '/' plain nonempty

theorem splitOnP_slash (xs ys : List Char) :
    (xs ++ '/' :: ys).splitOnP (· == '/') =
      xs.splitOnP (· == '/') ++ ys.splitOnP (· == '/') :=
  List.splitOnP_append_cons xs ys rfl

/-- A path is its steps with slashes between them. -/
theorem toList_eq (path : String) :
    path.toList = lead path ++ List.intercalate ['/'] (steps path) := by
  rcases steps_cases path with ⟨cs, text, absolute, split⟩ | ⟨relative, split⟩
  · simp [lead, absolute, text, split, intercalate_splitOnP]
  · simp [lead, relative, split, intercalate_splitOnP]

theorem slash_notMem_steps {path : String} {step : List Char} (member : step ∈ steps path) :
    '/' ∉ step := by
  intro inside
  rcases steps_cases path with ⟨cs, -, -, split⟩ | ⟨-, split⟩ <;>
  · rw [split] at member
    simpa using Text.notMem_of_mem_splitOnP member inside

/-- The steps of a relative path are those of its text. -/
theorem steps_of_relative {path : String} (relative : isAbsolute path = false) :
    steps path = path.toList.splitOnP (· == '/') := by
  rcases steps_cases path with ⟨-, -, absolute, -⟩ | ⟨-, split⟩
  · rw [relative] at absolute
    cases absolute
  · exact split

/-- Steps put together behind a slash are the steps of an absolute path. -/
theorem steps_absolute {parts : List (List Char)} (nonempty : parts ≠ [])
    (plain : ∀ part ∈ parts, '/' ∉ part) :
    isAbsolute (String.ofList ('/' :: List.intercalate ['/'] parts)) = true ∧
      steps (String.ofList ('/' :: List.intercalate ['/'] parts)) = parts := by
  simp [isAbsolute, steps, splitOnP_intercalate nonempty plain]

/-- Steps put together are the steps of a relative path, if the first one is not empty. -/
theorem steps_relative {part : List Char} {parts : List (List Char)} (nonempty : part ≠ [])
    (plain : ∀ p ∈ part :: parts, '/' ∉ p) :
    isAbsolute (String.ofList (List.intercalate ['/'] (part :: parts))) = false ∧
      steps (String.ofList (List.intercalate ['/'] (part :: parts))) = part :: parts := by
  obtain ⟨c, cs, rfl⟩ := List.exists_cons_of_ne_nil nonempty
  have differs : c ≠ '/' := fun same =>
    plain (c :: cs) (List.mem_cons_self ..) (same ▸ List.mem_cons_self ..)
  have relative :
      isAbsolute (String.ofList (List.intercalate ['/'] ((c :: cs) :: parts))) = false := by
    cases parts <;> simpa [isAbsolute, List.intercalate, List.intersperse] using differs
  refine ⟨relative, ?_⟩
  rw [steps_of_relative relative, String.toList_ofList,
    splitOnP_intercalate (List.cons_ne_nil _ _) plain]

/-! ## Solid steps -/

/-- **The steps that lead somewhere**: those that are neither empty nor a single dot. -/
def solidSteps (path : String) : List (List Char) :=
  (steps path).filter (!isVoid ·)

theorem isVoid_of_mem_solidSteps {path : String} {step : List Char}
    (member : step ∈ solidSteps path) : isVoid step = false := by
  simpa using (List.mem_filter.mp member).2

/-- **A name of a file**: a step that is neither void nor a double dot. -/
structure IsName (name : String) : Prop where
  /-- It is not void. -/
  solid : isVoid name.toList = false
  /-- It does not lead up. -/
  notUp : name.toList ≠ ['.', '.']
  /-- It is a single step. -/
  plain : '/' ∉ name.toList

instance (name : String) : Decidable (IsName name) :=
  decidable_of_iff (isVoid name.toList = false ∧ name.toList ≠ ['.', '.'] ∧ '/' ∉ name.toList)
    ⟨fun ⟨solid, notUp, plain⟩ => ⟨solid, notUp, plain⟩,
      fun ⟨solid, notUp, plain⟩ => ⟨solid, notUp, plain⟩⟩

theorem isName_of_component {path : String} {step : List Char} {name : String}
    (member : step ∈ (steps path).filter (!isVoid ·)) (same : component step = .name name) :
    IsName name := by
  obtain ⟨listed, solid⟩ := List.mem_filter.mp member
  unfold component at same
  split at same
  · cases same
  · rename_i notUp
    cases same
    exact ⟨by simpa using solid, by simpa using notUp, by simpa using slash_notMem_steps listed⟩

theorem isName_of_mem_components {path name : String} (member : .name name ∈ components path) :
    IsName name := by
  have listed : .name name ∈ ((steps path).filter (!isVoid ·)).map component := by
    unfold components at member
    split at member
    · simpa using member
    · split at member
      · simpa using member
      · exact member
  obtain ⟨step, inside, same⟩ := List.mem_map.mp listed
  exact isName_of_component inside same

/-- A walk keeps to names. -/
theorem isName_of_walk? {names : List String} {parts : List Component} {result : List String}
    (before : ∀ name ∈ names, IsName name) (all : ∀ name, .name name ∈ parts → IsName name)
    (walked : walk? names parts = some result) : ∀ name ∈ result, IsName name := by
  induction parts generalizing names with
  | nil =>
      rw [walk?_nil, Option.some.injEq] at walked
      intro name member
      exact before name (List.mem_reverse.mp (walked ▸ member))
  | cons part parts ih =>
      have later : ∀ name, .name name ∈ parts → IsName name := fun name member =>
        all name (List.mem_cons_of_mem _ member)
      cases part with
      | root => cases walked
      | here => exact ih before later walked
      | up =>
          cases names with
          | nil => cases walked
          | cons inner names =>
              exact ih (fun name member => before name (List.mem_cons_of_mem _ member)) later walked
      | name text =>
          refine ih ?_ later walked
          intro name member
          rcases List.mem_cons.mp member with rfl | earlier
          · exact all name (List.mem_cons_self ..)
          · exact before name earlier

/-- **A path below its directory is made of names**, and of at least one. -/
theorem isName_of_contained? {path : String} {names : List String}
    (inside : contained? path = some names) : names ≠ [] ∧ ∀ name ∈ names, IsName name := by
  unfold contained? at inside
  split at inside
  · rename_i walked
    cases inside
    refine ⟨List.cons_ne_nil _ _, ?_⟩
    refine isName_of_walk? ?_ (fun name => isName_of_mem_components) walked
    intro name member
    cases member
  · cases inside

/-! ## Names put together, and joined paths -/

theorem ofNames_eq (names : List String) :
    ofNames names = String.ofList (List.intercalate ['/'] (names.map String.toList)) := by
  rw [← String.toList_inj, ofNames, String.toList_intercalate]
  simp

/-- Names put together are a relative path, and its steps are the names. -/
theorem steps_ofNames {names : List String} (nonempty : names ≠ [])
    (all : ∀ name ∈ names, IsName name) :
    isAbsolute (ofNames names) = false ∧ steps (ofNames names) = names.map String.toList := by
  obtain ⟨name, names, rfl⟩ := List.exists_cons_of_ne_nil nonempty
  rw [ofNames_eq, List.map_cons]
  refine steps_relative ?_ ?_
  · intro empty
    have solid := (all name (List.mem_cons_self ..)).solid
    rw [empty] at solid
    cases solid
  · rw [← List.map_cons, List.forall_mem_map]
    exact fun name member => (all name member).plain

theorem filter_names {names : List String} (all : ∀ name ∈ names, IsName name) :
    (names.map String.toList).filter (!isVoid ·) = names.map String.toList := by
  rw [List.filter_eq_self, List.forall_mem_map]
  intro name member
  simp [(all name member).solid]

theorem walk?_names (before names : List String) :
    walk? before (names.map .name) = some (before.reverse ++ names) := by
  induction names generalizing before with
  | nil => simp
  | cons name names ih =>
      rw [List.map_cons, walk?, ih]
      simp

/-- The components of names put together are the names. -/
theorem components_ofNames {names : List String} (nonempty : names ≠ [])
    (all : ∀ name ∈ names, IsName name) : components (ofNames names) = names.map .name := by
  obtain ⟨relative, kept⟩ := steps_ofNames nonempty all
  have starts : startsHere (ofNames names) = false := by
    obtain ⟨name, names, rfl⟩ := List.exists_cons_of_ne_nil nonempty
    have solid := (all name (List.mem_cons_self ..)).solid
    rw [startsHere, kept, relative]
    simp only [List.map_cons, List.head?_cons, Bool.not_false, Bool.true_and]
    rw [beq_eq_false_iff_ne]
    intro dot
    rw [Option.some.inj dot] at solid
    cases solid
  unfold components
  rw [relative, starts, kept, filter_names all, List.map_map]
  refine List.map_congr_left fun name member => ?_
  simp [component, (all name member).notUp]

/-- **Names put together stay below their directory**, and they are the names of their path. -/
theorem contained?_ofNames {names : List String} (nonempty : names ≠ [])
    (all : ∀ name ∈ names, IsName name) : contained? (ofNames names) = some names := by
  have parts := components_ofNames nonempty all
  obtain ⟨name, names, rfl⟩ := List.exists_cons_of_ne_nil nonempty
  rw [contained?, parts, walk?_names]
  rfl

/-- A slash between two texts is a slash between their steps. -/
theorem steps_slash (front : List Char) {path : String} (relative : isAbsolute path = false) :
    isAbsolute (String.ofList (front ++ '/' :: path.toList)) =
        (front.isEmpty || isAbsolute (String.ofList front)) ∧
      steps (String.ofList (front ++ '/' :: path.toList)) =
        (if front = [] then [] else steps (String.ofList front)) ++ steps path := by
  rw [steps_of_relative relative]
  cases front with
  | nil => simp [isAbsolute, steps]
  | cons c cs =>
      by_cases absolute : c = '/'
      · subst absolute
        simp [isAbsolute, steps, splitOnP_slash]
      · have first : isAbsolute (String.ofList (c :: cs)) = false := by
          simpa [isAbsolute] using absolute
        have joined : isAbsolute (String.ofList (c :: cs ++ '/' :: path.toList)) = false := by
          simpa [isAbsolute] using absolute
        rw [steps_of_relative joined, String.toList_ofList, if_neg (List.cons_ne_nil _ _),
          steps_of_relative first, String.toList_ofList, joined, first, splitOnP_slash]
        exact ⟨rfl, rfl⟩

/-- **The steps of a joined path** are those of the directory, less the empty one behind its last
slash, and then those of the path. -/
theorem steps_join (dir : String) {path : String} (relative : isAbsolute path = false) :
    isAbsolute (join dir path) = isAbsolute dir ∧
      ∃ front, steps (join dir path) = front ++ steps path ∧
        (steps dir = front ∨ steps dir = front ++ [[]]) := by
  unfold join
  rw [if_neg (by simp [relative])]
  split
  · rename_i empty
    obtain rfl : dir = "" := by
      rw [← String.toList_inj]
      simpa using empty
    exact ⟨relative, [], rfl, .inr rfl⟩
  · rename_i last
    obtain ⟨front, text⟩ := List.getLast?_eq_some_iff.mp last
    have behind := @steps_slash front "" rfl
    have inFront := steps_slash front relative
    obtain rfl : dir = String.ofList (front ++ ['/']) := by
      rw [← String.toList_inj, text, String.toList_ofList]
    have joined : String.ofList (front ++ ['/']) ++ path =
        String.ofList (front ++ '/' :: path.toList) := by
      rw [← String.toList_inj]
      simp
    rw [joined]
    exact ⟨inFront.1.trans behind.1.symm, _, inFront.2, .inr behind.2⟩
  · rename_i c other last
    have nonempty : dir.toList ≠ [] := by
      intro empty
      rw [empty] at last
      cases last
    have inFront := steps_slash dir.toList relative
    have joined : dir ++ "/" ++ path = String.ofList (dir.toList ++ '/' :: path.toList) := by
      rw [← String.toList_inj]
      simp
    rw [joined]
    rw [String.ofList_toList, if_neg nonempty, List.isEmpty_eq_false_iff.mpr nonempty] at inFront
    exact ⟨inFront.1, _, inFront.2, .inl rfl⟩

theorem solidSteps_join (dir : String) {path : String} (relative : isAbsolute path = false) :
    solidSteps (join dir path) = solidSteps dir ++ solidSteps path := by
  obtain ⟨-, front, joined, kept | slashed⟩ := steps_join dir relative
  · rw [solidSteps, joined, List.filter_append, ← kept]
    rfl
  · have void : isVoid [] = true := rfl
    simp [solidSteps, joined, slashed, void]

/-- Every relative path is joined to a directory in the same way. -/
theorem exists_join_eq (dir : String) : ∃ front : List Char, dir.toList <+: front ∧
    ∀ {path : String}, isAbsolute path = false → (join dir path).toList = front ++ path.toList := by
  cases last : dir.toList.getLast? with
  | none =>
      refine ⟨[], by simpa using last, fun {path} relative => ?_⟩
      simp [join, relative, last]
  | some c =>
      by_cases slash : c = '/'
      · subst slash
        refine ⟨dir.toList, List.prefix_rfl, fun {path} relative => ?_⟩
        simp [join, relative, last]
      · refine ⟨dir.toList ++ ['/'], List.prefix_append _ _, fun {path} relative => ?_⟩
        simp [join, relative, last]

/-! ## Parents -/

theorem intercalate_begins (front rest : List (List Char)) :
    List.intercalate ['/'] front <+: List.intercalate ['/'] (front ++ rest) := by
  induction front with
  | nil => exact List.nil_prefix
  | cons part front ih =>
      cases front with
      | nil => cases rest <;> simp [List.intercalate, List.intersperse]
      | cons next front =>
          rw [List.cons_append, List.cons_append, List.intercalate_cons_cons,
            List.intercalate_cons_cons]
          exact (List.prefix_append_right_inj _).mpr ih

/-- Where the last solid one of some steps is, if there is one. -/
theorem backToComponent_cases (parts : List (List Char)) :
    (∀ part ∈ parts, isVoid part = true) ∧ backToComponent parts.reverse = [] ∨
      ∃ front part voids, parts = front ++ part :: voids ∧ isVoid part = false ∧
        (∀ v ∈ voids, isVoid v = true) ∧ backToComponent parts.reverse = part :: front.reverse := by
  induction parts using List.reverseRecOn with
  | nil => exact .inl ⟨by simp, rfl⟩
  | append_singleton parts last ih =>
      rw [List.reverse_append, List.reverse_singleton, List.singleton_append]
      by_cases void : isVoid last = true
      · rw [backToComponent, List.dropWhile_cons_of_pos void]
        rcases ih with ⟨all, none⟩ | ⟨front, part, voids, rfl, solid, all, found⟩
        · refine .inl ⟨?_, none⟩
          intro part member
          rcases List.mem_append.mp member with earlier | same
          · exact all part earlier
          · rwa [List.mem_singleton.mp same]
        · refine .inr ⟨front, part, voids ++ [last], by simp, solid, ?_, found⟩
          intro v member
          rcases List.mem_append.mp member with earlier | same
          · exact all v earlier
          · rwa [List.mem_singleton.mp same]
      · rw [backToComponent, List.dropWhile_cons_of_neg void]
        exact .inr ⟨parts, last, [], by simp, by simpa using void, by simp, rfl⟩

/-- **Where the last two solid ones of some steps are**, as far as there are any, and what is found
by going back to them. -/
inductive LastSolid (parts : List (List Char)) : Prop
  /-- There is no solid step. -/
  | none (all : ∀ v ∈ parts, isVoid v = true) (found : backToComponent parts.reverse = [])
  /-- There is one solid step. -/
  | one {front after : List (List Char)} {part : List Char} (split : parts = front ++ part :: after)
      (solid : isVoid part = false) (before : ∀ v ∈ front, isVoid v = true)
      (behind : ∀ v ∈ after, isVoid v = true)
      (found : backToComponent parts.reverse = part :: front.reverse)
      (above : backToComponent front.reverse = [])
  /-- There are two solid steps, and maybe more. -/
  | several {front voids after : List (List Char)} {last part : List Char}
      (split : parts = (front ++ [last]) ++ (voids ++ part :: after)) (firm : isVoid last = false)
      (between : ∀ v ∈ voids, isVoid v = true) (solid : isVoid part = false)
      (behind : ∀ v ∈ after, isVoid v = true)
      (found : backToComponent parts.reverse = part :: (front ++ last :: voids).reverse)
      (above : backToComponent (front ++ last :: voids).reverse = (front ++ [last]).reverse)

theorem lastSolid (parts : List (List Char)) : LastSolid parts := by
  rcases backToComponent_cases parts with
    ⟨all, found⟩ | ⟨front, part, after, split, solid, behind, found⟩
  · exact .none all found
  rcases backToComponent_cases front with
    ⟨before, above⟩ | ⟨front, last, voids, rfl, firm, between, above⟩
  · exact .one split solid before behind found above
  · exact .several (by simp [split]) firm between solid behind found (by rw [above]; simp)

/-- A path without anything behind its last solid step. -/
def IsTrim (path : String) : Prop :=
  solidSteps path = [] ∨ ∃ front part, steps path = front ++ [part] ∧ isVoid part = false

/-- **The parent of a path**: nothing where there is one solid step or none, and a beginning of the
path without its last solid step otherwise. -/
inductive Parent (path : String) : String → Prop where
  /-- A relative path of one step. -/
  | single (relative : isAbsolute path = false) (few : (solidSteps path).length ≤ 1) :
      Parent path ""
  /-- A path with something before its last step, which may be only where it starts. -/
  | inside {parent : String} (kind : isAbsolute parent = isAbsolute path)
      (step : List Char) (solid : solidSteps path = solidSteps parent ++ [step])
      (trim : IsTrim parent) (nonempty : parent ≠ "") (beginning : parent.toList <+: path.toList) :
      Parent path parent

theorem filter_of_void {voids : List (List Char)} (all : ∀ v ∈ voids, isVoid v = true) :
    voids.filter (!isVoid ·) = [] := by
  rw [List.filter_eq_nil_iff]
  intro v member
  simp [all v member]

theorem Parent.of_steps {path parent : String} {front voids after : List (List Char)}
    {part : List Char} (kind : isAbsolute parent = isAbsolute path)
    (split : steps path = front ++ (voids ++ part :: after)) (solid : isVoid part = false)
    (between : ∀ v ∈ voids, isVoid v = true) (behind : ∀ v ∈ after, isVoid v = true)
    (kept : steps parent = front) (trim : IsTrim parent) (nonempty : parent ≠ "") :
    Parent path parent := by
  refine .inside kind part ?_ trim nonempty ?_
  · simp [solidSteps, split, kept, filter_of_void between, filter_of_void behind, solid]
  · rw [toList_eq path, toList_eq parent, lead, lead, kind, kept, split]
    exact (List.prefix_append_right_inj _).mpr (intercalate_begins _ _)

/-- The first step of a relative path is empty only if the path is. -/
theorem eq_empty_of_steps {path : String} {rest : List (List Char)}
    (relative : isAbsolute path = false) (split : steps path = [] :: rest) : path = "" := by
  have text := toList_eq path
  rw [lead, relative, split] at text
  cases rest with
  | nil =>
      rw [← String.toList_inj]
      simpa using text
  | cons next rest =>
      have absolute : isAbsolute path = true := by simp [isAbsolute, text, List.intercalate]
      rw [relative] at absolute
      cases absolute

theorem steps_of_startsHere {path : String} (starts : startsHere path = true) :
    isAbsolute path = false ∧ ∃ tail, steps path = ['.'] :: tail := by
  simp only [startsHere, Bool.and_eq_true, Bool.not_eq_true', beq_iff_eq] at starts
  obtain ⟨tail, split⟩ := List.head?_eq_some_iff.mp starts.2
  exact ⟨starts.1, tail, split⟩

/-- Where nothing solid stands behind the slash of an absolute path but its last step, the root is
the parent. -/
theorem parent_root {path : String} {front after : List (List Char)} {part : List Char}
    (absolute : isAbsolute path = true) (split : steps path = front ++ part :: after)
    (solid : isVoid part = false) (before : ∀ v ∈ front, isVoid v = true)
    (behind : ∀ v ∈ after, isVoid v = true) : Parent path "/" := by
  refine .inside (absolute ▸ rfl) part ?_ (.inl rfl) (by decide) ?_
  · have root : (steps "/").filter (!isVoid ·) = [] := rfl
    simp only [solidSteps, root, split, List.filter_append, List.filter_cons, solid,
      filter_of_void before, filter_of_void behind]
    rfl
  · rw [toList_eq path, lead, absolute]
    exact List.prefix_append ['/'] _

theorem parent_absolute {path parent : String} (absolute : isAbsolute path = true)
    (above : parent? path = some parent) : Parent path parent := by
  simp only [parent?, absolute, if_true] at above
  cases lastSolid (steps path) with
  | none all found => simp [found] at above
  | one split solid before behind found up =>
      obtain rfl : "/" = parent := by simpa [found, up] using above
      exact parent_root absolute split solid before behind
  | @several front _ _ last _ split firm between solid behind found up =>
      have plain : ∀ p ∈ front ++ [last], '/' ∉ p := fun p member =>
        slash_notMem_steps (split ▸ List.mem_append_left _ member)
      simp only [found, up, List.reverse_reverse, Option.some.injEq] at above
      obtain ⟨kind, kept⟩ := steps_absolute (by simp) plain
      subst above
      refine .of_steps (kind.trans absolute.symm) split solid between behind kept
        (.inr ⟨front, last, kept, firm⟩) ?_
      intro empty
      simp [← String.toList_inj] at empty

theorem parent_here {path parent : String} (starts : startsHere path = true)
    (above : parent? path = some parent) : Parent path parent := by
  obtain ⟨relative, tail, whole⟩ := steps_of_startsHere starts
  have dot : isVoid ['.'] = true := rfl
  simp only [parent?, relative, starts, whole, Bool.false_eq_true, if_false, if_true,
    List.tail_cons] at above
  cases lastSolid tail with
  | none all found =>
      obtain rfl : "" = parent := by simpa [found] using above
      refine .single relative ?_
      simp [solidSteps, whole, dot, filter_of_void all]
  | @one front _ _ split solid before behind found up =>
      obtain rfl : "." = parent := by simpa [found, up] using above
      have kept : steps "." = [['.']] := rfl
      exact .of_steps relative.symm (by rw [whole, split]; rfl) solid before behind kept
        (.inl rfl) (by decide)
  | @several front voids after last part split firm between solid behind found up =>
      have split : steps path = (['.'] :: (front ++ [last])) ++ (voids ++ part :: after) := by
        rw [whole, split]
        rfl
      have plain : ∀ p ∈ ['.'] :: (front ++ [last]), '/' ∉ p := fun p member =>
        slash_notMem_steps (split ▸ List.mem_append_left _ member)
      have again : backToComponent (last :: front.reverse) = last :: front.reverse :=
        List.dropWhile_cons_of_neg (by simp [firm])
      rw [List.reverse_concat] at up
      rw [found] at above
      simp only [up, again, List.reverse_cons, List.reverse_reverse, Option.some.injEq] at above
      have joined : ['.', '/'] ++ List.intercalate ['/'] (front ++ [last]) =
          List.intercalate ['/'] (['.'] :: (front ++ [last])) := by
        cases front <;> rfl
      rw [joined] at above
      obtain ⟨kind, kept⟩ := steps_relative (by simp) plain
      subst above
      refine .of_steps (kind.trans relative.symm) split solid between behind kept
        (.inr ⟨['.'] :: front, last, kept, firm⟩) ?_
      intro empty
      rw [← joined] at empty
      simp [← String.toList_inj] at empty

theorem parent_relative {path parent : String} (relative : isAbsolute path = false)
    (starts : startsHere path = false) (above : parent? path = some parent) :
    Parent path parent := by
  simp only [parent?, relative, starts, Bool.false_eq_true, if_false] at above
  cases lastSolid (steps path) with
  | none all found => simp [found] at above
  | one split solid before behind found up =>
      obtain rfl : "" = parent := by simpa [found, up] using above
      refine .single relative ?_
      simp [solidSteps, split, filter_of_void before, filter_of_void behind, solid]
  | @several front _ _ last _ split firm between solid behind found up =>
      have plain : ∀ p ∈ front ++ [last], '/' ∉ p := fun p member =>
        slash_notMem_steps (split ▸ List.mem_append_left _ member)
      simp only [found, up, List.reverse_reverse, Option.some.injEq] at above
      obtain ⟨first, rest, begins⟩ := List.exists_cons_of_ne_nil (l := front ++ [last]) (by simp)
      have nonempty : first ≠ [] := by
        rintro rfl
        rw [begins] at split
        obtain rfl := eq_empty_of_steps relative split
        -- the only step of the empty path is empty
        have alone : steps "" = [[]] := rfl
        simp [alone] at split
      rw [begins] at above plain
      obtain ⟨kind, kept⟩ := steps_relative nonempty plain
      rw [List.nil_append] at above
      subst above
      rw [← begins] at kind kept ⊢
      refine .of_steps (kind.trans relative.symm) split solid between behind kept
        (.inr ⟨front, last, kept, firm⟩) ?_
      intro empty
      rw [empty] at kept
      have void : last = [] := by
        have ends := congrArg List.getLast? kept
        simpa [steps] using ends.symm
      rw [void] at firm
      cases firm

/-- **A parent is one solid step above.** -/
theorem parent_of_parent? {path parent : String} (above : parent? path = some parent) :
    Parent path parent := by
  by_cases absolute : isAbsolute path = true
  · exact parent_absolute absolute above
  · by_cases starts : startsHere path = true
    · exact parent_here starts above
    · exact parent_relative (by simpa using absolute) (by simpa using starts) above

/-- Only where there is no solid step is there no parent. -/
theorem solidSteps_of_parent? {path : String} (without : parent? path = none) :
    solidSteps path = [] := by
  by_cases starts : startsHere path = true
  · obtain ⟨relative, tail, whole⟩ := steps_of_startsHere starts
    simp only [parent?, relative, starts, Bool.false_eq_true, if_false, if_true] at without
    split at without
    · cases without
    · split at without <;> cases without
  · rcases backToComponent_cases (steps path) with
      ⟨all, -⟩ | ⟨front, part, after, split, solid, behind, found⟩
    · exact filter_of_void all
    · simp only [parent?, found, starts] at without
      split at without <;> cases without

end ClientGen.Path
