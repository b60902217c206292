import ClientGen.Proofs.Order.Stable
import ClientGen.Proofs.OrderedMap.Entries
import ClientGen.Proofs.Output.Crossing

/-!
# Which directories are pruned

After the listed files are removed, the directories above them are pruned, deepest ones first. Each
of them is looked at once, when everything below it has had its turn, so it is known by then whether
anything will be left in it.

* `OutputPlan.IsAbove` — the directories above listed files, below the output directory.
* `FileTree.Holds` — something besides listed files and the directories above them is below a
  directory.
* `prune_eq_ok` — pruning one directory: it goes if it is empty.
* `pruneAll_eq_ok` — pruning several directories: those go that hold nothing but each other.
* `prunes_exactly` — what cleaning leaves of the directories.

There is one exception. Every directory is found along the path of the output directory, and that
path may cross one that is pruned (`sdk/old/..` crosses `sdk/old`). From then on nothing is found
any more, nothing more is pruned, and no error comes up.
-/

namespace ClientGen

open ClientGen.Path

/-! ## What is below a directory -/

namespace FileTree

variable {t : FileTree} {base names : List String} {files dirs : List String → Prop}

/-- At some names below a directory stands a file other than certain files, or a directory other
than certain directories. -/
def IsOther (t : FileTree) (base : List String) (files dirs : List String → Prop)
    (names : List String) : Prop :=
  (∃ text, t.lookup? (base ++ names) = some (.file text) ∧ ¬files names) ∨
    t.lookup? (base ++ names) = some .directory ∧ ¬dirs names

/-- **Something else is below a directory** than certain files and certain directories. -/
def Holds (t : FileTree) (base : List String) (files dirs : List String → Prop)
    (names : List String) : Prop :=
  ∃ rest, rest ≠ [] ∧ t.IsOther base files dirs (names ++ rest)

/-- Nothing is below an empty place. -/
theorem Sound.lookup?_of_empty (sound : t.Sound) {place rest : List String}
    (empty : ∀ name, t.lookup? (place ++ [name]) = none) (proper : rest ≠ []) :
    t.lookup? (place ++ rest) = none := by
  by_contra present
  obtain ⟨name, later, rfl⟩ := List.exists_cons_of_ne_nil proper
  by_cases single : later = []
  · exact present (single ▸ empty name)
  · have split : place ++ name :: later = place ++ [name] ++ later := by simp
    have directory := sound.directory_of_append (split ▸ present) single
    rw [empty] at directory
    cases directory

theorem Sound.not_holds_of_empty (sound : t.Sound)
    (empty : ∀ name, t.lookup? (base ++ names ++ [name]) = none) :
    ¬t.Holds base files dirs names := by
  rintro ⟨rest, proper, other⟩
  have absent := sound.lookup?_of_empty empty proper
  rw [List.append_assoc] at absent
  rw [IsOther, absent] at other
  simp at other

/-- What is below a directory is among the entries of the tree. -/
theorem holds_iff_exists_entry :
    t.Holds base files dirs names ↔ ∃ entry ∈ t.entries, base ++ names <+: entry.1 ∧
      entry.1 ≠ base ++ names ∧ t.IsOther base files dirs (entry.1.drop base.length) := by
  constructor
  · rintro ⟨rest, proper, other⟩
    have inner : base ++ (names ++ rest) ≠ [] := by simp [proper]
    obtain ⟨entry, found⟩ : ∃ entry, t.lookup? (base ++ (names ++ rest)) = some entry :=
      other.elim (fun ⟨text, file, _⟩ => ⟨_, file⟩) fun ⟨directory, _⟩ => ⟨_, directory⟩
    rw [lookup?, if_neg inner] at found
    obtain ⟨before, after, split, -⟩ := List.lookup_eq_some_iff.mp found
    refine ⟨(base ++ (names ++ rest), entry), split ▸ by simp, ?_, ?_, ?_⟩
    · exact List.append_assoc base names rest ▸ List.prefix_append ..
    · simpa using proper
    · simpa using other
  · rintro ⟨entry, -, ⟨rest, same⟩, further, other⟩
    rw [← same, List.append_assoc, List.drop_left] at other
    refine ⟨rest, ?_, other⟩
    rintro rfl
    exact further (same ▸ List.append_nil _)

instance [DecidablePred files] [DecidablePred dirs] : Decidable (t.IsOther base files dirs names) :=
  decidable_of_iff ((∃ text ∈ t.text? (base ++ names), ¬files names) ∨
      t.lookup? (base ++ names) = some .directory ∧ ¬dirs names) <| by
    simp only [IsOther, Option.mem_def, text?_eq_some]

instance [DecidablePred files] [DecidablePred dirs] : Decidable (t.Holds base files dirs names) :=
  decidable_of_iff _ holds_iff_exists_entry.symm

/-- Something stands directly below a place that is not empty. -/
theorem exists_lookup?_of_isEmptyAt {place : List String} (filled : t.isEmptyAt place = false) :
    ∃ name, t.lookup? (place ++ [name]) ≠ none := by
  simp only [isEmptyAt, Bool.not_eq_false', List.any_eq_true, Bool.and_eq_true, bne_iff_ne,
    beq_iff_eq] at filled
  obtain ⟨entry, member, inner, rfl⟩ := filled
  refine ⟨entry.1.getLast inner, ?_⟩
  rw [List.dropLast_concat_getLast inner, lookup?, if_neg inner, ne_eq, List.lookup_eq_none_iff]
  exact fun absent => by simpa using absent entry member

end FileTree

namespace OutputPlan

variable {t u u' : FileTree} {dir : String} {base names : List String}

/-! ## The order of pruning -/

/-- **A directory above a listed file**, below the output directory. -/
def IsAbove (listed : List (List String)) (names : List String) : Prop :=
  names ≠ [] ∧ ∃ rest ≠ [], names ++ rest ∈ listed

/-- The directories above listed files are those that may be left empty. -/
theorem isAbove_iff_mem {listed : List (List String)} :
    IsAbove listed names ↔ names ∈ emptied listed :=
  mem_emptied.symm

instance (listed : List (List String)) : DecidablePred (IsAbove listed) := fun names =>
  decidable_of_iff ((listed.flatMap above).contains names = true) <| by
    rw [isAbove_iff_mem, emptied, List.mem_mergeSort, List.mem_eraseDups, List.contains_iff_mem]

/-- A directory has its turn before another one. -/
def Before (a b : List String) : Prop :=
  isBefore a b = true ∧ a ≠ b

theorem isBefore_iff {a b : List String} :
    isBefore a b = true ↔ b.length < a.length ∨ a.length = b.length ∧ List.le a b := by
  have lower : (b.lex a fun s t => decide (s < t)) = true ↔ List.Lex (· < ·) b a := by
    rw [List.lex_eq_true_iff_lex]
    simp only [decide_eq_true_eq]
  simp only [isBefore, Bool.or_eq_true, decide_eq_true_eq, Bool.and_eq_true, beq_iff_eq,
    Bool.not_eq_true', Bool.eq_false_iff, ne_eq, lower]
  rfl

theorem orders_isBefore : Order.Orders isBefore fun names => names where
  trans a b c first second := by
    rw [isBefore_iff] at first second ⊢
    rcases first with deeper | ⟨level, le⟩
    · rcases second with further | ⟨level, -⟩ <;> exact .inl (by omega)
    · rcases second with further | ⟨level', further⟩
      · exact .inl (by omega)
      · exact .inr ⟨level.trans level', List.le_trans le further⟩
  total a b := by
    rw [Bool.or_eq_true, isBefore_iff, isBefore_iff]
    rcases Nat.lt_trichotomy a.length b.length with less | level | greater
    · exact .inr (.inl less)
    · have either : List.le a b ∨ List.le b a := List.le_total a b
      exact either.imp (fun le => .inr ⟨level, le⟩) fun le => .inr ⟨level.symm, le⟩
    · exact .inl (.inl greater)
  antisymm a b first second := by
    rw [isBefore_iff] at first second
    rcases first with deeper | ⟨level, le⟩
    · rcases second with further | ⟨level, -⟩ <;> omega
    · rcases second with further | ⟨-, ge⟩
      · omega
      · exact List.le_antisymm le ge
  refl a b same := isBefore_iff.mpr (.inr ⟨same ▸ rfl, same ▸ List.le_refl _⟩)

theorem Before.asymm {a b : List String} (before : Before a b) : ¬Before b a :=
  fun after => before.2 (orders_isBefore.antisymm a b before.1 after.1)

/-- What is below a directory has its turn before it. -/
theorem before_append (names : List String) {rest : List String} (proper : rest ≠ []) :
    Before (names ++ rest) names := by
  have more := List.length_pos_iff.mpr proper
  refine ⟨isBefore_iff.mpr (.inl ?_), fun same => proper (List.append_right_eq_self.mp same)⟩
  rw [List.length_append]
  omega

/-- Every directory that may be left empty has one turn, in order. -/
theorem pairwise_emptied (listed : List (List String)) : (emptied listed).Pairwise Before := by
  have sorted := List.pairwise_mergeSort orders_isBefore.trans orders_isBefore.total
    (listed.flatMap above).eraseDups
  have distinct : (emptied listed).Nodup :=
    (List.mergeSort_perm _ isBefore).nodup_iff.mpr (nodup_eraseDups _)
  exact sorted.and distinct

/-- The directories that may be left empty are known by their order. -/
theorem emptied_eq_of_perm {listed dirs : List (List String)}
    (same : ((listed.flatMap above).eraseDups).Perm dirs)
    (ordered : dirs.Pairwise fun a b => isBefore a b = true) : emptied listed = dirs :=
  List.Perm.eq_of_pairwise (fun a b _ _ => orders_isBefore.antisymm a b)
    (List.pairwise_mergeSort orders_isBefore.trans orders_isBefore.total _) ordered
    ((List.mergeSort_perm _ isBefore).trans same)

/-! ## Pruning one directory -/

/-- **What pruning a directory comes to.** -/
inductive Prunes (u : FileTree) (dir : String) (base names : List String) : FileTree → Prop where
  /-- It was empty, and it is gone. -/
  | gone (followed : u.follow (target dir names) = .ok (base ++ names))
      (directory : u.lookup? (base ++ names) = some .directory)
      (empty : ∀ name, u.lookup? (base ++ names ++ [name]) = none) :
      Prunes u dir base names (u.vacate (base ++ names))
  /-- It is left, unless it was not there. -/
  | left (filled : u.lookup? (base ++ names) = some .directory →
        ∃ name, u.lookup? (base ++ names ++ [name]) ≠ none) :
      Prunes u dir base names u

/-- A directory that stands below the output directory is not missing. -/
theorem isEmpty_ne_missing (sound : u.Sound) (nonempty : names ≠ [])
    (all : ∀ name ∈ names, IsName name) (followed : u.follow dir = .ok base)
    (present : u.lookup? (base ++ names) ≠ none) :
    u.isEmpty (target dir names) ≠ .error .missing := by
  have found := find_target_ne_missing sound nonempty all followed present
  intro missing
  rw [FileTree.isEmpty] at missing
  cases looked : u.find (target dir names) with
  | error fault =>
      rw [looked] at missing found
      cases missing
      exact found rfl
  | ok result =>
      rw [looked] at missing
      obtain ⟨place, entry⟩ := result
      cases entry <;> cases missing

/-- **Pruning one directory**: if it is there it goes iff it is empty. -/
theorem prune_eq_ok (sound : u.Sound) (nonempty : names ≠ []) (all : ∀ name ∈ names, IsName name)
    (followed : u.follow dir = .ok base)
    (pruned : u.run (prune (target dir names)) = (.ok (), u')) : Prunes u dir base names u' := by
  have led := destination_target_of_follow nonempty all followed
  rw [FileTree.run_prune] at pruned
  cases asked : u.isEmpty (target dir names) with
  | error fault =>
      rw [asked] at pruned
      cases fault with
      | refused => cases pruned
      | missing =>
          cases pruned
          refine .left fun directory => absurd asked ?_
          exact isEmpty_ne_missing sound nonempty all followed (by rw [directory]; nofun)
  | ok empty =>
      rw [asked] at pruned
      obtain ⟨⟨place, entry⟩, found, looked⟩ := bind_eq_ok_iff.mp asked
      obtain ⟨_, located, -⟩ := bind_eq_ok_iff.mp found
      obtain rfl := FileTree.locate_eq located
      obtain ⟨rfl, stands⟩ := FileTree.find_eq_ok found
      rw [led] at located
      cases entry with
      | file text => cases looked
      | directory =>
          cases looked
          rw [led] at pruned
          cases filled : u.isEmptyAt (base ++ names) with
          | false =>
              rw [filled] at pruned
              cases pruned
              exact .left fun _ => FileTree.exists_lookup?_of_isEmptyAt filled
          | true =>
              rw [filled] at pruned
              dsimp only at pruned
              rw [FileTree.run_attempt, FileTree.run_removeDirectory] at pruned
              cases removed : u.removeDirectory (target dir names) with
              | error fault =>
                  rw [removed] at pruned
                  cases pruned
              | ok middle =>
                  rw [removed] at pruned
                  cases pruned
                  obtain ⟨-, directory, empty, rfl⟩ := FileTree.removeDirectory_eq_ok removed
                  rw [led] at directory empty ⊢
                  exact .gone (FileTree.follow_of_locate located).2 directory empty

/-! ## Pruning several directories -/

/-- Pruning leaves everything but the directories whose turn it is. -/
theorem lookup?_pruneAll {todo : List (List String)}
    (all : ∀ names ∈ todo, names ≠ [] ∧ ∀ name ∈ names, IsName name) (u : FileTree) (dir : String)
    {place : List String} (others : ∀ names ∈ todo, place ≠ destination u.here dir ++ names) :
    (u.run (pruneAll dir todo)).2.lookup? place = u.lookup? place := by
  refine (pruneAll_invariant (P := fun w => w.here = u.here ∧ w.lookup? place = u.lookup? place)
    (fun w kept => kept.1) all ?_ ⟨rfl, rfl⟩).2
  intro w ⟨here, same⟩ names member directory empty
  have inner : destination u.here dir ++ names ≠ [] := by simp [(all names member).1]
  refine ⟨here, ?_⟩
  rw [FileTree.lookup?_vacate inner, if_neg (others names member), same]

theorem prune_of_lost (nonempty : names ≠ []) (all : ∀ name ∈ names, IsName name)
    (lost : ∀ place, u.follow dir ≠ .ok place)
    (pruned : u.run (prune (target dir names)) = (.ok (), u')) : u' = u := by
  rw [FileTree.run_prune] at pruned
  cases asked : u.isEmpty (target dir names) with
  | error fault =>
      rw [asked] at pruned
      cases fault with
      | refused => cases pruned
      | missing =>
          cases pruned
          rfl
  | ok empty =>
      obtain ⟨_, found, -⟩ := bind_eq_ok_iff.mp asked
      obtain ⟨_, located, -⟩ := bind_eq_ok_iff.mp found
      exact absurd (follow_of_locate_target nonempty all located) (lost _)

/-- **Where the output directory is not found, nothing is pruned.** -/
theorem pruneAll_of_lost {todo : List (List String)}
    (all : ∀ names ∈ todo, names ≠ [] ∧ ∀ name ∈ names, IsName name)
    (lost : ∀ place, u.follow dir ≠ .ok place)
    (pruned : u.run (pruneAll dir todo) = (.ok (), u')) : u' = u := by
  induction todo with
  | nil =>
      cases pruned
      rfl
  | cons names todo ih =>
      rw [List.forall_mem_cons] at all
      obtain ⟨⟨nonempty, isName⟩, others⟩ := all
      obtain ⟨_, middle, first, later⟩ := FileTree.run_bind_eq_ok pruned
      obtain rfl := prune_of_lost nonempty isName lost first
      exact ih others later

/-- No file at all. -/
def noFile (_ : List String) : Prop :=
  False

/-- **A directory that pruning leaves**: something else is below it, or an empty directory has its
turn before it without which the path of the output directory leads nowhere. -/
def Stays (u : FileTree) (dir : String) (base : List String) (files dirs : List String → Prop)
    (names : List String) : Prop :=
  u.Holds base files dirs names ∨
    ∃ other, dirs other ∧ Before other names ∧ u.lookup? (base ++ other) = some .directory ∧
      ¬u.Holds base files dirs other ∧ Crosses u.here dir (base ++ other)

/-! ## The directories that are still to be pruned

What has had its turn is gone, or it is a directory that something else is below. So it makes no
difference whether it is counted among the directories to be pruned. -/

section Turn

variable {x : List String} {todo : List (List String)}

/-- A directory that is gone is no longer below any other one. -/
theorem holds_vacate (inner : x ≠ []) (directory : u.lookup? (base ++ x) = some .directory) :
    (u.vacate (base ++ x)).Holds base noFile (· ∈ todo) names ↔
      u.Holds base noFile (· ∈ x :: todo) names := by
  have place_ne : base ++ x ≠ [] := by simp [inner]
  refine exists_congr fun rest => and_congr_right fun _ => ?_
  unfold FileTree.IsOther
  rw [FileTree.lookup?_vacate place_ne]
  by_cases same : names ++ rest = x
  · simp [same, directory]
  · simp [same]

/-- A directory that is left has something below it that has had its turn. -/
theorem holds_of_filled (ordered : (x :: todo).Pairwise Before)
    (filled : ∃ name, u.lookup? (base ++ x ++ [name]) ≠ none) :
    u.Holds base noFile (· ∈ x :: todo) x := by
  obtain ⟨name, present⟩ := filled
  rw [List.append_assoc] at present
  have late : x ++ [name] ∉ x :: todo := by
    have turn := before_append x (List.cons_ne_nil name [])
    intro member
    rcases List.mem_cons.mp member with same | member
    · exact turn.2 same
    · exact (List.rel_of_pairwise_cons ordered member).asymm turn
  refine ⟨[name], List.cons_ne_nil name [], ?_⟩
  cases found : u.lookup? (base ++ (x ++ [name])) with
  | none => exact absurd found present
  | some entry =>
      cases entry with
      | file text => exact .inl ⟨text, found, id⟩
      | directory => exact .inr ⟨found, late⟩

theorem holds_left (ordered : (x :: todo).Pairwise Before)
    (filled : u.lookup? (base ++ x) = some .directory →
      ∃ name, u.lookup? (base ++ x ++ [name]) ≠ none) :
    u.Holds base noFile (· ∈ todo) names ↔ u.Holds base noFile (· ∈ x :: todo) names := by
  constructor
  · rintro ⟨rest, proper, ⟨text, file, -⟩ | ⟨directory, other⟩⟩
    · exact ⟨rest, proper, .inl ⟨text, file, id⟩⟩
    · by_cases same : names ++ rest = x
      · -- what is below the directory itself stands for it
        obtain ⟨further, more, found⟩ := holds_of_filled ordered (filled (same ▸ directory))
        refine ⟨rest ++ further, by simp [proper], ?_⟩
        rwa [← List.append_assoc, same]
      · exact ⟨rest, proper, .inr ⟨directory, by simp [same, other]⟩⟩
  · rintro ⟨rest, proper, ⟨text, file, -⟩ | ⟨directory, other⟩⟩
    · exact ⟨rest, proper, .inl ⟨text, file, id⟩⟩
    · exact ⟨rest, proper, .inr ⟨directory, fun member => other (List.mem_cons_of_mem x member)⟩⟩

/-- The first directory whose turn it is does not depend on any other one. -/
theorem not_stays_of_turn (ordered : (x :: todo).Pairwise Before)
    (unheld : ¬u.Holds base noFile (· ∈ x :: todo) x) :
    ¬Stays u dir base noFile (· ∈ x :: todo) x := by
  rintro (held | ⟨other, member, before, -⟩)
  · exact unheld held
  · rcases List.mem_cons.mp member with rfl | member
    · exact before.2 rfl
    · exact (List.rel_of_pairwise_cons ordered member).asymm before

theorem stays_vacate (inner : x ≠ []) (directory : u.lookup? (base ++ x) = some .directory)
    (apart : ¬Crosses u.here dir (base ++ x)) :
    Stays (u.vacate (base ++ x)) dir base noFile (· ∈ todo) names ↔
      Stays u dir base noFile (· ∈ x :: todo) names := by
  have place_ne : base ++ x ≠ [] := by simp [inner]
  refine or_congr (holds_vacate inner directory) (exists_congr fun other => ?_)
  rw [holds_vacate inner directory, FileTree.lookup?_vacate place_ne]
  have here : (u.vacate (base ++ x)).here = u.here := rfl
  rw [here]
  by_cases same : other = x
  · subst same
    simp [apart]
  · simp [same]

theorem stays_left (ordered : (x :: todo).Pairwise Before)
    (filled : u.lookup? (base ++ x) = some .directory →
      ∃ name, u.lookup? (base ++ x ++ [name]) ≠ none) :
    Stays u dir base noFile (· ∈ todo) names ↔ Stays u dir base noFile (· ∈ x :: todo) names := by
  refine or_congr (holds_left ordered filled) (exists_congr fun other => ?_)
  rw [holds_left ordered filled]
  constructor
  · rintro ⟨member, rest⟩
    exact ⟨List.mem_cons_of_mem x member, rest⟩
  · rintro ⟨member, before, directory, empty, crosses⟩
    rcases List.mem_cons.mp member with rfl | member
    · exact absurd (holds_of_filled ordered (filled directory)) empty
    · exact ⟨member, before, directory, empty, crosses⟩

end Turn

/-- **Pruning several directories**, what is below a directory before the directory itself: it is
left iff something else is below it, or the output directory is not found any more. -/
theorem pruneAll_eq_ok {todo : List (List String)}
    (all : ∀ names ∈ todo, names ≠ [] ∧ ∀ name ∈ names, IsName name)
    (ordered : todo.Pairwise Before) (sound : u.Sound) (followed : u.follow dir = .ok base)
    (pruned : u.run (pruneAll dir todo) = (.ok (), u')) :
    ∀ names ∈ todo, u.lookup? (base ++ names) = some .directory →
      (u'.lookup? (base ++ names) = some .directory ↔
        Stays u dir base noFile (· ∈ todo) names) := by
  induction todo generalizing u with
  | nil => nofun
  | cons x todo ih =>
      rw [List.forall_mem_cons] at all
      obtain ⟨⟨nonempty, isName⟩, others⟩ := all
      obtain ⟨turn, orderedTodo⟩ := List.pairwise_cons.mp ordered
      obtain ⟨_, middle, first, later⟩ := FileTree.run_bind_eq_ok pruned
      have inner : base ++ x ≠ [] := by simp [nonempty]
      have base_eq : destination u.here dir = base := (FileTree.route_eq_ok followed).symm
      -- the directory has had its turn when the others are pruned
      have kept (here : middle.here = u.here) :
          u'.lookup? (base ++ x) = middle.lookup? (base ++ x) := by
        have last : u' = (middle.run (pruneAll dir todo)).2 := (congrArg Prod.snd later).symm
        rw [last]
        refine lookup?_pruneAll others middle dir fun other member same => ?_
        rw [here, base_eq] at same
        exact (turn other member).2 (List.append_cancel_left same)
      intro names member present
      cases prune_eq_ok sound nonempty isName followed first with
      | gone located directory empty =>
          have unheld : ¬u.Holds base noFile (· ∈ x :: todo) x := sound.not_holds_of_empty empty
          rcases List.mem_cons.mp member with rfl | member
          · have absent : u'.lookup? (base ++ names) = none := by
              rw [kept rfl, FileTree.lookup?_vacate inner, if_pos rfl]
            exact iff_of_false (by simp [absent]) (not_stays_of_turn ordered unheld)
          · have left : (u.vacate (base ++ x)).lookup? (base ++ names) = some .directory := by
              rw [FileTree.lookup?_vacate inner, if_neg, present]
              exact fun same => (turn names member).2 (List.append_cancel_left same).symm
            by_cases crosses : Crosses u.here dir (base ++ x)
            · -- nothing is found from now on
              have lost := FileTree.follow_ne_ok_of_crosses (t := u.vacate (base ++ x)) crosses
                (by simp [FileTree.lookup?_vacate inner])
              rw [pruneAll_of_lost others lost later]
              exact iff_of_true left
                (.inr ⟨x, List.mem_cons_self .., turn names member, directory, unheld, crosses⟩)
            · have followed' :=
                sound.follow_vacate nonempty isName followed located directory empty crosses
              rw [ih others orderedTodo (sound.vacate inner directory empty) followed' later names
                member left]
              exact stays_vacate nonempty directory crosses
      | left filled =>
          rcases List.mem_cons.mp member with rfl | member
          · refine iff_of_true ?_ (.inl (holds_of_filled ordered (filled present)))
            rw [kept rfl, present]
          · rw [ih others orderedTodo sound followed later names member present]
            exact stays_left ordered filled

/-! ## Cleaning -/

/-- Removing files makes no directories. -/
theorem directory_of_removeAll {listed : List (List String)}
    (all : ∀ names ∈ listed, names ≠ [] ∧ ∀ name ∈ names, IsName name) {count : Nat}
    (removed : t.run (removeAll dir listed) = (.ok count, u)) {place : List String}
    (directory : u.lookup? place = some .directory) : t.lookup? place = some .directory := by
  have kept : (t.run (removeAll dir listed)).2.here = t.here ∧
      ((t.run (removeAll dir listed)).2.lookup? place = some .directory →
        t.lookup? place = some .directory) := by
    refine removeAll_invariant (P := fun w => w.here = t.here ∧
      (w.lookup? place = some .directory → t.lookup? place = some .directory))
      (fun w kept => kept.1) all ?_ ⟨rfl, id⟩
    intro w ⟨here, kept⟩ names member text file
    refine ⟨here, fun directory => kept ?_⟩
    rw [FileTree.lookup?_erase (FileTree.ne_nil_of_file file)] at directory
    split at directory
    · cases directory
    · exact directory
  rw [removed] at kept
  exact kept.2 directory

/-- **When the listed files are removed**, nothing else is left than before. -/
theorem isOther_of_removed {listed : List (List String)}
    (texts : ∀ place, u.text? place =
      if ∃ names ∈ listed, place = base ++ names then none else t.text? place)
    (directories : ∀ place, u.lookup? place = some .directory ↔ t.lookup? place = some .directory) :
    u.IsOther base noFile (IsAbove listed) names ↔
      t.IsOther base (· ∈ listed) (IsAbove listed) names := by
  have listedHere : (∃ other ∈ listed, base ++ names = base ++ other) ↔ names ∈ listed := by
    simp only [List.append_cancel_left_eq]
    exact ⟨fun ⟨other, member, same⟩ => same ▸ member, fun member => ⟨names, member, rfl⟩⟩
  unfold FileTree.IsOther
  rw [directories]
  refine or_congr (exists_congr fun text => ?_) Iff.rfl
  rw [← FileTree.text?_eq_some, ← FileTree.text?_eq_some, texts, if_congr listedHere rfl rfl]
  split
  · rename_i member
    simp [member]
  · rename_i unlisted
    simp [unlisted, noFile]

/-- **A directory above a listed file** is left by a cleaning that succeeds iff pruning leaves it,
seen from the tree before the cleaning. -/
theorem directory_of_clean_iff (sound : t.Sound) {count : Nat}
    (cleaned : t.run (clean dir) = (.ok count, u)) (above : IsAbove (t.listed dir) names)
    (present : t.lookup? (destination t.here dir ++ names) = some .directory) :
    u.lookup? (destination t.here dir ++ names) = some .directory ↔
      Stays t dir (destination t.here dir) (· ∈ t.listed dir) (IsAbove (t.listed dir)) names := by
  have member := isAbove_iff_mem.mp above
  have emptied_eq : (· ∈ emptied (t.listed dir)) = IsAbove (t.listed dir) :=
    funext fun _ => propext isAbove_iff_mem.symm
  rw [run_clean] at cleaned
  cases read : t.manifest? dir with
  | none =>
      obtain ⟨-, rest, -, listed⟩ := above
      rw [FileTree.listed_of_none read] at listed
      cases listed
  | some manifest =>
      rw [read] at cleaned
      have all : ∀ names ∈ t.listed dir, names ≠ [] ∧ ∀ name ∈ names, IsName name :=
        fun names => FileTree.isName_of_mem_listed
      have followed := follow_of_manifest? read
      obtain ⟨_, middle, removing, cleaned⟩ := FileTree.run_bind_eq_ok cleaned
      obtain ⟨_, last, pruning, same⟩ := FileTree.run_bind_eq_ok cleaned
      cases same
      obtain ⟨soundMiddle, grown, texts, -⟩ := removeAll_eq_ok all sound followed removing
      have directories (place : List String) :
          middle.lookup? place = some .directory ↔ t.lookup? place = some .directory :=
        ⟨directory_of_removeAll all removing, grown.directory place⟩
      have holds (names : List String) :
          middle.Holds (destination t.here dir) noFile (IsAbove (t.listed dir)) names ↔
            t.Holds (destination t.here dir) (· ∈ t.listed dir) (IsAbove (t.listed dir)) names :=
        exists_congr fun rest => and_congr_right fun _ => isOther_of_removed texts directories
      rw [pruneAll_eq_ok (fun names => isName_of_mem_emptied all) (pairwise_emptied _) soundMiddle
        (grown.route followed) pruning names member ((directories _).mpr present), emptied_eq]
      unfold Stays
      simp only [holds, directories, grown.here]

/-- **Cleaning prunes exactly the directories in which nothing is left.** For every tree that can
be, whatever its manifest lists, a cleaning that succeeds treats the directories as follows.

A directory above a listed file is left iff something is below it that is neither a listed file nor
a directory above one, or if it has its turn after an empty directory that the path of the output
directory crosses. Where that path is straight the latter does not happen. Every other directory is
left, and none is made. -/
theorem prunes_exactly (sound : t.Sound) {count : Nat}
    (cleaned : t.run (clean dir) = (.ok count, u)) :
    let base := destination t.here dir
    let listed := t.listed dir
    (∀ names, IsAbove listed names → t.lookup? (base ++ names) = some .directory →
        (u.lookup? (base ++ names) = some .directory ↔
          t.Holds base (· ∈ listed) (IsAbove listed) names ∨
            ∃ other, IsAbove listed other ∧ Before other names ∧
              t.lookup? (base ++ other) = some .directory ∧
              ¬t.Holds base (· ∈ listed) (IsAbove listed) other ∧
              Crosses t.here dir (base ++ other))) ∧
      (IsStraight dir → ∀ names, IsAbove listed names →
        t.lookup? (base ++ names) = some .directory →
          (u.lookup? (base ++ names) = some .directory ↔
            t.Holds base (· ∈ listed) (IsAbove listed) names)) ∧
      (∀ place, u.lookup? place = some .directory → t.lookup? place = some .directory) ∧
      ∀ place, (∀ names, IsAbove listed names → place ≠ base ++ names) →
        t.lookup? place = some .directory → u.lookup? place = some .directory := by
  intro base listed
  have pruned : ∀ names, IsAbove listed names → t.lookup? (base ++ names) = some .directory →
      (u.lookup? (base ++ names) = some .directory ↔
        Stays t dir base (· ∈ listed) (IsAbove listed) names) :=
    fun names => directory_of_clean_iff sound cleaned
  have outcome (place : List String) :
      FileTree.Outcome base listed t u place := by
    have removals := removals_of_clean t dir
    rw [cleaned] at removals
    exact FileTree.outcome_of_removals removals place
  refine ⟨pruned, fun straight names above directory => ?_, fun place directory => ?_,
    fun place others directory => ?_⟩
  · rw [pruned names above directory]
    refine or_iff_left ?_
    rintro ⟨other, -, -, -, -, crosses⟩
    exact not_crosses_of_isStraight straight t.here other crosses
  · cases outcome place with
    | same same => rwa [← same]
    | file absent => simp [absent] at directory
    | directory absent => simp [absent] at directory
  · cases outcome place with
    | same same => rwa [same]
    | file _ before => simp [before] at directory
    | directory _ _ inner proper member place_eq =>
        exact absurd place_eq (others _ ⟨inner, _, proper, member⟩)

/-! ## Two directories and their manifests -/

/-- A manifest of two files, one of them two directories down. -/
def deepManifest : Manifest :=
  { files := ["client/v1/pets.ts", "index.ts"] }

/-- A directory with these files, and with two empty directories of somebody else. -/
def deepTree : FileTree :=
  { here := ["work"]
    entries :=
      [(["work"], .directory), (["work", "sdk"], .directory),
        (["work", "sdk", ".gen-manifest.json"], .file deepManifest.text),
        (["work", "sdk", "client"], .directory), (["work", "sdk", "client", "v1"], .directory),
        (["work", "sdk", "client", "v1", "pets.ts"], .file "pets"),
        (["work", "sdk", "client", "extra"], .directory),
        (["work", "sdk", "index.ts"], .file "index"), (["work", "sdk", "assets"], .directory),
        (["work", "sdk", "assets", "empty"], .directory)] }

theorem sound_deepTree : deepTree.Sound :=
  .of_entries (by decide) rfl

theorem manifest?_deepTree : deepTree.manifest? "sdk" = some deepManifest :=
  manifest?_of_readText rfl

theorem listed_deepTree :
    deepTree.listed "sdk" = [["client", "v1", "pets.ts"], ["index.ts"]] := by
  rw [FileTree.listed_of_some manifest?_deepTree]
  rfl

theorem clean_deepTree : (deepTree.run (clean "sdk")).1 = .ok 2 := by
  have turns : emptied [["client", "v1", "pets.ts"], ["index.ts"]] =
      [["client", "v1"], ["client"]] := emptied_eq_of_perm (by decide) (by decide)
  rw [run_clean, manifest?_deepTree, listed_deepTree, turns]
  decide +kernel

/-- The inner directory is pruned, the outer one and those of somebody else are left. -/
theorem prunes_exactly_deepTree :
    ∃ u, deepTree.Sound ∧ deepTree.run (clean "sdk") = (.ok 2, u) ∧
      u.lookup? ["work", "sdk", "client", "v1"] ≠ some .directory ∧
      u.lookup? ["work", "sdk", "client"] = some .directory ∧
      u.lookup? ["work", "sdk", "assets", "empty"] = some .directory := by
  have cleaned : deepTree.run (clean "sdk") = (.ok 2, (deepTree.run (clean "sdk")).2) :=
    Prod.ext clean_deepTree rfl
  have base : destination deepTree.here "sdk" = ["work", "sdk"] := rfl
  obtain ⟨-, straight, -, others⟩ := prunes_exactly sound_deepTree cleaned
  rw [base, listed_deepTree] at straight others
  refine ⟨_, sound_deepTree, cleaned, ?_, ?_, ?_⟩
  · exact mt (straight (by decide) ["client", "v1"] (by decide) rfl).mp (by decide)
  · exact (straight (by decide) ["client"] (by decide) rfl).mpr (by decide)
  · refine others ["work", "sdk", "assets", "empty"] (fun names above same => ?_) rfl
    have below : ["work", "sdk"] ++ ["assets", "empty"] = ["work", "sdk"] ++ names := same
    rw [← List.append_cancel_left below] at above
    exact absurd above (by decide)

/-- A manifest of two files in two directories. -/
def flatManifest : Manifest :=
  { files := ["client/pets.ts", "models/Pet.ts"] }

/-- The working directory with these files. -/
def flatTree : FileTree :=
  { here := ["work"]
    entries :=
      [(["work"], .directory), (["work", ".gen-manifest.json"], .file flatManifest.text),
        (["work", "client"], .directory), (["work", "client", "pets.ts"], .file "pets"),
        (["work", "models"], .directory), (["work", "models", "Pet.ts"], .file "Pet")] }

theorem sound_flatTree : flatTree.Sound :=
  .of_entries (by decide) rfl

theorem manifest?_flatTree : flatTree.manifest? "client/.." = some flatManifest :=
  manifest?_of_readText rfl

theorem listed_flatTree :
    flatTree.listed "client/.." = [["client", "pets.ts"], ["models", "Pet.ts"]] := by
  rw [FileTree.listed_of_some manifest?_flatTree]
  rfl

theorem run_clean_flatTree :
    flatTree.run (clean "client/..") = flatTree.run do
      let count ← removeAll "client/.." [["client", "pets.ts"], ["models", "Pet.ts"]]
      pruneAll "client/.." [["client"], ["models"]]
      return count := by
  have turns : emptied [["client", "pets.ts"], ["models", "Pet.ts"]] = [["client"], ["models"]] :=
    emptied_eq_of_perm (by decide) (by decide)
  rw [run_clean, manifest?_flatTree, listed_flatTree, turns]

theorem clean_flatTree :
    (flatTree.run (clean "client/..")).1 = .ok 2 ∧
      (flatTree.run (clean "client/..")).2.lookup? ["work", "models"] = some .directory := by
  rw [run_clean_flatTree]
  decide +kernel

/-- **A path with a detour keeps directories from being pruned.** The path of the working directory
leads through the first directory that is pruned, and after that the second one is not found: it is
left, although nothing is in it. -/
theorem not_prunes_flatTree :
    ∃ u, flatTree.Sound ∧ flatTree.run (clean "client/..") = (.ok 2, u) ∧
      destination flatTree.here "client/.." = ["work"] ∧
      IsAbove (flatTree.listed "client/..") ["models"] ∧
      flatTree.lookup? ["work", "models"] = some .directory ∧
      ¬flatTree.Holds ["work"] (· ∈ flatTree.listed "client/..")
        (IsAbove (flatTree.listed "client/..")) ["models"] ∧
      u.lookup? ["work", "models"] = some .directory := by
  have cleaned : flatTree.run (clean "client/..") =
      (.ok 2, (flatTree.run (clean "client/..")).2) :=
    Prod.ext clean_flatTree.1 rfl
  refine ⟨_, sound_flatTree, cleaned, rfl, ?_, rfl, ?_, clean_flatTree.2⟩
  · rw [listed_flatTree]
    decide
  · rw [listed_flatTree]
    decide

end OutputPlan

end ClientGen
