import ClientGen.Naming
import Mathlib.Data.Finset.Card
import Mathlib.Data.List.Nodup
import Mathlib.Data.List.Perm.Subperm
import Mathlib.Data.Nat.Find
import Mathlib.Logic.Function.Iterate

/-!
# Free names

`Naming.freeName` gives a candidate its own name if that is free, and otherwise the candidate
followed by the least number from two upwards that frees it. The search is bounded by the number of
names that are taken, and the bound is never what ends it: as many failures use up every taken name.

* `Naming.IsNextFree` — what the least number has to satisfy.
* `Naming.isNextFree_freeName` — the search finds it.
* `Naming.exists_uniqueAll_middle` — the name of one candidate of many.
* `Naming.nodup_uniqueAll` — the names of all candidates are different.
* `Naming.Takes` — names that are taken in steps, `Naming.Takes.trans` — one step after the other.
* `Naming.uniqueAll_eq_self_iff` — candidates that are distinct and free keep their names.
* `Naming.mem_uniqueAll_of_mem` — every candidate is among them, as long as nothing is taken before.
* `Naming.unique_firstFree` — a search without a bound ends with the name that is given.

The search without a bound (`Naming.Search`) tries a name by putting it into the set of taken names,
which changes the set exactly if the name was free. It ends because the names that are tried are all
different (`Naming.attempt_injective`) and the set is finite.
-/

namespace ClientGen.Naming

/-! ## Numbered names -/

theorem toList_numbered (name : String) (k : Nat) :
    (numbered name k).toList = name.toList ++ Nat.toDigits 10 k := by
  simp [numbered, Text.decimal, Nat.toString_eq_repr, Nat.toList_repr]

theorem decimal_injective {i j : Nat} (same : Text.decimal i = Text.decimal j) : i = j := by
  have digits : Nat.toDigits 10 i = Nat.toDigits 10 j := by
    simpa only [Text.decimal, Nat.toString_eq_repr, Nat.toList_repr] using
      congrArg String.toList same
  simpa using congrArg (fun ds => Nat.ofDigitChars 10 ds 0) digits

theorem numbered_injective {name : String} {i j : Nat} (same : numbered name i = numbered name j) :
    i = j :=
  decimal_injective (String.append_right_inj name |>.mp same)

/-- A number makes a name longer. -/
theorem numbered_ne (name : String) (k : Nat) : numbered name k ≠ name := by
  intro same
  have longer : Nat.toDigits 10 k = [] := by
    simpa [toList_numbered] using congrArg String.toList same
  exact absurd longer Nat.toDigits_ne_nil

/-! ## The least number -/

/-- **The next free name** after a candidate: the candidate with the least number from two upwards
that frees it. -/
def IsNextFree (taken : String → Prop) (candidate name : String) : Prop :=
  ∃ k, 2 ≤ k ∧ name = numbered candidate k ∧ ¬ taken name ∧
    ∀ i, 2 ≤ i → i < k → taken (numbered candidate i)

/-- There is only one next free name. -/
theorem IsNextFree.unique {taken : String → Prop} {candidate name other : String}
    (first : IsNextFree taken candidate name) (second : IsNextFree taken candidate other) :
    name = other := by
  obtain ⟨k, two_le, rfl, free, below⟩ := first
  obtain ⟨l, two_le', rfl, free', below'⟩ := second
  rcases Nat.lt_trichotomy k l with less | rfl | greater
  · exact absurd (below' k two_le less) free
  · rfl
  · exact absurd (below l two_le' greater) free'

/-- Different names that are more than the taken ones are not all taken. -/
theorem exists_notMem_of_injective {name : Nat → String} (injective : Function.Injective name)
    (taken : List String) : ∃ i ≤ taken.length, name i ∉ taken := by
  by_contra all
  have nodup : ((List.range (taken.length + 1)).map name).Nodup :=
    List.Nodup.map injective List.nodup_range
  have subset : (List.range (taken.length + 1)).map name ⊆ taken := by
    intro x member
    obtain ⟨i, listed, rfl⟩ := List.mem_map.mp member
    by_contra free
    exact all ⟨i, Nat.le_of_lt_succ (List.mem_range.mp listed), free⟩
  have bound := (List.subperm_of_subset nodup subset).length_le
  rw [List.length_map, List.length_range] at bound
  omega

/-- The search stops at the first number whose name is free, if its bound allows. -/
theorem firstFree_spec (name : String) (taken : List String) (tries k : Nat) :
    ∃ j, k ≤ j ∧ j ≤ k + tries ∧ firstFree name taken tries k = numbered name j ∧
      (∀ i, k ≤ i → i < j → numbered name i ∈ taken) ∧
      (j < k + tries → numbered name j ∉ taken) := by
  induction tries generalizing k with
  | zero =>
      refine ⟨k, Nat.le_refl k, Nat.le_refl k, rfl, ?_, ?_⟩
      · intro i lower upper
        omega
      · intro upper
        omega
  | succ tries ih =>
      unfold firstFree
      split
      · rename_i present
        obtain ⟨j, lower, upper, found, below, free⟩ := ih (k + 1)
        refine ⟨j, by omega, by omega, found, ?_, fun less => free (by omega)⟩
        intro i above less
        rcases Nat.eq_or_lt_of_le above with rfl | above
        · exact present
        · exact below i above less
      · rename_i absent
        refine ⟨k, Nat.le_refl k, by omega, rfl, ?_, fun _ => absent⟩
        intro i lower upper
        omega

/-- **A taken candidate gets the next free name.** -/
theorem isNextFree_freeName {taken : List String} {candidate : String}
    (present : candidate ∈ taken) :
    IsNextFree (· ∈ taken) candidate (freeName taken candidate) := by
  rw [freeName, if_pos present]
  obtain ⟨j, lower, upper, found, below, free⟩ := firstFree_spec candidate taken taken.length 2
  rw [found]
  refine ⟨j, lower, rfl, fun taken' => ?_, below⟩
  -- one number more than there are taken names is tried before the bound is reached
  have injective : Function.Injective fun i => numbered candidate (2 + i) := fun i i' same =>
    Nat.add_left_cancel (numbered_injective same)
  obtain ⟨i, bounded, untaken⟩ := exists_notMem_of_injective injective taken
  rcases Nat.lt_or_ge (2 + i) j with less | greater
  · exact untaken (below (2 + i) (Nat.le_add_right 2 i) less)
  · have last : 2 + i = j := by
      by_contra differs
      exact free (by omega) taken'
    exact untaken (last ▸ taken')

theorem freeName_cases (taken : List String) (candidate : String) :
    freeName taken candidate = candidate ∨
      ∃ k, freeName taken candidate = numbered candidate k := by
  by_cases present : candidate ∈ taken
  · obtain ⟨k, -, same, -, -⟩ := isNextFree_freeName present
    exact .inr ⟨k, same⟩
  · exact .inl (if_neg present)

theorem freeName_of_not_mem {taken : List String} {candidate : String}
    (absent : candidate ∉ taken) : freeName taken candidate = candidate :=
  if_neg absent

/-- A free name is free. -/
theorem freeName_notMem (taken : List String) (candidate : String) :
    freeName taken candidate ∉ taken := by
  by_cases present : candidate ∈ taken
  · obtain ⟨k, -, -, free, -⟩ := isNextFree_freeName present
    exact free
  · rwa [freeName_of_not_mem present]

/-! ## Several names -/

@[simp] theorem uniqueAll_nil (taken : List String) : uniqueAll taken [] = ([], taken) :=
  rfl

theorem uniqueAll_cons (taken : List String) (candidate : String) (rest : List String) :
    uniqueAll taken (candidate :: rest) =
      (freeName taken candidate :: (uniqueAll (freeName taken candidate :: taken) rest).1,
        (uniqueAll (freeName taken candidate :: taken) rest).2) :=
  rfl

/-- Each candidate gets one name. -/
@[simp] theorem length_uniqueAll (taken candidates : List String) :
    (uniqueAll taken candidates).1.length = candidates.length := by
  induction candidates generalizing taken with
  | nil => rfl
  | cons candidate rest ih => simp [uniqueAll_cons, ih]

/-- The names that are taken in the end are those that were given and those that were taken, each
as often as it was given or taken. -/
theorem uniqueAll_snd_perm (taken candidates : List String) :
    (uniqueAll taken candidates).2.Perm ((uniqueAll taken candidates).1 ++ taken) := by
  induction candidates generalizing taken with
  | nil => exact .refl _
  | cons candidate rest ih =>
      rw [uniqueAll_cons]
      exact (ih _).trans List.perm_middle

/-- A name is taken in the end if it was taken before or if it was given. -/
theorem mem_uniqueAll_snd {taken candidates : List String} {name : String} :
    name ∈ (uniqueAll taken candidates).2 ↔
      name ∈ taken ∨ name ∈ (uniqueAll taken candidates).1 := by
  rw [(uniqueAll_snd_perm taken candidates).mem_iff, List.mem_append, or_comm]

/-- **Names are given from left to right.** -/
theorem uniqueAll_append (taken xs ys : List String) :
    (uniqueAll taken (xs ++ ys)).1 =
      (uniqueAll taken xs).1 ++ (uniqueAll (uniqueAll taken xs).2 ys).1 := by
  induction xs generalizing taken with
  | nil => rfl
  | cons x xs ih =>
      rw [List.cons_append, uniqueAll_cons, uniqueAll_cons]
      simp only [ih, List.cons_append]

/-- A name that is given was not taken before. -/
theorem notMem_of_mem_uniqueAll {taken candidates : List String} {name : String}
    (given : name ∈ (uniqueAll taken candidates).1) : name ∉ taken := by
  induction candidates generalizing taken with
  | nil => cases given
  | cons candidate rest ih =>
      rw [uniqueAll_cons, List.mem_cons] at given
      rcases given with rfl | later
      · exact freeName_notMem taken candidate
      · exact fun present => ih later (List.mem_cons_of_mem _ present)

/-- **No two candidates get the same name.** -/
theorem nodup_uniqueAll (taken candidates : List String) :
    (uniqueAll taken candidates).1.Nodup := by
  induction candidates generalizing taken with
  | nil => exact List.nodup_nil
  | cons candidate rest ih =>
      rw [uniqueAll_cons, List.nodup_cons]
      refine ⟨fun again => ?_, ih _⟩
      exact notMem_of_mem_uniqueAll again (List.mem_cons_self ..)

/-- A given name is a candidate, or a candidate with a number. -/
theorem eq_or_eq_numbered_of_mem_uniqueAll {taken candidates : List String} {name : String}
    (given : name ∈ (uniqueAll taken candidates).1) :
    ∃ candidate ∈ candidates, name = candidate ∨ ∃ k, name = numbered candidate k := by
  induction candidates generalizing taken with
  | nil => cases given
  | cons candidate rest ih =>
      rw [uniqueAll_cons, List.mem_cons] at given
      rcases given with rfl | later
      · exact ⟨candidate, List.mem_cons_self .., freeName_cases taken candidate⟩
      · obtain ⟨other, member, same⟩ := ih later
        exact ⟨other, List.mem_cons_of_mem _ member, same⟩

/-- **Each candidate gets a free name**, where some names are taken. -/
theorem forall₂_uniqueAll (taken candidates : List String) :
    List.Forall₂ (fun candidate name => ∃ before, name = freeName before candidate) candidates
      (uniqueAll taken candidates).1 := by
  induction candidates generalizing taken with
  | nil => exact .nil
  | cons candidate rest ih => exact .cons ⟨taken, rfl⟩ (ih _)

/-- **Candidates keep their own names** exactly if they are distinct and free. -/
theorem uniqueAll_eq_self_iff {taken candidates : List String} :
    (uniqueAll taken candidates).1 = candidates ↔
      candidates.Nodup ∧ ∀ candidate ∈ candidates, candidate ∉ taken := by
  constructor
  · intro same
    have distinct := nodup_uniqueAll taken candidates
    rw [same] at distinct
    exact ⟨distinct, fun candidate member => notMem_of_mem_uniqueAll (same.symm ▸ member)⟩
  · rintro ⟨distinct, free⟩
    induction candidates generalizing taken with
    | nil => rfl
    | cons candidate rest ih =>
        obtain ⟨absent, distinct⟩ := List.nodup_cons.mp distinct
        obtain ⟨first, others⟩ := List.forall_mem_cons.mp free
        have own : freeName taken candidate = candidate := freeName_of_not_mem first
        rw [uniqueAll_cons, own]
        refine congrArg (candidate :: ·) (ih distinct fun other member present => ?_)
        rcases List.mem_cons.mp present with rfl | before
        · exact absent member
        · exact others other member before

/-- Every candidate is taken in the end, by itself or before. -/
theorem mem_uniqueAll_of_mem {taken candidates : List String} {candidate : String}
    (member : candidate ∈ candidates) :
    candidate ∈ taken ∨ candidate ∈ (uniqueAll taken candidates).1 := by
  induction candidates generalizing taken with
  | nil => cases member
  | cons first rest ih =>
      rw [uniqueAll_cons, List.mem_cons]
      rcases List.mem_cons.mp member with rfl | later
      · by_cases present : candidate ∈ taken
        · exact .inl present
        · exact .inr (.inl (freeName_of_not_mem present).symm)
      · rcases @ih (freeName taken first :: taken) later with present | given
        · rcases List.mem_cons.mp present with same | before
          · exact .inr (.inl same)
          · exact .inl before
        · exact .inr (.inr given)

/-- **A candidate gets its own name or the next free one**, as the names before it allow. -/
theorem exists_uniqueAll_middle (xs ys : List String) (candidate : String) :
    ∃ name later,
      (uniqueAll [] (xs ++ candidate :: ys)).1 = (uniqueAll [] xs).1 ++ name :: later ∧
        (candidate ∉ (uniqueAll [] xs).1 ∧ name = candidate ∨
          candidate ∈ (uniqueAll [] xs).1 ∧
            IsNextFree (· ∈ (uniqueAll [] xs).1) candidate name) := by
  have taken : (· ∈ (uniqueAll [] xs).2) = (· ∈ (uniqueAll [] xs).1) := by
    funext name
    simp [mem_uniqueAll_snd]
  refine ⟨_, _, uniqueAll_append [] xs (candidate :: ys), ?_⟩
  by_cases present : candidate ∈ (uniqueAll [] xs).2
  · have next := isNextFree_freeName present
    rw [taken] at next
    exact .inr ⟨(congrFun taken candidate).mp present, next⟩
  · have absent : candidate ∉ (uniqueAll [] xs).1 := fun inside =>
      present ((congrFun taken candidate).mpr inside)
    exact .inl ⟨absent, freeName_of_not_mem present⟩

/-! ## Names taken in steps -/

/-- **Names that are taken.** Where some names are taken, further ones are: none of them twice, and
none that was taken before. -/
structure Takes (taken names after : List String) : Prop where
  /-- No name is taken twice. -/
  nodup : names.Nodup
  /-- No name was taken before. -/
  free : ∀ name ∈ names, name ∉ taken
  /-- After that, the names are taken as well. -/
  mem_after : ∀ name, name ∈ after ↔ name ∈ taken ∨ name ∈ names

namespace Takes

variable {taken names after : List String}

theorem nil (taken : List String) : Takes taken [] taken :=
  { nodup := List.nodup_nil
    free := List.forall_mem_nil _
    mem_after := fun name => by simp }

/-- **One step after the other.** -/
theorem trans {further last : List String} (first : Takes taken names after)
    (second : Takes after further last) : Takes taken (names ++ further) last := by
  refine { nodup := ?_, free := ?_, mem_after := fun name => ?_ }
  · refine List.nodup_append.mpr ⟨first.nodup, second.nodup, ?_⟩
    rintro name early other late rfl
    exact second.free name late ((first.mem_after name).mpr (.inr early))
  · refine List.forall_mem_append.mpr ⟨first.free, fun name late present => ?_⟩
    exact second.free name late ((first.mem_after name).mpr (.inl present))
  · rw [second.mem_after, first.mem_after, List.mem_append, or_assoc]

/-- Together with what was taken before there is still no name twice. -/
theorem nodup_append (takes : Takes taken names after) (distinct : taken.Nodup) :
    (taken ++ names).Nodup := by
  refine List.nodup_append.mpr ⟨distinct, takes.nodup, ?_⟩
  rintro name present other chosen rfl
  exact takes.free name chosen present

end Takes

/-- Several candidates take their names. -/
theorem takes_uniqueAll (taken candidates : List String) :
    Takes taken (uniqueAll taken candidates).1 (uniqueAll taken candidates).2 :=
  { nodup := nodup_uniqueAll taken candidates
    free := fun _ given => notMem_of_mem_uniqueAll given
    mem_after := fun _ => mem_uniqueAll_snd }

/-! ## Attempts -/

/-- The names that are tried for a candidate, in order. -/
def attempt (candidate : String) : Nat → String
  | 0 => candidate
  | i + 1 => numbered candidate (i + 2)

@[simp] theorem attempt_zero (candidate : String) : attempt candidate 0 = candidate := rfl

@[simp] theorem attempt_succ (candidate : String) (i : Nat) :
    attempt candidate (i + 1) = numbered candidate (i + 2) := rfl

/-- No name is tried twice. -/
theorem attempt_injective (candidate : String) : Function.Injective (attempt candidate) := by
  intro i j same
  cases i with
  | zero =>
      cases j with
      | zero => rfl
      | succ j => exact absurd same.symm (numbered_ne candidate (j + 2))
  | succ i =>
      cases j with
      | zero => exact absurd same (numbered_ne candidate (i + 2))
      | succ j => exact congrArg (· - 1) (numbered_injective same)

/-- **The first attempt that succeeds** comes after at most as many as there are taken names. -/
theorem exists_first_attempt (candidate : String) (taken : Finset String) :
    ∃ i ≤ taken.card, attempt candidate i ∉ taken ∧ ∀ j < i, attempt candidate j ∈ taken := by
  obtain ⟨bound, bounded, free⟩ :=
    exists_notMem_of_injective (attempt_injective candidate) taken.toList
  rw [Finset.length_toList] at bounded
  rw [Finset.mem_toList] at free
  have some : ∃ i, attempt candidate i ∉ taken := ⟨bound, free⟩
  refine ⟨Nat.find some, (Nat.find_min' some free).trans bounded, Nat.find_spec some, ?_⟩
  exact fun j before => not_not.mp (Nat.find_min some before)

/-- What the first attempt that succeeds gives is the free name. -/
theorem freeName_eq_attempt {taken : List String} {candidate : String} {i : Nat}
    (free : attempt candidate i ∉ taken) (before : ∀ j < i, attempt candidate j ∈ taken) :
    freeName taken candidate = attempt candidate i := by
  cases i with
  | zero => exact freeName_of_not_mem free
  | succ i =>
      have present : candidate ∈ taken := before 0 (Nat.succ_pos i)
      refine (isNextFree_freeName present).unique
        ⟨i + 2, by omega, rfl, free, fun k two_le less => ?_⟩
      obtain ⟨j, rfl⟩ := Nat.exists_eq_add_of_le' two_le
      exact before (j + 1) (by omega)

/-! ## The search as a loop -/

/-- **A search for a free name**, with the names that are taken. -/
inductive Search where
  /-- So many attempts have failed. -/
  | trying (failed : Nat) (taken : Finset String)
  /-- A name has been found and taken. -/
  | found (name : String) (taken : Finset String)

namespace Search

/-- **One round of a search**: the next name is put into the set. If it was there already, the
search goes on, and otherwise it is over. -/
def next (candidate : String) : Search → Search
  | trying failed taken =>
    let name := attempt candidate failed
    if name ∈ taken then trying (failed + 1) (insert name taken) else found name (insert name taken)
  | found name taken => found name taken

variable {candidate : String} {failed : Nat} {taken : Finset String}

/-- A taken name leaves the set as it is. -/
theorem next_of_mem (present : attempt candidate failed ∈ taken) :
    next candidate (trying failed taken) = trying (failed + 1) taken := by
  rw [next, if_pos present, Finset.insert_eq_of_mem present]

theorem next_of_notMem (free : attempt candidate failed ∉ taken) :
    next candidate (trying failed taken) =
      found (attempt candidate failed) (insert (attempt candidate failed) taken) := by
  rw [next, if_neg free]

/-- **Rounds in which every name was taken** leave the set as it is. -/
theorem iterate_next {rounds : Nat} (all : ∀ i < rounds, attempt candidate i ∈ taken) :
    (next candidate)^[rounds] (trying 0 taken) = trying rounds taken := by
  induction rounds with
  | zero => rfl
  | succ rounds ih =>
      rw [Function.iterate_succ_apply', ih fun i less => all i (Nat.lt_succ_of_lt less)]
      exact next_of_mem (all rounds (Nat.lt_succ_self rounds))

end Search

/-- **Naming takes the first free name.** For every set of taken names and every candidate, the
search ends, after at most one round more than there are taken names, with the name and the set that
`unique` gives. The name is the candidate if that was free, and otherwise the candidate with the
least number from two upwards that frees it; it was not taken before, and the set has it in addition
and nothing else. So the names for any candidates, chosen one after the other, are all different and
were free. -/
theorem unique_firstFree (taken : List String) (candidate : String) :
    (∃ rounds ≤ taken.toFinset.card + 1,
        (Search.next candidate)^[rounds] (.trying 0 taken.toFinset) =
          .found (unique taken candidate).1 (unique taken candidate).2.toFinset) ∧
      (candidate ∉ taken ∧ (unique taken candidate).1 = candidate ∨
        candidate ∈ taken ∧ IsNextFree (· ∈ taken) candidate (unique taken candidate).1) ∧
      Takes taken [(unique taken candidate).1] (unique taken candidate).2 ∧
      ∀ candidates, Takes taken (uniqueAll taken candidates).1 (uniqueAll taken candidates).2 := by
  refine ⟨?_, ?_, takes_uniqueAll taken [candidate], takes_uniqueAll taken⟩
  · obtain ⟨i, bounded, free, before⟩ := exists_first_attempt candidate taken.toFinset
    refine ⟨i + 1, Nat.succ_le_succ bounded, ?_⟩
    rw [Function.iterate_succ_apply', Search.iterate_next before, Search.next_of_notMem free]
    simp only [List.mem_toFinset] at free before
    rw [← freeName_eq_attempt free before, ← List.toFinset_cons]
    rfl
  · by_cases present : candidate ∈ taken
    · exact .inr ⟨present, isNextFree_freeName present⟩
    · exact .inl ⟨present, freeName_of_not_mem present⟩

/-- A number that is taken itself is passed over. -/
example : uniqueAll [] ["Foo2", "Foo", "Foo"] =
    (["Foo2", "Foo", "Foo3"], ["Foo3", "Foo", "Foo2"]) := by
  decide

end ClientGen.Naming
