import ClientGen.Naming
import Mathlib.Data.List.Perm.Basic

/-!
# Runs of equal values

A list may be freed of repetitions that follow each other, or of all repetitions. Both keep the
first one of equal values, and they come to the same iff equal values stand side by side. In a
sorted list they do, so of names that are put in ascending order nothing but their set is left.

* `Naming.eraseReps_cons_cons` — what becomes of two values that follow each other.
* `Naming.exists_mem_eraseReps`, `Naming.mem_of_mem_eraseReps` — which values are kept.
* `Naming.Grouped` — equal values stand side by side.
* `Naming.eraseReps_eq_eraseDups_iff` — then no repetition is left.
* `Naming.ascending_eq_iff` — two lists of names ascend to the same one iff they have the same
  names.

Equal values need not be the same one: two zeros with different signs may count as equal.
-/

namespace ClientGen.Naming

variable {α : Type} [BEq α]

/-! ## Repetitions -/

theorem eraseRepsBy_loop (a : α) (as acc : List α) :
    List.eraseRepsBy.loop (· == ·) a as acc = acc.reverse ++ (a :: as).eraseReps := by
  induction as generalizing a acc with
  | nil => simp [List.eraseReps, List.eraseRepsBy, List.eraseRepsBy.loop]
  | cons b as ih =>
      show _ = acc.reverse ++ List.eraseRepsBy.loop (· == ·) a (b :: as) []
      unfold List.eraseRepsBy.loop
      split
      · rw [ih, ih]
        rfl
      · rw [ih, ih]
        simp

/-- Of two equal values that follow each other the first one is kept. -/
theorem eraseReps_cons_cons (a b : α) (as : List α) :
    (a :: b :: as).eraseReps =
      if a == b then (a :: as).eraseReps else a :: (b :: as).eraseReps := by
  show List.eraseRepsBy.loop (· == ·) a (b :: as) [] = _
  unfold List.eraseRepsBy.loop
  split
  · rename_i same
    rw [same, eraseRepsBy_loop]
    rfl
  · rename_i other
    rw [other, eraseRepsBy_loop]
    rfl

/-- Nothing is added. -/
theorem mem_of_mem_eraseReps {a : α} {as : List α} (member : a ∈ as.eraseReps) : a ∈ as := by
  cases as with
  | nil => exact member
  | cons b as =>
      induction as generalizing b with
      | nil => exact member
      | cons c as ih =>
          rw [eraseReps_cons_cons] at member
          split at member
          · rcases List.mem_cons.mp (ih b member) with rfl | later
            · exact List.mem_cons_self ..
            · exact List.mem_cons_of_mem _ (List.mem_cons_of_mem _ later)
          · rcases List.mem_cons.mp member with rfl | later
            · exact List.mem_cons_self ..
            · exact List.mem_cons_of_mem _ (ih c later)

theorem mem_of_mem_eraseDups {a : α} : ∀ {as : List α}, a ∈ as.eraseDups → a ∈ as
  | [], member => member
  | b :: as, member => by
      rw [List.eraseDups_cons, List.mem_cons] at member
      rcases member with rfl | later
      · exact List.mem_cons_self ..
      · exact List.mem_cons_of_mem _ (List.mem_of_mem_filter (mem_of_mem_eraseDups later))
termination_by as => as.length
decreasing_by exact Nat.lt_succ_of_le (List.length_filter_le ..)

/-! ## Values that come back -/

/-- **Equal values stand side by side**: none comes back after a different one. -/
def Grouped (as : List α) : Prop :=
  ∀ a b c, [a, b, c].Sublist as → a == c → a == b

/-- A first value that differs from the second one must not come back. -/
theorem grouped_cons_cons_of_ne {a b : α} {as : List α} (differ : (a == b) = false) :
    Grouped (a :: b :: as) ↔ (∀ c ∈ as, (a == c) = false) ∧ Grouped (b :: as) := by
  constructor
  · intro grouped
    refine ⟨fun c member => ?_, fun x y z inside => grouped x y z (inside.cons a)⟩
    by_contra equal
    have inside : [a, b, c].Sublist (a :: b :: as) :=
      ((List.singleton_sublist.mpr member).cons_cons b).cons_cons a
    have same := grouped a b c inside (by simpa using equal)
    rw [differ] at same
    cases same
  · rintro ⟨gone, grouped⟩ x y z inside equal
    rcases List.sublist_cons_iff.mp inside with behind | ⟨rest, first, behind⟩
    · exact grouped x y z behind equal
    · obtain ⟨rfl, rfl⟩ := List.cons.inj first
      have last : z ∈ as := List.singleton_sublist.mp behind.tail
      rw [gone z last] at equal
      cases equal

section Equivalence

variable [EquivBEq α]

/-- Every value is kept, up to equality. -/
theorem exists_mem_eraseReps {a : α} {as : List α} (member : a ∈ as) :
    ∃ b ∈ as.eraseReps, b == a := by
  cases as with
  | nil => cases member
  | cons b as =>
      induction as generalizing a b with
      | nil => exact ⟨a, member, BEq.rfl⟩
      | cons c as ih =>
          rw [eraseReps_cons_cons]
          split
          · rename_i same
            rcases List.mem_cons.mp member with rfl | later
            · exact ih a (List.mem_cons_self ..)
            · rcases List.mem_cons.mp later with rfl | behind
              · obtain ⟨first, kept, equal⟩ := ih b (List.mem_cons_self ..)
                exact ⟨first, kept, BEq.trans equal same⟩
              · exact ih b (List.mem_cons_of_mem _ behind)
          · rcases List.mem_cons.mp member with rfl | later
            · exact ⟨a, List.mem_cons_self .., BEq.rfl⟩
            · obtain ⟨first, kept, equal⟩ := ih c later
              exact ⟨first, List.mem_cons_of_mem _ kept, equal⟩

/-- A second value that equals the first one changes nothing. -/
theorem grouped_cons_cons_of_eq {a b : α} {as : List α} (same : a == b) :
    Grouped (a :: b :: as) ↔ Grouped (a :: as) := by
  constructor
  · intro grouped x y z inside
    exact grouped x y z (inside.trans ((List.sublist_cons_self b as).cons_cons a))
  · intro grouped x y z inside equal
    rcases List.sublist_cons_iff.mp inside with behind | ⟨rest, first, behind⟩
    · rcases List.sublist_cons_iff.mp behind with later | ⟨rest, second, later⟩
      · exact grouped x y z (later.cons a) equal
      · obtain ⟨rfl, rfl⟩ := List.cons.inj second
        have copy := grouped a y z (later.cons_cons a) (BEq.trans same equal)
        exact BEq.trans (BEq.symm same) copy
    · obtain ⟨rfl, rfl⟩ := List.cons.inj first
      rcases List.sublist_cons_iff.mp behind with later | ⟨rest, second, -⟩
      · exact grouped x y z (later.cons_cons x) equal
      · exact (List.cons.inj second).1 ▸ same

/-- **Erasing repetitions that follow each other erases all repetitions** iff no value comes back
after a different one. -/
theorem eraseReps_eq_eraseDups_iff {as : List α} :
    as.eraseReps = as.eraseDups ↔ Grouped as := by
  cases as with
  | nil => exact iff_of_true rfl fun _ _ _ inside => nomatch inside
  | cons a as =>
      induction as generalizing a with
      | nil =>
          refine iff_of_true (by simp [List.eraseDups_cons]; rfl) fun x y z inside => ?_
          exact absurd inside.length_le (by simp)
      | cons b as ih =>
          rw [eraseReps_cons_cons]
          cases equal : a == b with
          | true =>
              have dropped : (a :: b :: as).eraseDups = (a :: as).eraseDups := by
                have same : b == a := BEq.symm equal
                simp [List.eraseDups_cons, same]
              rw [if_pos rfl, dropped, ih a, grouped_cons_cons_of_eq equal]
          | false =>
              rw [if_neg (by decide), List.eraseDups_cons, List.cons_inj_right,
                grouped_cons_cons_of_ne equal]
              -- without the first value's equals, there is nothing to filter
              have unfiltered (gone : ∀ c ∈ as, (a == c) = false) :
                  (b :: as).filter (fun c => !c == a) = b :: as := by
                refine List.filter_eq_self.mpr fun c member => ?_
                rcases List.mem_cons.mp member with rfl | later
                · rw [BEq.symm_false equal]
                  rfl
                · rw [BEq.symm_false (gone c later)]
                  rfl
              constructor
              · intro same
                have gone : ∀ c ∈ as, (a == c) = false := by
                  intro c member
                  by_contra back
                  obtain ⟨d, kept, copy⟩ := exists_mem_eraseReps (List.mem_cons_of_mem b member)
                  rw [same] at kept
                  have other := (List.mem_filter.mp (mem_of_mem_eraseDups kept)).2
                  have first : d == a := BEq.trans copy (BEq.symm (by simpa using back))
                  rw [first] at other
                  cases other
                rw [unfiltered gone] at same
                exact ⟨gone, (ih b).mp same⟩
              · rintro ⟨gone, grouped⟩
                rw [unfiltered gone]
                exact (ih b).mpr grouped

end Equivalence

theorem mem_eraseReps [LawfulBEq α] {a : α} {as : List α} : a ∈ as.eraseReps ↔ a ∈ as := by
  refine ⟨mem_of_mem_eraseReps, fun member => ?_⟩
  obtain ⟨b, kept, same⟩ := exists_mem_eraseReps member
  exact eq_of_beq same ▸ kept

/-! ## Ascending names -/

theorem pairwise_eraseReps {names : List String} (sorted : names.Pairwise (· ≤ ·)) :
    names.eraseReps.Pairwise (· < ·) := by
  induction names with
  | nil => exact List.Pairwise.nil
  | cons name names ih =>
      obtain ⟨least, rest⟩ := List.pairwise_cons.mp sorted
      cases names with
      | nil => exact List.pairwise_singleton ..
      | cons next names =>
          rw [eraseReps_cons_cons]
          split
          · rename_i same
            obtain rfl : name = next := eq_of_beq same
            exact ih rest
          · rename_i differs
            refine List.pairwise_cons.mpr ⟨fun other member => ?_, ih rest⟩
            have below := least next (List.mem_cons_self ..)
            have strict : name < next := Std.lt_of_le_of_ne below (by simpa using differs)
            rcases List.mem_cons.mp (mem_eraseReps.mp member) with rfl | later
            · exact strict
            · exact Std.lt_of_lt_of_le strict ((List.pairwise_cons.mp rest).1 other later)

theorem mem_ascending {name : String} {names : List String} :
    name ∈ ascending names ↔ name ∈ names := by
  rw [ascending, mem_eraseReps, List.mem_mergeSort]

theorem pairwise_ascending (names : List String) : (ascending names).Pairwise (· < ·) := by
  refine pairwise_eraseReps ?_
  have sorted : (names.mergeSort fun a b => decide (a ≤ b)).Pairwise fun a b => decide (a ≤ b) :=
    List.pairwise_mergeSort
      (fun a b c first second => by
        simp only [decide_eq_true_eq] at first second ⊢
        exact String.le_trans first second)
      (fun a b => by simpa using String.le_total a b) names
  exact sorted.imp fun le => by simpa using le

/-- Names that ascend and do not repeat ascend strictly. -/
theorem pairwise_lt_of_nodup {names : List String} (ascend : names.Pairwise (· ≤ ·))
    (nodup : names.Nodup) : names.Pairwise (· < ·) :=
  (ascend.and nodup).imp fun both => Std.lt_of_le_of_ne both.1 both.2

/-- **Two lists ascend to the same one iff they have the same names.** -/
theorem ascending_eq_iff {names others : List String} :
    ascending names = ascending others ↔ ∀ name, name ∈ names ↔ name ∈ others := by
  constructor
  · intro same name
    rw [← mem_ascending, same, mem_ascending]
  · intro same
    have nodup (list : List String) : (ascending list).Nodup :=
      (pairwise_ascending list).imp fun below => String.ne_of_lt below
    have perm : (ascending names).Perm (ascending others) := by
      refine (List.perm_ext_iff_of_nodup (nodup _) (nodup _)).mpr fun name => ?_
      rw [mem_ascending, mem_ascending, same]
    refine perm.eq_of_pairwise (fun a b _ _ first second => ?_) (pairwise_ascending _)
      (pairwise_ascending _)
    exact absurd (String.lt_trans first second) (String.lt_irrefl _)

end ClientGen.Naming
