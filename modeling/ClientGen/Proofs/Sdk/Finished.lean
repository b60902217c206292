import ClientGen.Sdk.File
import Mathlib.Data.List.Nodup
import Mathlib.Data.List.Perm.Basic

/-!
# Finishing the files of a client

Without a formatter, finishing sorts the files by their paths and refuses paths that stand twice.

* `SourceFile.finished_of_nodup` — different paths: the files come back in ascending order.
* `SourceFile.finished_of_repeated` — one path that stands twice: it is the one that is refused.
-/

namespace ClientGen.SourceFile

/-- The files in ascending order of their paths. -/
def inOrder (files : List SourceFile) : List SourceFile :=
  files.mergeSort fun a b => decide (a.path ≤ b.path)

theorem finished_none (files : List SourceFile) :
    finished none files =
      match repeated? (inOrder files) with
      | some path => .error (.duplicatePath path)
      | none => .ok (inOrder files) := by
  have formatted : files.mapM (format none) = .ok files := by
    induction files with
    | nil => rfl
    | cons file files ih => rw [List.mapM_cons, ih]; rfl
  rw [finished, formatted]
  rfl

theorem inOrder_perm (files : List SourceFile) : (inOrder files).Perm files :=
  List.mergeSort_perm ..

theorem pairwise_inOrder (files : List SourceFile) :
    (inOrder files).Pairwise fun a b => a.path ≤ b.path := by
  have sorted : (inOrder files).Pairwise fun a b => decide (a.path ≤ b.path) := by
    refine List.pairwise_mergeSort (fun a b c first second => ?_) (fun a b => ?_) files
    · simp only [decide_eq_true_eq] at first second ⊢
      exact String.le_trans first second
    · simp only [Bool.or_eq_true, decide_eq_true_eq]
      exact String.le_total ..
  exact sorted.imp fun le => of_decide_eq_true le

/-- What comes back are the files, in another order. -/
theorem perm_of_finished {files sorted : List SourceFile}
    (same : finished none files = .ok sorted) : sorted.Perm files := by
  rw [finished_none] at same
  split at same
  · cases same
  · cases same
    exact inOrder_perm files

/-- A path that is found to be repeated stands twice. -/
theorem two_le_count_of_repeated? {files : List SourceFile} {path : String}
    (found : repeated? files = some path) : 2 ≤ (files.map (·.path)).count path := by
  induction files with
  | nil => cases found
  | cons a rest ih =>
      cases rest with
      | nil => cases found
      | cons b files =>
          rw [repeated?] at found
          split at found
          · rename_i same
            cases found
            simp [same]
          · have later := ih found
            rw [List.map_cons]
            exact Nat.le_trans later List.count_le_count_cons

/-- Sorted files without a repeated path ascend strictly. -/
theorem pairwise_of_repeated? {files : List SourceFile}
    (sorted : files.Pairwise fun a b => a.path ≤ b.path) (found : repeated? files = none) :
    files.Pairwise fun a b => a.path < b.path := by
  induction files with
  | nil => exact .nil
  | cons a rest ih =>
      cases rest with
      | nil => exact List.pairwise_singleton ..
      | cons b files =>
          rw [repeated?] at found
          split at found
          · cases found
          · rename_i differ
            obtain ⟨least, rest⟩ := List.pairwise_cons.mp sorted
            have strict := ih rest found
            have first : a.path < b.path :=
              Std.lt_of_le_of_ne (least b (List.mem_cons_self ..)) differ
            refine List.pairwise_cons.mpr ⟨?_, strict⟩
            intro other member
            rcases List.mem_cons.mp member with rfl | later
            · exact first
            · exact String.lt_trans first ((List.pairwise_cons.mp strict).1 other later)

/-- **Files with different paths** come back in ascending order. -/
theorem finished_of_nodup {files : List SourceFile} (distinct : (files.map (·.path)).Nodup) :
    finished none files = .ok (inOrder files) ∧
      (inOrder files).Pairwise fun a b => a.path < b.path := by
  have once : ((inOrder files).map (·.path)).Nodup :=
    ((inOrder_perm files).map _).nodup_iff.mpr distinct
  have found : repeated? (inOrder files) = none := by
    cases found : repeated? (inOrder files) with
    | none => rfl
    | some path =>
        have twice := two_le_count_of_repeated? found
        have atMost := List.nodup_iff_count_le_one.mp once path
        omega
  refine ⟨?_, pairwise_of_repeated? (pairwise_inOrder files) found⟩
  rw [finished_none, found]

/-- **Files of which two have one path** are refused for that path. -/
theorem finished_of_repeated {files : List SourceFile} {path : String} {others : List String}
    (paths : (files.map (·.path)).Perm (path :: others)) (distinct : others.Nodup)
    (again : path ∈ others) : finished none files = .error (.duplicatePath path) := by
  have same := ((inOrder_perm files).map (·.path)).trans paths
  rw [finished_none]
  cases found : repeated? (inOrder files) with
  | none =>
      have strict := pairwise_of_repeated? (pairwise_inOrder files) found
      have once : ((inOrder files).map (·.path)).Nodup :=
        List.pairwise_map.mpr (strict.imp fun less => (String.ne_of_lt less))
      rw [same.nodup_iff, List.nodup_cons] at once
      exact absurd again once.1
  | some other =>
      have twice := two_le_count_of_repeated? found
      rw [same.count_eq, List.count_cons] at twice
      have atMost := List.nodup_iff_count_le_one.mp distinct other
      split at twice
      · rename_i equal
        rw [eq_of_beq equal]
      · omega

end ClientGen.SourceFile
