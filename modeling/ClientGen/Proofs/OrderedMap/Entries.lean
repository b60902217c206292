import ClientGen.Proofs.OrderedMap.Agreement
import Mathlib.Data.List.Induction

/-!
# Maps built from entries

A map is built by putting entries into it, one after the other. A name keeps its first place and
takes its last value, and replacing the values may come before or after.

* `OrderedMap.keys_ofEntries` — the names, in the order of first mention.
* `OrderedMap.lookup_ofEntries` — the last value of a name.
* `OrderedMap.mapValues_ofEntries` — building a map and replacing the values may change places.

Everything is by induction on the last entry, which is the one that decides.
-/

namespace ClientGen

theorem nodup_eraseDups {α : Type} [BEq α] [LawfulBEq α] (as : List α) :
    as.eraseDups.Nodup := by
  induction size : as.length using Nat.strongRecOn generalizing as with
  | ind n ih =>
      cases as with
      | nil => exact List.nodup_nil
      | cons a as =>
          rw [List.eraseDups_cons, List.nodup_cons]
          refine ⟨?_, ih _ ?_ _ rfl⟩
          · rw [List.mem_eraseDups]
            simp
          · rw [← size, List.length_cons]
            exact Nat.lt_succ_of_le (List.length_filter_le ..)

/-- A further name is kept iff it is new. -/
theorem eraseDups_concat (names : List String) (name : String) :
    (names ++ [name]).eraseDups =
      if name ∈ names then names.eraseDups else names.eraseDups ++ [name] := by
  rw [List.eraseDups_append]
  split
  · rename_i listed
    have nothing : [name].removeAll names = [] := by simp [List.removeAll, listed]
    rw [nothing, List.eraseDups_nil, List.append_nil]
  · rename_i fresh
    have single : [name].removeAll names = [name] := by simp [List.removeAll, fresh]
    rw [single, List.eraseDups_cons]
    rfl

/-- **Adding names unless they are there** leaves out later repetitions. -/
theorem foldl_append_if_new (names : List String) :
    names.foldl (fun ns n => if n ∈ ns then ns else ns ++ [n]) [] = names.eraseDups := by
  induction names using List.reverseRecOn with
  | nil => rfl
  | append_singleton names name ih =>
      rw [List.foldl_concat, ih, eraseDups_concat]
      simp only [List.mem_eraseDups]

namespace OrderedMap

variable {α β : Type}

theorem keys_insert (m : OrderedMap α) (name : String) (value : α) :
    keys (m.insert name value) = if name ∈ keys m then keys m else keys m ++ [name] := by
  induction m with
  | nil => rfl
  | cons entry m ih =>
      by_cases same : entry.1 = name
      · simp [insert, same]
      · rw [insert, if_neg same, keys_cons, keys_cons, ih]
        split
        · rename_i later
          rw [if_pos (List.mem_cons_of_mem _ later)]
        · rename_i absent
          rw [if_neg (List.not_mem_cons_of_ne_of_not_mem (Ne.symm same) absent), List.cons_append]

theorem mapValues_insert (f : α → β) (m : OrderedMap α) (name : String) (value : α) :
    (m.insert name value).mapValues f = (m.mapValues f).insert name (f value) := by
  induction m with
  | nil => rfl
  | cons entry m ih =>
      show mapValues f (insert (entry :: m) name value) =
        insert ((entry.1, f entry.2) :: mapValues f m) name (f value)
      by_cases same : entry.1 = name
      · rw [insert, insert, if_pos same, if_pos same]
        rfl
      · rw [insert, insert, if_neg same, if_neg same, ← ih]
        rfl

theorem ofEntries_append (es fs : List (String × α)) :
    ofEntries (es ++ fs) = insertAll (ofEntries es) fs :=
  List.foldl_append

theorem ofEntries_concat (es : List (String × α)) (entry : String × α) :
    ofEntries (es ++ [entry]) = (ofEntries es).insert entry.1 entry.2 :=
  ofEntries_append es [entry]

/-- **Names keep their first places.** -/
theorem keys_ofEntries (es : List (String × α)) : keys (ofEntries es) = (keys es).eraseDups := by
  induction es using List.reverseRecOn with
  | nil => rfl
  | append_singleton es entry ih =>
      have names : keys (es ++ [entry]) = keys es ++ [entry.1] := List.map_append
      rw [ofEntries_concat, keys_insert, ih, names, eraseDups_concat]
      simp only [List.mem_eraseDups]

/-- **Names take their last values.** -/
theorem lookup_ofEntries (es : List (String × α)) (name : String) :
    (ofEntries es).lookup name = (es.filter (·.1 = name)).getLast?.map (·.2) := by
  induction es using List.reverseRecOn with
  | nil => rfl
  | append_singleton es entry ih =>
      rw [ofEntries_concat, lookup_insert, ih, List.filter_append]
      by_cases here : entry.1 = name
      · rw [if_pos here.symm, List.filter_cons_of_pos (by simpa using here), List.filter_nil,
          List.getLast?_concat]
        rfl
      · rw [if_neg (Ne.symm here), List.filter_cons_of_neg (by simpa using here), List.filter_nil,
          List.append_nil]

/-- An entry whose name no other one has adds its value and changes nothing else. -/
theorem lookup_ofEntries_middle {es fs : List (String × α)} {name : String} {value : α}
    (unsaid : ∀ e ∈ es ++ fs, e.1 ≠ name) (other : String) :
    (ofEntries (es ++ (name, value) :: fs)).lookup other =
      if other = name then some value else (ofEntries (es ++ fs)).lookup other := by
  rw [lookup_ofEntries, List.filter_append]
  split
  · rename_i same
    subst same
    obtain ⟨left, right⟩ := List.forall_mem_append.mp unsaid
    have none (es : List (String × α)) (unsaid : ∀ e ∈ es, e.1 ≠ other) :
        es.filter (·.1 = other) = [] :=
      List.filter_eq_nil_iff.mpr fun e member => by simpa using unsaid e member
    rw [none es left, List.filter_cons_of_pos (by simp), none fs right]
    rfl
  · rename_i differs
    rw [List.filter_cons_of_neg (by simpa using Ne.symm differs), ← List.filter_append,
      lookup_ofEntries]

/-- **The values may be replaced before a map is built** or after. -/
theorem mapValues_ofEntries (f : α → β) (es : List (String × α)) :
    (ofEntries es).mapValues f = ofEntries (mapValues f es) := by
  induction es using List.reverseRecOn with
  | nil => rfl
  | append_singleton es entry ih =>
      have images : mapValues f (es ++ [entry]) = mapValues f es ++ [(entry.1, f entry.2)] :=
        List.map_append
      rw [ofEntries_concat, mapValues_insert, ih, images, ofEntries_concat]

end OrderedMap

end ClientGen
