import ClientGen.Api.Basic
import ClientGen.Proofs.Naming.Runs
import Mathlib.Data.List.Induction
import Mathlib.Data.List.Nodup

/-!
# The parameters of one place

* `Operation.mem_names_parametersAt` — every declared name is among those of its place.
* `Operation.nodup_names_parametersAt` — it is there once.
* `Operation.filter_parametersAt` — under it stands the last parameter that has it.
* `Operation.mem_parametersAt_iff` — the parameters that stand there are those that count.
* `Operation.pairwise_names_parametersAt` — the names of a place ascend where the parameters do.
-/

namespace ClientGen.Operation

theorem map_name_put (p : Parameter) (ps : List Parameter) :
    (put p ps).map (·.name) =
      if p.name ∈ ps.map (·.name) then ps.map (·.name) else ps.map (·.name) ++ [p.name] := by
  induction ps with
  | nil => rfl
  | cons q ps ih =>
      by_cases same : q.name = p.name
      · simp [put, same]
      · rw [put, if_neg same, List.map_cons, List.map_cons, ih]
        split
        · rename_i later
          rw [if_pos (List.mem_cons_of_mem _ later)]
        · rename_i absent
          rw [if_neg (List.not_mem_cons_of_ne_of_not_mem (Ne.symm same) absent), List.cons_append]

theorem mem_names_put {p : Parameter} {ps : List Parameter} {name : String} :
    name ∈ (put p ps).map (·.name) ↔ name ∈ ps.map (·.name) ∨ name = p.name := by
  rw [map_name_put]
  split
  · rename_i present
    exact ⟨.inl, fun found => found.elim (fun listed => listed) fun same => same ▸ present⟩
  · rw [List.mem_append, List.mem_singleton]

theorem nodup_names_put {p : Parameter} {ps : List Parameter} (distinct : (ps.map (·.name)).Nodup) :
    ((put p ps).map (·.name)).Nodup := by
  rw [map_name_put]
  split
  · exact distinct
  · rename_i absent
    refine List.nodup_append.mpr ⟨distinct, List.nodup_singleton _, ?_⟩
    rintro name listed other single rfl
    exact absent (List.mem_singleton.mp single ▸ listed)

/-- **Every name that is declared in a place** is among the names of this place. -/
theorem mem_names_parametersAt {op : Operation} {location : Location} {name : String} :
    name ∈ (op.parametersAt location).map (·.name) ↔
      name ∈ (op.parameters.filter (·.location == location)).map (·.name) := by
  have collected (ps found : List Parameter) :
      name ∈ (ps.foldl (fun ps p => put p ps) found).map (·.name) ↔
        name ∈ found.map (·.name) ∨ name ∈ ps.map (·.name) := by
    induction ps generalizing found with
    | nil => simp
    | cons p ps ih =>
        rw [List.foldl_cons, ih, mem_names_put, List.map_cons, List.mem_cons, or_assoc]
  rw [parametersAt, collected]
  simp

theorem nodup_names_foldl_put (ps : List Parameter) {found : List Parameter}
    (distinct : (found.map (·.name)).Nodup) :
    ((ps.foldl (fun ps p => put p ps) found).map (·.name)).Nodup := by
  induction ps generalizing found with
  | nil => exact distinct
  | cons p ps ih => exact ih (nodup_names_put distinct)

/-- **No two parameters of a place have one name.** -/
theorem nodup_names_parametersAt (op : Operation) (location : Location) :
    ((op.parametersAt location).map (·.name)).Nodup :=
  nodup_names_foldl_put _ List.nodup_nil

/-! ## The last parameter of a name -/

/-- A parameter stands alone under its name; under other names nothing changes. -/
theorem filter_put (p : Parameter) {ps : List Parameter} (distinct : (ps.map (·.name)).Nodup)
    (name : String) :
    (put p ps).filter (·.name = name) =
      if p.name = name then [p] else ps.filter (·.name = name) := by
  induction ps with
  | nil =>
      by_cases here : p.name = name
      · simp [put, here]
      · simp [put, here]
  | cons q ps ih =>
      obtain ⟨fresh, rest⟩ := List.nodup_cons.mp distinct
      by_cases same : q.name = p.name
      · have others : ps.filter (·.name = q.name) = [] := by
          refine List.filter_eq_nil_iff.mpr fun r listed named => fresh ?_
          exact List.mem_map.mpr ⟨r, listed, of_decide_eq_true named⟩
        rw [put, if_pos same]
        by_cases here : p.name = name
        · rw [if_pos here, List.filter_cons_of_pos (by simpa using here), ← here, ← same, others]
        · rw [if_neg here, List.filter_cons_of_neg (by simpa using here),
            List.filter_cons_of_neg (by simpa [same] using here)]
      · rw [put, if_neg same]
        by_cases here : q.name = name
        · have other : p.name ≠ name := fun named => same (here.trans named.symm)
          rw [List.filter_cons_of_pos (by simpa using here), ih rest, if_neg other, if_neg other,
            List.filter_cons_of_pos (by simpa using here)]
        · rw [List.filter_cons_of_neg (by simpa using here), ih rest,
            List.filter_cons_of_neg (by simpa using here)]

/-- **The last parameter of a name** is the one that its place has under the name. -/
theorem filter_parametersAt (op : Operation) (location : Location) (name : String) :
    (op.parametersAt location).filter (·.name = name) =
      ((op.parameters.filter (·.location == location)).filter
        (·.name = name)).getLast?.toList := by
  rw [parametersAt]
  -- along the declarations, so that the last one is what the induction adds
  induction op.parameters.filter (·.location == location) using List.reverseRecOn with
  | nil => rfl
  | append_singleton ps p ih =>
      have distinct : ((ps.foldl (fun ps p => put p ps) []).map (·.name)).Nodup :=
        nodup_names_foldl_put ps List.nodup_nil
      rw [List.foldl_concat, filter_put p distinct, ih, List.filter_append]
      by_cases here : p.name = name
      · rw [if_pos here, List.filter_cons_of_pos (by simpa using here), List.filter_nil,
          List.getLast?_concat]
        rfl
      · rw [if_neg here, List.filter_cons_of_neg (by simpa using here), List.filter_nil,
          List.append_nil]

/-- **A parameter counts** if none of its place and name is declared after it. -/
def Counts (op : Operation) (p : Parameter) : Prop :=
  ∃ before after, op.parameters = before ++ p :: after ∧
    ∀ q ∈ after, q.location = p.location → q.name ≠ p.name

/-- The last item with a property is one behind which no other item has it. -/
theorem getLast?_filter_eq_some_iff {α : Type} {p : α → Bool} {xs : List α} {x : α} :
    (xs.filter p).getLast? = some x ↔
      p x ∧ ∃ before after, xs = before ++ x :: after ∧ ∀ y ∈ after, p y = false := by
  rw [List.getLast?_filter, List.find?_eq_some_iff_append]
  refine and_congr_right fun _ => ?_
  constructor
  · rintro ⟨front, rest, reversed, others⟩
    refine ⟨rest.reverse, front.reverse, ?_, fun y listed => ?_⟩
    · rw [← List.reverse_inj, reversed]
      simp
    · simpa using others y (List.mem_reverse.mp listed)
  · rintro ⟨before, after, rfl, others⟩
    exact ⟨after.reverse, before.reverse, by simp, fun y listed => by
      simpa using others y (List.mem_reverse.mp listed)⟩

/-- **The parameters of a place are those that count there.** -/
theorem mem_parametersAt_iff {op : Operation} {location : Location} {p : Parameter} :
    p ∈ op.parametersAt location ↔ p.location = location ∧ op.Counts p := by
  have here : p ∈ op.parametersAt location ↔
      p ∈ (op.parametersAt location).filter (·.name = p.name) := by simp
  rw [here, filter_parametersAt, Option.mem_toList, List.filter_filter,
    getLast?_filter_eq_some_iff]
  simp only [decide_true, Bool.true_and, beq_iff_eq]
  refine and_congr_right fun place => ?_
  subst place
  refine exists_congr fun before => exists_congr fun after => and_congr_right fun _ => ?_
  refine forall₂_congr fun q _ => ?_
  rw [Bool.and_eq_false_iff, decide_eq_false_iff_not, beq_eq_false_iff_ne, or_comm, imp_iff_not_or]

/-- There are no parameters in a place for which none is declared. -/
theorem parametersAt_eq_nil_iff {op : Operation} {location : Location} :
    op.parametersAt location = [] ↔ ∀ p ∈ op.parameters, p.location ≠ location := by
  have names : (op.parametersAt location).map (·.name) = [] ↔
      (op.parameters.filter (·.location == location)).map (·.name) = [] := by
    simp only [List.eq_nil_iff_forall_not_mem, mem_names_parametersAt]
  rw [List.map_eq_nil_iff, List.map_eq_nil_iff, List.filter_eq_nil_iff] at names
  simpa only [beq_iff_eq] using names

/-- The names of a place stand in the order in which they were first declared. -/
theorem names_parametersAt_sublist (op : Operation) (location : Location) :
    ((op.parametersAt location).map (·.name)).Sublist
      ((op.parameters.filter (·.location == location)).map (·.name)) := by
  rw [parametersAt]
  induction op.parameters.filter (·.location == location) using List.reverseRecOn with
  | nil => exact List.Sublist.slnil
  | append_singleton ps p ih =>
      rw [List.foldl_concat, map_name_put, List.map_append, List.map_singleton]
      split
      · exact ih.trans (List.sublist_append_left ..)
      · exact ih.append_right _

/-- **The names of a place ascend** if the parameters that are declared for it do. -/
theorem pairwise_names_parametersAt {op : Operation} {location : Location}
    (ascending : (op.parameters.filter (·.location == location)).Pairwise
      fun p q => p.name ≤ q.name) :
    ((op.parametersAt location).map (·.name)).Pairwise (· < ·) := by
  have names := (List.pairwise_map.mpr ascending).sublist (op.names_parametersAt_sublist location)
  exact Naming.pairwise_lt_of_nodup names (op.nodup_names_parametersAt location)

end ClientGen.Operation
