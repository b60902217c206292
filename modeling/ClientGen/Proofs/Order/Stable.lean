import ClientGen.Proofs.OrderedMap.Agreement
import Mathlib.Data.List.Perm.Basic

/-!
# Stable sorting

A list is sorted by an order that looks at keys only. Entries with one key are not told apart, and
they keep the order they had; so the sorted list depends on nothing but what stands under each key.

* `Orders` — an order tells apart exactly the entries with different keys; `Orders.comap` — things
  are ordered by their images.
* `Rearranged` — the same entries in another order, where those with one key keep theirs.
* `filter_mergeSort` — sorting keeps what stands under a key.
* `Rearranged.mergeSort_eq` — lists that are rearranged are sorted into one list.
* `rearranged_mergeSort` — sorting rearranges.
-/

namespace ClientGen.Order

variable {α β κ : Type}

/-- **An order of entries by their keys**: it is total, and it takes two entries for equal iff they
have one key. -/
structure Orders (le : α → α → Bool) (key : α → κ) : Prop where
  /-- What comes before something comes before everything after it. -/
  trans : ∀ a b c, le a b → le b c → le a c
  /-- Any two entries are comparable. -/
  total : ∀ a b, le a b || le b a
  /-- Entries that come before each other have one key. -/
  antisymm : ∀ a b, le a b → le b a → key a = key b
  /-- Entries with one key come before each other. -/
  refl : ∀ a b, key a = key b → le a b

variable [DecidableEq κ]

/-- **A rearranged list**: the same entries in another order, up to a relation of entries, where
those with one key keep their order. -/
structure Rearranged (key : α → κ) (R : α → α → Prop) (xs ys : List α) : Prop where
  /-- The entries are the same ones. -/
  perm : ∃ zs, zs.Perm ys ∧ List.Forall₂ R xs zs
  /-- Under each key they stand in the same order. -/
  stable : ∀ k, List.Forall₂ R (xs.filter (key · = k)) (ys.filter (key · = k))

variable {le : α → α → Bool} {key : α → κ}

/-! ## Orders -/

omit [DecidableEq κ] in
/-- Things are ordered by what they are mapped to. -/
theorem Orders.comap (orders : Orders le key) (f : β → α) :
    Orders (fun a b => le (f a) (f b)) (fun a => key (f a)) where
  trans a b c := orders.trans (f a) (f b) (f c)
  total a b := orders.total (f a) (f b)
  antisymm a b := orders.antisymm (f a) (f b)
  refl a b := orders.refl (f a) (f b)

omit [DecidableEq κ] in
/-- Keys may be spelled differently as long as they tell the same things apart. -/
theorem Orders.of_same_keys {ι : Type} {other : α → ι} (orders : Orders le key)
    (same : ∀ a b, other a = other b ↔ key a = key b) : Orders le other where
  trans := orders.trans
  total := orders.total
  antisymm a b first second := (same a b).mpr (orders.antisymm a b first second)
  refl a b keys := orders.refl a b ((same a b).mp keys)

/-- Texts are ordered by themselves. -/
theorem orders_texts : Orders (fun a b : String => decide (a ≤ b)) (fun a => a) where
  trans a b c first second := by
    simp only [decide_eq_true_eq] at first second ⊢
    exact String.le_trans first second
  total a b := by simpa using String.le_total a b
  antisymm a b first second := by
    simp only [decide_eq_true_eq] at first second
    exact String.le_antisymm first second
  refl a b same := by simp [same]

/-! ## Sorted lists -/

/-- **Sorting keeps what stands under a key.** -/
theorem filter_mergeSort (orders : Orders le key) (xs : List α) (k : κ) :
    (xs.mergeSort le).filter (key · = k) = xs.filter (key · = k) := by
  have level : (xs.filter (key · = k)).Pairwise fun a b => le a b := by
    refine List.pairwise_of_forall_mem_list fun a left b right => orders.refl a b ?_
    have first := of_decide_eq_true (List.mem_filter.mp left).2
    have second := of_decide_eq_true (List.mem_filter.mp right).2
    exact first.trans second.symm
  -- entries of one key are sorted already, so the sort keeps them as a sublist
  have inside : (xs.filter (key · = k)).Sublist (xs.mergeSort le) :=
    List.sublist_mergeSort orders.trans orders.total level List.filter_sublist
  have kept := inside.filter (key · = k)
  rw [List.filter_filter] at kept
  simp only [Bool.and_self] at kept
  refine (kept.eq_of_length ?_).symm
  exact ((List.mergeSort_perm xs le).filter _).length_eq.symm

/-- Sorted lists with the same entries under each key are the same. -/
theorem eq_of_filter_eq (orders : Orders le key) {xs ys : List α}
    (left : xs.Pairwise fun a b => le a b) (right : ys.Pairwise fun a b => le a b)
    (same : ∀ k, xs.filter (key · = k) = ys.filter (key · = k)) : xs = ys := by
  have mem (a : α) : a ∈ xs ↔ a ∈ ys := by
    have here := congrArg (a ∈ ·) (same (key a))
    simpa using here
  induction xs generalizing ys with
  | nil =>
      cases ys with
      | nil => rfl
      | cons b ys => exact absurd ((mem b).mpr (List.mem_cons_self ..)) List.not_mem_nil
  | cons a xs ih =>
      cases ys with
      | nil => exact absurd ((mem a).mp (List.mem_cons_self ..)) List.not_mem_nil
      | cons b ys =>
          obtain ⟨leastLeft, sortedLeft⟩ := List.pairwise_cons.mp left
          obtain ⟨leastRight, sortedRight⟩ := List.pairwise_cons.mp right
          -- each of the first entries comes before the other one, so they have one key
          have first : le a b := by
            rcases List.mem_cons.mp ((mem b).mpr (List.mem_cons_self ..)) with rfl | later
            · exact orders.refl _ _ rfl
            · exact leastLeft b later
          have second : le b a := by
            rcases List.mem_cons.mp ((mem a).mp (List.mem_cons_self ..)) with rfl | later
            · exact orders.refl _ _ rfl
            · exact leastRight a later
          have keys := orders.antisymm a b first second
          obtain rfl : a = b := by
            have heads := same (key a)
            rw [List.filter_cons_of_pos (by simp), List.filter_cons_of_pos (by simp [keys])] at heads
            exact (List.cons.inj heads).1
          have rest (k : κ) : xs.filter (key · = k) = ys.filter (key · = k) := by
            have both := same k
            by_cases here : key a = k
            · rw [List.filter_cons_of_pos (by simpa using here),
                List.filter_cons_of_pos (by simpa using here)] at both
              exact (List.cons.inj both).2
            · rwa [List.filter_cons_of_neg (by simpa using here),
                List.filter_cons_of_neg (by simpa using here)] at both
          refine congrArg (a :: ·) (ih sortedLeft sortedRight rest fun c => ?_)
          have here := congrArg (c ∈ ·) (rest (key c))
          simpa using here

/-- **The sorted list depends on what stands under each key** and on nothing else. -/
theorem mergeSort_eq_of_filter_eq (orders : Orders le key) {xs ys : List α}
    (same : ∀ k, xs.filter (key · = k) = ys.filter (key · = k)) :
    xs.mergeSort le = ys.mergeSort le := by
  refine eq_of_filter_eq orders (List.pairwise_mergeSort orders.trans orders.total xs)
    (List.pairwise_mergeSort orders.trans orders.total ys) fun k => ?_
  rw [filter_mergeSort orders, filter_mergeSort orders, same]

/-! ## Rearranged lists -/

/-- The images under a key are the images of what stands under it. -/
theorem filter_map {f : α → α} (keeps : ∀ a, key (f a) = key a) (xs : List α) (k : κ) :
    (xs.map f).filter (key · = k) = (xs.filter (key · = k)).map f := by
  rw [List.filter_map]
  simp only [Function.comp_def, keeps]

variable {R : α → α → Prop} {xs ys : List α}

theorem Rearranged.nil : Rearranged key R [] [] :=
  { perm := ⟨[], .nil, .nil⟩, stable := fun _ => .nil }

/-- **An entry may be moved** behind entries with other keys. -/
theorem Rearranged.move {a b : α} {before after : List α} (related : R a b) (same : key b = key a)
    (others : ∀ c ∈ before, key c ≠ key a) (rest : Rearranged key R xs (before ++ after)) :
    Rearranged key R (a :: xs) (before ++ b :: after) := by
  refine { perm := ?_, stable := fun k => ?_ }
  · obtain ⟨zs, perm, entries⟩ := rest.perm
    exact ⟨b :: zs, (perm.cons b).trans List.perm_middle.symm, .cons related entries⟩
  · have entries := rest.stable k
    rw [List.filter_append] at entries ⊢
    by_cases here : key a = k
    · have none : before.filter (key · = k) = [] := by
        refine List.filter_eq_nil_iff.mpr fun c listed => ?_
        simpa [here] using others c listed
      rw [none, List.nil_append] at entries ⊢
      rw [List.filter_cons_of_pos (by simpa using here),
        List.filter_cons_of_pos (by simpa [same] using here)]
      exact .cons related entries
    · rwa [List.filter_cons_of_neg (by simpa using here),
        List.filter_cons_of_neg (by simpa [same] using here)]

theorem Rearranged.cons {a b : α} (related : R a b) (same : key b = key a)
    (rest : Rearranged key R xs ys) : Rearranged key R (a :: xs) (b :: ys) :=
  have first : Rearranged key R (a :: xs) ([] ++ b :: ys) :=
    .move related same (List.forall_mem_nil _) rest
  first

/-- **Rearranged lists are sorted into one list** if related entries have one image. -/
theorem Rearranged.mergeSort_eq (orders : Orders le key) {f : α → α}
    (keeps : ∀ a, key (f a) = key a) (rearranged : Rearranged key R xs ys)
    (same : ∀ a ∈ xs, ∀ b, R a b → f a = f b) :
    (xs.map f).mergeSort le = (ys.map f).mergeSort le := by
  refine mergeSort_eq_of_filter_eq orders fun k => ?_
  rw [filter_map keeps, filter_map keeps]
  exact (rearranged.stable k).map_eq fun a listed b related =>
    same a (List.mem_of_mem_filter listed) b related

theorem forall₂_map_right {f : α → α} {xs : List α} (related : ∀ a ∈ xs, R a (f a)) :
    List.Forall₂ R xs (xs.map f) :=
  List.forall₂_map_right_iff.mpr (List.forall₂_same.mpr related)

/-- **Sorting rearranges**, and so does replacing each entry before. -/
theorem rearranged_mergeSort (orders : Orders le key) {f : α → α}
    (keeps : ∀ a, key (f a) = key a) (related : ∀ a ∈ xs, R a (f a)) :
    Rearranged key R xs ((xs.map f).mergeSort le) := by
  refine { perm := ?_, stable := fun k => ?_ }
  · exact ⟨xs.map f, (List.mergeSort_perm ..).symm, forall₂_map_right related⟩
  · rw [filter_mergeSort orders, filter_map keeps]
    exact forall₂_map_right fun a listed => related a (List.mem_of_mem_filter listed)

end ClientGen.Order
