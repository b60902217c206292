import ClientGen.OrderedMap
import ClientGen.Proofs.Naming.Runs
import Mathlib.Data.List.Forall2

/-!
# Maps that agree

Two maps agree if they have the same names and related values under each name. The order in which
the names were first given does not matter.

* `OrderedMap.Agree` — agreement, for any relation of values.
* `OrderedMap.agree_iff_lookup` — agreement is agreement of every look-up.
* `OrderedMap.of_find?_sorted` — what is found first in a sorted map has the least name.
* `OrderedMap.Agree.sorted` — sorting turns agreement into agreement place by place.
* `OrderedMap.Aligned` — the same names in the same places, with related values.

Distinct names are part of agreement: only then do the look-ups say everything about a map.
-/

/-! ## Relations of optional values and of lists -/

namespace Option.Rel

variable {α β : Type} {R : α → β → Prop}

theorem isSome_eq {a : Option α} {b : Option β} (rel : Option.Rel R a b) :
    a.isSome = b.isSome := by
  cases rel <;> rfl

theorem isNone_eq {a : Option α} {b : Option β} (rel : Option.Rel R a b) :
    a.isNone = b.isNone := by
  cases rel <;> rfl

theorem imp {S : α → β → Prop} {a : Option α} {b : Option β} (rel : Option.Rel R a b)
    (weaker : ∀ {x y}, R x y → S x y) : Option.Rel S a b := by
  cases rel with
  | none => exact .none
  | some related => exact .some (weaker related)

theorem or {a c : Option α} {b d : Option β} (first : Option.Rel R a b)
    (second : Option.Rel R c d) : Option.Rel R (a.or c) (b.or d) := by
  cases first with
  | some related => exact .some related
  | none => exact second

theorem map_eq {γ : Type} {f : α → γ} {g : β → γ} {a : Option α} {b : Option β}
    (rel : Option.Rel R a b) (same : ∀ x ∈ a, ∀ y, R x y → f x = g y) : a.map f = b.map g := by
  cases rel with
  | none => rfl
  | some related => exact congrArg Option.some (same _ rfl _ related)

end Option.Rel

theorem List.Forall₂.map_eq {α β γ : Type} {R : α → β → Prop} {f : α → γ} {g : β → γ} {as : List α}
    {bs : List β} (rel : List.Forall₂ R as bs) (same : ∀ a ∈ as, ∀ b, R a b → f a = g b) :
    as.map f = bs.map g := by
  induction rel with
  | nil => rfl
  | cons related rest ih =>
      rw [List.map_cons, List.map_cons, same _ (List.mem_cons_self ..) _ related,
        ih fun a member => same a (List.mem_cons_of_mem _ member)]

theorem List.Forall₂.all_eq {α β : Type} {R : α → β → Prop} {p : α → Bool} {q : β → Bool}
    {as : List α} {bs : List β} (rel : List.Forall₂ R as bs) (same : ∀ {a b}, R a b → p a = q b) :
    as.all p = bs.all q := by
  induction rel with
  | nil => rfl
  | cons related rest ih => rw [List.all_cons, List.all_cons, same related, ih]

namespace ClientGen.OrderedMap

variable {α β γ : Type}

/-! ## Look-ups and names -/

theorem lookup_cons_of_ne {m : OrderedMap α} {name other : String} {value : α}
    (differs : other ≠ name) : List.lookup other ((name, value) :: m) = m.lookup other := by
  have unequal : (other == name) = false := by simpa using differs
  rw [List.lookup_cons, unequal]

theorem lookup_eq_none {m : OrderedMap α} {name : String} :
    m.lookup name = none ↔ name ∉ m.keys := by
  induction m with
  | nil => simp
  | cons entry m ih =>
      obtain ⟨other, value⟩ := entry
      by_cases same : name = other
      · simp [same]
      · rw [lookup_cons_of_ne same, ih, keys_cons, List.mem_cons, not_or]
        exact ⟨fun absent => ⟨same, absent⟩, fun absent => absent.2⟩

theorem mem_of_lookup {m : OrderedMap α} {name : String} {value : α}
    (found : m.lookup name = some value) : (name, value) ∈ m := by
  obtain ⟨before, after, rfl, -⟩ := List.lookup_eq_some_iff.mp found
  exact List.mem_append_right _ (List.mem_cons_self ..)

theorem Distinct.lookup_of_mem {m : OrderedMap α} (distinct : m.Distinct) {name : String}
    {value : α} (member : (name, value) ∈ m) : m.lookup name = some value := by
  induction m with
  | nil => cases member
  | cons entry m ih =>
      obtain ⟨other, first⟩ := entry
      obtain ⟨fresh, rest⟩ := List.nodup_cons.mp distinct
      rcases List.mem_cons.mp member with same | inside
      · cases same
        exact List.lookup_cons_self
      · have differs : name ≠ other := by
          rintro rfl
          exact fresh (List.mem_map.mpr ⟨_, inside, rfl⟩)
        rw [lookup_cons_of_ne differs]
        exact ih rest inside

theorem Distinct.perm {m n : OrderedMap α} (distinct : m.Distinct) (perm : m.Perm n) : n.Distinct :=
  (perm.map Prod.fst).nodup distinct

@[simp] theorem keys_mapValues (f : α → β) (m : OrderedMap α) : (m.mapValues f).keys = m.keys := by
  simp [keys, mapValues]

theorem Distinct.mapValues {m : OrderedMap α} (distinct : m.Distinct) (f : α → β) :
    (m.mapValues f).Distinct := by
  rwa [Distinct, keys_mapValues]

/-- A map with distinct names is looked up in the same way in every order. -/
theorem Distinct.lookup_perm {m n : OrderedMap α} (distinct : m.Distinct) (perm : m.Perm n)
    (name : String) : m.lookup name = n.lookup name := by
  cases found : n.lookup name with
  | some value => exact distinct.lookup_of_mem (perm.mem_iff.mpr (mem_of_lookup found))
  | none =>
      rw [lookup_eq_none] at found ⊢
      exact fun member => found ((perm.map Prod.fst).mem_iff.mp member)

/-- Entries with distinct names shadow the map that they are put into. -/
theorem Distinct.lookup_insertAll {es : OrderedMap α} (distinct : es.Distinct) (m : OrderedMap α)
    (name : String) : (m.insertAll es).lookup name = (es.lookup name).or (m.lookup name) := by
  induction es generalizing m with
  | nil => rfl
  | cons entry es ih =>
      obtain ⟨other, value⟩ := entry
      obtain ⟨fresh, rest⟩ := List.nodup_cons.mp distinct
      show ((m.insert other value).insertAll es).lookup name = _
      rw [ih rest, lookup_insert]
      by_cases same : name = other
      · subst same
        rw [lookup_eq_none.mpr fresh, List.lookup_cons_self, if_pos rfl]
        rfl
      · rw [lookup_cons_of_ne same, if_neg same]

/-- A new name goes to the end. -/
theorem insert_of_notMem {m : OrderedMap α} {name : String} (fresh : name ∉ m.keys) (value : α) :
    m.insert name value = m ++ [(name, value)] := by
  induction m with
  | nil => rfl
  | cons entry m ih =>
      rw [keys_cons, List.mem_cons, not_or] at fresh
      rw [OrderedMap.insert, if_neg (Ne.symm fresh.1), ih fresh.2]
      rfl

/-- Entries with new and distinct names go to the end in their order. -/
theorem Distinct.insertAll_eq_append {m es : OrderedMap α} (distinct : Distinct (m ++ es)) :
    m.insertAll es = m ++ es := by
  induction es generalizing m with
  | nil => rw [List.append_nil]; rfl
  | cons entry es ih =>
      obtain ⟨name, value⟩ := entry
      have split : m ++ (name, value) :: es = (m ++ [(name, value)]) ++ es := by simp
      have fresh : name ∉ m.keys := by
        intro member
        have names : (keys m ++ keys ((name, value) :: es)).Nodup := by
          rw [keys, keys, ← List.map_append]
          exact distinct
        exact (List.nodup_append.mp names).2.2 name member name (List.mem_cons_self ..) rfl
      show (m.insert name value).insertAll es = _
      rw [insert_of_notMem fresh, split]
      rw [split] at distinct
      exact ih distinct

/-- Entries with distinct names are a map as they stand. -/
theorem Distinct.ofEntries_eq {m : OrderedMap α} (distinct : m.Distinct) : ofEntries m = m := by
  have whole : Distinct ([] ++ m) := distinct
  exact whole.insertAll_eq_append

theorem mem_of_mem_insert {m : OrderedMap α} {name : String} {value : α} {entry : String × α}
    (member : entry ∈ m.insert name value) : entry = (name, value) ∨ entry ∈ m := by
  induction m with
  | nil => exact .inl (List.mem_singleton.mp member)
  | cons first m ih =>
      by_cases same : first.1 = name
      · rw [OrderedMap.insert, if_pos same] at member
        rcases List.mem_cons.mp member with new | later
        · exact .inl new
        · exact .inr (List.mem_cons_of_mem _ later)
      · rw [OrderedMap.insert, if_neg same] at member
        rcases List.mem_cons.mp member with rfl | later
        · exact .inr (List.mem_cons_self ..)
        · exact (ih later).imp_right (List.mem_cons_of_mem _)

theorem mem_of_mem_insertAll {m : OrderedMap α} {es : List (String × α)} {entry : String × α}
    (member : entry ∈ m.insertAll es) : entry ∈ m ∨ entry ∈ es := by
  induction es generalizing m with
  | nil => exact .inl member
  | cons e es ih =>
      rcases ih (show entry ∈ (m.insert e.1 e.2).insertAll es from member) with inside | later
      · rcases mem_of_mem_insert inside with rfl | old
        · exact .inr (List.mem_cons_self ..)
        · exact .inl old
      · exact .inr (List.mem_cons_of_mem _ later)

/-- The names of a map after entries are put into it are its own names and those of the entries. -/
theorem mem_keys_insertAll {m : OrderedMap α} {es : List (String × α)} {name : String} :
    name ∈ keys (m.insertAll es) ↔ name ∈ keys m ∨ name ∈ keys es := by
  induction es generalizing m with
  | nil => exact ⟨.inl, fun member => member.resolve_right List.not_mem_nil⟩
  | cons e es ih =>
      show name ∈ keys ((m.insert e.1 e.2).insertAll es) ↔ _
      rw [ih, mem_keys_insert, keys_cons, List.mem_cons, or_assoc, or_left_comm]

/-- A map has no entries but those it was built from. -/
theorem mem_of_mem_ofEntries {es : List (String × α)} {entry : String × α}
    (member : entry ∈ ofEntries es) : entry ∈ es :=
  (mem_of_mem_insertAll member).resolve_left List.not_mem_nil

/-! ## Sorted maps -/

theorem sorted_perm (m : OrderedMap α) : m.sorted.Perm m :=
  List.mergeSort_perm _ _

theorem pairwise_sorted (m : OrderedMap α) : m.sorted.Pairwise fun a b => a.1 ≤ b.1 := by
  have sorted : m.sorted.Pairwise fun a b => decide (a.1 ≤ b.1) := List.pairwise_mergeSort
    (fun a b c first second => by
      simp only [decide_eq_true_eq] at first second ⊢
      exact String.le_trans first second)
    (fun a b => by simpa using String.le_total a.1 b.1) m
  exact sorted.imp fun le => by simpa using le

/-- The names of a sorted map ascend. -/
theorem Distinct.pairwise_keys_sorted {m : OrderedMap α} (distinct : m.Distinct) :
    (keys m.sorted).Pairwise (· < ·) :=
  Naming.pairwise_lt_of_nodup (List.pairwise_map.mpr (pairwise_sorted m))
    (distinct.perm (sorted_perm m).symm)

/-- The entries of a map with distinct names have one ascending order. -/
theorem Distinct.sorted_eq_of_perm {m n : OrderedMap α} (distinct : m.Distinct) (perm : m.Perm n) :
    m.sorted = n.sorted := by
  have perms : m.sorted.Perm n.sorted := (sorted_perm m).trans (perm.trans (sorted_perm n).symm)
  -- two entries of one name are one entry, so the order on names orders entries
  refine List.Perm.eq_of_pairwise (fun a b left right le ge => ?_) (pairwise_sorted m)
    (pairwise_sorted n) perms
  have name : a.1 = b.1 := String.le_antisymm le ge
  have first := distinct.lookup_of_mem ((sorted_perm m).mem_iff.mp left)
  have second := distinct.lookup_of_mem (perm.mem_iff.mpr ((sorted_perm n).mem_iff.mp right))
  rw [name, second] at first
  exact Prod.ext name (Option.some.inj first).symm

/-- Sorting by name and replacing the values may change places. -/
theorem sorted_mapValues (f : α → β) (m : OrderedMap α) :
    (m.mapValues f).sorted = m.sorted.mapValues f := by
  show (m.map fun e => (e.1, f e.2)).mergeSort _ = (m.mergeSort _).map fun e => (e.1, f e.2)
  exact (List.map_mergeSort (f := fun e : String × α => (e.1, f e.2)) fun _ _ _ _ => rfl).symm

theorem lookup_mapValues (f : α → β) (m : OrderedMap α) (name : String) :
    (m.mapValues f).lookup name = (m.lookup name).map f := by
  induction m with
  | nil => rfl
  | cons entry m ih =>
      obtain ⟨other, value⟩ := entry
      show List.lookup name ((other, f value) :: mapValues f m) = _
      by_cases same : name = other
      · subst same
        simp
      · rw [lookup_cons_of_ne same, lookup_cons_of_ne same, ih]

/-- Maps with the same names in the same places and related values are two images of one map of
pairs. -/
theorem exists_pairs_of_forall₂ {R : α → β → Prop} {m : OrderedMap α} {n : OrderedMap β}
    (rel : List.Forall₂ (fun a b => a.1 = b.1 ∧ R a.2 b.2) m n) :
    ∃ pairs : OrderedMap (α × β), pairs.mapValues Prod.fst = m ∧ pairs.mapValues Prod.snd = n ∧
      ∀ pair ∈ pairs, R pair.2.1 pair.2.2 := by
  induction rel with
  | nil => exact ⟨[], rfl, rfl, List.forall_mem_nil _⟩
  | @cons entry entry' m n related rest ih =>
      obtain ⟨pairs, rfl, rfl, all⟩ := ih
      obtain ⟨name, a⟩ := entry
      obtain ⟨_, b⟩ := entry'
      obtain ⟨rfl, first⟩ := related
      exact ⟨(name, a, b) :: pairs, rfl, rfl, List.forall_mem_cons.mpr ⟨first, all⟩⟩

/-- Values that are related in every pair are related place by place after sorting. -/
theorem forall₂_sorted_mapValues {R : α → β → Prop} {pairs : OrderedMap (α × β)}
    (related : ∀ pair ∈ pairs, R pair.2.1 pair.2.2) :
    List.Forall₂ (fun a b => a.1 = b.1 ∧ R a.2 b.2) (pairs.mapValues Prod.fst).sorted
      (pairs.mapValues Prod.snd).sorted := by
  rw [sorted_mapValues, sorted_mapValues]
  refine List.forall₂_map_left_iff.mpr (List.forall₂_map_right_iff.mpr ?_)
  exact List.forall₂_same.mpr fun pair member =>
    ⟨rfl, related pair ((sorted_perm pairs).mem_iff.mp member)⟩

/-- Sorting maps with the same names in the same places keeps their values related. -/
theorem forall₂_sorted {R : α → β → Prop} {m : OrderedMap α} {n : OrderedMap β}
    (rel : List.Forall₂ (fun a b => a.1 = b.1 ∧ R a.2 b.2) m n) :
    List.Forall₂ (fun a b => a.1 = b.1 ∧ R a.2 b.2) m.sorted n.sorted := by
  obtain ⟨pairs, rfl, rfl, related⟩ := exists_pairs_of_forall₂ rel
  exact forall₂_sorted_mapValues related

/-- **What is found first in a sorted map has the least name.** -/
theorem of_find?_sorted {m : OrderedMap α} {p : String × α → Bool} {entry : String × α}
    (found : m.sorted.find? p = some entry) :
    entry ∈ m ∧ p entry ∧ ∀ other ∈ m, p other → entry.1 ≤ other.1 := by
  obtain ⟨holds, before, after, split, failing⟩ := List.find?_eq_some_iff_append.mp found
  have listed (other : String × α) : other ∈ m ↔ other ∈ before ++ entry :: after := by
    rw [← split, (sorted_perm m).mem_iff]
  refine ⟨(listed entry).mpr (List.mem_append_cons_self ..), holds, fun other member also => ?_⟩
  have sorted := pairwise_sorted m
  rw [split] at sorted
  rcases List.mem_append.mp ((listed other).mp member) with earlier | here
  · exact absurd also (by simpa using failing other earlier)
  · rcases List.mem_cons.mp here with rfl | later
    · exact String.le_refl _
    · exact List.rel_of_pairwise_cons (List.pairwise_append.mp sorted).2.1 later

/-! ## Agreement -/

/-- **Two maps agree**: they have the same names, each once, and related values under each. -/
inductive Agree (R : α → β → Prop) : OrderedMap α → OrderedMap β → Prop
  /-- Empty maps agree. -/
  | nil : Agree R [] []
  /-- An entry of one map may stand anywhere in the other one. -/
  | cons {name : String} {a : α} {b : β} {m : OrderedMap α} {before after : OrderedMap β}
      (fresh : name ∉ m.keys) (values : R a b) (rest : Agree R m (before ++ after)) :
      Agree R ((name, a) :: m) (before ++ (name, b) :: after)

namespace Agree

variable {R : α → β → Prop} {m : OrderedMap α} {n : OrderedMap β}

/-- Maps that agree are two images of one map of pairs, the second one in another order. -/
theorem exists_pairs (agree : Agree R m n) :
    ∃ pairs : OrderedMap (α × β), pairs.Distinct ∧ pairs.mapValues Prod.fst = m ∧
      (pairs.mapValues Prod.snd).Perm n ∧ ∀ pair ∈ pairs, R pair.2.1 pair.2.2 := by
  induction agree with
  | nil => exact ⟨[], List.nodup_nil, rfl, List.Perm.nil, by simp⟩
  | @cons name a b m before after fresh values rest ih =>
      obtain ⟨pairs, distinct, rfl, perm, related⟩ := ih
      rw [keys_mapValues] at fresh
      refine ⟨(name, a, b) :: pairs, List.nodup_cons.mpr ⟨fresh, distinct⟩, rfl, ?_, ?_⟩
      · exact (perm.cons (name, b)).trans List.perm_middle.symm
      · intro pair member
        rcases List.mem_cons.mp member with rfl | member
        · exact values
        · exact related pair member

theorem distinct_left (agree : Agree R m n) : m.Distinct := by
  obtain ⟨pairs, distinct, rfl, -, -⟩ := agree.exists_pairs
  exact distinct.mapValues Prod.fst

theorem distinct_right (agree : Agree R m n) : n.Distinct := by
  obtain ⟨pairs, distinct, -, perm, -⟩ := agree.exists_pairs
  have image : (pairs.mapValues Prod.snd).Distinct := distinct.mapValues Prod.snd
  exact image.perm perm

/-- **Sorting turns agreement into agreement place by place.** -/
theorem sorted (agree : Agree R m n) :
    List.Forall₂ (fun a b => a.1 = b.1 ∧ R a.2 b.2) m.sorted n.sorted := by
  obtain ⟨pairs, distinct, rfl, perm, related⟩ := agree.exists_pairs
  have image : (pairs.mapValues Prod.snd).Distinct := distinct.mapValues Prod.snd
  rw [← image.sorted_eq_of_perm perm]
  exact forall₂_sorted_mapValues related

theorem lookup (agree : Agree R m n) (name : String) :
    Option.Rel R (m.lookup name) (n.lookup name) := by
  obtain ⟨pairs, distinct, rfl, perm, related⟩ := agree.exists_pairs
  have image : (pairs.mapValues Prod.snd).Distinct := distinct.mapValues Prod.snd
  rw [← image.lookup_perm perm, lookup_mapValues, lookup_mapValues]
  cases found : pairs.lookup name with
  | none => exact .none
  | some pair => exact .some (related _ (mem_of_lookup found))

end Agree

/-- A map is looked up in its remaining entries unless the name is that of the entry. -/
theorem lookup_middle_of_ne {before after : OrderedMap α} {name other : String} {value : α}
    (differs : other ≠ name) :
    (before ++ (name, value) :: after).lookup other = (before ++ after).lookup other := by
  rw [List.lookup_append, List.lookup_append]
  exact congrArg _ (lookup_cons_of_ne differs)

/-- **Agreement of maps is agreement of every look-up.** -/
theorem agree_iff_lookup {R : α → β → Prop} {m : OrderedMap α} {n : OrderedMap β} :
    Agree R m n ↔ m.Distinct ∧ n.Distinct ∧
      ∀ name, Option.Rel R (m.lookup name) (n.lookup name) := by
  constructor
  · intro agree
    exact ⟨agree.distinct_left, agree.distinct_right, agree.lookup⟩
  · rintro ⟨left, right, entries⟩
    induction m generalizing n with
    | nil =>
        cases n with
        | nil => exact .nil
        | cons entry n =>
            have here := entries entry.1
            rw [List.lookup_nil, show List.lookup entry.1 (entry :: n) = some entry.2 from
              List.lookup_cons_self] at here
            cases here
    | cons entry m ih =>
        obtain ⟨name, a⟩ := entry
        obtain ⟨fresh, rest⟩ := List.nodup_cons.mp left
        have here := entries name
        rw [List.lookup_cons_self] at here
        cases found : n.lookup name with
        | none => simp [found] at here
        | some b =>
            rw [found] at here
            obtain ⟨before, after, rfl, -⟩ := List.lookup_eq_some_iff.mp found
            -- the entry is taken out of its place, and the rest agrees by induction
            have others : Distinct ((name, b) :: (before ++ after)) :=
              right.perm List.perm_middle
            have fresh' := (List.nodup_cons.mp others).1
            refine .cons fresh (by simpa using here) (ih rest (List.nodup_cons.mp others).2 ?_)
            intro other
            by_cases same : other = name
            · subst same
              rw [lookup_eq_none.mpr fresh, lookup_eq_none.mpr fresh']
              exact .none
            · have there := entries other
              rw [lookup_middle_of_ne same] at there
              rwa [lookup_cons_of_ne same] at there

/-- Maps that agree still do so after the entries of maps that agree are put into them. -/
theorem Agree.insertAll {R : α → β → Prop} {m es : OrderedMap α} {n fs : OrderedMap β}
    (maps : Agree R m n) (entries : Agree R es fs) : Agree R (m.insertAll es) (n.insertAll fs) := by
  refine agree_iff_lookup.mpr
    ⟨maps.distinct_left.insertAll es, maps.distinct_right.insertAll fs, fun name => ?_⟩
  rw [entries.distinct_left.lookup_insertAll, entries.distinct_right.lookup_insertAll]
  exact (entries.lookup name).or (maps.lookup name)

/-- Values that agree have one image in ascending order if related values have one image. -/
theorem Agree.sorted_mapValues_eq {R : α → β → Prop} {f : α → γ}
    {g : β → γ} {m : OrderedMap α} {n : OrderedMap β} (agree : Agree R m n)
    (same : ∀ entry ∈ m, ∀ b, R entry.2 b → f entry.2 = g b) :
    (m.mapValues f).sorted = (n.mapValues g).sorted := by
  rw [sorted_mapValues, sorted_mapValues]
  refine agree.sorted.map_eq ?_
  rintro ⟨name, a⟩ member ⟨other, b⟩ ⟨rfl, related⟩
  rw [same _ ((sorted_perm m).mem_iff.mp member) b related]

/-! ## Maps place by place -/

/-- **Two maps place by place**: the same names in the same places, with related values. -/
inductive Aligned (R : α → β → Prop) : OrderedMap α → OrderedMap β → Prop
  /-- There are no entries. -/
  | nil : Aligned R [] []
  /-- The first entries have one name and related values. -/
  | cons (name : String) {a : α} {b : β} {m : OrderedMap α} {n : OrderedMap β} (values : R a b)
      (rest : Aligned R m n) : Aligned R ((name, a) :: m) ((name, b) :: n)

namespace Aligned

variable {R : α → β → Prop} {m es : OrderedMap α} {n fs : OrderedMap β}

theorem insert (maps : Aligned R m n) (name : String) {a : α} {b : β} (values : R a b) :
    Aligned R (m.insert name a) (n.insert name b) := by
  induction maps with
  | nil => exact .cons name values .nil
  | cons other old rest ih =>
      simp only [OrderedMap.insert]
      split
      · exact .cons name values rest
      · exact .cons other old ih

theorem insertAll (maps : Aligned R m n) (entries : Aligned R es fs) :
    Aligned R (m.insertAll es) (n.insertAll fs) := by
  induction entries generalizing m n with
  | nil => exact maps
  | cons name values rest ih => exact ih (maps.insert name values)

/-- Maps are equal after their values are replaced if related values have one image. -/
theorem mapValues_eq {f : α → γ} {g : β → γ} (maps : Aligned R m n)
    (same : ∀ entry ∈ m, ∀ b, R entry.2 b → f entry.2 = g b) :
    m.mapValues f = n.mapValues g := by
  induction maps with
  | nil => rfl
  | cons name values rest ih =>
      have first := same _ (List.mem_cons_self ..) _ values
      have others := ih fun entry member => same entry (List.mem_cons_of_mem _ member)
      simp only [mapValues] at others first ⊢
      rw [List.map_cons, List.map_cons, others, first]

end Aligned

/-- A map is aligned with its image if its values are related to theirs. -/
theorem aligned_mapValues {R : α → β → Prop} {f : α → β} {m : OrderedMap α}
    (related : ∀ entry ∈ m, R entry.2 (f entry.2)) : Aligned R m (m.mapValues f) := by
  induction m with
  | nil => exact .nil
  | cons entry m ih =>
      exact .cons entry.1 (related entry (List.mem_cons_self ..))
        (ih fun other later => related other (List.mem_cons_of_mem _ later))

@[simp] theorem mapValues_id (m : OrderedMap α) : m.mapValues id = m :=
  List.map_id' m

end ClientGen.OrderedMap
