import ClientGen.Proofs.Json.Tree

/-!
# Reading what has been written

The readers of a cursor, applied to the tree of a value that was written for them.

* `Cursor.list_source`, `Cursor.map_source` — a list is read if its items are, and a map of one
  entry if its value is.
* `Cursor.Written` — members that were written for the fields of a record, in the order of the
  fields and without some of those that may be absent.
* `Cursor.record_source` — a record is read from the members that were written for it.
-/

namespace ClientGen.Json

/-! ## Depths -/

theorem depth_le_itemsDepth {v : Json} {vs : List Json} (member : v ∈ vs) :
    v.depth ≤ itemsDepth vs := by
  induction vs with
  | nil => cases member
  | cons w vs ih =>
      rw [itemsDepth]
      rcases List.mem_cons.mp member with rfl | later
      · exact Nat.le_max_left _ _
      · exact Nat.le_trans (ih later) (Nat.le_max_right _ _)

/-- A member nests no deeper than the object it stands in. -/
theorem depth_le_of_mem {name : String} {v : Json} {ms : List (String × Json)} {room : Nat}
    (fits : membersDepth ms ≤ room) (member : (name, v) ∈ ms) : v.depth ≤ room := by
  induction ms with
  | nil => cases member
  | cons m ms ih =>
      obtain ⟨k, w⟩ := m
      rw [membersDepth] at fits
      rcases List.mem_cons.mp member with same | later
      · obtain ⟨rfl, rfl⟩ := Prod.mk.inj same
        omega
      · exact ih (by omega) later

namespace Cursor

variable {α β : Type}

/-! ## Scalars, choices and lists -/

theorem text_source (s : String) (room : Nat) : text ⟨(Json.string s).source, room⟩ = .ok s :=
  rfl

theorem flag_source (b : Bool) (room : Nat) : flag ⟨(Json.bool b).source, room⟩ = .ok b :=
  rfl

theorem natural_source {n : Nat} (small : n < twoTo 32) (room : Nat) :
    natural ⟨(Json.ofNat n).source, room⟩ = .ok n := by
  have tree : (Json.ofNat n).source = .number ⟨.ok (.int n), none⟩ := rfl
  have range : (0 : Int) ≤ n ∧ (n : Int) < twoTo 32 := ⟨by omega, by omega⟩
  simp only [natural, tree]
  rw [if_pos range, Int.toNat_natCast]

theorem choice_source {choices : List (String × α)} {name : String} {a : α}
    (known : choices.lookup name = some a) (room : Nat) :
    choice choices ⟨(Json.string name).source, room⟩ = .ok a := by
  show chosen choices name = _
  rw [chosen, known]

theorem optional_source {read : Cursor → Except Failure α} {v : Json} {a : α} {room : Nat}
    (present : v ≠ .null) (reads : read ⟨v.source, room⟩ = .ok a) :
    optional read ⟨v.source, room⟩ = .ok (some a) := by
  unfold optional
  split
  · rename_i null
    cases v with
    | null => exact absurd rfl present
    | _ => cases null
  · rw [reads]
    rfl

theorem mapM_itemSources {read : Cursor → Except Failure α} {write : α → Json} {as : List α}
    {room : Nat} (reads : ∀ a ∈ as, read ⟨(write a).source, room⟩ = .ok a) :
    (itemSources (as.map write)).mapM (fun item => read ⟨item, room⟩) = .ok as := by
  induction as with
  | nil => rfl
  | cons a as ih =>
      have first := reads a (List.mem_cons_self ..)
      have rest := ih fun b member => reads b (List.mem_cons_of_mem _ member)
      rw [List.map_cons, itemSources, List.mapM_cons, rest, first]
      rfl

/-- **A list is read if its items are.** -/
theorem list_source {read : Cursor → Except Failure α} {write : α → Json} {as : List α} {room : Nat}
    (fits : (Json.array (as.map write)).depth ≤ room)
    (reads : ∀ a ∈ as, ∀ room, (write a).depth ≤ room → read ⟨(write a).source, room⟩ = .ok a) :
    list read ⟨(Json.array (as.map write)).source, room⟩ = .ok as := by
  rw [depth] at fits
  obtain ⟨inner, rfl⟩ : ∃ inner, room = inner + 1 := ⟨room - 1, by omega⟩
  have items : (itemSources (as.map write)).mapM (fun item => read ⟨item, inner⟩) = .ok as :=
    mapM_itemSources fun a member => reads a member inner
      (Nat.le_trans (depth_le_itemsDepth (List.mem_map_of_mem member)) (by omega))
  show (do
    let values ← (itemSources (as.map write)).mapM fun item => read ⟨item, inner⟩
    check none
    return values) = _
  rw [items]
  rfl

/-- A map with one entry is read if its value is. -/
theorem map_source {read : Cursor → Except Failure α} {name : String} {v : Json} {a : α}
    {room : Nat} (fits : (Json.object [(name, v)]).depth ≤ room)
    (reads : ∀ room, v.depth ≤ room → read ⟨v.source, room⟩ = .ok a) :
    map read ⟨(Json.object [(name, v)]).source, room⟩ = .ok [(name, a)] := by
  rw [depth, membersDepth] at fits
  obtain ⟨inner, rfl⟩ : ∃ inner, room = inner + 1 := ⟨room - 1, by omega⟩
  have tree : (Json.object [(name, v)]).source = .object [(.pure name, v.source)] none := by
    rw [Json.source, memberSources, memberSources]
  have value := reads inner (by omega)
  simp only [map, tree, enter, List.mapM_cons, List.mapM_nil, Lexeme.read_pure, value, check, bind,
    Except.bind]
  rfl

/-! ## Records -/

variable {fields : List (Field Cursor (Except Failure) α)} {room : Nat} {record result : α}
  {ms : List (String × Json)}

/-- **Members that were written for fields**: they turn the record before the fields into the record
after them. -/
inductive Written (room : Nat) : List (Field Cursor (Except Failure) α) → α →
    List (String × Json) → α → Prop where
  /-- There are no more fields. -/
  | nil (record : α) : Written room [] record [] record
  /-- A field with a member. -/
  | present {field : Field Cursor (Except Failure) α} {change : α → α} {v : Json}
      {fields : List (Field Cursor (Except Failure) α)} {record result : α}
      {ms : List (String × Json)} (read : field.read ⟨v.source, room⟩ = .ok change)
      (rest : Written room fields (change record) ms result) :
      Written room (field :: fields) record ((field.name, v) :: ms) result
  /-- A field without a member. -/
  | absent {field : Field Cursor (Except Failure) α}
      {fields : List (Field Cursor (Except Failure) α)} {record result : α}
      {ms : List (String × Json)} (mayMiss : field.absence ≠ .refused)
      (rest : Written room fields record ms result) :
      Written room (field :: fields) record ms result

namespace Written

/-- A field that is there, whether it has to be or not. -/
theorem given {name : String} {absence : Absence} {read : Cursor → Except Failure β}
    {put : β → α → α} {v : Json} {b : β} (reads : read ⟨v.source, room⟩ = .ok b)
    (rest : Written room fields (put b record) ms result) :
    Written room (⟨name, absence, fun tree => put <$> read tree⟩ :: fields) record
      ((name, v) :: ms) result := by
  have changes : put <$> read ⟨v.source, room⟩ = .ok (put b) := by
    rw [reads]
    rfl
  exact .present changes rest

/-- **Members that were written for fields are read into the record**, and every field that has to
be there has been seen. -/
theorem namedFields {type : Record Cursor (Except Failure) α} {seen : List String}
    (written : Written room fields record ms result)
    (known : ∀ field ∈ fields, type.field? field.name = some field)
    (distinct : (fields.map (·.name)).Nodup) (fresh : ∀ field ∈ fields, field.name ∉ seen) :
    ∃ seen', Cursor.namedFields type room record seen (memberSources ms) = .ok (result, seen') ∧
      (∀ name ∈ seen, name ∈ seen') ∧
      ∀ field ∈ fields, field.absence = .refused → field.name ∈ seen' := by
  induction written generalizing seen with
  | nil record => exact ⟨seen, rfl, fun _ member => member, nofun⟩
  | @present field change v fields record result ms read rest ih =>
      obtain ⟨other, distinct⟩ := List.nodup_cons.mp distinct
      have later : ∀ next ∈ fields, next.name ∉ field.name :: seen := by
        intro next member
        rw [List.mem_cons, not_or]
        refine ⟨?_, fresh next (List.mem_cons_of_mem _ member)⟩
        intro same
        exact other (List.mem_map.mpr ⟨next, member, same⟩)
      obtain ⟨seen', found, kept, all⟩ :=
        ih (fun next member => known next (List.mem_cons_of_mem _ member)) distinct later
      refine ⟨seen', ?_, fun name member => kept name (List.mem_cons_of_mem _ member), ?_⟩
      · rw [memberSources, Cursor.namedFields]
        have new := fresh field (List.mem_cons_self ..)
        simp only [Lexeme.read_pure, bind, Except.bind,
          known field (List.mem_cons_self ..), if_neg new, read]
        exact found
      · intro next member refused
        rcases List.mem_cons.mp member with rfl | member
        · exact kept _ (List.mem_cons_self ..)
        · exact all next member refused
  | @absent field fields record result ms mayMiss rest ih =>
      obtain ⟨seen', found, kept, all⟩ :=
        ih (fun next member => known next (List.mem_cons_of_mem _ member))
          (List.nodup_cons.mp distinct).2
          (fun next member => fresh next (List.mem_cons_of_mem _ member))
      refine ⟨seen', found, kept, ?_⟩
      intro next member refused
      rcases List.mem_cons.mp member with rfl | member
      · exact absurd refused mayMiss
      · exact all next member refused

end Written

/-- A field of distinct names is found under its name. -/
theorem field?_eq_some {type : Record Cursor (Except Failure) α}
    (distinct : (type.fields.map (·.name)).Nodup) :
    ∀ field ∈ type.fields, type.field? field.name = some field := by
  unfold Record.field?
  generalize type.fields = fields at distinct
  induction fields with
  | nil => intro field member; cases member
  | cons first fields ih =>
      obtain ⟨other, distinct⟩ := List.nodup_cons.mp distinct
      intro field member
      rcases List.mem_cons.mp member with rfl | member
      · simp
      · have different : first.name ≠ field.name := by
          intro same
          exact other (List.mem_map.mpr ⟨field, member, same.symm⟩)
        rw [List.find?_cons_of_neg (by simpa using different)]
        exact ih distinct field member

/-- **A record is read from the members that were written for it.** -/
theorem record_source {type : Record Cursor (Except Failure) α} {room : Nat}
    (distinct : (type.fields.map (·.name)).Nodup) (fits : (Json.object ms).depth ≤ room)
    (written : ∀ room, membersDepth ms ≤ room → Written room type.fields type.blank ms result) :
    Cursor.record type ⟨(Json.object ms).source, room⟩ = .ok result := by
  rw [depth] at fits
  obtain ⟨inner, rfl⟩ : ∃ inner, room = inner + 1 := ⟨room - 1, by omega⟩
  have fresh : ∀ field ∈ type.fields, field.name ∉ ([] : List String) := fun _ _ => List.not_mem_nil
  -- nothing has been seen before the first member
  obtain ⟨seen, found, -, all⟩ :=
    (written inner (by omega)).namedFields (field?_eq_some distinct) distinct fresh
  have complete : missing? type.fields seen = none := by
    rw [missing?, Option.map_eq_none_iff, List.find?_eq_none]
    intro field member
    by_cases refused : field.absence = .refused
    · simp [all field member refused]
    · simp [refused]
  have tree : (Json.object ms).source = .object (memberSources ms) none := by
    rw [Json.source]
  simp only [Cursor.record, tree, enter, found, check, bind, Except.bind, complete]
  rfl

end Cursor

end ClientGen.Json
