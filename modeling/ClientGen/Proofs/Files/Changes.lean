import ClientGen.Proofs.Files.Destination

/-!
# What requests change

Each request that succeeds changes the entry at one place, the destination of its path, and nothing
else. What it finds there, and what it leaves, is stated once for each of the four.

* `FileTree.text?` — the text of the file at a place.
* `removeFile_eq_ok`, `removeDirectory_eq_ok`, `makeDirectory_eq_ok`, `writeText_eq_ok` — the place
  before a request and the tree after it.
* `Sound.erase_file`, `Sound.vacate`, `Sound.put` — what can be stays so.
-/

namespace ClientGen.FileTree

open ClientGen.Path

/-- **The text of the file at a place**, if there is one. -/
def text? (t : FileTree) (place : List String) : Option String :=
  match t.lookup? place with
  | some (.file text) => some text
  | _ => none

theorem text?_eq_some {t : FileTree} {place : List String} {text : String} :
    t.text? place = some text ↔ t.lookup? place = some (.file text) := by
  unfold text?
  constructor
  · intro found
    split at found
    · rename_i here
      rw [here, Option.some.inj found]
    · cases found
  · intro found
    rw [found]

theorem text?_eq_none_of_directory {t : FileTree} {place : List String}
    (directory : t.lookup? place = some .directory) : t.text? place = none := by
  rw [text?, directory]

theorem text?_congr {t t' : FileTree} {place : List String}
    (same : t'.lookup? place = t.lookup? place) : t'.text? place = t.text? place := by
  rw [text?, same, text?]

/-! ## Places without and with something -/

theorem lookup?_vacate {place : List String} (inner : place ≠ []) (t : FileTree)
    (other : List String) :
    (t.vacate place).lookup? other = if other = place then none else t.lookup? other :=
  lookup?_erase inner t other

theorem gone_le_vacate (place : List String) (t : FileTree) : t.gone ≤ (t.vacate place).gone := by
  unfold vacate
  split
  · exact Nat.le_succ _
  · exact Nat.le_refl _

theorem text?_erase {place : List String} (inner : place ≠ []) (t : FileTree)
    (other : List String) :
    (t.erase place).text? other = if other = place then none else t.text? other := by
  unfold text?
  rw [lookup?_erase inner]
  by_cases same : other = place <;> simp [same]

theorem text?_vacate {place : List String} (inner : place ≠ []) (t : FileTree)
    (other : List String) :
    (t.vacate place).text? other = if other = place then none else t.text? other :=
  text?_erase inner t other

theorem text?_put_file {place : List String} (inner : place ≠ []) (text : String) (t : FileTree)
    (other : List String) :
    (t.put place (.file text)).text? other =
      if other = place then some text else t.text? other := by
  unfold text?
  rw [lookup?_put inner]
  by_cases same : other = place <;> simp [same]

theorem lookup_eq_none_of_forall {entries : List (List String × Entry)} {place : List String}
    (absent : ∀ e ∈ entries, e.1 ≠ place) : entries.lookup place = none := by
  rw [List.lookup_eq_none_iff]
  intro e member
  simpa using (absent e member).symm

/-- Nothing stands directly below an empty place. -/
theorem lookup?_of_isEmptyAt {t : FileTree} {place : List String} (empty : t.isEmptyAt place = true)
    (name : String) : t.lookup? (place ++ [name]) = none := by
  have inner : place ++ [name] ≠ [] := by simp
  rw [lookup?, if_neg inner]
  refine lookup_eq_none_of_forall fun e member same => ?_
  simp only [isEmptyAt, Bool.not_eq_true', List.any_eq_false] at empty
  refine empty e member ?_
  simp [same]

/-! ## Requests -/

theorem find_eq_ok {t : FileTree} {path : String} {place : List String} {entry : Entry}
    (found : t.find path = .ok (place, entry)) :
    place = destination t.here path ∧ t.lookup? place = some entry := by
  obtain ⟨located, locating, looked⟩ := bind_eq_ok_iff.mp found
  split at looked
  · rename_i here
    cases looked
    exact ⟨locate_eq locating, here⟩
  · cases looked

/-- A file is read where its path leads. -/
theorem readText_of_locate {t : FileTree} {path text : String} {place : List String}
    (located : t.locate path = .ok place) (found : t.text? place = some text) :
    t.readText path = .ok text := by
  have file := text?_eq_some.mp found
  simp only [readText, find, located, file, bind, Except.bind, pure, Except.pure]

theorem removeFile_eq_ok {t t' : FileTree} {path : String} (removed : t.removeFile path = .ok t') :
    (∃ text, t.lookup? (destination t.here path) = some (.file text)) ∧
      t' = t.erase (destination t.here path) := by
  obtain ⟨⟨place, entry⟩, found, removed⟩ := bind_eq_ok_iff.mp removed
  obtain ⟨rfl, here⟩ := find_eq_ok found
  cases entry with
  | file text =>
      cases removed
      exact ⟨⟨text, here⟩, rfl⟩
  | directory => cases removed

theorem removeDirectory_eq_ok {t t' : FileTree} {path : String}
    (removed : t.removeDirectory path = .ok t') :
    destination t.here path ≠ [] ∧
      t.lookup? (destination t.here path) = some .directory ∧
      (∀ name, t.lookup? (destination t.here path ++ [name]) = none) ∧
      t' = t.vacate (destination t.here path) := by
  obtain ⟨⟨place, entry⟩, found, removed⟩ := bind_eq_ok_iff.mp removed
  obtain ⟨rfl, here⟩ := find_eq_ok found
  cases entry with
  | file text => cases removed
  | directory =>
      dsimp only at removed
      split at removed
      · rename_i empty
        cases removed
        exact ⟨empty.1, here, lookup?_of_isEmptyAt empty.2, rfl⟩
      · cases removed

theorem makeDirectory_eq_ok {t t' : FileTree} (sound : t.Sound) {path : String}
    (made : t.makeDirectory path = .ok t') :
    destination t.here path ≠ [] ∧
      t.lookup? (destination t.here path) = none ∧
      t.lookup? (destination t.here path).dropLast = some .directory ∧
      t' = t.put (destination t.here path) .directory := by
  obtain ⟨place, located, made⟩ := bind_eq_ok_iff.mp made
  split at made
  · rename_i absent
    cases made
    obtain rfl := locateNew_eq located
    refine ⟨?_, absent, ?_, rfl⟩
    · intro root
      rw [root, lookup?_nil] at absent
      cases absent
    · exact (sound.isOpen_route (walk_eq_ok_iff.mp located).2).resolve_left (by simp [absent])
  · cases made

theorem writeText_eq_ok {t t' : FileTree} (sound : t.Sound) {path text : String}
    (written : t.writeText path text = .ok t') :
    t.locate path = .ok (destination t.here path) ∧
      destination t.here path ≠ [] ∧
      t.lookup? (destination t.here path) ≠ some .directory ∧
      t.lookup? (destination t.here path).dropLast = some .directory ∧
      t' = t.put (destination t.here path) (.file text) := by
  obtain ⟨place, located, written⟩ := bind_eq_ok_iff.mp written
  obtain rfl := locate_eq located
  split at written
  · cases written
  · rename_i other
    cases written
    have inner : destination t.here path ≠ [] := by
      intro root
      rw [root] at other
      exact other (lookup?_nil t)
    refine ⟨located, inner, other, ?_, rfl⟩
    rcases sound.isOpen_route (walk_eq_ok_iff.mp located).2 with present | directory
    · exact sound.parent _ inner present
    · exact directory

/-- A text is written where its path leads, unless a directory stands there. -/
theorem writeText_of_locate {t : FileTree} {path : String} {place : List String}
    (located : t.locate path = .ok place) (other : t.lookup? place ≠ some .directory)
    (text : String) : t.writeText path text = .ok (t.put place (.file text)) := by
  rw [writeText, located]
  simp only [bind, Except.bind]
  rfl

/-! ## What can be stays so -/

theorem home_vacate (place : List String) (t : FileTree) :
    (t.vacate place).home = if place = t.home then t.home.dropLast else t.home := by
  unfold FileTree.vacate
  split
  · show t.here.take (t.here.length - (t.gone + 1)) =
      (t.here.take (t.here.length - t.gone)).dropLast
    rw [List.dropLast_eq_take, List.take_take, List.length_take]
    congr 1
    omega
  · rfl

theorem dropLast_ne {place : List String} (inner : place ≠ []) : place.dropLast ≠ place := by
  intro same
  have size := congrArg List.length same
  have long := List.length_pos_iff.mpr inner
  rw [List.length_dropLast] at size
  omega

theorem ne_nil_of_file {t : FileTree} {place : List String} {text : String}
    (file : t.lookup? place = some (.file text)) : place ≠ [] := by
  rintro rfl
  simp at file

/-- Removing a file keeps the directories. -/
theorem lookup?_erase_of_directory {t : FileTree} {place other : List String} {text : String}
    (file : t.lookup? place = some (.file text)) (directory : t.lookup? other = some .directory) :
    (t.erase place).lookup? other = some .directory := by
  rw [lookup?_erase (ne_nil_of_file file), if_neg, directory]
  rintro rfl
  rw [directory] at file
  cases file

/-- Removing a file keeps a tree sound. -/
theorem Sound.erase_file {t : FileTree} (sound : t.Sound) {place : List String} {text : String}
    (file : t.lookup? place = some (.file text)) : (t.erase place).Sound := by
  have inner := ne_nil_of_file file
  constructor
  · intro other below present
    rw [lookup?_erase inner] at present
    split at present
    · exact absurd rfl present
    · exact lookup?_erase_of_directory file (sound.parent other below present)
  · exact lookup?_erase_of_directory file sound.home

/-- Removing an empty directory keeps a tree sound, also if it is what is left of the working
directory. -/
theorem Sound.vacate {t : FileTree} (sound : t.Sound) {place : List String} (inner : place ≠ [])
    (directory : t.lookup? place = some .directory)
    (empty : ∀ name, t.lookup? (place ++ [name]) = none) : (t.vacate place).Sound := by
  have kept {other : List String} (different : other ≠ place)
      (found : t.lookup? other = some .directory) :
      (t.vacate place).lookup? other = some .directory := by
    rw [lookup?_vacate inner, if_neg different, found]
  constructor
  · intro other below present
    rw [lookup?_vacate inner] at present
    split at present
    · exact absurd rfl present
    · refine kept ?_ (sound.parent other below present)
      -- what stands below the place would be an entry of the empty directory
      rintro rfl
      rw [← List.dropLast_concat_getLast below] at present
      exact present (empty _)
  · rw [home_vacate]
    split
    · rename_i same
      refine kept ?_ (sound.parent _ (same ▸ inner) (by simp [sound.home]))
      rw [same]
      exact dropLast_ne (same ▸ inner)
    · rename_i different
      exact kept (Ne.symm different) sound.home

/-- Putting something where nothing but a file can be keeps a tree sound. -/
theorem Sound.put {t : FileTree} (sound : t.Sound) {place : List String} (inner : place ≠ [])
    (other : t.lookup? place ≠ some .directory)
    (parent : t.lookup? place.dropLast = some .directory) (entry : Entry) :
    (t.put place entry).Sound := by
  have kept {q : List String} (directory : t.lookup? q = some .directory) :
      (t.put place entry).lookup? q = some .directory := by
    rw [lookup?_put inner, if_neg, directory]
    rintro rfl
    exact other directory
  constructor
  · intro q below present
    rw [lookup?_put inner] at present
    split at present
    · rename_i same
      exact kept (same ▸ parent)
    · exact kept (sound.parent q below present)
  · exact kept sound.home

end ClientGen.FileTree
