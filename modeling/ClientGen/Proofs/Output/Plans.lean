import ClientGen.Output.Plan
import ClientGen.Proofs.Files.Destination
import ClientGen.Proofs.Json.Readers
import ClientGen.Proofs.Json.Texts
import Mathlib.Data.List.Forall2
import Mathlib.Data.List.Nodup
import Mathlib.Data.Option.Basic

/-!
# Plans

What a plan promises about its files, and what its manifest says when it is read again.

* `OutputPlan.Valid` — the names in a plan: proper, distinct, not the manifest's, and listed.
* `valid_ofFiles` — every plan that is accepted is valid, and it is the plan for these files.
* `ofFiles_eq_ok` — what an accepted plan is made of.
* `ofFiles_isOk_iff` — which files are accepted.
* `Manifest.parse?_text` — a manifest is read from its text.
-/

namespace ClientGen

open ClientGen.Path

/-- **A manifest is read from its text.** -/
theorem Manifest.parse?_text (manifest : Manifest) : parse? manifest.text = some manifest := by
  have shallow : (Json.object [("files", .ofStrings manifest.files)]).depth ≤ Json.depthLimit := by
    have flat (ss : List String) : Json.itemsDepth (ss.map Json.string) = 0 := by
      induction ss with
      | nil => rfl
      | cons s ss ih => rw [List.map_cons, Json.itemsDepth, ih]; rfl
    rw [Json.depth, Json.membersDepth, Json.membersDepth, Json.ofStrings, Json.depth, flat]
    decide
  have faithful : (Json.object [("files", .ofStrings manifest.files)]).Faithful :=
    Json.faithful_object (List.forall_mem_singleton.mpr (Json.faithful_ofStrings _))
  have files {room : Nat} (fits : (Json.ofStrings manifest.files).depth ≤ room) :
      Json.Cursor.list Json.Cursor.text ⟨(Json.ofStrings manifest.files).source, room⟩ =
        .ok manifest.files :=
    Json.Cursor.list_source fits fun path _ room _ => Json.Cursor.text_source path room
  have whole : read ⟨(Json.object [("files", .ofStrings manifest.files)]).source,
      Json.depthLimit⟩ = .ok manifest := by
    refine Json.Cursor.record_source (by decide) shallow fun room fits => ?_
    exact .given (files (Json.depth_le_of_mem fits (List.mem_singleton_self _))) (.nil _)
  rw [parse?, text, Json.Cursor.ofText, Json.Source.parse_pretty _ faithful]
  simp only [whole, Json.check, bind, Except.bind]
  rfl

namespace OutputPlan

/-! ## Files with their names -/

/-- A file as it stands in a plan: by its names, with its text. -/
def Places (file : SourceFile) (entry : List String × String) : Prop :=
  contained? file.path = some entry.1 ∧ entry.2 = file.contents

theorem place_eq_ok_iff {before : List (List String)} {file : SourceFile} {names : List String} :
    place before file = .ok names ↔
      contained? file.path = some names ∧ names ≠ [Manifest.fileName] ∧ names ∉ before := by
  unfold place
  split
  · rename_i escaping
    simp [escaping]
  · rename_i found inside
    rw [inside]
    split
    · rename_i taken
      refine ⟨nofun, ?_⟩
      rintro ⟨same, free, fresh⟩
      cases same
      exact absurd taken (not_or.mpr ⟨free, fresh⟩)
    · rename_i free
      rw [not_or] at free
      constructor
      · intro same
        cases same
        exact ⟨rfl, free⟩
      · rintro ⟨same, -⟩
        cases same
        rfl

/-- The files of a plan, in their order: each at its names, no names twice, and none taken. -/
theorem placed_eq_ok_iff {before : List (List String)} {files : List SourceFile}
    {entries : List (List String × String)} :
    placed before files = .ok entries ↔
      List.Forall₂ Places files entries ∧ (entries.map (·.1)).Nodup ∧
        ∀ entry ∈ entries, entry.1 ≠ [Manifest.fileName] ∧ entry.1 ∉ before := by
  induction files generalizing before entries with
  | nil =>
      constructor
      · intro same
        cases same
        exact ⟨.nil, List.nodup_nil, nofun⟩
      · rintro ⟨all, -, -⟩
        cases all
        rfl
  | cons file files ih =>
      rw [placed]
      simp only [bind_eq_ok_iff, place_eq_ok_iff, ih]
      constructor
      · rintro ⟨names, ⟨inside, free, fresh⟩, rest, ⟨all, distinct, others⟩, same⟩
        cases same
        refine ⟨.cons ⟨inside, rfl⟩ all, ?_, ?_⟩
        · rw [List.map_cons, List.nodup_cons]
          refine ⟨?_, distinct⟩
          intro member
          obtain ⟨entry, listed, same⟩ := List.mem_map.mp member
          exact (others entry listed).2 (same ▸ List.mem_cons_self ..)
        · rw [List.forall_mem_cons]
          refine ⟨⟨free, fresh⟩, fun entry member => ⟨(others entry member).1, ?_⟩⟩
          exact fun taken => (others entry member).2 (List.mem_cons_of_mem _ taken)
      · rintro ⟨all, distinct, others⟩
        cases all with
        | @cons _ entry _ rest first all =>
            obtain ⟨names, text⟩ := entry
            obtain ⟨inside, rfl⟩ := first
            rw [List.map_cons, List.nodup_cons] at distinct
            rw [List.forall_mem_cons] at others
            refine ⟨names, ⟨inside, others.1⟩, rest, ⟨all, distinct.2, fun entry member => ?_⟩, rfl⟩
            refine ⟨(others.2 entry member).1, ?_⟩
            rw [List.mem_cons, not_or]
            refine ⟨?_, (others.2 entry member).2⟩
            intro same
            exact distinct.1 (List.mem_map.mpr ⟨entry, member, same⟩)

theorem map_names_of_places {files : List SourceFile} {entries : List (List String × String)}
    (all : List.Forall₂ Places files entries) :
    files.map (fun file => contained? file.path) = (entries.map (·.1)).map some := by
  induction all with
  | nil => rfl
  | cons first _ ih => rw [List.map_cons, List.map_cons, List.map_cons, first.1, ih]

theorem exists_related_of_mem {α β : Type} {R : α → β → Prop} {as : List α} {bs : List β}
    (all : List.Forall₂ R as bs) {a : α} (member : a ∈ as) : ∃ b ∈ bs, R a b := by
  induction all with
  | nil => cases member
  | @cons _ b _ _ first _ ih =>
      rcases List.mem_cons.mp member with rfl | later
      · exact ⟨b, List.mem_cons_self .., first⟩
      · obtain ⟨other, inside, related⟩ := ih later
        exact ⟨other, List.mem_cons_of_mem _ inside, related⟩

/-- The manifest of some files lists their paths in ascending order. -/
def manifestOf (files : List SourceFile) : Manifest :=
  { files := (files.map (·.path)).mergeSort fun a b => decide (a ≤ b) }

theorem ofFiles_eq_ok {dir : String} {files : List SourceFile} {plan : OutputPlan}
    (planned : ofFiles dir files = .ok plan) :
    plan.dir = dir ∧ plan.manifest = manifestOf files ∧ placed [] files = .ok plan.files := by
  obtain ⟨entries, placing, same⟩ := bind_eq_ok_iff.mp planned
  cases same
  exact ⟨rfl, rfl, placing⟩

/-- The plan for files that all have places. -/
theorem ofFiles_of_placed (dir : String) {files : List SourceFile}
    {entries : List (List String × String)} (placing : placed [] files = .ok entries) :
    ofFiles dir files = .ok { dir, files := entries, manifest := manifestOf files } :=
  bind_eq_ok_iff.mpr ⟨entries, placing, rfl⟩

/-- **Which files are accepted**: all are below the directory, under different names, and none is
the manifest. -/
theorem ofFiles_isOk_iff (dir : String) (files : List SourceFile) :
    (∃ plan, ofFiles dir files = .ok plan) ↔
      (∀ file ∈ files, ∃ names, contained? file.path = some names ∧
          names ≠ [Manifest.fileName]) ∧
        (files.map fun file => contained? file.path).Nodup := by
  constructor
  · rintro ⟨plan, planned⟩
    obtain ⟨-, -, placing⟩ := ofFiles_eq_ok planned
    obtain ⟨all, distinct, others⟩ := placed_eq_ok_iff.mp placing
    have names := map_names_of_places all
    constructor
    · intro file member
      have mapped : contained? file.path ∈ (plan.files.map (·.1)).map some := by
        rw [← names]
        exact List.mem_map_of_mem (f := fun file : SourceFile => contained? file.path) member
      obtain ⟨found, inside, same⟩ := List.mem_map.mp mapped
      obtain ⟨entry, listed, rfl⟩ := List.mem_map.mp inside
      exact ⟨entry.1, same.symm, (others entry listed).1⟩
    · rw [names]
      exact distinct.map (Option.some_injective _)
  · rintro ⟨inside, distinct⟩
    let entries := files.map fun file => ((contained? file.path).getD [], file.contents)
    have all : List.Forall₂ Places files entries := by
      rw [List.forall₂_map_right_iff, List.forall₂_same]
      intro file member
      obtain ⟨names, found, -⟩ := inside file member
      exact ⟨by rw [found]; rfl, rfl⟩
    have names := map_names_of_places all
    have placing : placed [] files = .ok entries := by
      refine placed_eq_ok_iff.mpr ⟨all, ?_, ?_⟩
      · rw [names] at distinct
        exact distinct.of_map
      · refine List.forall_mem_map.mpr fun file member => ⟨?_, List.not_mem_nil⟩
        obtain ⟨names, found, free⟩ := inside file member
        rw [found]
        exact free
    exact ⟨_, ofFiles_of_placed dir placing⟩

/-! ## Valid plans -/

/-- **What holds of the names in a plan.** -/
structure Valid (plan : OutputPlan) : Prop where
  /-- They are proper names. -/
  isName : ∀ file ∈ plan.files, file.1 ≠ [] ∧ ∀ name ∈ file.1, IsName name
  /-- No names stand twice. -/
  distinct : (plan.files.map (·.1)).Nodup
  /-- No file stands in the way of the manifest. -/
  free : ∀ file ∈ plan.files, file.1 ≠ [Manifest.fileName]
  /-- The manifest lists the files. -/
  listed : ∀ names, names ∈ listedNames plan.manifest ↔ names ∈ plan.files.map (·.1)

/-- **Every plan that is accepted is valid.** -/
theorem valid_ofFiles {dir : String} {files : List SourceFile} {plan : OutputPlan}
    (planned : ofFiles dir files = .ok plan) : plan.Valid := by
  obtain ⟨-, manifest, placing⟩ := ofFiles_eq_ok planned
  obtain ⟨all, distinct, others⟩ := placed_eq_ok_iff.mp placing
  have names := map_names_of_places all
  have inside {found : List String} (member : found ∈ plan.files.map (·.1)) :
      ∃ file ∈ files, contained? file.path = some found := by
    have mapped : some found ∈ files.map fun file => contained? file.path := by
      rw [names]
      exact List.mem_map_of_mem member
    obtain ⟨file, listed, same⟩ := List.mem_map.mp mapped
    exact ⟨file, listed, same⟩
  refine ⟨?_, distinct, fun file member => (others file member).1, ?_⟩
  · intro file member
    obtain ⟨_, -, found⟩ := inside (List.mem_map_of_mem member)
    exact isName_of_contained? found
  · intro found
    rw [manifest, listedNames, manifestOf, List.mem_filterMap]
    constructor
    · rintro ⟨path, member, same⟩
      rw [List.mem_mergeSort] at member
      obtain ⟨file, listed, rfl⟩ := List.mem_map.mp member
      have mapped : some found ∈ (plan.files.map (·.1)).map some := by
        rw [← names, ← same]
        exact List.mem_map_of_mem (f := fun file : SourceFile => contained? file.path) listed
      simpa using mapped
    · intro member
      obtain ⟨file, listed, same⟩ := inside member
      exact ⟨file.path, List.mem_mergeSort.mpr (List.mem_map_of_mem listed), same⟩

end OutputPlan

end ClientGen
