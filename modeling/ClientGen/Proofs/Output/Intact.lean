import ClientGen.Proofs.Output.Committing
import ClientGen.Proofs.Sdk.Places

/-!
# Plans that stay intact

After its own commit a plan is intact. What the commit of another plan touches is fixed by that plan
and by the manifest that it finds, so it can be said exactly when it leaves the first plan alone.

* `OutputPlan.Intact` — the files of a plan are there, and a manifest lists exactly these.
* `OutputPlan.Spared` — a commit goes to another directory, and the manifest that it finds there
  lists nothing that belongs to the plan.
* `OutputPlan.OfLanguage` — a plan for the files of a language.
* `intact_iff_of_committed` — one commit of another language: intact before, and spared.

Two languages never write one file, since their files have different extensions. So it is the
directories and the old manifests alone that matter.
-/

namespace ClientGen

open ClientGen.Path

namespace OutputPlan

/-! ## Intact plans -/

/-- The places of the files of a plan and of its manifest, seen from a working directory. -/
def outputs (plan : OutputPlan) (here : List String) : List (List String) :=
  ([Manifest.fileName] :: plan.files.map (·.1)).map (destination here plan.dir ++ ·)

theorem mem_outputs {plan : OutputPlan} {here place : List String} :
    place ∈ plan.outputs here ↔ place = destination here plan.dir ++ [Manifest.fileName] ∨
      ∃ file ∈ plan.files, place = destination here plan.dir ++ file.1 := by
  simp [outputs, eq_comm]

/-- **A plan is intact**: its files are there with the planned texts, and the manifest of its
directory lists exactly these files. -/
structure Intact (plan : OutputPlan) (t : FileTree) : Prop where
  /-- The files are there. -/
  file : ∀ file ∈ plan.files, t.text? (destination t.here plan.dir ++ file.1) = some file.2
  /-- The manifest lists them, and nothing else. -/
  listed : ∃ manifest, (t.text? (destination t.here plan.dir ++ [Manifest.fileName])).bind
      Manifest.parse? = some manifest ∧
    ∀ names, names ∈ listedNames manifest ↔ names ∈ plan.files.map (·.1)

/-- A commit leaves its own plan intact. -/
theorem Committed.intact {plan : OutputPlan} (valid : plan.Valid) {t t' : FileTree}
    {listed : List (List String)}
    (committed : plan.Committed listed t t') : plan.Intact t' := by
  constructor
  · intro file member
    rw [committed.here]
    exact committed.file file member
  · refine ⟨plan.manifest, ?_, valid.listed⟩
    rw [committed.here, committed.manifest]
    exact plan.manifest.parse?_text

theorem Intact.congr {plan : OutputPlan} {t t' : FileTree} (here : t'.here = t.here)
    (texts : ∀ place ∈ plan.outputs t.here, t'.text? place = t.text? place)
    (intact : plan.Intact t) : plan.Intact t' := by
  have manifest := texts _ (mem_outputs.mpr (.inl rfl))
  constructor
  · intro file member
    rw [here, texts _ (mem_outputs.mpr (.inr ⟨file, member, rfl⟩))]
    exact intact.file file member
  · rw [here, manifest]
    exact intact.listed

/-- **A plan is spared by the commit of another one**, which goes to another directory and finds no
manifest there that lists anything of the plan. -/
structure Spared (plan other : OutputPlan) (t : FileTree) : Prop where
  /-- The directories are different places. -/
  apart : destination t.here other.dir ≠ destination t.here plan.dir
  /-- Nothing of the plan is listed. -/
  unlisted : ∀ names ∈ t.listed other.dir,
    destination t.here other.dir ++ names ∉ plan.outputs t.here

/-- Directories that are not inside one another are enough. -/
theorem spared_of_unrelated {plan other : OutputPlan} {t : FileTree}
    (outside : ¬destination t.here other.dir <+: destination t.here plan.dir)
    (inside : ¬destination t.here plan.dir <+: destination t.here other.dir) :
    Spared plan other t := by
  constructor
  · intro same
    exact outside (same ▸ List.prefix_refl _)
  · intro names listed member
    have below : destination t.here plan.dir <+: destination t.here other.dir ++ names := by
      rcases mem_outputs.mp member with same | ⟨file, -, same⟩
      · exact same ▸ List.prefix_append _ _
      · exact same ▸ List.prefix_append _ _
    rcases List.prefix_or_prefix_of_prefix below (List.prefix_append _ _) with first | second
    · exact inside first
    · exact outside second

/-! ## Plans of languages -/

/-- **A plan for the files of a language.** -/
structure OfLanguage (language : Language) (plan : OutputPlan) : Prop where
  /-- The names of its files are fit for a plan. -/
  valid : plan.Valid
  /-- There are some files. -/
  nonempty : plan.files ≠ []
  /-- They are files of the language. -/
  place : ∀ file ∈ plan.files, language.Place file.1

variable {language otherLanguage : Language} {plan other : OutputPlan} {t t' : FileTree}

/-- What is spared by a commit of another language is not touched by it. -/
theorem Spared.text?_eq (ofLanguage : plan.OfLanguage language)
    (ofOther : other.OfLanguage otherLanguage) (differ : language ≠ otherLanguage)
    (spared : Spared plan other t) (committed : other.Committed (t.listed other.dir) t t')
    {place : List String} (member : place ∈ plan.outputs t.here) : t'.text? place = t.text? place := by
  refine committed.kept place ?_ ?_ ?_
  · rintro names listed rfl
    exact spared.unlisted names listed member
  · rintro rfl
    rcases mem_outputs.mp member with same | ⟨file, planned, same⟩
    · exact spared.apart (List.append_cancel_right same)
    · exact (ofLanguage.place file planned).append_ne_manifest _ _ same.symm
  · rintro file planned rfl
    have written := ofOther.place file planned
    rcases mem_outputs.mp member with same | ⟨own, ownPlanned, same⟩
    · exact written.append_ne_manifest _ _ same
    · exact differ (written.language_eq (ofLanguage.place own ownPlanned) same).symm

/-- Two languages do not get along in one directory: there is one manifest, and the later one has
it. -/
theorem Intact.apart (ofLanguage : plan.OfLanguage language)
    (ofOther : other.OfLanguage otherLanguage) (differ : language ≠ otherLanguage)
    (committed : other.Committed (t.listed other.dir) t t') (intact : plan.Intact t') :
    destination t.here other.dir ≠ destination t.here plan.dir := by
  intro same
  obtain ⟨manifest, read, listed⟩ := intact.listed
  rw [committed.here, ← same, committed.manifest, Option.bind_some, other.manifest.parse?_text,
    Option.some.injEq] at read
  subst read
  obtain ⟨file, member⟩ := List.exists_mem_of_ne_nil _ ofLanguage.nonempty
  have inOther := (ofOther.valid.listed file.1).mp
    ((listed file.1).mpr (List.mem_map_of_mem member))
  obtain ⟨written, planned, names⟩ := List.mem_map.mp inOther
  exact differ ((ofLanguage.place file member).language_eq (ofOther.place written planned)
    (congrArg ([] ++ ·) names.symm))

/-- A commit removes what the manifest lists that it finds. -/
theorem Intact.unlisted (ofLanguage : plan.OfLanguage language)
    (ofOther : other.OfLanguage otherLanguage) (differ : language ≠ otherLanguage)
    (committed : other.Committed (t.listed other.dir) t t') (intact : plan.Intact t')
    {names : List String} (listed : names ∈ t.listed other.dir) :
    destination t.here other.dir ++ names ∉ plan.outputs t.here := by
  have apart := intact.apart ofLanguage ofOther differ committed
  intro member
  rcases mem_outputs.mp member with same | ⟨file, planned, same⟩
  · have free : names ≠ [Manifest.fileName] := by
      rintro rfl
      exact apart (List.append_cancel_right same)
    have unplanned : names ∉ other.files.map (·.1) := by
      intro inside
      obtain ⟨written, inOther, rfl⟩ := List.mem_map.mp inside
      exact (ofOther.place written inOther).append_ne_manifest _ _ same
    obtain ⟨manifest, read, -⟩ := intact.listed
    rw [committed.here, ← same, committed.text?_removed listed free unplanned] at read
    cases read
  · have place := ofLanguage.place file planned
    have free : names ≠ [Manifest.fileName] := by
      rintro rfl
      exact place.append_ne_manifest _ _ same.symm
    have unplanned : names ∉ other.files.map (·.1) := by
      intro inside
      obtain ⟨written, inOther, rfl⟩ := List.mem_map.mp inside
      exact differ (place.language_eq (ofOther.place written inOther) same.symm)
    have text := intact.file file planned
    rw [committed.here, ← same, committed.text?_removed listed free unplanned] at text
    cases text

/-- **One commit of another language** leaves a plan intact that was intact before, if the plan is
spared, and otherwise it does not. -/
theorem intact_iff_of_committed (ofLanguage : plan.OfLanguage language)
    (ofOther : other.OfLanguage otherLanguage) (differ : language ≠ otherLanguage)
    (committed : other.Committed (t.listed other.dir) t t') :
    plan.Intact t' ↔ plan.Intact t ∧ Spared plan other t := by
  constructor
  · intro intact
    have spared : Spared plan other t :=
      ⟨intact.apart ofLanguage ofOther differ committed,
        fun names => intact.unlisted ofLanguage ofOther differ committed⟩
    refine ⟨intact.congr committed.here.symm fun place member => ?_, spared⟩
    rw [committed.here] at member
    exact (spared.text?_eq ofLanguage ofOther differ committed member).symm
  · rintro ⟨intact, spared⟩
    exact intact.congr committed.here fun place =>
      spared.text?_eq ofLanguage ofOther differ committed

end OutputPlan

end ClientGen
