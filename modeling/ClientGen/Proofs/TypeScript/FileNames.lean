import ClientGen.Proofs.Naming.Grammar
import ClientGen.TypeScript.Text
import Mathlib.Data.List.SplitBy

/-!
# Stems of files

The stem of a file is made from any name: its words are cut into humps, and the humps are joined in
lower case. What comes out are runs of small letters and digits with single hyphens between them. A
run is one word, and it has one hump, so a stem is the stem of itself.

* `TypeScript.IsStem` — the grammar of stems.
* `TypeScript.isStem_hyphenated` — joined humps have it.
* `TypeScript.IsStem.hyphenated_humps` — a stem is put together from its own humps.
* `TypeScript.filter_hyphenated` — without hyphens, the letters and digits are left.
* `TypeScript.fileName_clean` — what holds of the stem made from a name.
-/

namespace ClientGen.TypeScript

open Text Naming

/-! ## The grammar -/

/-- Small letters and digits of ASCII. -/
def isStemChar (c : Char) : Bool :=
  isAsciiSmall c || isAsciiDigit c

/-- **The grammar of stems**: runs of small letters and digits, with single hyphens between them. -/
inductive IsStem : List Char → Prop
  /-- A single run. -/
  | run {cs : List Char} (nonempty : cs ≠ []) (every : ∀ c ∈ cs, isStemChar c) : IsStem cs
  /-- A run and a hyphen in front of another stem. -/
  | joined {cs rest : List Char} (nonempty : cs ≠ []) (every : ∀ c ∈ cs, isStemChar c)
      (stem : IsStem rest) : IsStem (cs ++ '-' :: rest)

theorem isAsciiAlphanumeric_of_isStemChar {c : Char} (stemChar : isStemChar c) :
    isAsciiAlphanumeric c :=
  (Bool.or_eq_true_iff.mp stemChar).elim isAsciiAlphanumeric_of_isAsciiSmall
    isAsciiAlphanumeric_of_isAsciiDigit

/-- In lower case, letters and digits are those of stems. -/
theorem isStemChar_asciiLower {c : Char} (alphanumeric : isAsciiAlphanumeric c) :
    isStemChar (asciiLower c) :=
  Bool.or_eq_true_iff.mpr (isAsciiSmall_or_isAsciiDigit_asciiLower alphanumeric)

/-- Small letters and digits start no hump, and they are in lower case already. -/
theorem isCapital_and_asciiLower_of_isStemChar {c : Char} (stemChar : isStemChar c) :
    isCapital c = false ∧ asciiLower c = c ∧ c ≠ '-' := by
  have ascii := toNat_lt_of_isAsciiAlphanumeric (isAsciiAlphanumeric_of_isStemChar stemChar)
  revert stemChar
  exact ascii_induction (P := fun c => isStemChar c →
    isCapital c = false ∧ asciiLower c = c ∧ c ≠ '-') (by decide) ascii

/-- Hyphens, small letters and digits are all that a stem has. -/
theorem IsStem.hyphen_or_isStemChar {cs : List Char} (stem : IsStem cs) :
    ∀ c ∈ cs, c = '-' ∨ isStemChar c := by
  induction stem with
  | run _ every => exact fun c inside => .inr (every c inside)
  | joined _ every _ ih =>
      intro c inside
      rcases List.mem_append.mp inside with front | back
      · exact .inr (every c front)
      · rcases List.mem_cons.mp back with hyphen | later
        · exact .inl hyphen
        · exact ih c later

theorem IsStem.exists_head {cs : List Char} (stem : IsStem cs) :
    ∃ c, cs.head? = some c ∧ isStemChar c := by
  cases stem with
  | run nonempty every =>
      obtain ⟨c, rest, rfl⟩ := List.exists_cons_of_ne_nil nonempty
      exact ⟨c, rfl, every c (List.mem_cons_self ..)⟩
  | joined nonempty every _ =>
      obtain ⟨c, rest, rfl⟩ := List.exists_cons_of_ne_nil nonempty
      exact ⟨c, rfl, every c (List.mem_cons_self ..)⟩

/-- What stands around a hyphen behind a run. -/
theorem IsStem.around_hyphen {run rest : List Char} (nonempty : run ≠ [])
    (every : ∀ c ∈ run, isStemChar c) (stem : IsStem rest) :
    ∃ c d, run.getLast? = some c ∧ rest.head? = some d ∧ isStemChar c ∧ isStemChar d := by
  obtain ⟨d, head, stemChar⟩ := stem.exists_head
  refine ⟨run.getLast nonempty, d, List.getLast?_eq_some_getLast nonempty, head, ?_, stemChar⟩
  exact every _ (List.getLast_mem nonempty)

/-- **A hyphen of a stem stands between two letters or digits**: none is the first or the last
character, and no two are side by side. -/
theorem IsStem.hyphen_between {cs front back : List Char} (stem : IsStem cs)
    (split : cs = front ++ '-' :: back) :
    ∃ c d, front.getLast? = some c ∧ back.head? = some d ∧ isStemChar c ∧ isStemChar d := by
  induction stem generalizing front with
  | run _ every =>
      have hyphen := every '-' (split ▸ List.mem_append_right _ (List.mem_cons_self ..))
      exact absurd hyphen (by decide)
  | @joined run rest nonempty every stem ih =>
      rcases List.append_eq_append_iff.mp split with ⟨between, rfl, same⟩ | ⟨between, rfl, same⟩
      · cases between with
        | nil =>
            obtain rfl : rest = back := (List.cons.inj same).2
            rw [List.append_nil]
            exact IsStem.around_hyphen nonempty every stem
        | cons hyphen between =>
            obtain ⟨c, d, last, around⟩ := ih (List.cons.inj same).2
            exact ⟨c, d, by simp [List.getLast?_append, List.getLast?_cons, last], around⟩
      · cases between with
        | nil =>
            obtain rfl : back = rest := (List.cons.inj same).2
            rw [List.append_nil] at nonempty every
            exact IsStem.around_hyphen nonempty every stem
        | cons hyphen between =>
            obtain rfl : '-' = hyphen := (List.cons.inj same).1
            have stemChar := every '-' (List.mem_append_right _ (List.mem_cons_self ..))
            exact absurd stemChar (by decide)

/-! ## Joined humps -/

/-- Humps in lower case with hyphens between them. -/
def hyphenated (parts : List (List Char)) : List Char :=
  List.intercalate ['-'] (parts.map (·.map asciiLower))

/-- The humps of all words of a name. -/
def nameHumps (name : String) : List (List Char) :=
  (words name.toList).flatMap humps

theorem toList_fileName (name : String) : (fileName name).toList =
    if nameHumps name = [] then "default".toList else hyphenated (nameHumps name) := by
  unfold fileName
  split
  · rename_i none
    rw [nameHumps, if_pos none]
  · rename_i some
    rw [nameHumps, if_neg some, String.toList_ofList]
    rfl

theorem hyphenated_cons {part : List Char} {parts : List (List Char)} (more : parts ≠ []) :
    hyphenated (part :: parts) = part.map asciiLower ++ '-' :: hyphenated parts := by
  obtain ⟨next, rest, rfl⟩ := List.exists_cons_of_ne_nil more
  simp [hyphenated, List.intercalate_cons_cons]

/-- Humps are not empty, and they have letters and digits only. -/
theorem isHump_of_mem_nameHumps {name : String} {hump : List Char}
    (listed : hump ∈ nameHumps name) : hump ≠ [] ∧ ∀ c ∈ hump, isAsciiAlphanumeric c := by
  obtain ⟨word, inWords, inHumps⟩ := List.mem_flatMap.mp listed
  refine ⟨List.ne_nil_of_mem_splitBy inHumps, fun c inside => ?_⟩
  have inWord : c ∈ word := by
    rw [← List.flatten_splitBy _ word]
    exact List.mem_flatten.mpr ⟨hump, inHumps, inside⟩
  exact isAsciiAlphanumeric_of_mem_words inWords c inWord

/-- **Joined humps are a stem.** -/
theorem isStem_hyphenated {parts : List (List Char)} (nonempty : parts ≠ [])
    (every : ∀ part ∈ parts, part ≠ [] ∧ ∀ c ∈ part, isAsciiAlphanumeric c) :
    IsStem (hyphenated parts) := by
  induction parts with
  | nil => exact absurd rfl nonempty
  | cons part rest ih =>
      obtain ⟨⟨some, alphanumeric⟩, others⟩ := List.forall_mem_cons.mp every
      have run : ∀ c ∈ part.map asciiLower, isStemChar c :=
        List.forall_mem_map.mpr fun c inside => isStemChar_asciiLower (alphanumeric c inside)
      have runSome : part.map asciiLower ≠ [] := mt List.map_eq_nil_iff.mp some
      by_cases last : rest = []
      · subst last
        rw [hyphenated, List.map_singleton, List.intercalate_singleton]
        exact .run runSome run
      · rw [hyphenated_cons last]
        exact .joined runSome run (ih last others)

/-! ## Stems are stems of themselves -/

theorem humps_of_run {cs : List Char} (nonempty : cs ≠ []) (every : ∀ c ∈ cs, isStemChar c) :
    humps cs = [cs] := by
  refine List.splitBy_of_isChain nonempty (List.Pairwise.isChain ?_)
  refine List.pairwise_of_forall_mem_list fun a _ b inside => ?_
  rw [(isCapital_and_asciiLower_of_isStemChar (every b inside)).1]
  simp

theorem map_asciiLower_of_run {cs : List Char} (every : ∀ c ∈ cs, isStemChar c) :
    cs.map asciiLower = cs := by
  have same : ∀ c ∈ cs, asciiLower c = c := fun c inside =>
    (isCapital_and_asciiLower_of_isStemChar (every c inside)).2.1
  rw [List.map_congr_left same, List.map_id']

/-- A run is one word. -/
theorem not_separator_of_run {cs : List Char} (every : ∀ c ∈ cs, isStemChar c) :
    ∀ c ∈ cs, (!isAsciiAlphanumeric c) = false := fun c inside => by
  rw [isAsciiAlphanumeric_of_isStemChar (every c inside), Bool.not_true]

theorem words_of_run {cs : List Char} (nonempty : cs ≠ []) (every : ∀ c ∈ cs, isStemChar c) :
    words cs = [cs] := by
  rw [words, pieces, List.splitOnP_eq_singleton (not_separator_of_run every)]
  simp [nonempty]

theorem words_of_joined {cs rest : List Char} (nonempty : cs ≠ [])
    (every : ∀ c ∈ cs, isStemChar c) : words (cs ++ '-' :: rest) = cs :: words rest := by
  rw [words, pieces, List.splitOnP_append_cons cs rest rfl,
    List.splitOnP_eq_singleton (not_separator_of_run every)]
  simp [nonempty, words, pieces]

/-- **A stem is put together from its own humps.** -/
theorem IsStem.hyphenated_humps {cs : List Char} (stem : IsStem cs) :
    (words cs).flatMap humps ≠ [] ∧ hyphenated ((words cs).flatMap humps) = cs := by
  induction stem with
  | run nonempty every =>
      rw [words_of_run nonempty every, List.flatMap_singleton, humps_of_run nonempty every]
      refine ⟨List.cons_ne_nil _ _, ?_⟩
      rw [hyphenated, List.map_singleton, List.intercalate_singleton, map_asciiLower_of_run every]
  | joined nonempty every _ ih =>
      obtain ⟨some, same⟩ := ih
      rw [words_of_joined nonempty every, List.flatMap_cons, humps_of_run nonempty every,
        List.singleton_append]
      refine ⟨List.cons_ne_nil _ _, ?_⟩
      rw [hyphenated_cons some, same, map_asciiLower_of_run every]

/-- **The stem made from a stem** is that stem. -/
theorem fileName_of_isStem {name : String} (stem : IsStem name.toList) : fileName name = name := by
  obtain ⟨some, same⟩ := stem.hyphenated_humps
  rw [← String.toList_inj, toList_fileName, nameHumps, if_neg some, same]

/-! ## Letters and digits -/

/-- Without hyphens, the letters and digits of the humps are left, in lower case. -/
theorem filter_hyphenated {parts : List (List Char)}
    (every : ∀ part ∈ parts, part ≠ [] ∧ ∀ c ∈ part, isAsciiAlphanumeric c) :
    (hyphenated parts).filter (· != '-') = parts.flatten.map asciiLower := by
  induction parts with
  | nil => rfl
  | cons part rest ih =>
      obtain ⟨⟨-, alphanumeric⟩, others⟩ := List.forall_mem_cons.mp every
      have kept : (part.map asciiLower).filter (· != '-') = part.map asciiLower := by
        refine List.filter_eq_self.mpr (List.forall_mem_map.mpr fun c inside => ?_)
        have stemChar := isStemChar_asciiLower (alphanumeric c inside)
        simpa using (isCapital_and_asciiLower_of_isStemChar stemChar).2.2
      by_cases last : rest = []
      · subst last
        rw [hyphenated, List.map_singleton, List.intercalate_singleton, kept,
          List.flatten_singleton]
      · rw [hyphenated_cons last, List.filter_append, kept,
          List.filter_cons_of_neg (by decide), ih others, List.flatten_cons, List.map_append]

/-- The words of a name have its letters and digits. -/
theorem flatten_words (raw : List Char) :
    (words raw).flatten = raw.filter isAsciiAlphanumeric := by
  unfold words pieces
  rw [List.flatten_filter_not_isEmpty]
  induction raw with
  | nil => rfl
  | cons c cs ih =>
      rw [List.splitOnP_cons_eq_if_modifyHead]
      by_cases alphanumeric : isAsciiAlphanumeric c
      · obtain ⟨piece, rest, split⟩ :=
          List.exists_cons_of_ne_nil (List.splitOnP_ne_nil (!isAsciiAlphanumeric ·) cs)
        rw [List.filter_cons_of_pos alphanumeric, ← ih, split]
        simp [alphanumeric]
      · rw [List.filter_cons_of_neg alphanumeric, ← ih]
        simp [alphanumeric]

/-- Cutting words into humps loses nothing. -/
theorem flatten_nameHumps (name : String) :
    (nameHumps name).flatten = name.toList.filter isAsciiAlphanumeric := by
  rw [← flatten_words, nameHumps]
  induction words name.toList with
  | nil => rfl
  | cons word rest ih =>
      rw [List.flatMap_cons, List.flatten_append, ih, List.flatten_cons, humps,
        List.flatten_splitBy]

theorem nameHumps_eq_nil_iff (name : String) :
    nameHumps name = [] ↔ name.toList.filter isAsciiAlphanumeric = [] := by
  rw [← flatten_nameHumps, List.flatten_eq_nil_iff]
  constructor
  · rintro none hump listed
    rw [none] at listed
    cases listed
  · intro empty
    refine List.eq_nil_iff_forall_not_mem.mpr fun hump listed => ?_
    exact (isHump_of_mem_nameHumps listed).1 (empty hump listed)

/-! ## Stems of names -/

theorem isStem_fileName (name : String) : IsStem (fileName name).toList := by
  rw [toList_fileName]
  split
  · have letters : "default".toList.all isStemChar = true := rfl
    exact .run (by decide) (List.all_eq_true.mp letters)
  · rename_i some
    exact isStem_hyphenated some fun hump => isHump_of_mem_nameHumps

/-- **The stem made from a name is clean**: it has the grammar of stems, so a hyphen stands only
between letters and digits; it is the stem of itself; and without hyphens it has the letters and
digits of the name in lower case, or it is `default` if there are none. -/
theorem fileName_clean (name : String) :
    IsStem (fileName name).toList ∧
      (∀ front back, (fileName name).toList = front ++ '-' :: back →
        ∃ c d, front.getLast? = some c ∧ back.head? = some d ∧ isStemChar c ∧ isStemChar d) ∧
      fileName (fileName name) = fileName name ∧
      (name.toList.filter isAsciiAlphanumeric ≠ [] ∧
          (fileName name).toList.filter (· != '-') =
            (name.toList.filter isAsciiAlphanumeric).map asciiLower ∨
        name.toList.filter isAsciiAlphanumeric = [] ∧ fileName name = "default") := by
  have stem := isStem_fileName name
  refine ⟨stem, fun front back => stem.hyphen_between, fileName_of_isStem stem, ?_⟩
  have text := toList_fileName name
  by_cases none : nameHumps name = []
  · rw [if_pos none, String.toList_inj] at text
    exact .inr ⟨(nameHumps_eq_nil_iff name).mp none, text⟩
  · rw [if_neg none] at text
    refine .inl ⟨mt (nameHumps_eq_nil_iff name).mpr none, ?_⟩
    rw [text, filter_hyphenated fun hump => isHump_of_mem_nameHumps, flatten_nameHumps]

/-- A hump starts with a capital letter behind a small one or a digit, and only there. -/
example : fileName "HTTPServer v2Admin" = "httpserver-v2-admin" := by
  decide

end ClientGen.TypeScript
