import ClientGen.MediaType
import ClientGen.Proofs.Naming.Grammar

/-!
# Preference among media types

The media type to speak is found by asking each class in turn for its first member. That is the
first media type of least rank, where the rank is the place of the best class that it is in.

* `MediaType.rank` — the rank of a media type, from 0 for JSON to 6 for anything else.
* `FirstLeast` — the first place of the least number of a list.
* `MediaType.exists_firstLeast` — the media type to speak stands at the first place of least rank.
* `MediaType.getElem?_kinds_rank` — the rank decides the kind.
* `MediaType.Respelled` — two spellings of a media type, which have one rank.
* `MediaType.ByRank` — what it means that a choice goes by rank and by nothing else.

A class that has no member can be dropped, and this lowers every rank by one, so nothing changes in
their order: the walk along the classes is followed from the first class on.
-/

namespace ClientGen

/-! ## First places -/

/-- **The first place of the least number** of a list. -/
def FirstLeast (ns : List Nat) (position : Nat) : Prop :=
  ∃ n, ns[position]? = some n ∧ (∀ m ∈ ns, n ≤ m) ∧ ∀ earlier < position, ns[earlier]? ≠ some n

namespace FirstLeast

variable {ns : List Nat} {position other : Nat}

/-- There is one first place. -/
theorem unique (first : FirstLeast ns position) (again : FirstLeast ns other) :
    position = other := by
  obtain ⟨n, here, least, before⟩ := first
  obtain ⟨m, there, least', before'⟩ := again
  obtain rfl : n = m := Nat.le_antisymm (least m (List.mem_of_getElem? there))
    (least' n (List.mem_of_getElem? here))
  rcases Nat.lt_trichotomy position other with less | same | greater
  · exact absurd here (before' position less)
  · exact same
  · exact absurd there (before other greater)

/-- Numbers that are all greater by one have the same first place. -/
theorem map_succ (first : FirstLeast ns position) : FirstLeast (ns.map (· + 1)) position := by
  obtain ⟨n, here, least, before⟩ := first
  refine ⟨n + 1, by rw [List.getElem?_map, here]; rfl, ?_, fun earlier less again => ?_⟩
  · intro m listed
    obtain ⟨k, member, rfl⟩ := List.mem_map.mp listed
    exact Nat.succ_le_succ (least k member)
  · rw [List.getElem?_map, Option.map_eq_some_iff] at again
    obtain ⟨k, found, same⟩ := again
    exact before earlier less (Nat.succ.inj same ▸ found)

end FirstLeast

/-! ## Walks along classes -/

section Classes

variable {α : Type} {classes : List (α → Bool)} {xs : List α}

/-- The place of the first class that something is in, or the number of classes if it is in none. -/
def classOf (classes : List (α → Bool)) (x : α) : Nat :=
  classes.findIdx fun isIn => isIn x

theorem classOf_cons (isIn : α → Bool) (classes : List (α → Bool)) (x : α) :
    classOf (isIn :: classes) x = if isIn x then 0 else classOf classes x + 1 := by
  rw [classOf, List.findIdx_cons, Bool.cond_eq_ite]
  rfl

/-- **Asking each class in turn finds the first place of the best class.** -/
theorem exists_firstLeast_classOf (classes : List (α → Bool)) (nonempty : xs ≠ []) :
    ∃ position, FirstLeast (xs.map (classOf classes)) position ∧
      (classes.findSome? fun isIn => xs.find? isIn).or xs.head? = xs[position]? := by
  induction classes with
  | nil =>
      -- in no class at all the first one is the best
      obtain ⟨x, rest, rfl⟩ := List.exists_cons_of_ne_nil nonempty
      refine ⟨0, ⟨0, rfl, fun _ _ => Nat.zero_le _, fun earlier less => ?_⟩, rfl⟩
      exact absurd less (Nat.not_lt_zero earlier)
  | cons isIn classes ih =>
      cases found : xs.find? isIn with
      | some x =>
          obtain ⟨holds, position, inside, here, before⟩ := List.find?_eq_some_iff_getElem.mp found
          refine ⟨position, ⟨0, ?_, fun _ _ => Nat.zero_le _, fun earlier less again => ?_⟩, ?_⟩
          · rw [List.getElem?_map, List.getElem?_eq_getElem inside, here, Option.map_some,
              classOf_cons, if_pos holds]
          · have fails : ¬ isIn xs[earlier] := by simpa using before earlier less
            rw [List.getElem?_map, List.getElem?_eq_getElem (Nat.lt_trans less inside),
              Option.map_some, classOf_cons, if_neg fails] at again
            cases again
          · rw [List.findSome?_cons, found, List.getElem?_eq_getElem inside, here]
            rfl
      | none =>
          obtain ⟨position, first, picked⟩ := ih
          have later : xs.map (classOf (isIn :: classes)) =
              (xs.map (classOf classes)).map (· + 1) := by
            rw [List.map_map]
            refine List.map_congr_left fun x listed => ?_
            have outside := List.find?_eq_none.mp found x listed
            exact (classOf_cons isIn classes x).trans (if_neg outside)
          refine ⟨position, later ▸ first.map_succ, ?_⟩
          rw [List.findSome?_cons, found]
          exact picked

end Classes

namespace MediaType

open Text

/-! ## Ranks -/

/-- **The rank of an essence**: JSON, multipart forms, URL-encoded forms, text, raw bytes, media and
anything else. -/
def rankOfEssence (e : List Char) : Nat :=
  if e = "application/json".toList ∨ "+json".toList <:+ e then 0
  else if e = "multipart/form-data".toList then 1
  else if e = "application/x-www-form-urlencoded".toList then 2
  else if "text/".toList <+: e then 3
  else if e = "application/octet-stream".toList then 4
  else if "audio/".toList <+: e ∨ "image/".toList <+: e ∨ "video/".toList <+: e then 5
  else 6

/-- **The rank of a media type.** -/
def rank (mediaType : String) : Nat :=
  rankOfEssence (essence mediaType)

/-- The kinds of the ranks. -/
def kinds : List ContentKind :=
  [.json, .form, .form, .text, .binary, .binary, .unknown]

/-- The classes are those of the ranks. -/
theorem classOf_classes (e : List Char) : classOf classes e = rankOfEssence e := by
  simp only [classOf, classes, List.findIdx_cons, List.findIdx_nil, isJson, isMultipart,
    isUrlencoded, isText, isOctets, isMedia, rankOfEssence]
  simp only [Bool.or_eq_true, beq_iff_eq, List.isSuffixOf_iff_suffix, List.isPrefixOf_iff_prefix,
    List.any_cons, List.any_nil, Bool.cond_eq_ite, Bool.or_false]
  split_ifs <;> rfl

/-- **The rank decides the kind.** -/
theorem getElem?_kinds_rank (mediaType : String) :
    kinds[rank mediaType]? = some (kind mediaType) := by
  simp only [rank, rankOfEssence, kind, isJson, isMultipart, isUrlencoded, isText, isOctets,
    isMedia, Bool.or_eq_true, beq_iff_eq, List.isSuffixOf_iff_suffix, List.isPrefixOf_iff_prefix,
    List.any_cons, List.any_nil, Bool.or_false]
  -- the kind asks for both classes of forms at once, and for both classes of bytes
  split_ifs <;> simp_all [kinds]

/-- **The media type to speak** stands at the first place of least rank. -/
theorem exists_firstLeast {mediaTypes : List String} (nonempty : mediaTypes ≠ []) :
    ∃ position, FirstLeast (mediaTypes.map rank) position ∧
      preferred? mediaTypes = mediaTypes[position]? := by
  obtain ⟨position, first, picked⟩ :=
    exists_firstLeast_classOf (classes.map fun isIn m => isIn (essence m)) nonempty
  have ranks : mediaTypes.map (classOf (classes.map fun isIn m => isIn (essence m))) =
      mediaTypes.map rank := by
    refine List.map_congr_left fun m _ => ?_
    rw [rank, ← classOf_classes, classOf, List.findIdx_map]
    rfl
  rw [List.findSome?_map] at picked
  exact ⟨position, ranks ▸ first, picked⟩

/-- There is a media type to speak iff there is one at all. -/
theorem preferred?_eq_none {mediaTypes : List String} :
    preferred? mediaTypes = none ↔ mediaTypes = [] := by
  constructor
  · intro nothing
    by_contra nonempty
    obtain ⟨position, ⟨n, here, -⟩, picked⟩ := exists_firstLeast nonempty
    rw [List.getElem?_map, ← picked, nothing] at here
    cases here
  · rintro rfl
    rfl

/-- What is chosen stands at the first place of least rank. -/
theorem preferred?_eq_getElem? {mediaTypes : List String} {position : Nat}
    (first : FirstLeast (mediaTypes.map rank) position) :
    preferred? mediaTypes = mediaTypes[position]? := by
  have nonempty : mediaTypes ≠ [] := by
    rintro rfl
    obtain ⟨n, here, -⟩ := first
    cases here
  obtain ⟨other, again, picked⟩ := exists_firstLeast nonempty
  rw [picked, again.unique first]

/-- **The media type to speak** is the one at the first place of least rank. -/
theorem preferred?_eq_some {mediaTypes : List String} {mediaType : String} :
    preferred? mediaTypes = some mediaType ↔
      ∃ position, FirstLeast (mediaTypes.map rank) position ∧
        mediaTypes[position]? = some mediaType := by
  constructor
  · intro picked
    have nonempty : mediaTypes ≠ [] := fun empty => by
      rw [preferred?_eq_none.mpr empty] at picked
      cases picked
    obtain ⟨position, first, same⟩ := exists_firstLeast nonempty
    exact ⟨position, first, same ▸ picked⟩
  · rintro ⟨position, first, here⟩
    rw [preferred?_eq_getElem? first, here]

/-! ## Spellings -/

/-- **A text spells a media type**: blanks may stand around it, and parameters behind it. -/
structure Spells (text core : List Char) : Prop where
  /-- The media type has no parameters. -/
  bare : ';' ∉ core
  /-- Blanks, the media type, blanks and parameters make up the text. -/
  text : ∃ left right parameters, text = left ++ core ++ right ++ parameters ∧
    (∀ c ∈ left ++ right, isBlank c) ∧ (parameters = [] ∨ parameters.head? = some ';')

/-- **Two spellings of a media type**: they differ in ASCII case, in the blanks around it and in
parameters. -/
def Respelled (a b : String) : Prop :=
  ∃ core core' : List Char, Spells a.toList core ∧ Spells b.toList core' ∧
    core.map asciiLower = core'.map asciiLower

end MediaType

/-! ## Blanks at the ends -/

namespace Text

theorem trimStart_append_of_blank {left : List Char} (blank : ∀ c ∈ left, isBlank c)
    (cs : List Char) : trimStart (left ++ cs) = trimStart cs :=
  List.dropWhile_append_of_pos blank

theorem trimEnd_append_of_blank {right : List Char} (blank : ∀ c ∈ right, isBlank c)
    (cs : List Char) : trimEnd (cs ++ right) = trimEnd cs := by
  rw [trimEnd, trimEnd, List.reverse_append, List.dropWhile_append_of_pos]
  simpa using blank

/-- Blanks at both ends are trimmed. -/
theorem trim_of_blank {left right : List Char} (blank : ∀ c ∈ left ++ right, isBlank c)
    (core : List Char) : trim (left ++ core ++ right) = trim core := by
  have before : ∀ c ∈ left, isBlank c := fun c listed => blank c (List.mem_append_left _ listed)
  have behind : ∀ c ∈ right, isBlank c := fun c listed => blank c (List.mem_append_right _ listed)
  rw [trim, trim, List.append_assoc, trimStart_append_of_blank before, trimStart, trimStart,
    List.dropWhile_append]
  split
  · rename_i empty
    rw [List.dropWhile_eq_nil_iff.mpr behind, List.isEmpty_iff.mp empty]
  · exact trimEnd_append_of_blank behind _

theorem isBlank_asciiLower (c : Char) : isBlank (asciiLower c) = isBlank c := by
  by_cases capital : isAsciiCapital c
  · have ascii := toNat_lt_of_isAsciiAlphanumeric (isAsciiAlphanumeric_of_isAsciiCapital capital)
    exact ascii_induction (P := fun c => isBlank (asciiLower c) = isBlank c) (by decide) ascii
  · have kept : asciiLower c = c := if_neg capital
    rw [kept]

/-- Lower case and trimming do not touch each other. -/
theorem trim_map_asciiLower (cs : List Char) :
    trim (cs.map asciiLower) = (trim cs).map asciiLower := by
  have same : isBlank ∘ asciiLower = isBlank := funext isBlank_asciiLower
  rw [trim, trim, trimEnd, trimEnd, trimStart, trimStart, List.dropWhile_map, same,
    ← List.map_reverse, List.dropWhile_map, same, List.map_reverse]

end Text

namespace MediaType

open Text

/-- The essence of a spelling is that of the media type. -/
theorem Spells.essence_eq {text : String} {core : List Char} (spells : Spells text.toList core) :
    essence text = (trim core).map asciiLower := by
  obtain ⟨bare, left, right, parameters, same, blank, behind⟩ := spells
  have solid : ∀ c ∈ left ++ core ++ right, c != ';' := by
    rintro c listed
    rw [bne_iff_ne]
    rintro rfl
    simp only [List.append_assoc, List.mem_append] at listed blank
    rcases listed with inLeft | inCore | inRight
    · exact absurd (blank ';' (.inl inLeft)) (by decide)
    · exact bare inCore
    · exact absurd (blank ';' (.inr inRight)) (by decide)
  have cut : text.toList.takeWhile (· != ';') = left ++ core ++ right := by
    rw [same, List.takeWhile_append_of_pos solid]
    cases parameters with
    | nil => simp
    | cons c parameters =>
        obtain rfl : c = ';' := by simpa using behind
        simp
  rw [essence, cut, trim_of_blank blank]

/-- Every media type is a spelling of itself. -/
@[refl] theorem Respelled.refl (mediaType : String) : Respelled mediaType mediaType := by
  have behind := List.head?_dropWhile_not (· != ';') mediaType.toList
  have spells : Spells mediaType.toList (mediaType.toList.takeWhile (· != ';')) := by
    refine ⟨fun listed => ?_, [], [], mediaType.toList.dropWhile (· != ';'), ?_, by simp, ?_⟩
    · simpa using List.mem_takeWhile_imp listed
    · simp
    · cases parameters : mediaType.toList.dropWhile (· != ';') with
      | nil => exact .inl rfl
      | cons c cs =>
          rw [parameters] at behind
          exact .inr (congrArg some (by simpa using behind))
  exact ⟨_, _, spells, spells, rfl⟩

/-- **Spellings of a media type have one essence.** -/
theorem Respelled.essence_eq {a b : String} (respelled : Respelled a b) :
    essence a = essence b := by
  obtain ⟨core, core', spells, spells', same⟩ := respelled
  rw [spells.essence_eq, spells'.essence_eq, ← trim_map_asciiLower, same, trim_map_asciiLower]

/-- Spellings of media types have the same ranks. -/
theorem map_rank_respelled {mediaTypes mediaTypes' : List String}
    (respelled : List.Forall₂ Respelled mediaTypes mediaTypes') :
    mediaTypes.map rank = mediaTypes'.map rank := by
  induction respelled with
  | nil => rfl
  | cons first rest ih =>
      rw [List.map_cons, List.map_cons, ih, rank, rank, first.essence_eq]

/-! ## Choices -/

/-- **A choice among media types goes by rank**, and so does the kind of what is chosen. -/
structure ByRank (choose : List String → Option String) (kindOf : String → ContentKind) : Prop where
  /-- Nothing is chosen only where there is nothing. -/
  absent : ∀ mediaTypes, choose mediaTypes = none ↔ mediaTypes = []
  /-- The choice is the first media type of least rank. -/
  first : ∀ mediaTypes mediaType, choose mediaTypes = some mediaType ↔
    ∃ position, FirstLeast (mediaTypes.map rank) position ∧
      mediaTypes[position]? = some mediaType
  /-- Its place does not depend on how media types are spelled. -/
  respelled : ∀ mediaTypes mediaTypes', List.Forall₂ Respelled mediaTypes mediaTypes' →
    ∀ position, FirstLeast (mediaTypes.map rank) position →
      FirstLeast (mediaTypes'.map rank) position ∧
        choose mediaTypes = mediaTypes[position]? ∧ choose mediaTypes' = mediaTypes'[position]?
  /-- The rank decides the kind. -/
  kinds : ∀ mediaType, kinds[rank mediaType]? = some (kindOf mediaType)

/-- **Preference goes by rank.** -/
theorem byRank_preferred? : ByRank preferred? kind where
  absent _ := preferred?_eq_none
  first _ _ := preferred?_eq_some
  respelled _ _ spellings _ first := by
    have again := map_rank_respelled spellings ▸ first
    exact ⟨again, preferred?_eq_getElem? first, preferred?_eq_getElem? again⟩
  kinds := getElem?_kinds_rank

end MediaType

end ClientGen
