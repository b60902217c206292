import ClientGen.Proofs.PathTemplate.Decomposition
import Mathlib.Data.List.Infix

/-!
# Scanning a path by bytes

A path is scanned by the places of its braces, which are counted in bytes, and its segments are the
slices between these places. A slice exists only where both of its ends are boundaries between
characters.

* `offset?`, `cut?`, `slice?` — the place of a character, and what lies between two places.
* `scan?` — the scan. It has no result when a slice does not exist.
* `scan?_eq` — the scan has a result for every text, namely the segments of the text.
* `Decomposes` — what segments of a path have to be like, as properties of the list.
* `split_exact` — the segments of a path are the only ones that are like this.

Braces take one byte. The place behind a brace is therefore a boundary, and this is the one reason
why each slice exists.
-/

namespace ClientGen.PathTemplate

/-! ## Places in a text -/

/-- The number of bytes of a text. -/
def bytes (cs : List Char) : Nat :=
  (String.ofList cs).utf8ByteSize

/-- The place of the first `c`. -/
def offset? (c : Char) : List Char → Option Nat
  | [] => none
  | d :: cs => if d = c then some 0 else (offset? c cs).map (d.utf8Size + ·)

/-- What lies in front of a place and what lies behind it. There is no such cut inside of a
character or past the end. -/
def cut? : Nat → List Char → Option (List Char × List Char)
  | 0, cs => some ([], cs)
  | _ + 1, [] => none
  | n + 1, c :: cs =>
    if c.utf8Size ≤ n + 1 then
      (cut? (n + 1 - c.utf8Size) cs).map fun (before, after) => (c :: before, after)
    else none

/-- What lies between two places. -/
def slice? (start stop : Nat) (cs : List Char) : Option (List Char) :=
  if start ≤ stop then do
    let (_, behind) ← cut? start cs
    let (between, _) ← cut? (stop - start) behind
    return between
  else none

@[simp] theorem bytes_nil : bytes [] = 0 :=
  rfl

@[simp] theorem bytes_cons (c : Char) (cs : List Char) :
    bytes (c :: cs) = c.utf8Size + bytes cs := by
  rw [bytes, String.ofList_cons, String.utf8ByteSize_append, String.utf8ByteSize_singleton, bytes]

@[simp] theorem bytes_append (before after : List Char) :
    bytes (before ++ after) = bytes before + bytes after := by
  rw [bytes, String.ofList_append, String.utf8ByteSize_append, bytes, bytes]

theorem offset?_eq_none {c : Char} {cs : List Char} : offset? c cs = none ↔ c ∉ cs := by
  induction cs with
  | nil => simp [offset?]
  | cons d cs ih =>
      by_cases here : d = c
      · simp [offset?, here]
      · simp [offset?, here, ih, Ne.symm here]

theorem offset?_append {c : Char} {before : List Char} (absent : c ∉ before) (after : List Char) :
    offset? c (before ++ c :: after) = some (bytes before) := by
  induction before with
  | nil => simp [offset?]
  | cons d before ih =>
      have other := List.ne_of_not_mem_cons absent
      rw [List.cons_append, offset?, if_neg (Ne.symm other),
        ih (List.not_mem_of_not_mem_cons absent), Option.map_some, bytes_cons]

/-- A text is cut between two of its characters, and nowhere else. -/
theorem cut?_eq_some {n : Nat} {cs before after : List Char} :
    cut? n cs = some (before, after) ↔ cs = before ++ after ∧ bytes before = n := by
  fun_induction cut? n cs generalizing before with
  | case1 cs =>
      constructor
      · rintro ⟨⟩
        exact ⟨rfl, rfl⟩
      · rintro ⟨rfl, empty⟩
        cases before with
        | nil => rfl
        | cons c before =>
            have := c.utf8Size_pos
            rw [bytes_cons] at empty
            omega
  | case2 n =>
      refine ⟨nofun, ?_⟩
      rintro ⟨none, size⟩
      rw [(List.append_eq_nil_iff.mp none.symm).1, bytes_nil] at size
      cases size
  | case3 n c cs fits ih =>
      rw [Option.map_eq_some_iff]
      constructor
      · rintro ⟨⟨inner, rest⟩, deeper, same⟩
        cases same
        obtain ⟨rfl, size⟩ := ih.mp deeper
        exact ⟨rfl, by rw [bytes_cons, size]; omega⟩
      · rintro ⟨same, size⟩
        cases before with
        | nil => cases size
        | cons d before =>
            obtain ⟨rfl, rfl⟩ := List.cons.inj same
            rw [bytes_cons] at size
            exact ⟨(before, after), ih.mpr ⟨rfl, by omega⟩, rfl⟩
  | case4 n c cs large =>
      refine ⟨nofun, ?_⟩
      rintro ⟨same, size⟩
      cases before with
      | nil => cases size
      | cons d before =>
          obtain ⟨rfl, rfl⟩ := List.cons.inj same
          rw [bytes_cons] at size
          omega

theorem cut?_append (before after : List Char) :
    cut? (bytes before) (before ++ after) = some (before, after) :=
  cut?_eq_some.mpr ⟨rfl, rfl⟩

theorem slice?_append (before between after : List Char) :
    slice? (bytes before) (bytes before + bytes between) (before ++ (between ++ after)) =
      some between := by
  rw [slice?, if_pos (Nat.le_add_right _ _), cut?_append, Nat.add_sub_cancel_left]
  show (cut? (bytes between) (between ++ after)).bind _ = _
  rw [cut?_append]
  rfl

/-- Something is behind a cut that is not all of the text. -/
theorem length_of_cut? {n : Nat} {cs before after : List Char}
    (found : cut? (n + 1) cs = some (before, after)) : after.length < cs.length := by
  obtain ⟨rfl, size⟩ := cut?_eq_some.mp found
  have nonempty : before ≠ [] := by
    rintro rfl
    cases size
  have := List.length_pos_iff.mpr nonempty
  rw [List.length_append]
  omega

/-! ## The scan -/

/-- **The scan of a text.** The place of an opening brace is looked for, and that of a closing brace
behind it; the text between them is a parameter, and the scan goes on behind the closing brace.
There is no result if one of the slices does not exist. -/
def scan? (rest : List Char) : Option (List Segment) :=
  match offset? '{' rest with
  | none => some (literals rest)
  | some opening =>
    match cut? opening rest with
    | none => none
    | some (before, tail) =>
      match offset? '}' tail with
      | none => some (literals rest)
      | some offset =>
        let closing := opening + offset
        let start := if 0 < opening then [.literal (String.ofList before)] else []
        match slice? (opening + 1) closing rest, _h : cut? (closing + 1) rest with
        | some name, some (_, behind) =>
          (scan? behind).map fun segments => start ++ .param (String.ofList name) :: segments
        | _, _ => none
termination_by rest.length
decreasing_by exact length_of_cut? _h

theorem scan?_plain {cs : List Char} (unopened : '{' ∉ cs) : scan? cs = some (literals cs) := by
  rw [scan?, offset?_eq_none.mpr unopened]

/-- Nothing is scanned behind an opening brace that is not closed. -/
theorem scan?_unclosed {before after : List Char} (unopened : '{' ∉ before)
    (unclosed : '}' ∉ after) :
    scan? (before ++ '{' :: after) = some (literals (before ++ '{' :: after)) := by
  have missing : offset? '}' ('{' :: after) = none := by
    rw [offset?_eq_none]
    exact List.not_mem_cons_of_ne_of_not_mem (by decide) unclosed
  rw [scan?, offset?_append unopened]
  simp only [cut?_append, missing]

/-- The literal in front of a place that is not the start. -/
theorem literal_of_bytes (before : List Char) :
    (if 0 < bytes before then [.literal (String.ofList before)] else []) = literals before := by
  cases before with
  | nil => rfl
  | cons c before =>
      have := c.utf8Size_pos
      rw [if_pos (by rw [bytes_cons]; omega)]
      rfl

/-- A parameter is scanned, and the rest behind it. -/
theorem scan?_param {before name : List Char} (unopened : '{' ∉ before) (closed : '}' ∉ name)
    (rest : List Char) :
    scan? (before ++ '{' :: (name ++ '}' :: rest)) =
      (scan? rest).map fun segments =>
        literals before ++ .param (String.ofList name) :: segments := by
  have inside : '}' ∉ '{' :: name := List.not_mem_cons_of_ne_of_not_mem (by decide) closed
  have found : offset? '}' ('{' :: (name ++ '}' :: rest)) = some (bytes ('{' :: name)) :=
    offset?_append inside rest
  -- the braces are one byte long, so that the places behind them are boundaries too
  have behindOpening : bytes before + 1 = bytes (before ++ ['{']) := by
    rw [bytes_append]
    rfl
  have closing : bytes before + bytes ('{' :: name) = bytes (before ++ ['{']) + bytes name := by
    simp only [bytes_append, bytes_cons, bytes_nil]
    omega
  have behindClosing : bytes before + bytes ('{' :: name) + 1 =
      bytes (before ++ '{' :: name ++ ['}']) := by
    rw [bytes_append, bytes_append]
    rfl
  have named : slice? (bytes before + 1) (bytes before + bytes ('{' :: name))
      (before ++ '{' :: (name ++ '}' :: rest)) = some name := by
    rw [behindOpening, closing]
    simpa using slice?_append (before ++ ['{']) name ('}' :: rest)
  have behind : cut? (bytes before + bytes ('{' :: name) + 1)
      (before ++ '{' :: (name ++ '}' :: rest)) =
        some (before ++ '{' :: name ++ ['}'], rest) := by
    rw [behindClosing]
    simpa using cut?_append (before ++ '{' :: name ++ ['}']) rest
  rw [scan?, offset?_append unopened]
  simp only [cut?_append, found, literal_of_bytes]
  split
  · rename_i inner start after namedInner cutInner
    rw [named] at namedInner
    rw [behind] at cutInner
    cases namedInner
    cases cutInner
    rfl
  · rename_i missing
    exact absurd behind (missing name _ rest named)

/-- **The scan has a result for every text**, namely the segments of the text. -/
theorem scan?_eq (cs : List Char) : scan? cs = some (splitFrom [] cs) := by
  -- the text behind a parameter is shorter
  induction size : cs.length using Nat.strong_induction_on generalizing cs with | _ n ih => ?_
  subst size
  by_cases opens : '{' ∈ cs
  · obtain ⟨before, tail, rfl, unopened⟩ := List.eq_append_cons_of_mem opens
    rw [splitFrom_append unopened, List.append_nil]
    by_cases closes : '}' ∈ tail
    · obtain ⟨name, rest, rfl, closed⟩ := List.eq_append_cons_of_mem closes
      have shorter : rest.length < (before ++ '{' :: (name ++ '}' :: rest)).length := by
        simp only [List.length_append, List.length_cons]
        omega
      rw [scan?_param unopened closed, ih _ shorter rest rfl, splitFrom_param closed,
        List.reverse_reverse]
      rfl
    · rw [scan?_unclosed unopened closes, splitFrom_unclosed closes, List.reverse_reverse]
  · have plain := splitFrom_append opens [] []
    rw [List.append_nil, List.append_nil, splitFrom_nil, List.reverse_reverse] at plain
    rw [scan?_plain opens, plain]

/-! ## Segments of a path -/

/-- **The segments decompose a path**: they make it up, and no literal hides a parameter. -/
structure Decomposes (path : String) (segments : List Segment) : Prop where
  /-- The texts of the segments make up the path. -/
  join : join segments = path
  /-- No literal is empty. -/
  nonempty : ∀ text, .literal text ∈ segments → text ≠ ""
  /-- No two literals are adjacent. -/
  apart : ∀ a b, ¬ [.literal a, .literal b] <:+: segments
  /-- A parameter ends at the first closing brace. -/
  closed : ∀ name, .param name ∈ segments → '}' ∉ name.toList
  /-- No brace opens in a literal in front of a parameter. -/
  unopened : ∀ text name, [.literal text, .param name] <:+: segments → '{' ∉ text.toList
  /-- No brace that opens in the last literal is closed in it. -/
  unclosed : ∀ text, [.literal text] <:+ segments → Unclosed text.toList

/-- The segments behind the first one decompose the rest of a path. -/
theorem Decomposes.tail {path : String} {segment : Segment} {segments : List Segment}
    (decomposes : Decomposes path (segment :: segments)) :
    Decomposes (PathTemplate.join segments) segments where
  join := rfl
  nonempty text listed := decomposes.nonempty text (List.mem_cons_of_mem _ listed)
  apart a b adjacent := decomposes.apart a b (List.infix_cons adjacent)
  closed name listed := decomposes.closed name (List.mem_cons_of_mem _ listed)
  unopened text name adjacent := decomposes.unopened text name (List.infix_cons adjacent)
  unclosed text last := decomposes.unclosed text (last.trans (List.suffix_cons _ _))

theorem Decomposes.proper {path : String} {segments : List Segment}
    (decomposes : Decomposes path segments) : Proper segments := by
  induction segments generalizing path with
  | nil => exact .nil
  | cons segment segments ih =>
      have rest := ih decomposes.tail
      cases segment with
      | param name => exact .param (decomposes.closed name (List.mem_cons_self ..)) rest
      | literal text =>
          have nonempty := decomposes.nonempty text (List.mem_cons_self ..)
          cases segments with
          | nil => exact .last nonempty (decomposes.unclosed text List.suffix_rfl)
          | cons next segments =>
              have start : [.literal text, next] <:+: .literal text :: next :: segments :=
                (List.prefix_append [_, _] segments).isInfix
              cases next with
              | literal other => exact absurd start (decomposes.apart text other)
              | param name =>
                  exact .literal nonempty (decomposes.unopened text name start) rest

theorem Decomposes.param {path name : String} {segments : List Segment}
    (closed : '}' ∉ name.toList) (rest : Decomposes path segments) :
    Decomposes (PathTemplate.join (.param name :: segments)) (.param name :: segments) where
  join := rfl
  nonempty text listed := rest.nonempty text (by simpa using listed)
  apart a b adjacent := rest.apart a b (by simpa [List.infix_cons_iff] using adjacent)
  closed other listed := by
    rcases List.mem_cons.mp listed with first | later
    · cases first
      exact closed
    · exact rest.closed other later
  unopened text other adjacent :=
    rest.unopened text other (by simpa [List.infix_cons_iff] using adjacent)
  unclosed text last := rest.unclosed text (by simpa [List.suffix_cons_iff] using last)

theorem Decomposes.literal {path text name : String} {segments : List Segment}
    (nonempty : text ≠ "") (unopened : '{' ∉ text.toList)
    (rest : Decomposes path (.param name :: segments)) :
    Decomposes (PathTemplate.join (.literal text :: .param name :: segments))
      (.literal text :: .param name :: segments) where
  join := rfl
  nonempty other listed := by
    rcases List.mem_cons.mp listed with first | later
    · cases first
      exact nonempty
    · exact rest.nonempty other later
  apart a b adjacent := by
    rcases List.infix_cons_iff.mp adjacent with first | later
    · simp at first
    · exact rest.apart a b later
  closed other listed := rest.closed other (by simpa using listed)
  unopened other behind adjacent := by
    rcases List.infix_cons_iff.mp adjacent with first | later
    · obtain ⟨rfl, -⟩ : other = text ∧ behind = name := by simpa using first
      exact unopened
    · exact rest.unopened other behind later
  unclosed other last := by
    rcases List.suffix_cons_iff.mp last with all | later
    · cases all
    · exact rest.unclosed other later

theorem decomposes_literal {text : String} (nonempty : text ≠ "")
    (unclosed : Unclosed text.toList) :
    Decomposes (PathTemplate.join [.literal text]) [.literal text] where
  join := rfl
  nonempty other listed := by
    cases List.mem_singleton.mp listed
    exact nonempty
  apart a b adjacent := by simpa using adjacent.length_le
  closed other listed := by simp at listed
  unopened other name adjacent := by simpa using adjacent.length_le
  unclosed other last := by
    cases last.eq_of_length rfl
    exact unclosed

theorem Proper.decomposes {segments : List Segment} (proper : Proper segments) :
    Decomposes (PathTemplate.join segments) segments := by
  induction proper with
  | nil =>
      exact ⟨rfl, nofun, fun a b adjacent => by simp at adjacent, nofun,
        fun text name adjacent => by simp at adjacent, fun text last => by simp at last⟩
  | param closed rest ih => exact ih.param closed
  | literal nonempty unopened rest ih => exact ih.literal nonempty unopened
  | last nonempty unclosed => exact decomposes_literal nonempty unclosed

/-- **Which segments decompose a path.** -/
theorem decomposes_iff {path : String} {segments : List Segment} :
    Decomposes path segments ↔ Proper segments ∧ join segments = path := by
  constructor
  · exact fun decomposes => ⟨decomposes.proper, decomposes.join⟩
  · rintro ⟨proper, rfl⟩
    exact proper.decomposes

/-- **Splitting a path is its one decomposition.** Every path is scanned without a slice that does
not exist, its segments decompose it, and no other segments do. -/
theorem split_exact (path : String) :
    scan? path.toList = some (split path) ∧
      ∀ segments, Decomposes path segments ↔ segments = split path := by
  refine ⟨scan?_eq path.toList, fun segments => ?_⟩
  rw [decomposes_iff]
  constructor
  · rintro ⟨proper, rfl⟩
    exact proper.split_join.symm
  · rintro rfl
    exact ⟨proper_split path, join_split path⟩

end ClientGen.PathTemplate
