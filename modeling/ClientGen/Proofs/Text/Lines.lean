import ClientGen.Text.Blank
import Mathlib.Data.List.Infix
import Mathlib.Data.List.TakeWhile

/-!
# Lines, and words inside them

The lines of a source are what its line feeds divide it into; a carriage return is a character like
any other. The lines of a description leave out the carriage return in front of a line feed, and an
empty last line.

* `sourceLines` — the lines of a source.
* `ended` — lines with their ends.
* `splitOnP_ended` — they are divided again, whatever follows them.
* `infix_append_cons_iff` — a word stands in front of a character that it does not have, or behind.
* `infix_lines_iff` — a word without blanks stands in one of the lines, if it stands in a text.
-/

namespace ClientGen.Text

/-! ## The lines of a source -/

/-- **The lines of a source.** -/
def sourceLines (source : String) : List (List Char) :=
  source.toList.splitOnP (· == '\n')

/-- No piece has a separator inside. -/
theorem notMem_of_mem_splitOnP {α : Type} {p : α → Bool} {xs piece : List α}
    (member : piece ∈ xs.splitOnP p) {x : α} (inside : x ∈ piece) : p x = false := by
  induction xs generalizing piece with
  | nil =>
      rw [List.splitOnP_nil, List.mem_singleton] at member
      subst member
      cases inside
  | cons y ys ih =>
      rw [List.splitOnP_cons_eq_if_modifyHead] at member
      split at member
      · rcases List.mem_cons.mp member with rfl | later
        · cases inside
        · exact ih later inside
      · rename_i other
        obtain ⟨first, rest, split⟩ := List.exists_cons_of_ne_nil (List.splitOnP_ne_nil p ys)
        rw [split, List.modifyHead_cons] at member
        rcases List.mem_cons.mp member with rfl | later
        · rcases List.mem_cons.mp inside with rfl | later
          · simpa using other
          · exact ih (split ▸ List.mem_cons_self ..) later
        · exact ih (split ▸ List.mem_cons_of_mem _ later) inside

/-- A text without line feeds in front belongs to the first line. -/
theorem splitOnP_append {front : List Char} (plain : '\n' ∉ front) (cs : List Char) :
    (front ++ cs).splitOnP (· == '\n') = (cs.splitOnP (· == '\n')).modifyHead (front ++ ·) := by
  induction front with
  | nil => exact (congrFun List.modifyHead_id _).symm
  | cons c front ih =>
      obtain ⟨other, plain⟩ := not_or.mp (List.mem_cons.not.mp plain)
      have letter : ¬ (c == '\n') = true := by simpa using Ne.symm other
      rw [List.cons_append, List.splitOnP_cons_eq_if_modifyHead, if_neg letter, ih plain,
        List.modifyHead_modifyHead]
      rfl

/-- A line that ends is divided off. -/
theorem splitOnP_line {line : List Char} (plain : '\n' ∉ line) (rest : List Char) :
    (line ++ '\n' :: rest).splitOnP (· == '\n') = line :: rest.splitOnP (· == '\n') := by
  rw [splitOnP_append plain, List.splitOnP_cons_eq_if_modifyHead, if_pos (beq_self_eq_true _),
    List.modifyHead_cons, List.append_nil]

/-- **Lines with their ends.** -/
def ended (ls : List (List Char)) : List Char :=
  ls.flatMap (· ++ ['\n'])

/-- **Lines with their ends are divided again**, whatever follows them. -/
theorem splitOnP_ended {ls : List (List Char)} (plain : ∀ line ∈ ls, '\n' ∉ line)
    (rest : List Char) :
    (ended ls ++ rest).splitOnP (· == '\n') = ls ++ rest.splitOnP (· == '\n') := by
  induction ls with
  | nil => rfl
  | cons line ls ih =>
      obtain ⟨first, others⟩ := List.forall_mem_cons.mp plain
      have text : ended (line :: ls) ++ rest = line ++ '\n' :: (ended ls ++ rest) := by
        simp [ended]
      rw [text, splitOnP_line first, ih others, List.cons_append]

/-! ## Words -/

section Words

variable {α : Type} {word xs ys : List α} {x : α}

/-- A word stands at the beginning only if it ends in front of a character that it does not have. -/
theorem prefix_append_cons_iff (absent : x ∉ word) : word <+: xs ++ x :: ys ↔ word <+: xs := by
  constructor
  · intro starts
    have front : xs ++ [x] <+: xs ++ x :: ys := ⟨ys, by simp⟩
    rcases List.prefix_or_prefix_of_prefix starts front with inside | beyond
    · rcases List.prefix_concat_iff.mp inside with same | inside
      · exact absurd (same ▸ List.mem_append_right xs (List.mem_singleton_self x)) absent
      · exact inside
    · exact absurd (beyond.subset (List.mem_append_right xs (List.mem_singleton_self x))) absent
  · intro inside
    exact inside.trans (List.prefix_append ..)

/-- **A word stands in front of a character** that it does not have, or behind it. -/
theorem infix_append_cons_iff (absent : x ∉ word) :
    word <:+: xs ++ x :: ys ↔ word <:+: xs ∨ word <:+: ys := by
  induction xs with
  | nil =>
      have start : word <+: x :: ys ↔ word <:+: [] := by
        rw [← List.nil_append (x :: ys), prefix_append_cons_iff absent, List.prefix_nil,
          List.infix_nil]
      rw [List.nil_append, List.infix_cons_iff, start]
  | cons c xs ih =>
      rw [List.infix_cons_iff, ← or_assoc.symm, ← ih, ← prefix_append_cons_iff absent,
        List.cons_append, List.infix_cons_iff]

theorem infix_cons_iff_of_notMem (absent : x ∉ word) (nonempty : word ≠ []) :
    word <:+: x :: ys ↔ word <:+: ys := by
  rw [← List.nil_append (x :: ys), infix_append_cons_iff absent, List.infix_nil]
  exact or_iff_right nonempty

/-- **Characters that a word does not have** may stand in front of a text. -/
theorem infix_append_iff_of_disjoint (disjoint : ∀ x ∈ xs, x ∉ word) (nonempty : word ≠ []) :
    word <:+: xs ++ ys ↔ word <:+: ys := by
  induction xs with
  | nil => rfl
  | cons x xs ih =>
      obtain ⟨absent, others⟩ := List.forall_mem_cons.mp disjoint
      rw [List.cons_append, infix_cons_iff_of_notMem absent nonempty, ih others]

theorem infix_concat_iff_of_notMem (absent : x ∉ word) (nonempty : word ≠ []) :
    word <:+: xs ++ [x] ↔ word <:+: xs := by
  rw [infix_append_cons_iff absent, List.infix_nil]
  exact or_iff_left nonempty

end Words

/-! ## Words in trimmed texts and in lines -/

variable {word cs : List Char}

/-- The word is not empty and has no blanks. -/
structure IsSolid (word : List Char) : Prop where
  /-- It is not empty. -/
  nonempty : word ≠ []
  /-- It has no blanks. -/
  solid : ∀ c ∈ word, isBlank c = false

theorem IsSolid.notMem {c : Char} (solid : IsSolid word) (blank : isBlank c) : c ∉ word :=
  fun inside => Bool.false_ne_true ((solid.solid c inside).symm.trans blank)

theorem IsSolid.reverse (solid : IsSolid word) : IsSolid word.reverse :=
  ⟨by simpa using solid.nonempty, by simpa using solid.solid⟩

/-- Blanks in front of a text hold no word. -/
theorem infix_blanks_append_iff (solid : IsSolid word) {front : List Char}
    (blanks : ∀ c ∈ front, isBlank c) : word <:+: front ++ cs ↔ word <:+: cs :=
  infix_append_iff_of_disjoint (fun c inside => solid.notMem (blanks c inside)) solid.nonempty

theorem infix_trimStart_iff (solid : IsSolid word) : word <:+: trimStart cs ↔ word <:+: cs := by
  induction cs with
  | nil => rfl
  | cons c cs ih =>
      by_cases blank : isBlank c
      · rw [infix_cons_iff_of_notMem (solid.notMem blank) solid.nonempty, ← ih, trimStart, trimStart,
          List.dropWhile_cons_of_pos blank]
      · rw [trimStart, List.dropWhile_cons_of_neg blank]

theorem infix_trimEnd_iff (solid : IsSolid word) : word <:+: trimEnd cs ↔ word <:+: cs := by
  rw [trimEnd, ← List.reverse_infix, List.reverse_reverse]
  exact (infix_trimStart_iff solid.reverse).trans List.reverse_infix

/-- **A word without blanks stands in a text** iff it stands in the trimmed text. -/
theorem infix_trim_iff (solid : IsSolid word) : word <:+: trim cs ↔ word <:+: cs :=
  (infix_trimEnd_iff solid).trans (infix_trimStart_iff solid)

theorem infix_dropCarriageReturn_iff (solid : IsSolid word) :
    word <:+: dropCarriageReturn cs ↔ word <:+: cs := by
  unfold dropCarriageReturn
  split
  · rename_i last
    obtain ⟨front, rfl⟩ := List.getLast?_eq_some_iff.mp (eq_of_beq last)
    rw [List.dropLast_concat, infix_concat_iff_of_notMem (solid.notMem rfl) solid.nonempty]
  · rfl

/-- A word stands in one of several lines, or behind them. -/
theorem infix_ended_append_iff (solid : IsSolid word) {ls : List (List Char)} :
    word <:+: ended ls ++ cs ↔ (∃ line ∈ ls, word <:+: line) ∨ word <:+: cs := by
  induction ls with
  | nil => simp [ended]
  | cons line ls ih =>
      have text : ended (line :: ls) ++ cs = line ++ '\n' :: (ended ls ++ cs) := by
        simp [ended]
      rw [text, infix_append_cons_iff (solid.notMem rfl), ih, List.exists_mem_cons_iff, or_assoc]

/-- A word stands in one of the lines that pieces become, if it stands in the pieces with their line
feeds. -/
theorem infix_linesOfPieces_iff (solid : IsSolid word) (pieces : List (List Char)) :
    (∃ line ∈ linesOfPieces pieces, word <:+: line) ↔
      word <:+: List.intercalate ['\n'] pieces := by
  fun_induction linesOfPieces pieces with
  | case1 => simp [solid.nonempty]
  | case2 last empty => simp_all [solid.nonempty]
  | case3 last nonempty => simp
  | case4 piece rest several ih =>
      obtain ⟨next, others, rfl⟩ := List.exists_cons_of_ne_nil several
      rw [List.intercalate_cons_cons, List.append_assoc, List.singleton_append,
        infix_append_cons_iff (solid.notMem rfl), ← ih, List.exists_mem_cons_iff,
        infix_dropCarriageReturn_iff solid]

/-- **A word without blanks stands in a text** iff it stands in one of its lines. -/
theorem infix_lines_iff (solid : IsSolid word) :
    (∃ line ∈ lines cs, word <:+: line) ↔ word <:+: cs := by
  rw [lines, infix_linesOfPieces_iff solid, ← List.splitOn_eq_splitOnP, List.intercalate_splitOn]

theorem lineFeed_notMem_of_mem_linesOfPieces {pieces : List (List Char)}
    (plain : ∀ piece ∈ pieces, '\n' ∉ piece) {line : List Char}
    (member : line ∈ linesOfPieces pieces) : '\n' ∉ line := by
  fun_induction linesOfPieces pieces with
  | case1 => cases member
  | case2 => cases member
  | case3 last => exact plain line member
  | case4 piece rest _ ih =>
      obtain ⟨first, others⟩ := List.forall_mem_cons.mp plain
      rcases List.mem_cons.mp member with rfl | later
      · unfold dropCarriageReturn
        split
        · exact fun inside => first (List.mem_of_mem_dropLast inside)
        · exact first
      · exact ih others later

/-- No line has a line feed inside. -/
theorem lineFeed_notMem_of_mem_lines {line : List Char} (member : line ∈ lines cs) :
    '\n' ∉ line := by
  refine lineFeed_notMem_of_mem_linesOfPieces (fun piece listed inside => ?_) member
  simpa using notMem_of_mem_splitOnP listed inside

theorem trimEnd_subset (cs : List Char) : trimEnd cs ⊆ cs := by
  intro c member
  have front := (List.dropWhile_suffix (l := cs.reverse) isBlank).subset (List.mem_reverse.mp member)
  exact List.mem_reverse.mp front

/-- Nothing is left at the end iff there are only blanks. -/
theorem trimEnd_eq_nil_iff : trimEnd cs = [] ↔ ∀ c ∈ cs, isBlank c := by
  simp [trimEnd, List.dropWhile_eq_nil_iff]

/-- **Nothing is left of a text** iff it has only blanks. -/
theorem trim_eq_nil_iff : trim cs = [] ↔ ∀ c ∈ cs, isBlank c := by
  rw [trim, trimEnd_eq_nil_iff]
  constructor
  · intro blank c member
    rw [← List.takeWhile_append_dropWhile (p := isBlank) (l := cs), List.mem_append] at member
    rcases member with front | behind
    · exact List.mem_takeWhile_imp front
    · exact blank c behind
  · exact fun blank c member => blank c ((List.dropWhile_suffix isBlank).subset member)

end ClientGen.Text
