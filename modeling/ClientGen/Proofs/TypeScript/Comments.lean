import ClientGen.Proofs.Text.Lines
import ClientGen.TypeScript.Text

/-!
# Documentation comments of TypeScript

A comment goes to the first star with a slash behind it. A description is written line by line, each
line behind a star of its own, and a backslash parts a star from a slash. Nothing else could end the
comment early: a star at the end of a line is followed by a line feed, and a slash at its beginning
by the blank in front of it. Lines end with a line feed here; other characters that end a line in
code are part of the comment.

* `not_infix_escapeCommentEnd` — nothing ends a comment in a line that is written.
* `restoreCommentEnd_escapeCommentEnd` — how a line is read back, and
  `restoreCommentEnd_eq_self_iff`, for which lines this is what was there.
* `IsBlock` — a complete comment.
* `docComment_exact` — descriptions are complete comments, and say what they said.
-/

namespace ClientGen.TypeScript

open Text

/-! ## Ends of comments -/

/-- The characters that end a comment. -/
def commentEnd : List Char :=
  "*/".toList

/-- What is written instead. -/
def escapedEnd : List Char :=
  "*\\/".toList

theorem isSolid_commentEnd : IsSolid commentEnd :=
  ⟨by decide, by simp [commentEnd, isBlank]⟩

theorem isSolid_escapedEnd : IsSolid escapedEnd :=
  ⟨by decide, by simp [escapedEnd, isBlank]⟩

/-- **A line with the ends of comments** that were parted. -/
def restoreCommentEnd : List Char → List Char
  | '*' :: '\\' :: '/' :: cs => '*' :: '/' :: restoreCommentEnd cs
  | c :: cs => c :: restoreCommentEnd cs
  | [] => []

/-- Nothing changes about the first character. -/
theorem head?_escapeCommentEnd (cs : List Char) : (escapeCommentEnd cs).head? = cs.head? := by
  unfold escapeCommentEnd
  split <;> rfl

/-- **Nothing ends a comment** in a line that is written. -/
theorem not_infix_escapeCommentEnd (cs : List Char) : ¬ commentEnd <:+: escapeCommentEnd cs := by
  fun_induction escapeCommentEnd cs with
  | case1 cs ih =>
      have behind : ¬ commentEnd <:+: '/' :: escapeCommentEnd cs := by
        rw [List.infix_cons_iff, not_or]
        exact ⟨fun starts => absurd (List.cons_prefix_cons.mp starts).1 (by decide), ih⟩
      show ¬ commentEnd <:+: ['*'] ++ '\\' :: '/' :: escapeCommentEnd cs
      rw [infix_append_cons_iff (by decide), not_or]
      exact ⟨by decide, behind⟩
  | case2 c cs other ih =>
      rw [List.infix_cons_iff, not_or]
      refine ⟨fun starts => ?_, ih⟩
      obtain ⟨rfl, slash⟩ := List.cons_prefix_cons.mp starts
      obtain ⟨rest, next⟩ := slash
      have first : cs.head? = some '/' := by
        rw [← head?_escapeCommentEnd, ← next]
        rfl
      obtain ⟨behind, rfl⟩ := List.head?_eq_some_iff.mp first
      exact other behind rfl rfl
  | case3 => decide

/-- A parted end stands at the beginning of a written line only where it stood before. -/
theorem eq_of_escapeCommentEnd {cs rest : List Char}
    (starts : escapeCommentEnd cs = '\\' :: '/' :: rest) :
    ∃ behind, cs = '\\' :: '/' :: behind := by
  unfold escapeCommentEnd at starts
  split at starts
  · cases starts
  · rename_i c cs _
    obtain ⟨rfl, next⟩ := List.cons.inj starts
    unfold escapeCommentEnd at next
    split at next
    · cases next
    · obtain ⟨rfl, rfl⟩ := List.cons.inj next
      exact ⟨_, rfl⟩
    · cases next
  · cases starts

/-- **How a written line is read back**: parted ends that were there already are joined as well. -/
theorem restoreCommentEnd_escapeCommentEnd (cs : List Char) :
    restoreCommentEnd (escapeCommentEnd cs) = restoreCommentEnd cs := by
  fun_induction escapeCommentEnd cs with
  | case1 cs ih => simp [restoreCommentEnd, ih]
  | case2 c cs other ih =>
      by_cases parted : ∃ behind, c = '*' ∧ cs = '\\' :: '/' :: behind
      · obtain ⟨behind, rfl, rfl⟩ := parted
        simpa [restoreCommentEnd, escapeCommentEnd] using ih
      · rw [restoreCommentEnd, restoreCommentEnd, ih]
        · rintro behind rfl rfl
          exact parted ⟨behind, rfl, rfl⟩
        · rintro rest rfl starts
          obtain ⟨behind, rfl⟩ := eq_of_escapeCommentEnd starts
          exact parted ⟨behind, rfl, rfl⟩
  | case3 => rfl

/-- **Reading back changes nothing** iff no parted end is there. -/
theorem restoreCommentEnd_eq_self_iff {cs : List Char} :
    restoreCommentEnd cs = cs ↔ ¬ escapedEnd <:+: cs := by
  fun_induction restoreCommentEnd cs with
  | case1 cs ih =>
      have starts : escapedEnd <:+: '*' :: '\\' :: '/' :: cs := ⟨[], cs, rfl⟩
      simp [starts]
  | case2 c cs other ih =>
      have inside : escapedEnd <:+: c :: cs ↔ escapedEnd <:+: cs := by
        rw [List.infix_cons_iff]
        refine or_iff_right fun starts => ?_
        obtain ⟨behind, same⟩ := starts
        obtain ⟨rfl, next⟩ := List.cons.inj same
        exact other behind rfl next.symm
      rw [inside, ← ih, List.cons_inj_right]
  | case3 => simp [escapedEnd]

/-! ## Blocks -/

/-- The blanks of an indentation. -/
def blanks (indent : Nat) : List Char :=
  List.replicate indent ' '

/-- **A complete comment** with some lines inside. -/
structure IsBlock (indent : Nat) (comment : String) (inside : List (List Char)) : Prop where
  /-- The lines inside stand between one that opens the comment and one that ends it. -/
  divided : sourceLines comment =
    (blanks indent ++ "/**".toList) :: inside ++ [blanks indent ++ " */".toList, []]
  /-- They start with a star, indented. -/
  stars : ∀ line ∈ inside, blanks indent ++ " *".toList <+: line
  /-- The comment ends nowhere else. -/
  single : ∀ before after, comment.toList = before ++ commentEnd ++ after → after = ['\n']

/-- What a line of a description becomes, without its end. -/
def blockLine (indent : Nat) (line : List Char) : List Char :=
  blanks indent ++
    match escapeCommentEnd (trimEnd line) with
    | [] => " *".toList
    | line => " * ".toList ++ line

/-- **The description that lines inside a comment stand for.** -/
def described (indent : Nat) (inside : List (List Char)) : List (List Char) :=
  inside.map fun line => restoreCommentEnd (line.drop (indent + 3))

variable {indent : Nat} {line : List Char}

theorem isBlank_of_mem_blanks {c : Char} (member : c ∈ blanks indent) : isBlank c := by
  rw [List.eq_of_mem_replicate member]
  rfl

theorem toList_padding (indent : Nat) : (padding indent).toList = blanks indent :=
  String.toList_ofList

theorem toList_docLine (indent : Nat) (line : List Char) :
    (docLine (padding indent) line).toList = blockLine indent line ++ ['\n'] := by
  unfold docLine blockLine
  cases escapeCommentEnd (trimEnd line) with
  | nil => simp [toList_padding]
  | cons c cs => simp [toList_padding]

theorem prefix_blockLine (indent : Nat) (line : List Char) :
    blanks indent ++ " *".toList <+: blockLine indent line := by
  unfold blockLine
  refine (List.prefix_append_right_inj _).mpr ?_
  split
  · exact List.prefix_rfl
  · exact ⟨_, rfl⟩

theorem drop_blockLine (indent : Nat) (line : List Char) :
    (blockLine indent line).drop (indent + 3) = escapeCommentEnd (trimEnd line) := by
  have front : (blanks indent).length = indent := List.length_replicate
  have behind (cs : List Char) : (blanks indent ++ cs).drop (indent + 3) = cs.drop 3 := by
    rw [List.drop_append, front, List.drop_eq_nil_of_le (by omega), Nat.add_sub_cancel_left,
      List.nil_append]
  unfold blockLine
  rw [behind]
  cases escapeCommentEnd (trimEnd line) <;> rfl

theorem lineFeed_notMem_blanks : '\n' ∉ blanks indent := fun member =>
  absurd (List.eq_of_mem_replicate member) (by decide)

theorem lineFeed_notMem_escapeCommentEnd {cs : List Char} (plain : '\n' ∉ cs) :
    '\n' ∉ escapeCommentEnd cs := by
  fun_induction escapeCommentEnd cs with
  | case1 cs ih => simp_all
  | case2 c cs _ ih => simp_all
  | case3 => exact plain

theorem lineFeed_notMem_blockLine (plain : '\n' ∉ line) : '\n' ∉ blockLine indent line := by
  have escaped : '\n' ∉ escapeCommentEnd (trimEnd line) :=
    lineFeed_notMem_escapeCommentEnd fun inside => plain (trimEnd_subset line inside)
  unfold blockLine
  rw [List.mem_append, not_or]
  refine ⟨lineFeed_notMem_blanks, ?_⟩
  split
  · decide
  · rw [List.mem_append, not_or]
    exact ⟨by decide, escaped⟩

/-- Nothing ends the comment in a line of it. -/
theorem not_infix_blockLine (indent : Nat) (line : List Char) :
    ¬ commentEnd <:+: blockLine indent line := by
  unfold blockLine
  rw [infix_blanks_append_iff isSolid_commentEnd fun _ => isBlank_of_mem_blanks]
  split
  · decide
  · show ¬ commentEnd <:+: " *".toList ++ ' ' :: escapeCommentEnd (trimEnd line)
    rw [infix_append_cons_iff (isSolid_commentEnd.notMem rfl), not_or]
    exact ⟨by decide, not_infix_escapeCommentEnd _⟩

/-! ## Descriptions -/

/-- The lines of a description inside its comment. -/
def blockLines (doc : Option String) (indent : Nat) : List (List Char) :=
  (lines (trim (doc.getD "").toList)).map (blockLine indent)

variable {doc : Option String}

theorem docComment_eq_empty (blank : trim (doc.getD "").toList = []) (indent : Nat) :
    docComment doc indent = "" := by
  unfold docComment
  rw [blank]

theorem toList_docComment (filled : trim (doc.getD "").toList ≠ []) (indent : Nat) :
    (docComment doc indent).toList =
      ended ((blanks indent ++ "/**".toList) :: blockLines doc indent) ++
        (blanks indent ++ " */".toList) ++ ['\n'] := by
  unfold docComment blockLines
  dsimp only
  split
  · rename_i empty
    exact absurd empty filled
  · simp [ended, String.toList_join, List.flatMap_map, toList_docLine, toList_padding]

/-- A comment that does not end before its last star ends there. -/
theorem eq_lineFeed_of_commentEnd {front before after : List Char}
    (unended : ¬ commentEnd <:+: front ++ ['*'])
    (same : front ++ '*' :: '/' :: ['\n'] = before ++ commentEnd ++ after) : after = ['\n'] := by
  have split : front ++ '*' :: '/' :: ['\n'] = before ++ '*' :: '/' :: after := by
    rw [same, List.append_assoc]
    rfl
  rcases List.append_eq_append_iff.mp split with ⟨more, rfl, rest⟩ | ⟨more, rfl, rest⟩
  · rcases more with _ | ⟨c, _ | ⟨d, more⟩⟩
    · simp_all
    · simp_all
    · have lengths := congrArg List.length rest
      simp only [List.length_append, List.length_cons, List.length_nil] at lengths
      omega
  · rcases more with _ | ⟨c, _ | ⟨d, more⟩⟩
    · simp_all
    · simp_all
    · simp only [List.cons_append, List.cons.injEq] at rest
      obtain ⟨rfl, rfl, -⟩ := rest
      refine absurd ⟨before, more ++ ['*'], ?_⟩ unended
      simp [commentEnd]

/-- **A description that is not blank is a complete comment.** -/
theorem isBlock_docComment (filled : trim (doc.getD "").toList ≠ []) (indent : Nat) :
    IsBlock indent (docComment doc indent) (blockLines doc indent) where
  divided := by
    have plain : ∀ line ∈ (blanks indent ++ "/**".toList) :: blockLines doc indent,
        '\n' ∉ line := by
      refine List.forall_mem_cons.mpr ⟨?_, fun line listed => ?_⟩
      · simp [lineFeed_notMem_blanks]
      · obtain ⟨text, member, rfl⟩ := List.mem_map.mp listed
        exact lineFeed_notMem_blockLine (lineFeed_notMem_of_mem_lines member)
    have last : '\n' ∉ blanks indent ++ " */".toList := by
      simp [lineFeed_notMem_blanks]
    rw [sourceLines, toList_docComment filled, List.append_assoc, splitOnP_ended plain,
      splitOnP_line last]
    rfl
  stars := by
    intro line listed
    obtain ⟨text, -, rfl⟩ := List.mem_map.mp listed
    exact prefix_blockLine indent text
  single := by
    intro before after same
    let front := ended ((blanks indent ++ "/**".toList) :: blockLines doc indent) ++
      (blanks indent ++ [' '])
    have text : (docComment doc indent).toList = front ++ '*' :: '/' :: ['\n'] := by
      rw [toList_docComment filled]
      simp [front]
    have unended : ¬ commentEnd <:+: front ++ ['*'] := by
      have blank {c : Char} (member : c ∈ blanks indent) : isBlank c :=
        isBlank_of_mem_blanks member
      rw [List.append_assoc, infix_ended_append_iff isSolid_commentEnd, not_or, List.append_assoc,
        infix_blanks_append_iff isSolid_commentEnd fun _ => blank]
      refine ⟨?_, by decide⟩
      rintro ⟨line, listed, ends⟩
      rcases List.mem_cons.mp listed with rfl | member
      · rw [infix_blanks_append_iff isSolid_commentEnd fun _ => blank] at ends
        exact absurd ends (by decide)
      · obtain ⟨text, -, rfl⟩ := List.mem_map.mp member
        exact not_infix_blockLine indent text ends
    exact eq_lineFeed_of_commentEnd unended (text ▸ same)

/-- **The comment says what the description said** iff this has no parted end of a comment. -/
theorem described_blockLines_iff (doc : Option String) (indent : Nat) :
    described indent (blockLines doc indent) =
        (lines (trim (doc.getD "").toList)).map trimEnd ↔
      ¬ escapedEnd <:+: (doc.getD "").toList := by
  have each (line : List Char) :
      restoreCommentEnd ((blockLine indent line).drop (indent + 3)) = trimEnd line ↔
        ¬ escapedEnd <:+: line := by
    rw [drop_blockLine, restoreCommentEnd_escapeCommentEnd, restoreCommentEnd_eq_self_iff,
      infix_trimEnd_iff isSolid_escapedEnd]
  rw [described, blockLines, List.map_map, List.map_inj_left, ← infix_trim_iff isSolid_escapedEnd,
    ← infix_lines_iff isSolid_escapedEnd]
  simp only [Function.comp_apply, each, not_exists, not_and]

/-- **Documentation comments.** Nothing is written iff there is no description, or only blanks.
Otherwise it is one complete comment, and its lines without their stars, with the ends of comments
as they were, are those of the description without blanks at their ends, iff the description does
not have what is written instead of such an end. -/
theorem docComment_exact (doc : Option String) (indent : Nat) :
    (docComment doc indent = "" ↔ ∀ text ∈ doc, ∀ c ∈ text.toList, isBlank c) ∧
      (docComment doc indent = "" ∨
        ∃ inside, IsBlock indent (docComment doc indent) inside ∧
          (described indent inside = (lines (trim (doc.getD "").toList)).map trimEnd ↔
            ¬ escapedEnd <:+: (doc.getD "").toList)) := by
  have blank : trim (doc.getD "").toList = [] ↔ ∀ text ∈ doc, ∀ c ∈ text.toList, isBlank c := by
    rw [trim_eq_nil_iff]
    cases doc <;> simp
  rw [← blank]
  by_cases empty : trim (doc.getD "").toList = []
  · have nothing := docComment_eq_empty empty indent
    exact ⟨iff_of_true nothing empty, .inl nothing⟩
  · have block := isBlock_docComment empty indent
    refine ⟨iff_of_false (fun nothing => ?_) empty, .inr ⟨_, block, described_blockLines_iff ..⟩⟩
    have text := toList_docComment empty indent
    rw [nothing] at text
    simp at text

example : docComment (some " Find a pet.\r\n\nNot */ here ") 2 =
    "  /**\n   * Find a pet.\n   *\n   * Not *\\/ here\n   */\n" := by
  decide +kernel

end ClientGen.TypeScript
