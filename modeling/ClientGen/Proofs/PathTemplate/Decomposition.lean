import ClientGen.PathTemplate

/-!
# The segments of a path

A path has many readings as literals and parameters in a row. One of them is proper: a parameter
ends at the first closing brace, and every brace that could open a parameter does so.

* `Proper` — segments in which no literal hides a parameter.
* `proper_split`, `join_split` — splitting a path gives such segments, and they make up the path.
* `Proper.split_join` — no other segments do.
-/

namespace ClientGen.PathTemplate

/-- A text in which no opening brace is closed. -/
def Unclosed (text : List Char) : Prop :=
  ∀ before after, text = before ++ '{' :: after → '}' ∉ after

/-- **Segments in which no literal hides a parameter.** Literals are not empty, and no two of them
are adjacent. -/
inductive Proper : List Segment → Prop
  /-- No segment. -/
  | nil : Proper []
  /-- A parameter, whose name ends at the first closing brace. -/
  | param {name : String} {segments : List Segment} (closed : '}' ∉ name.toList)
      (rest : Proper segments) : Proper (.param name :: segments)
  /-- A literal in front of a parameter. No brace opens before that of the parameter. -/
  | literal {text name : String} {segments : List Segment} (nonempty : text ≠ "")
      (unopened : '{' ∉ text.toList) (rest : Proper (.param name :: segments)) :
      Proper (.literal text :: .param name :: segments)
  /-- A literal at the end. -/
  | last {text : String} (nonempty : text ≠ "") (unclosed : Unclosed text.toList) :
      Proper [.literal text]

/-! ## Names between braces -/

/-- What is read between braces ends at the first closing brace. -/
theorem name?_append {name : List Char} (closed : '}' ∉ name) (rest : List Char) :
    name? (name ++ '}' :: rest) = some (name, rest) := by
  induction name with
  | nil => simp [name?]
  | cons c name ih =>
      have other := List.ne_of_not_mem_cons closed
      rw [List.cons_append, name?, if_neg (Ne.symm other),
        ih (List.not_mem_of_not_mem_cons closed)]
      rfl

/-- A name that is read is followed by a closing brace and has none inside. -/
theorem of_name?_eq_some {cs name rest : List Char} (found : name? cs = some (name, rest)) :
    cs = name ++ '}' :: rest ∧ '}' ∉ name := by
  induction cs generalizing name with
  | nil => cases found
  | cons c cs ih =>
      rw [name?] at found
      split at found
      · rename_i closing
        cases found
        exact ⟨by rw [closing]; rfl, List.not_mem_nil⟩
      · rename_i other
        obtain ⟨⟨inner, after⟩, deeper, same⟩ := Option.map_eq_some_iff.mp found
        cases same
        obtain ⟨cut, closed⟩ := ih deeper
        exact ⟨congrArg (c :: ·) cut, List.not_mem_cons_of_ne_of_not_mem (Ne.symm other) closed⟩

/-- No name is read where no brace closes. -/
theorem name?_eq_none {cs : List Char} : name? cs = none ↔ '}' ∉ cs := by
  induction cs with
  | nil => simp [name?]
  | cons c cs ih =>
      by_cases closing : c = '}'
      · simp [name?, closing]
      · simp [name?, closing, ih, Ne.symm closing]

/-! ## Splitting step by step -/

theorem splitFrom_nil (before : List Char) : splitFrom before [] = literals before.reverse := by
  rw [splitFrom]

/-- A character that opens nothing is added to the literal. -/
theorem splitFrom_plain {c : Char} (plain : c ≠ '{') (before cs : List Char) :
    splitFrom before (c :: cs) = splitFrom (c :: before) cs := by
  rw [splitFrom, if_neg plain]

/-- A parameter ends the literal in front of it. -/
theorem splitFrom_param {name : List Char} (closed : '}' ∉ name) (before rest : List Char) :
    splitFrom before ('{' :: (name ++ '}' :: rest)) =
      literals before.reverse ++ .param (String.ofList name) :: splitFrom [] rest := by
  have found := name?_append closed rest
  rw [splitFrom, if_pos rfl]
  split
  · rename_i other after other_found
    rw [found] at other_found
    cases other_found
    rfl
  · rename_i missing
    rw [found] at missing
    cases missing

/-- A brace that is not closed belongs to the literal. -/
theorem splitFrom_unclosed {cs : List Char} (unclosed : '}' ∉ cs) (before : List Char) :
    splitFrom before ('{' :: cs) = literals (before.reverse ++ '{' :: cs) := by
  have missing := name?_eq_none.mpr unclosed
  rw [splitFrom, if_pos rfl]
  split
  · rename_i found
    rw [missing] at found
    cases found
  · rfl

theorem splitFrom_append {text : List Char} (unopened : '{' ∉ text) (before cs : List Char) :
    splitFrom before (text ++ cs) = splitFrom (text.reverse ++ before) cs := by
  induction text generalizing before with
  | nil => rfl
  | cons c text ih =>
      have other := List.ne_of_not_mem_cons unopened
      rw [List.cons_append, splitFrom_plain (Ne.symm other),
        ih (List.not_mem_of_not_mem_cons unopened)]
      simp

theorem Unclosed.tail {c : Char} {text : List Char} (unclosed : Unclosed (c :: text)) :
    Unclosed text := by
  intro before after cut
  exact unclosed (c :: before) after (congrArg (c :: ·) cut)

/-- A text in which no brace is closed is one literal. -/
theorem splitFrom_of_unclosed {text : List Char} (unclosed : Unclosed text) (before : List Char) :
    splitFrom before text = literals (before.reverse ++ text) := by
  induction text generalizing before with
  | nil => rw [splitFrom_nil, List.append_nil]
  | cons c text ih =>
      by_cases opening : c = '{'
      · subst opening
        exact splitFrom_unclosed (unclosed [] text rfl) before
      · rw [splitFrom_plain opening, ih unclosed.tail]
        simp

/-! ## Splitting is proper -/

theorem literals_eq_nil_or (text : List Char) :
    text = [] ∧ literals text = [] ∨
      String.ofList text ≠ "" ∧ literals text = [.literal (String.ofList text)] := by
  cases text with
  | nil => exact .inl ⟨rfl, rfl⟩
  | cons c cs => exact .inr ⟨by simp, rfl⟩

/-- A literal may stand in front of a parameter if it opens no brace: the parameter closes one. -/
theorem Proper.literals_cons {text : List Char} (unopened : '{' ∉ text) {name : String}
    {segments : List Segment} (rest : Proper (.param name :: segments)) :
    Proper (literals text ++ .param name :: segments) := by
  rcases literals_eq_nil_or text with ⟨-, none⟩ | ⟨nonempty, one⟩
  · rwa [none]
  · rw [one]
    exact .literal nonempty (by rwa [String.toList_ofList]) rest

/-- A last literal may have braces that nothing closes. -/
theorem proper_literals {text : List Char} (unclosed : Unclosed text) :
    Proper (literals text) := by
  rcases literals_eq_nil_or text with ⟨-, none⟩ | ⟨nonempty, one⟩
  · rw [none]
    exact .nil
  · rw [one]
    exact .last nonempty (by rwa [String.toList_ofList])

/-- No brace is closed behind a text that opens none. -/
theorem unclosed_append {text rest : List Char} (unopened : '{' ∉ text)
    (unclosed : Unclosed rest) : Unclosed (text ++ rest) := by
  induction text with
  | nil => exact unclosed
  | cons c text ih =>
      have other := List.ne_of_not_mem_cons unopened
      have later := ih (List.not_mem_of_not_mem_cons unopened)
      intro before after cut
      cases before with
      | nil => exact absurd (List.cons.inj cut).1.symm other
      | cons d before => exact later before after (List.cons.inj cut).2

theorem unclosed_cons {cs : List Char} (open_ : '}' ∉ cs) : Unclosed ('{' :: cs) := by
  intro before after cut closing
  cases before with
  | nil =>
      obtain rfl := (List.cons.inj cut).2
      exact open_ closing
  | cons d before =>
      obtain rfl := (List.cons.inj cut).2
      exact open_ (List.mem_append_right _ (List.mem_cons_of_mem _ closing))

/-- Splitting is proper from any literal that has been read so far, as long as it opens no brace. -/
theorem proper_splitFrom {before : List Char} (unopened : '{' ∉ before) (cs : List Char) :
    Proper (splitFrom before cs) := by
  have reversed {text : List Char} (plain : '{' ∉ text) : '{' ∉ text.reverse := by
    rwa [List.mem_reverse]
  fun_induction splitFrom before cs with
  | case1 before =>
      refine proper_literals fun start after cut => ?_
      exact absurd (cut ▸ List.mem_append_right _ (List.mem_cons_self ..)) (reversed unopened)
  | case2 before cs name rest found ih =>
      have closed : '}' ∉ (String.ofList name).toList := by
        rw [String.toList_ofList]
        exact (of_name?_eq_some found).2
      exact .literals_cons (reversed unopened) (.param closed (ih List.not_mem_nil))
  | case3 before cs missing =>
      refine proper_literals (unclosed_append (reversed unopened) (unclosed_cons ?_))
      exact name?_eq_none.mp missing
  | case4 before c cs other ih => exact ih (List.not_mem_cons_of_ne_of_not_mem (Ne.symm other) unopened)

/-- **The segments of a path are proper.** -/
theorem proper_split (path : String) : Proper (split path) :=
  proper_splitFrom List.not_mem_nil path.toList

/-! ## Splitting loses nothing -/

/-- The characters of segments. -/
def letters (segments : List Segment) : List Char :=
  segments.flatMap (·.text.toList)

theorem toList_join (segments : List Segment) : (join segments).toList = letters segments := by
  simp [join, letters, String.toList_join, List.flatMap_map]

theorem toList_text_param (name : String) :
    (Segment.param name).text.toList = '{' :: (name.toList ++ ['}']) := by
  simp [Segment.text]

theorem letters_literals (text : List Char) : letters (literals text) = text := by
  rcases literals_eq_nil_or text with ⟨rfl, none⟩ | ⟨-, one⟩
  · rw [none]
    rfl
  · rw [one]
    simp [letters, Segment.text]

theorem letters_param (name : String) (segments : List Segment) :
    letters (.param name :: segments) = '{' :: (name.toList ++ '}' :: letters segments) := by
  simp [letters, toList_text_param]

/-- Segments have the letters that were read and those that were not, in order. -/
theorem letters_splitFrom (before cs : List Char) :
    letters (splitFrom before cs) = before.reverse ++ cs := by
  fun_induction splitFrom before cs with
  | case1 before => rw [letters_literals, List.append_nil]
  | case2 before cs name rest found ih =>
      have start : letters (literals before.reverse) = before.reverse := letters_literals _
      rw [letters] at start
      rw [letters, List.flatMap_append, start, ← letters, letters_param, ih,
        String.toList_ofList, (of_name?_eq_some found).1]
      rfl
  | case3 before cs missing => rw [letters_literals]
  | case4 before c cs other ih => rw [ih, List.reverse_cons, List.append_assoc, List.singleton_append]

/-- **The segments of a path make up the path.** -/
theorem join_split (path : String) : join (split path) = path := by
  rw [← String.toList_inj, toList_join, split, letters_splitFrom]
  rfl

/-! ## There are no other segments -/

/-- Proper segments are found again one by one: each literal reaches to the next parameter, and each
parameter to the next closing brace. -/
theorem Proper.splitFrom_letters {segments : List Segment} (proper : Proper segments) :
    splitFrom [] (letters segments) = segments := by
  induction proper with
  | nil => exact splitFrom_nil []
  | param closed rest ih =>
      rw [letters_param, splitFrom_param closed, ih, String.ofList_toList]
      rfl
  | @literal text name segments nonempty unopened rest ih =>
      obtain ⟨closed, -⟩ : '}' ∉ name.toList ∧ Proper segments := by
        cases rest with
        | param closed rest => exact ⟨closed, rest⟩
      have inner : splitFrom [] (letters segments) = segments := by
        rw [letters_param, splitFrom_param closed] at ih
        exact (List.cons.inj ih).2
      have start : letters (.literal text :: .param name :: segments) =
          text.toList ++ '{' :: (name.toList ++ '}' :: letters segments) := by
        rw [← letters_param]
        rfl
      rw [start, splitFrom_append unopened, splitFrom_param closed, inner, List.append_nil,
        List.reverse_reverse, String.ofList_toList]
      rcases literals_eq_nil_or text.toList with ⟨empty, -⟩ | ⟨-, one⟩
      · exact absurd (String.toList_eq_nil_iff.mp empty) nonempty
      · rw [one, String.ofList_toList]
        rfl
  | @last text nonempty unclosed =>
      have all : letters [.literal text] = text.toList := by simp [letters, Segment.text]
      rw [all, splitFrom_of_unclosed unclosed]
      rcases literals_eq_nil_or text.toList with ⟨empty, -⟩ | ⟨-, one⟩
      · exact absurd (String.toList_eq_nil_iff.mp empty) nonempty
      · show literals text.toList = _
        rw [one, String.ofList_toList]

/-- **Proper segments are those of the path that they make up.** -/
theorem Proper.split_join {segments : List Segment} (proper : Proper segments) :
    split (join segments) = segments := by
  rw [split, toList_join]
  exact proper.splitFrom_letters

end ClientGen.PathTemplate
