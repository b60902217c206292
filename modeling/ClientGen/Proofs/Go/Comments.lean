import ClientGen.Go.Operations
import ClientGen.Proofs.Text.Lines

/-!
# Comments of Go code

A comment goes from two slashes to the end of its line. Texts of a document get into comments in two
ways. A description is written line by line, each line behind slashes of its own, and never leaves
its comment. The path of an operation is written into the first line as it stands, and what follows
a line feed in it is code.

* `IsComment` — a line that is a comment.
* `Guarded` — there are only comments in front of the first method.
* `toList_comment` — the lines of a description.
* `guarded_method_iff` — what stands in front of a method is comments iff the path allows.
* `comments_exact` — this, and the descriptions of models.
-/

namespace ClientGen.Go

open Text

/-! ## Lines in front of a method -/

/-- **A line that is a comment.** -/
def IsComment (line : List Char) : Prop :=
  "//".toList <+: line

instance : DecidablePred IsComment := fun line =>
  inferInstanceAs (Decidable ("//".toList <+: line))

/-- Whether a line starts a method of the client. -/
def startsMethod (line : List Char) : Bool :=
  "func (c *Client)".toList.isPrefixOf line

/-- The lines in front of the first method. -/
def heading (ls : List (List Char)) : List (List Char) :=
  ls.takeWhile (!startsMethod ·)

/-- **There are only comments in front of the first method.** -/
def Guarded (ls : List (List Char)) : Prop :=
  ∀ line ∈ heading ls, IsComment line

variable {line : List Char} {ls : List (List Char)}

theorem startsMethod_iff : startsMethod line ↔ "func (c *Client)".toList <+: line :=
  List.isPrefixOf_iff_prefix

theorem not_startsMethod_of_isComment (isComment : IsComment line) : ¬ startsMethod line := by
  rw [startsMethod_iff]
  obtain ⟨rest, rfl⟩ := isComment
  rintro ⟨behind, same⟩
  have heads := congrArg List.head? same
  simp at heads

@[simp] theorem guarded_nil : Guarded [] := nofun

theorem guarded_cons_iff :
    Guarded (line :: ls) ↔ startsMethod line ∨ IsComment line ∧ Guarded ls := by
  by_cases method : startsMethod line
  · simp [Guarded, heading, method]
  · simp [Guarded, heading, method]

theorem guarded_cons_iff_of_isComment (isComment : IsComment line) :
    Guarded (line :: ls) ↔ Guarded ls := by
  rw [guarded_cons_iff, or_iff_right (not_startsMethod_of_isComment isComment)]
  exact and_iff_right isComment

/-- Comments between some lines and a method change nothing. -/
theorem guarded_append_iff {front comments behind : List (List Char)}
    (commented : ∀ line ∈ comments, IsComment line) (method : startsMethod line) :
    Guarded (front ++ (comments ++ line :: behind)) ↔ Guarded front := by
  induction front with
  | nil =>
      rw [List.nil_append]
      induction comments with
      | nil => simp [guarded_cons_iff, method]
      | cons first comments ih =>
          obtain ⟨isComment, others⟩ := List.forall_mem_cons.mp commented
          rw [List.cons_append, guarded_cons_iff_of_isComment isComment]
          exact ih others
  | cons first front ih =>
      rw [List.cons_append, guarded_cons_iff, guarded_cons_iff, ih]

/-! ## Descriptions -/

/-- What a line of a description becomes, without its end. -/
def commentText (line : List Char) : List Char :=
  match trimEnd line with
  | [] => "//".toList
  | line => "// ".toList ++ line

/-- The comment lines of a description. -/
def commentLines (doc : Option String) : List (List Char) :=
  (lines (trim (doc.getD "").toList)).map commentText

theorem toList_commentLine (line : List Char) :
    (commentLine line).toList = commentText line ++ ['\n'] := by
  unfold commentLine commentText
  cases trimEnd line with
  | nil => rfl
  | cons c cs => simp

/-- **A description is written as its comment lines.** -/
theorem toList_comment (doc : Option String) :
    (comment doc).toList = ended (commentLines doc) := by
  simp [comment, ended, commentLines, String.toList_join, List.flatMap_map, toList_commentLine]

/-- Behind the slashes and a blank stands the line. -/
theorem drop_commentText (line : List Char) : (commentText line).drop 3 = trimEnd line := by
  unfold commentText
  split
  · rename_i empty
    rw [empty]
    rfl
  · rfl

theorem isComment_of_mem_commentLines {doc : Option String} (member : line ∈ commentLines doc) :
    IsComment line := by
  obtain ⟨text, -, rfl⟩ := List.mem_map.mp member
  unfold commentText
  split
  · exact List.prefix_rfl
  · exact ⟨_, rfl⟩

theorem lineFeed_notMem_of_mem_commentLines {doc : Option String}
    (member : line ∈ commentLines doc) : '\n' ∉ line := by
  obtain ⟨text, listed, rfl⟩ := List.mem_map.mp member
  have plain : '\n' ∉ trimEnd text := fun inside =>
    lineFeed_notMem_of_mem_lines listed (trimEnd_subset text inside)
  unfold commentText
  split
  · decide
  · rw [List.mem_append, not_or]
    exact ⟨by decide, plain⟩

/-! ## Methods -/

/-- A character at the end belongs to the last line. -/
theorem exists_splitOnP_concat {c : Char} (other : c ≠ '\n') (cs : List Char) :
    ∃ first last, cs.splitOnP (· == '\n') = first ++ [last] ∧
      (cs ++ [c]).splitOnP (· == '\n') = first ++ [last ++ [c]] := by
  induction cs with
  | nil =>
      refine ⟨[], [], rfl, ?_⟩
      rw [List.nil_append, List.splitOnP_cons_eq_if_modifyHead, if_neg (by simpa using other)]
      rfl
  | cons d cs ih =>
      obtain ⟨first, last, split, longer⟩ := ih
      rw [List.cons_append, List.splitOnP_cons_eq_if_modifyHead, List.splitOnP_cons_eq_if_modifyHead,
        split, longer]
      by_cases ends : (d == '\n') = true
      · exact ⟨[] :: first, last, by simp [ends], by simp [ends]⟩
      · cases first with
        | nil => exact ⟨[], d :: last, by simp [ends], by simp [ends]⟩
        | cons line first => exact ⟨(d :: line) :: first, last, by simp [ends], by simp [ends]⟩

/-- A full stop at the end of a line makes no comment and no method. -/
theorem guarded_concat_iff (front : List (List Char)) (last : List Char) :
    Guarded (front ++ [last ++ ['.']]) ↔ Guarded (front ++ [last]) := by
  induction front with
  | nil =>
      have isComment : IsComment (last ++ ['.']) ↔ IsComment last :=
        prefix_append_cons_iff (by decide)
      have method : startsMethod (last ++ ['.']) ↔ startsMethod last := by
        rw [startsMethod_iff, startsMethod_iff, prefix_append_cons_iff (by decide)]
      rw [List.nil_append, List.nil_append, guarded_cons_iff, guarded_cons_iff, isComment, method]
  | cons first front ih =>
      rw [List.cons_append, List.cons_append, guarded_cons_iff, guarded_cons_iff, ih]

theorem guarded_tail_concat_iff (cs : List Char) :
    Guarded ((cs ++ ['.']).splitOnP (· == '\n')).tail ↔
      Guarded (cs.splitOnP (· == '\n')).tail := by
  obtain ⟨first, last, split, longer⟩ := exists_splitOnP_concat (c := '.') (by decide) cs
  rw [split, longer]
  cases first with
  | nil => rfl
  | cons line first => exact guarded_concat_iff first last

/-- The comment lines between the first line and the method. -/
def docLines (doc : Option String) : List (List Char) :=
  match doc with
  | some doc => "//".toList :: commentLines (some doc)
  | none => []

theorem isComment_of_mem_docLines {doc : Option String} (member : line ∈ docLines doc) :
    IsComment line := by
  cases doc with
  | none => cases member
  | some doc =>
      rcases List.mem_cons.mp member with rfl | later
      · exact List.prefix_rfl
      · exact isComment_of_mem_commentLines later

theorem lineFeed_notMem_of_mem_docLines {doc : Option String} (member : line ∈ docLines doc) :
    '\n' ∉ line := by
  cases doc with
  | none => cases member
  | some doc =>
      rcases List.mem_cons.mp member with rfl | later
      · decide
      · exact lineFeed_notMem_of_mem_commentLines later

/-- The text of a method: the first line with the path, the description, and the code. -/
theorem exists_method_eq (op : Operation) (name : String) :
    ∃ code : String, method op name =
      "// " ++ name ++ " calls " ++ op.method.wireName ++ " " ++ op.path ++ ".\n" ++
        String.ofList (ended (docLines op.doc)) ++ "func (c *Client) " ++ code := by
  have absent : String.ofList (ended (docLines none)) = "" := rfl
  have given (doc : String) :
      String.ofList (ended (docLines (some doc))) = "//\n" ++ comment (some doc) := by
    rw [← String.toList_inj]
    simp [docLines, ended, toList_comment]
  unfold method
  cases op.doc with
  | none =>
      simp only [absent, String.append_assoc]
      exact ⟨_, rfl⟩
  | some doc =>
      simp only [given, String.append_assoc]
      exact ⟨_, rfl⟩

theorem lineFeed_notMem_wireName (m : Method) : '\n' ∉ m.wireName.toList := by
  cases m <;> decide

/-- **Only comments stand in front of a method** iff the lines of the path after the first one are
such lines. -/
theorem guarded_method_iff {name : String} (plain : '\n' ∉ name.toList) (op : Operation) :
    Guarded (sourceLines (method op name)) ↔ Guarded (sourceLines op.path).tail := by
  let front := ("// " ++ name ++ " calls " ++ op.method.wireName ++ " ").toList
  have single : '\n' ∉ front := by
    simp [front, plain, lineFeed_notMem_wireName]
  have summary (line : List Char) : IsComment (front ++ line) := by
    refine List.IsPrefix.trans ?_ (List.prefix_append ..)
    simp [front]
  obtain ⟨code, text⟩ := exists_method_eq op name
  obtain ⟨first, others, path⟩ := List.exists_cons_of_ne_nil
    (List.splitOnP_ne_nil (· == '\n') (op.path.toList ++ ['.']))
  obtain ⟨line, behind, body⟩ := List.exists_cons_of_ne_nil
    (List.splitOnP_ne_nil (· == '\n') code.toList)
  have starts : startsMethod ("func (c *Client) ".toList ++ line) := by
    rw [startsMethod_iff]
    exact List.IsPrefix.trans (by decide) (List.prefix_append ..)
  have letters : (method op name).toList = front ++ (op.path.toList ++ ['.']) ++ '\n' ::
      (ended (docLines op.doc) ++ ("func (c *Client) ".toList ++ code.toList)) := by
    simp [text, front]
  have divided : sourceLines (method op name) = (front ++ first) :: (others ++
      (docLines op.doc ++ ("func (c *Client) ".toList ++ line) :: behind)) := by
    rw [sourceLines, letters, List.splitOnP_append_cons _ _ rfl, splitOnP_append single, path,
      splitOnP_ended fun _ => lineFeed_notMem_of_mem_docLines, splitOnP_append (by decide), body]
    rfl
  calc Guarded (sourceLines (method op name))
    _ ↔ Guarded (others ++
          (docLines op.doc ++ ("func (c *Client) ".toList ++ line) :: behind)) := by
        rw [divided, guarded_cons_iff_of_isComment (summary first)]
    _ ↔ Guarded others := guarded_append_iff (fun _ => isComment_of_mem_docLines) starts
    _ ↔ Guarded ((op.path.toList ++ ['.']).splitOnP (· == '\n')).tail := by
        rw [path, List.tail_cons]
    _ ↔ Guarded (sourceLines op.path).tail := guarded_tail_concat_iff op.path.toList

/-! ## Models -/

/-- The text of a model: an empty line, the lines of its description, and its declarations. -/
theorem sourceLines_model (doc : Option String) (text : String) :
    sourceLines ("\n" ++ comment doc ++ text) = [] :: (commentLines doc ++ sourceLines text) := by
  have letters : ("\n" ++ comment doc ++ text).toList =
      [] ++ '\n' :: (ended (commentLines doc) ++ text.toList) := by
    simp [toList_comment]
  rw [sourceLines, letters, splitOnP_line List.not_mem_nil,
    splitOnP_ended fun _ => lineFeed_notMem_of_mem_commentLines]
  rfl

/-- **Comments.** In front of a method there are only comments iff the lines of the path after the
first one are comments, as far as none of them starts a method itself. In front of the declarations
of a model there is an empty line and its description, every line of which is a comment with this
line behind the slashes. -/
theorem comments_exact {name : String} (plain : '\n' ∉ name.toList) (op : Operation)
    (m : Model) (models : List Model) (taken : List String) :
    (Guarded (sourceLines (method op name)) ↔ Guarded (sourceLines op.path).tail) ∧
      ∃ text comments,
        modelTexts taken (m :: models) =
            text :: modelTexts (declarations m.name m.shape taken).2 models ∧
          sourceLines text =
            [] :: (comments ++ sourceLines (declarations m.name m.shape taken).1) ∧
          (∀ line ∈ comments, IsComment line) ∧
          comments.map (·.drop 3) = (lines (trim (m.doc.getD "").toList)).map trimEnd := by
  refine ⟨guarded_method_iff plain op, _, commentLines m.doc, rfl, sourceLines_model .., ?_, ?_⟩
  · exact fun _ => isComment_of_mem_commentLines
  · rw [commentLines, List.map_map]
    exact List.map_congr_left fun line _ => drop_commentText line

/-- An operation whose path has two lines. -/
def brokenPets : Operation :=
  { id := "listPets", method := .get, path := "/pets\n/all", tags := ["pets"], parameters := [],
    body := none, responses := [], doc := some "All pets.\n\nOf every kind.", pointer := none }

/-- A model with a description of several lines. -/
def describedPet : Model :=
  { name := "Pet", shape := .primitive .string, doc := some "A pet.\r\n\n\x7d\nfunc init() \x7b",
    pointer := none }

theorem comments_brokenPets : '\n' ∉ "ListPets".toList ∧
    (Guarded (sourceLines (method brokenPets "ListPets")) ↔
        Guarded (sourceLines brokenPets.path).tail) ∧
      ∃ text comments,
        modelTexts [] [describedPet] =
            text :: modelTexts (declarations "Pet" describedPet.shape []).2 [] ∧
          sourceLines text =
            [] :: (comments ++ sourceLines (declarations "Pet" describedPet.shape []).1) ∧
          (∀ line ∈ comments, IsComment line) ∧
          comments.map (·.drop 3) =
            (lines (trim (describedPet.doc.getD "").toList)).map trimEnd :=
  ⟨by decide, comments_exact (by decide) brokenPets describedPet [] []⟩

/-- **A path can leave its comment**: not every line in front of the method is one. -/
theorem not_guarded_brokenPets : ¬ Guarded (sourceLines (method brokenPets "ListPets")) := by
  rw [guarded_method_iff (by decide)]
  have path : (sourceLines brokenPets.path).tail = ["/all".toList] := by
    show (("/pets".toList ++ '\n' :: "/all".toList).splitOnP (· == '\n')).tail = _
    rw [splitOnP_line (by decide), List.tail_cons, List.splitOnP_eq_singleton (by simp)]
  rw [path, guarded_cons_iff]
  rintro (method | ⟨isComment, -⟩)
  · exact absurd method (by decide)
  · exact absurd isComment (by decide)

end ClientGen.Go
