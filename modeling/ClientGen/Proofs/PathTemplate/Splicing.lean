import ClientGen.Proofs.PathTemplate.Decomposition

/-!
# The path that a client makes

A client makes the path of a request from literal text and from the values of parameters. What
stands in braces and is not declared is literal text, too.

* `Segment.spliced` — what a client makes of a segment.
* `merged` — the segments with adjacent texts in one literal.
* `merged_of_undeclared` — a path in which nothing is declared is one literal.
* `param_mem_merged_spliced` — the parameters that are spliced are those that are declared.
-/

namespace ClientGen.PathTemplate

/-- **What a client makes of a segment**: a parameter that is not declared is text. -/
def Segment.spliced (declared : List String) : Segment → Segment
  | .literal text => .literal text
  | .param name => if name ∈ declared then .param name else .literal (Segment.param name).text

/-- Segments behind some text. -/
def mergedFrom (text : String) : List Segment → List Segment
  | [] => literals text.toList
  | .literal more :: segments => mergedFrom (text ++ more) segments
  | .param name :: segments => literals text.toList ++ .param name :: mergedFrom "" segments

/-- **Segments with adjacent texts in one literal**, and no literal for an empty text. -/
def merged (segments : List Segment) : List Segment :=
  mergedFrom "" segments

theorem mergedFrom_literals_append (text : String) (more : List Char) (segments : List Segment) :
    mergedFrom text (literals more ++ segments) =
      mergedFrom (text ++ String.ofList more) segments := by
  rcases literals_eq_nil_or more with ⟨rfl, none⟩ | ⟨-, one⟩
  · rw [none, String.ofList_nil, String.append_empty, List.nil_append]
  · rw [one]
    rfl

/-- Merging twice is merging once. -/
theorem mergedFrom_mergedFrom (text more : String) (segments : List Segment) :
    mergedFrom text (mergedFrom more segments) = mergedFrom (text ++ more) segments := by
  induction segments generalizing text more with
  | nil =>
      have last := mergedFrom_literals_append text more.toList []
      rwa [List.append_nil, String.ofList_toList] at last
  | cons segment segments ih =>
      cases segment with
      | literal next => rw [mergedFrom, ih, mergedFrom, String.append_assoc]
      | param name =>
          rw [mergedFrom, mergedFrom_literals_append, String.ofList_toList, mergedFrom, mergedFrom,
            ih]
          rfl

theorem merged_merged (segments : List Segment) : merged (merged segments) = merged segments :=
  mergedFrom_mergedFrom "" "" segments

theorem join_cons (segment : Segment) (segments : List Segment) :
    join (segment :: segments) = segment.text ++ join segments := by
  simp [join]

/-- Segments that are all text are one literal. -/
theorem mergedFrom_map_literal (text : String) (segments : List Segment) :
    mergedFrom text (segments.map fun segment => .literal segment.text) =
      literals (text ++ join segments).toList := by
  induction segments generalizing text with
  | nil =>
      have empty : join [] = "" := rfl
      rw [empty, String.append_empty]
      rfl
  | cons segment segments ih =>
      rw [List.map_cons, mergedFrom, ih, join_cons, String.append_assoc]

/-- **A path in which nothing is declared is one literal.** -/
theorem merged_of_undeclared {declared : List String} {segments : List Segment}
    (undeclared : ∀ name, .param name ∈ segments → name ∉ declared) :
    merged (segments.map (Segment.spliced declared)) = merged [.literal (join segments)] := by
  have texts : segments.map (Segment.spliced declared) =
      segments.map fun segment => .literal segment.text := by
    refine List.map_congr_left fun segment listed => ?_
    cases segment with
    | literal text => rfl
    | param name => exact if_neg (undeclared name listed)
  rw [texts, merged, mergedFrom_map_literal]
  rfl

theorem param_mem_of_mem_mergedFrom {text name : String} {segments : List Segment}
    (member : .param name ∈ mergedFrom text segments) : .param name ∈ segments := by
  have other (text : List Char) : .param name ∉ literals text := by
    rcases literals_eq_nil_or text with ⟨-, none⟩ | ⟨-, one⟩
    · simp [none]
    · simp [one]
  induction segments generalizing text with
  | nil => exact absurd member (other _)
  | cons segment segments ih =>
      cases segment with
      | literal more => exact List.mem_cons_of_mem _ (ih member)
      | param next =>
          rcases List.mem_append.mp member with literal | later
          · exact absurd literal (other _)
          rcases List.mem_cons.mp later with same | later
          · exact same ▸ List.mem_cons_self ..
          · exact List.mem_cons_of_mem _ (ih later)

theorem param_mem_mergedFrom {text name : String} {segments : List Segment} :
    .param name ∈ mergedFrom text segments ↔ .param name ∈ segments := by
  refine ⟨param_mem_of_mem_mergedFrom, fun member => ?_⟩
  induction segments generalizing text with
  | nil => cases member
  | cons segment segments ih =>
      cases segment with
      | literal more =>
          rcases List.mem_cons.mp member with same | later
          · cases same
          · exact ih later
      | param next =>
          refine List.mem_append_right _ (List.mem_cons.mpr ?_)
          exact (List.mem_cons.mp member).imp_right ih

/-- **The parameters of a path that a client makes** are those that are declared. -/
theorem param_mem_merged_spliced {declared : List String} {segments : List Segment}
    {name : String} : .param name ∈ merged (segments.map (Segment.spliced declared)) ↔
      .param name ∈ segments ∧ name ∈ declared := by
  have image (segment : Segment) : segment.spliced declared = .param name ↔
      segment = .param name ∧ name ∈ declared := by
    cases segment with
    | literal text => simp [Segment.spliced]
    | param next =>
        rw [Segment.spliced]
        split
        · rename_i own
          exact ⟨fun same => ⟨same, Segment.param.inj same ▸ own⟩, And.left⟩
        · rename_i other
          exact ⟨nofun, fun ⟨same, own⟩ => absurd (Segment.param.inj same ▸ own) other⟩
  rw [merged, param_mem_mergedFrom, List.mem_map]
  simp only [image]
  exact ⟨fun ⟨_, listed, same, own⟩ => ⟨same ▸ listed, own⟩,
    fun ⟨listed, own⟩ => ⟨_, listed, rfl, own⟩⟩

theorem join_literals_append (text : String) (segments : List Segment) :
    join (literals text.toList ++ segments) = text ++ join segments := by
  rcases literals_eq_nil_or text.toList with ⟨empty, none⟩ | ⟨-, one⟩
  · rw [none, String.toList_eq_nil_iff.mp empty, String.empty_append, List.nil_append]
  · rw [one, String.ofList_toList]
    exact join_cons _ _

theorem join_mergedFrom (text : String) (segments : List Segment) :
    join (mergedFrom text segments) = text ++ join segments := by
  induction segments generalizing text with
  | nil =>
      have last := join_literals_append text []
      rwa [List.append_nil] at last
  | cons segment segments ih =>
      cases segment with
      | literal more => rw [mergedFrom, ih, join_cons, String.append_assoc, Segment.text]
      | param name =>
          rw [mergedFrom, join_literals_append, join_cons, ih, String.empty_append, join_cons]

/-- **A client keeps the path**: written out, it is the template. -/
theorem join_merged_spliced (declared : List String) (segments : List Segment) :
    join (merged (segments.map (Segment.spliced declared))) = join segments := by
  have same (segment : Segment) : (segment.spliced declared).text = segment.text := by
    cases segment with
    | literal text => rfl
    | param name =>
        rw [Segment.spliced]
        split <;> rfl
  rw [merged, join_mergedFrom, String.empty_append, join, List.map_map, join]
  exact congrArg String.join (List.map_congr_left fun segment _ => same segment)

/-- Images are read one by one. -/
theorem mapM_map_eq_some {α β γ : Type} {f : β → Option γ} {g : α → β} {h : α → γ} {as : List α}
    (each : ∀ a ∈ as, f (g a) = some (h a)) : (as.map g).mapM f = some (as.map h) := by
  induction as with
  | nil => rfl
  | cons a as ih =>
      obtain ⟨first, others⟩ := List.forall_mem_cons.mp each
      rw [List.map_cons, List.mapM_cons, first, ih others]
      rfl

end ClientGen.PathTemplate
