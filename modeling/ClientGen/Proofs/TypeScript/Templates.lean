import ClientGen.Proofs.TypeScript.Quoting
import ClientGen.TypeScript.Printer

/-!
# Template literals of TypeScript

A template literal is read as a compiler reads it: an escape stands for what it stands for between
double quotes, a dollar in front of an opening brace opens a substitution, and the end of a line is
a line feed, in whatever way it was typed. So a carriage return that is not escaped is lost.

* `Cooked` — what stands in a template literal.
* `template?` — the literal at the beginning of a text.
* `cooked` — what the parts of a template say.
* `template?_text` — what is written for the parts is read as the parts, but for carriage returns.

Substitutions are read up to the next closing brace. Code with braces or backquotes of its own is
not read: to find its end takes the grammar of expressions.
-/

namespace ClientGen.TypeScript

open Text

/-- **What stands in a template literal**: the text up to the first substitution, and the code of
each substitution with the text behind it. -/
@[ext] structure Cooked where
  /-- The text up to the first substitution. -/
  first : List Char
  /-- The substitutions, each with the text behind it. -/
  substitutions : List (List Char × List Char)
  deriving DecidableEq

namespace Cooked

/-- Nothing. -/
def empty : Cooked :=
  ⟨[], []⟩

/-- More text in front. -/
def put (text : List Char) (t : Cooked) : Cooked :=
  { t with first := text ++ t.first }

/-- A substitution in front. -/
def splice (code : List Char) (t : Cooked) : Cooked :=
  ⟨[], (code, t.first) :: t.substitutions⟩

/-- Other text. -/
def map (f : List Char → List Char) (t : Cooked) : Cooked :=
  ⟨f t.first, t.substitutions.map fun (code, text) => (code, f text)⟩

@[simp] theorem put_nil (t : Cooked) : t.put [] = t := rfl

theorem put_put (cs ds : List Char) (t : Cooked) : (t.put ds).put cs = t.put (cs ++ ds) := by
  rw [put, put, put, List.append_assoc]

end Cooked

/-! ## Reading -/

/-- The code of a substitution up to its closing brace, and what follows the brace. -/
def substitution? (cs : List Char) : Option (List Char × List Char) :=
  let inCode (c : Char) : Bool := c != '\x7b' && c != '\x7d' && c != '\x60'
  match cs.dropWhile inCode with
  | '\x7d' :: rest => some (cs.takeWhile inCode, rest)
  | _ => none

theorem length_of_substitution? {cs code rest : List Char}
    (read : substitution? cs = some (code, rest)) : rest.length < cs.length := by
  unfold substitution? at read
  dsimp only at read
  split at read
  · rename_i left found
    cases read
    have shorter := (List.dropWhile_sublist (l := cs)
      fun c => c != '\x7b' && c != '\x7d' && c != '\x60').length_le
    rw [found, List.length_cons] at shorter
    exact shorter
  · cases read

/-- What stands in a template literal from behind its opening backquote up to the closing one, and
what follows. -/
def insideTemplate? (cs : List Char) : Option (Cooked × List Char) :=
  match cs with
  | [] => none
  | c :: cs =>
    if c = '\x60' then some (.empty, cs)
    else if c = '\\' then
      match _h : escape? cs with
      | some (text, rest) => (insideTemplate? rest).map (Prod.map (.put text) id)
      | none => none
    else if c = '$' ∧ cs.head? = some '\x7b' then
      match _h : substitution? cs.tail with
      | some (code, rest) => (insideTemplate? rest).map (Prod.map (.splice code) id)
      | none => none
    else
      (insideTemplate? (behindLineEnd c cs)).map
        (Prod.map (.put [if c = '\r' then '\n' else c]) id)
termination_by cs.length
decreasing_by
  · have := length_of_escape? _h
    simp only [List.length_cons]
    omega
  · have := length_of_substitution? _h
    simp only [List.length_tail, List.length_cons] at this ⊢
    omega
  · have := length_behindLineEnd c cs
    simp only [List.length_cons]
    omega

/-- **The template literal at the beginning of a text**, and what follows. -/
def template? : List Char → Option (Cooked × List Char)
  | [] => none
  | c :: cs => if c = '\x60' then insideTemplate? cs else none

/-! ## What the parts say -/

/-- **What the parts of a template say**: texts that stand side by side are one text. -/
def cooked : List (TemplatePart Expression) → Cooked
  | [] => .empty
  | .text text :: parts => (cooked parts).put text.toList
  | .substitution e :: parts => (cooked parts).splice e.text.toList

/-- Code without braces and backquotes. -/
def Spliceable (code : String) : Prop :=
  ∀ c ∈ code.toList, (c != '\x7b' && c != '\x7d' && c != '\x60') = true

/-- A text with every carriage return, together with the line feed behind it, as a line feed. -/
def lineFeeds : List Char → List Char
  | '\r' :: '\n' :: cs => '\n' :: lineFeeds cs
  | '\r' :: cs => '\n' :: lineFeeds cs
  | c :: cs => c :: lineFeeds cs
  | [] => []

theorem lineFeeds_eq_self {cs : List Char} (none : '\r' ∉ cs) : lineFeeds cs = cs := by
  induction cs with
  | nil => rfl
  | cons c cs ih =>
      rw [List.mem_cons, not_or] at none
      rw [lineFeeds, ih none.2]
      · exact fun _ same _ => none.1 same.symm
      · exact fun same => none.1 same.symm

theorem notMem_lineFeeds (cs : List Char) : '\r' ∉ lineFeeds cs := by
  induction cs using lineFeeds.induct with
  | case1 cs ih => simpa [lineFeeds] using ih
  | case2 cs single ih =>
      rw [lineFeeds]
      · simpa using ih
      · exact fun rest same => single rest same
  | case3 c cs pair plain ih =>
      rw [lineFeeds, List.mem_cons, not_or]
      · exact ⟨fun same => plain same.symm, ih⟩
      · exact pair
      · exact plain
  | case4 => simp [lineFeeds]

/-- **Only carriage returns are lost.** -/
theorem lineFeeds_eq_self_iff {cs : List Char} : lineFeeds cs = cs ↔ '\r' ∉ cs :=
  ⟨fun same => same ▸ notMem_lineFeeds cs, lineFeeds_eq_self⟩

/-! ## Writing and reading -/

/-- An escape of a character that stands for itself. -/
theorem insideTemplate?_escape {c : Char} (special : c = '\\' ∨ c = '\x60' ∨ c = '$')
    (rest : List Char) :
    insideTemplate? ('\\' :: c :: rest) =
      (insideTemplate? rest).map (Prod.map (.put [c]) id) := by
  have escaped : escape? (c :: rest) = some ([c], rest) := by
    rcases special with rfl | rfl | rfl <;> rfl
  rw [insideTemplate?, if_neg (by decide), if_pos rfl]
  split
  · rename_i text after read
    rw [escaped] at read
    cases read
    rfl
  · rename_i missing
    rw [escaped] at missing
    cases missing

/-- A character without a meaning of its own. -/
theorem insideTemplate?_plain {c : Char} (plain : ¬(c = '\\' ∨ c = '\x60' ∨ c = '$'))
    (cs : List Char) :
    insideTemplate? (c :: cs) = (insideTemplate? (behindLineEnd c cs)).map
      (Prod.map (.put [if c = '\r' then '\n' else c]) id) := by
  obtain ⟨backslash, quote, dollar⟩ : c ≠ '\\' ∧ c ≠ '\x60' ∧ c ≠ '$' := by
    simpa only [not_or] using plain
  rw [insideTemplate?, if_neg quote, if_neg backslash, if_neg fun opened => dollar opened.1]

/-- A closing backquote. -/
theorem insideTemplate?_end (rest : List Char) :
    insideTemplate? ('\x60' :: rest) = some (.empty, rest) := by
  rw [insideTemplate?, if_pos rfl]

/-- A substitution whose code can be read. -/
theorem insideTemplate?_substitution {code : String} (legible : Spliceable code)
    (rest : List Char) :
    insideTemplate? ('$' :: '\x7b' :: (code.toList ++ '\x7d' :: rest)) =
      (insideTemplate? rest).map (Prod.map (.splice code.toList) id) := by
  have closed : ∀ c ∈ ('\x7d' :: rest).head?,
      (c != '\x7b' && c != '\x7d' && c != '\x60') = false := by
    intro c member
    obtain rfl : '\x7d' = c := Option.some.inj member
    rfl
  obtain ⟨taken, left⟩ := run_append legible closed
  have found : substitution? (code.toList ++ '\x7d' :: rest) = some (code.toList, rest) := by
    simp only [substitution?, left, taken]
  rw [insideTemplate?, if_neg (by decide), if_neg (by decide), if_pos ⟨rfl, rfl⟩]
  split
  · rename_i text after read
    rw [List.tail_cons, found] at read
    cases read
    rfl
  · rename_i missing
    rw [List.tail_cons, found] at missing
    cases missing

/-- A line feed is written as it is, and nothing else is written with one in front. -/
theorem head?_flatMap_escapeTemplateChar {cs rest : List Char} (first : cs.head? ≠ some '\n')
    (next : rest.head? ≠ some '\n') :
    (cs.flatMap escapeTemplateChar ++ rest).head? ≠ some '\n' := by
  cases cs with
  | nil => exact next
  | cons c cs =>
      rw [List.flatMap_cons, escapeTemplateChar]
      split
      · simp
      · simpa using first

/-- One character ends a line, or none does. -/
theorem behindLineEnd_eq_self {c : Char} {cs : List Char}
    (single : c = '\r' → cs.head? ≠ some '\n') : behindLineEnd c cs = cs := by
  rw [behindLineEnd, if_neg]
  simpa using single

/-- A character of a text, with what is read behind the end of a line. -/
theorem insideTemplate?_char (c : Char) (rest : List Char) :
    insideTemplate? (escapeTemplateChar c ++ rest) = (insideTemplate? (behindLineEnd c rest)).map
      (Prod.map (.put [if c = '\r' then '\n' else c]) id) := by
  have tests : (c == '\\' || c == '\x60' || c == '$') = true ↔
      c = '\\' ∨ c = '\x60' ∨ c = '$' := by
    simp only [Bool.or_eq_true, beq_iff_eq, or_assoc]
  rw [escapeTemplateChar]
  split
  case isTrue special =>
    have sign := tests.mp special
    have notReturn : c ≠ '\r' := by rcases sign with rfl | rfl | rfl <;> decide
    rw [behindLineEnd_eq_self fun same => absurd same notReturn, if_neg notReturn]
    exact insideTemplate?_escape sign rest
  case isFalse plain =>
    exact insideTemplate?_plain (mt tests.mpr plain) rest

/-- **A text is read as the text**, but for its carriage returns, if no line feed follows it. -/
theorem insideTemplate?_flatMap (cs : List Char) {rest : List Char}
    (next : rest.head? ≠ some '\n') :
    insideTemplate? (cs.flatMap escapeTemplateChar ++ rest) =
      (insideTemplate? rest).map (Prod.map (.put (lineFeeds cs)) id) := by
  have joined (c : Char) (cs : List Char) :
      ((insideTemplate? rest).map (Prod.map (Cooked.put cs) id)).map
          (Prod.map (Cooked.put [c]) id) =
        (insideTemplate? rest).map (Prod.map (Cooked.put (c :: cs)) id) := by
    rw [Option.map_map]
    exact congrArg (Option.map · _) (funext fun read => Prod.ext (Cooked.put_put ..) rfl)
  induction cs using lineFeeds.induct with
  | case1 cs ih =>
      -- both ends of the line are read at once
      have behind : behindLineEnd '\r' (('\n' :: cs).flatMap escapeTemplateChar ++ rest) =
          cs.flatMap escapeTemplateChar ++ rest := rfl
      rw [List.flatMap_cons, List.append_assoc, insideTemplate?_char, behind, ih, if_pos rfl, joined,
        lineFeeds]
  | case2 cs single ih =>
      have first : cs.head? ≠ some '\n' := by
        intro follows
        obtain ⟨others, rfl⟩ := List.head?_eq_some_iff.mp follows
        exact single others rfl
      have behind := behindLineEnd_eq_self (c := '\r') fun _ =>
        head?_flatMap_escapeTemplateChar first next
      rw [List.flatMap_cons, List.append_assoc, insideTemplate?_char, behind, ih, if_pos rfl, joined,
        lineFeeds]
      exact single
  | case3 c cs pair plain ih =>
      rw [List.flatMap_cons, List.append_assoc, insideTemplate?_char,
        behindLineEnd_eq_self fun same => absurd same plain, ih, if_neg plain, joined, lineFeeds]
      · exact pair
      · exact plain
  | case4 =>
      have nothing : Prod.map (Cooked.put (lineFeeds [])) id = (id : Cooked × List Char → _) :=
        funext fun read => rfl
      rw [nothing, Option.map_id]
      rfl

/-- The parts of a template behind a text, up to the closing backquote. -/
theorem insideTemplate?_partTexts {parts : List (TemplatePart Expression)}
    (legible : ∀ e, .substitution e ∈ parts → Spliceable e.text) (cs rest : List Char) :
    insideTemplate? (cs.flatMap escapeTemplateChar ++
        ((String.join (Expression.partTexts parts)).toList ++ '\x60' :: rest)) =
      some (((cooked parts).put cs).map lineFeeds, rest) := by
  induction parts generalizing cs with
  | nil =>
      have ended : insideTemplate? (cs.flatMap escapeTemplateChar ++ '\x60' :: rest) =
          some ((Cooked.empty.put (lineFeeds cs)), rest) := by
        rw [insideTemplate?_flatMap cs (by simp), insideTemplate?_end]
        rfl
      simpa [Expression.partTexts, cooked, Cooked.put, Cooked.map, Cooked.empty] using ended
  | cons part parts ih =>
      have others : ∀ e, .substitution e ∈ parts → Spliceable e.text := fun e member =>
        legible e (List.mem_cons_of_mem _ member)
      cases part with
      | text text =>
          -- the text goes on
          have longer := ih others (cs ++ text.toList)
          have written : cs.flatMap escapeTemplateChar ++
              ((String.join (Expression.partTexts (.text text :: parts))).toList ++ '\x60' :: rest) =
              (cs ++ text.toList).flatMap escapeTemplateChar ++
                ((String.join (Expression.partTexts parts)).toList ++ '\x60' :: rest) := by
            simp [Expression.partTexts, escapeTemplate]
          rw [written, longer, cooked, Cooked.put_put]
      | substitution e =>
          have behind := ih others []
          rw [List.flatMap_nil, List.nil_append] at behind
          have written :
              (String.join (Expression.partTexts (.substitution e :: parts))).toList ++
                  '\x60' :: rest =
                '$' :: '\x7b' :: (e.text.toList ++ '\x7d' ::
                  ((String.join (Expression.partTexts parts)).toList ++ '\x60' :: rest)) := by
            simp [Expression.partTexts]
          rw [written, insideTemplate?_flatMap cs (by simp),
            insideTemplate?_substitution (legible e (List.mem_cons_self ..)), behind]
          simp [cooked, Cooked.put, Cooked.splice, Cooked.map]

/-- **A template literal is read as its parts**, but for their carriage returns. -/
theorem template?_template {parts : List (TemplatePart Expression)}
    (legible : ∀ e, .substitution e ∈ parts → Spliceable e.text) (rest : List Char) :
    template? ((Expression.template parts).text.toList ++ rest) =
      some ((cooked parts).map lineFeeds, rest) := by
  have written : (Expression.template parts).text.toList ++ rest =
      '\x60' :: ((String.join (Expression.partTexts parts)).toList ++ '\x60' :: rest) := by
    simp [Expression.text]
  rw [written, template?, if_pos rfl]
  exact insideTemplate?_partTexts legible [] rest

/-! ## Carriage returns -/

/-- There is no carriage return in the text. -/
def Cooked.Returnless (t : Cooked) : Prop :=
  '\r' ∉ t.first ∧ ∀ entry ∈ t.substitutions, '\r' ∉ entry.2

theorem Cooked.map_lineFeeds_eq_self_iff {t : Cooked} :
    t.map lineFeeds = t ↔ t.Returnless := by
  have each (entries : List (List Char × List Char)) :
      (entries.map fun (code, text) => (code, lineFeeds text)) = entries ↔
        ∀ entry ∈ entries, '\r' ∉ entry.2 := by
    induction entries with
    | nil => simp
    | cons entry entries ih =>
        rw [List.map_cons, List.cons.injEq, ih, List.forall_mem_cons, Prod.ext_iff,
          and_iff_right rfl, lineFeeds_eq_self_iff]
  rw [Cooked.ext_iff, Returnless, map, lineFeeds_eq_self_iff, each]

theorem Cooked.returnless_put {cs : List Char} {t : Cooked} :
    (t.put cs).Returnless ↔ '\r' ∉ cs ∧ t.Returnless := by
  rw [Returnless, Returnless, put, List.mem_append, not_or, and_assoc]

theorem Cooked.returnless_splice {code : List Char} {t : Cooked} :
    (t.splice code).Returnless ↔ t.Returnless := by
  simp [Returnless, splice]

/-- The text has a carriage return if one of the parts has. -/
theorem returnless_cooked {parts : List (TemplatePart Expression)} :
    (cooked parts).Returnless ↔ ∀ text, .text text ∈ parts → '\r' ∉ text.toList := by
  induction parts with
  | nil => simp [cooked, Cooked.Returnless, Cooked.empty]
  | cons part parts ih =>
      cases part with
      | text text =>
          rw [cooked, Cooked.returnless_put, ih]
          simp only [List.mem_cons, TemplatePart.text.injEq, forall_eq_or_imp]
      | substitution e =>
          rw [cooked, Cooked.returnless_splice, ih]
          simp only [List.mem_cons, reduceCtorEq, false_or]

/-- **A template literal keeps its parts**: it is one literal, whatever follows it, with the
substitutions in order and between them the texts that stand there, every end of a line as a line
feed. So it is read as its parts exactly if no text has a carriage return. -/
theorem template?_text {parts : List (TemplatePart Expression)}
    (legible : ∀ e, .substitution e ∈ parts → Spliceable e.text) (rest : List Char) :
    template? ((Expression.template parts).text.toList ++ rest) =
        some ((cooked parts).map lineFeeds, rest) ∧
      (template? ((Expression.template parts).text.toList ++ rest) = some (cooked parts, rest) ↔
        ∀ text, .text text ∈ parts → '\r' ∉ text.toList) := by
  have read := template?_template legible rest
  refine ⟨read, ?_⟩
  rw [read, ← returnless_cooked, ← Cooked.map_lineFeeds_eq_self_iff]
  simp

/-- A path with a carriage return in front of a value that is spliced. -/
def returned : List (TemplatePart Expression) :=
  [.text "/a\rb/", .substitution (.raw "id")]

theorem spliceable_of_mem_returned (e : Expression) (member : .substitution e ∈ returned) :
    Spliceable e.text := by
  obtain rfl : e = .raw "id" := by simpa [returned] using member
  have plain : ("id".toList.all fun c => c != '\x7b' && c != '\x7d' && c != '\x60') = true := rfl
  exact List.all_eq_true.mp plain

/-- The carriage return of the path is read as a line feed. -/
theorem template?_text_returned :
    template? ((Expression.template returned).text.toList ++ [';']) =
        some (⟨"/a\nb/".toList, [("id".toList, [])]⟩, [';']) ∧
      ¬ ∀ text, .text text ∈ returned → '\r' ∉ text.toList := by
  obtain ⟨read, exact⟩ := template?_text spliceable_of_mem_returned [';']
  have lost : (cooked returned).map lineFeeds = ⟨"/a\nb/".toList, [("id".toList, [])]⟩ := by
    decide
  refine ⟨lost ▸ read, fun none => ?_⟩
  exact none "/a\rb/" (List.mem_cons_self ..) (by decide)

/-- **Not every template literal is read as its parts.** -/
theorem template?_ne_returned :
    ¬ ∀ parts : List (TemplatePart Expression),
      (∀ e, .substitution e ∈ parts → Spliceable e.text) → ∀ rest,
        template? ((Expression.template parts).text.toList ++ rest) =
          some (cooked parts, rest) := by
  intro every
  have read := every returned spliceable_of_mem_returned []
  rw [template?_template spliceable_of_mem_returned] at read
  have lost : (cooked returned).map lineFeeds ≠ cooked returned := by decide
  exact lost (congrArg Prod.fst (Option.some.inj read))

end ClientGen.TypeScript
