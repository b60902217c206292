import ClientGen.Proofs.Api.Parameters
import ClientGen.Proofs.Go.Arguments
import ClientGen.Proofs.Go.Quoting
import ClientGen.Proofs.OrderedMap.Agreement
import ClientGen.Proofs.PathTemplate.Splicing
import ClientGen.Proofs.Text.Lines
import Mathlib.Data.List.Basic

/-!
# The paths of Go methods

* `terms?` — the terms of an expression that puts texts together.
* `pathSegments?` — the segments that the expression of an operation puts together.
* `pathSegments?_pathCode` — they are those of the path.
* `importedPackages` — the packages that a file imports.
* `fmt_mem_importedPackages` — the one for printing is among them iff a path needs it.
-/

namespace ClientGen.Go

open Text PathTemplate

/-! ## Reading expressions -/

/-- An argument that is spliced, as text and escaped, and what follows. -/
def splicedArgument? (cs : List Char) : Option (Segment × List Char) := do
  let behind ← cs.dropPrefix? "url.PathEscape(fmt.Sprint(".toList
  let rest ← (behind.dropWhile isAsciiAlphanumeric).dropPrefix? "))".toList
  if behind.head?.any isAsciiLetter then
    some (.param (String.ofList (behind.takeWhile isAsciiAlphanumeric)), rest)
  else none

/-- A term: a literal or an argument, and what follows. -/
def term? (cs : List Char) : Option (Segment × List Char) :=
  match quoting.literal? cs with
  | some (text, rest) => some (.literal text, rest)
  | none => splicedArgument? cs

theorem length_of_dropPrefix? {cs rest front : List Char}
    (dropped : cs.dropPrefix? front = some rest) : rest.length + front.length = cs.length := by
  obtain ⟨front', rfl, same⟩ := List.dropPrefix?_eq_some_iff.mp dropped
  rw [eq_of_beq same, List.length_append, Nat.add_comm]

theorem length_of_splicedArgument? {cs rest : List Char} {segment : Segment}
    (read : splicedArgument? cs = some (segment, rest)) : rest.length < cs.length := by
  obtain ⟨behind, first, later⟩ := Option.bind_eq_some_iff.mp read
  obtain ⟨after, last, closed⟩ := Option.bind_eq_some_iff.mp later
  split at closed
  · cases closed
    have start := length_of_dropPrefix? first
    have stop := length_of_dropPrefix? last
    have shorter := (List.dropWhile_sublist (l := behind) isAsciiAlphanumeric).length_le
    have some_letter : 0 < "url.PathEscape(fmt.Sprint(".toList.length := by decide
    omega
  · cases closed

theorem length_of_term? {cs rest : List Char} {segment : Segment}
    (read : term? cs = some (segment, rest)) : rest.length < cs.length := by
  unfold term? at read
  split at read
  · rename_i text after found
    cases read
    exact quoting.length_of_literal? found
  · exact length_of_splicedArgument? read

/-- **The terms of an expression** that puts texts together. -/
def terms? (cs : List Char) : Option (List Segment) :=
  match _h : term? cs with
  | some (segment, []) => some [segment]
  | some (segment, ' ' :: '+' :: ' ' :: rest) => (terms? rest).map (segment :: ·)
  | _ => none
termination_by cs.length
decreasing_by
  have := length_of_term? _h
  simp only [List.length_cons] at this
  omega

theorem terms?_last {cs : List Char} {segment : Segment} (read : term? cs = some (segment, [])) :
    terms? cs = some [segment] := by
  rw [terms?]
  split <;> simp_all

theorem terms?_plus {cs rest : List Char} {segment : Segment}
    (read : term? cs = some (segment, ' ' :: '+' :: ' ' :: rest)) :
    terms? cs = (terms? rest).map (segment :: ·) := by
  rw [terms?]
  split <;> simp_all

/-! ## Terms that are written -/

/-- The term of an argument. -/
def splice (argument : String) : String :=
  "url.PathEscape(fmt.Sprint(" ++ argument ++ "))"

/-- The term of a segment, where parameters have names as arguments. -/
def pathTerm (names : List (String × String)) : Segment → String
  | .literal text => quote text
  | .param name => splice ((names.lookup name).getD "")

/-- The segment with the argument instead of the parameter. -/
def argumentSegment (names : List (String × String)) : Segment → Segment
  | .literal text => .literal text
  | .param name => .param ((names.lookup name).getD "")

theorem literalTerms_eq (names : List (String × String)) (text : String) :
    literalTerms text = (literals text.toList).map (pathTerm names) := by
  rcases literals_eq_nil_or text.toList with ⟨empty, none⟩ | ⟨nonempty, one⟩
  · rw [none, String.toList_eq_nil_iff.mp empty]
    rfl
  · rw [String.ofList_toList] at nonempty
    rw [one, String.ofList_toList, literalTerms, if_neg (by simpa using nonempty)]
    rfl

/-- The terms of a path are those of its segments, merged. -/
theorem pathTerms_eq {names : List (String × String)} {declared : List String}
    (given : ∀ name, name ∈ declared ↔ (names.lookup name).isSome) (text : String)
    (segments : List Segment) :
    pathTerms names text segments =
      (mergedFrom text (segments.map (Segment.spliced declared))).map (pathTerm names) := by
  induction segments generalizing text with
  | nil => exact literalTerms_eq names text
  | cons segment segments ih =>
      cases segment with
      | literal more => exact ih (text ++ more)
      | param name =>
          cases found : names.lookup name with
          | none =>
              have other : name ∉ declared := by
                rw [given, found]
                exact Bool.false_ne_true
              rw [List.map_cons, Segment.spliced, if_neg other, mergedFrom, ← ih, pathTerms, found]
          | some argument =>
              have own : name ∈ declared := by
                rw [given, found]
                rfl
              have term : pathTerm names (.param name) = splice argument := by
                simp only [pathTerm, found, Option.getD_some]
              rw [List.map_cons, Segment.spliced, if_pos own, mergedFrom, List.map_append,
                List.map_cons, term, ← ih, ← literalTerms_eq names, pathTerms, found]
              rfl

theorem term?_quote (text : String) (rest : List Char) :
    term? ((quote text).toList ++ rest) = some (.literal text, rest) := by
  rw [term?, literal?_quote]

theorem term?_splice {argument : String} (identifier : IsIdentifier argument.toList)
    (rest : List Char) :
    term? ((splice argument).toList ++ rest) = some (.param argument, rest) := by
  obtain ⟨c, cs, letters, letter, parts⟩ := identifier
  have written : (splice argument).toList ++ rest =
      "url.PathEscape(fmt.Sprint(".toList ++ (argument.toList ++ ("))".toList ++ rest)) := by
    unfold splice
    simp
  have unquoted : quoting.literal? ((splice argument).toList ++ rest) = none := by
    rw [written]
    simp [Quoting.literal?]
  have starts : (argument.toList ++ ("))".toList ++ rest)).head?.any isAsciiLetter := by
    rw [letters]
    exact letter
  rw [← letters] at parts
  have ended : ∀ c ∈ ("))".toList ++ rest).head?, isAsciiAlphanumeric c = false := by
    intro c same
    obtain rfl : ')' = c := Option.some.inj same
    rfl
  obtain ⟨name, behind⟩ := run_append parts ended
  rw [term?, unquoted, written]
  show splicedArgument? _ = _
  rw [splicedArgument?, List.dropPrefix?_append_of_beq _ (beq_self_eq_true _), Option.bind_eq_bind,
    Option.bind_some, behind, List.dropPrefix?_append_of_beq _ (beq_self_eq_true _),
    Option.bind_some, if_pos starts, name, String.ofList_toList]

/-- **Terms between plus signs are read as the terms**, one by one. -/
theorem terms?_intercalate {names : List (String × String)} {segments : List Segment}
    (nonempty : segments ≠ [])
    (written : ∀ segment ∈ segments, ∀ rest,
      term? ((pathTerm names segment).toList ++ rest) =
        some (argumentSegment names segment, rest)) :
    terms? (String.intercalate " + " (segments.map (pathTerm names))).toList =
      some (segments.map (argumentSegment names)) := by
  induction segments with
  | nil => exact absurd rfl nonempty
  | cons segment segments ih =>
      obtain ⟨first, others⟩ := List.forall_mem_cons.mp written
      cases segments with
      | nil =>
          have read := first []
          rw [List.append_nil] at read
          exact terms?_last read
      | cons next segments =>
          have text : (String.intercalate " + "
              ((segment :: next :: segments).map (pathTerm names))).toList =
              (pathTerm names segment).toList ++ ' ' :: '+' :: ' ' ::
                (String.intercalate " + " ((next :: segments).map (pathTerm names))).toList := by
            simp [String.toList_intercalate]
          rw [text, terms?_plus (first _), ih (List.cons_ne_nil _ _) others]
          rfl

/-! ## The expression of an operation -/

/-- The names of the arguments, with the parameters that they are made for. -/
def argumentsOf (op : Operation) : List (String × String) :=
  (pathArguments op).map fun (parameter, argument, _) => (parameter, argument)

/-- **The expression that makes the path** in the method of an operation. -/
def pathCode (op : Operation) : String :=
  pathExpression op.path (argumentsOf op)

/-- The segment with the parameter that an argument is there for. -/
def parameterSegment? (op : Operation) : Segment → Option Segment
  | .literal text => some (.literal text)
  | .param argument => (parameterOf? op argument).map .param

/-- **The segments that an expression puts together** in the method of an operation. -/
def pathSegments? (op : Operation) (code : String) : Option (List Segment) := do
  (← terms? code.toList).mapM (parameterSegment? op)

/-- The declared parameters are those that have an argument. -/
theorem isSome_lookup_argumentsOf (op : Operation) (name : String) :
    name ∈ op.pathNames ↔ ((argumentsOf op).lookup name).isSome := by
  have names : OrderedMap.keys (argumentsOf op) = (op.parametersAt .path).map (·.name) := by
    have firsts : ((op.parametersAt .path).zip (argumentNames op)).map Prod.fst =
        op.parametersAt .path :=
      List.map_fst_zip (length_argumentNames op).ge
    conv_rhs => rw [← firsts]
    simp [OrderedMap.keys, argumentsOf, pathArguments_eq]
  rw [← Option.ne_none_iff_isSome, Ne, OrderedMap.lookup_eq_none, names, not_not,
    Operation.mem_names_parametersAt]
  rfl

/-- A declared parameter has an argument that is there for it. -/
theorem argument_of_mem_pathNames {op : Operation} {name : String} (own : name ∈ op.pathNames) :
    ∃ argument, (argumentsOf op).lookup name = some argument ∧
      IsIdentifier argument.toList ∧ parameterOf? op argument = some name := by
  obtain ⟨argument, found⟩ :=
    Option.isSome_iff_exists.mp ((isSome_lookup_argumentsOf op name).mp own)
  obtain ⟨⟨parameter, other, type⟩, listed, same⟩ :=
    List.mem_map.mp (OrderedMap.mem_of_lookup found)
  cases same
  have given : argument ∈ argumentNames op := by
    obtain ⟨⟨p, chosen⟩, pair, same⟩ := List.mem_map.mp (pathArguments_eq op ▸ listed)
    cases same
    exact (List.of_mem_zip pair).2
  exact ⟨argument, found, isIdentifier_of_mem_argumentNames given, parameterOf?_eq_some listed⟩

/-- The terms of the expression: the segments that a client makes of the path, with arguments, or an
empty literal. -/
theorem terms?_pathCode {op : Operation} {segments : List Segment}
    (made : merged ((split op.path).map (Segment.spliced op.pathNames)) = segments) :
    terms? (pathCode op).toList =
      some (if segments = [] then [.literal ""]
        else segments.map (argumentSegment (argumentsOf op))) := by
  have terms : pathTerms (argumentsOf op) "" (split op.path) =
      segments.map (pathTerm (argumentsOf op)) := by
    rw [← made]
    exact pathTerms_eq (isSome_lookup_argumentsOf op) "" _
  cases segments with
  | nil =>
      have code : pathCode op = quote "" := by
        rw [pathCode, pathExpression, terms]
        rfl
      have read := term?_quote "" []
      rw [List.append_nil] at read
      rw [code, terms?_last read]
      rfl
  | cons first others =>
      have code : pathCode op =
          String.intercalate " + " ((first :: others).map (pathTerm (argumentsOf op))) := by
        rw [pathCode, pathExpression, terms]
        rfl
      rw [code, if_neg (List.cons_ne_nil first others)]
      refine terms?_intercalate (List.cons_ne_nil first others) fun segment listed => ?_
      cases segment with
      | literal text => exact term?_quote text
      | param name =>
          rw [← made] at listed
          obtain ⟨argument, found, identifier, -⟩ :=
            argument_of_mem_pathNames (param_mem_merged_spliced.mp listed).2
          simp only [pathTerm, argumentSegment, found, Option.getD_some]
          exact term?_splice identifier

/-- **The expression puts together what a client makes of the path.** -/
theorem pathSegments?_pathCode (op : Operation) :
    (pathSegments? op (pathCode op)).map merged =
      some (merged ((split op.path).map (Segment.spliced op.pathNames))) := by
  generalize made : merged ((split op.path).map (Segment.spliced op.pathNames)) = segments
  have resolved : ∀ segment ∈ segments,
      parameterSegment? op (argumentSegment (argumentsOf op) segment) = some (id segment) := by
    intro segment listed
    cases segment with
    | literal text => rfl
    | param name =>
        rw [← made] at listed
        obtain ⟨argument, found, -, same⟩ :=
          argument_of_mem_pathNames (param_mem_merged_spliced.mp listed).2
        simp only [argumentSegment, parameterSegment?, found, Option.getD_some, same]
        rfl
  rw [pathSegments?, terms?_pathCode made, Option.bind_eq_bind, Option.bind_some]
  split
  · rename_i empty
    rw [empty]
    rfl
  · rw [mapM_map_eq_some resolved, List.map_id, Option.map_some, ← made, merged_merged]

/-! ## Imports -/

/-- **The path of an operation takes an argument.** -/
def Splices (op : Operation) : Prop :=
  ∃ terms argument, terms? (pathCode op).toList = some terms ∧ .param argument ∈ terms

theorem splices_iff (op : Operation) : Splices op ↔ splices op := by
  generalize made : merged ((split op.path).map (Segment.spliced op.pathNames)) = segments
  have read := terms?_pathCode made
  have listed : splices op ↔ ∃ name, .param name ∈ segments := by
    rw [← made, splices, List.any_eq_true]
    simp only [param_mem_merged_spliced]
    constructor
    · rintro ⟨segment, inPath, taken⟩
      cases segment with
      | literal text => cases taken
      | param name => exact ⟨name, inPath, List.contains_iff_mem.mp taken⟩
    · rintro ⟨name, inPath, own⟩
      exact ⟨.param name, inPath, List.contains_iff_mem.mpr own⟩
  rw [listed]
  constructor
  · rintro ⟨terms, argument, found, spliced⟩
    rw [read, Option.some_inj] at found
    split at found
    · subst found
      simp at spliced
    · subst found
      obtain ⟨segment, inSegments, same⟩ := List.mem_map.mp spliced
      cases segment with
      | literal text => cases same
      | param name => exact ⟨name, inSegments⟩
  · rintro ⟨name, inSegments⟩
    rw [if_neg (List.ne_nil_of_mem inSegments)] at read
    exact ⟨_, _, read, List.mem_map_of_mem inSegments⟩

/-- The package that a line names. -/
def importPath? (line : List Char) : Option String :=
  (quoting.literal? (trimStart line)).map (·.1)

/-- The packages of the import declaration at the beginning of some lines. -/
def importsAt : List (List Char) → List String
  | [] => []
  | line :: lines =>
    if line = "import (".toList then
      (lines.takeWhile (· != ")".toList)).filterMap importPath?
    else ((line.dropPrefix? "import ".toList).bind importPath?).toList

/-- **The packages that a file imports**: those of the declaration behind its package clause. -/
def importedPackages (file : String) : List String :=
  let lines := file.toList.splitOnP (· == '\n')
  let clause := lines.dropWhile fun line => (line.dropPrefix? "package ".toList).isNone
  importsAt (clause.tail.dropWhile (·.isEmpty))

theorem importPath?_quote (front : List Char) (blank : ∀ c ∈ front, isBlank c) (path : String) :
    importPath? (front ++ (quote path).toList) = some path := by
  have start : trimStart (front ++ (quote path).toList) = (quote path).toList := by
    rw [trimStart, List.dropWhile_append_of_pos blank]
    simp [quote, isBlank]
  have read := literal?_quote path []
  rw [List.append_nil] at read
  rw [importPath?, start, read]
  rfl

/-- The declaration behind the package clause is found. -/
theorem importedPackages_clause (rest : String) :
    importedPackages (header ++ "package gen\n" ++ rest) =
      importsAt ((rest.toList.splitOnP (· == '\n')).dropWhile (·.isEmpty)) := by
  have lines : (header ++ "package gen\n" ++ rest).toList =
      "// Code generated by oapigen. DO NOT EDIT.".toList ++ '\n' :: ([] ++ '\n' ::
        ("package gen".toList ++ '\n' :: rest.toList)) := by
    simp [header]
  rw [importedPackages, lines, splitOnP_line (by decide), splitOnP_line (by decide),
    splitOnP_line (by decide)]
  rfl

theorem importsAt_both (rest : String) :
    importsAt ((("\nimport (\n\t\"fmt\"\n\t\"net/url\"\n)\n" ++ rest).toList.splitOnP
      (· == '\n')).dropWhile (·.isEmpty)) = ["fmt", "net/url"] := by
  have lines : ("\nimport (\n\t\"fmt\"\n\t\"net/url\"\n)\n" ++ rest).toList =
      [] ++ '\n' :: ("import (".toList ++ '\n' :: ("\t\"fmt\"".toList ++ '\n' ::
        ("\t\"net/url\"".toList ++ '\n' :: (")".toList ++ '\n' :: rest.toList)))) := by
    simp
  rw [lines, splitOnP_line (by decide), splitOnP_line (by decide), splitOnP_line (by decide),
    splitOnP_line (by decide), splitOnP_line (by decide)]
  have printing : importPath? "\t\"fmt\"".toList = some "fmt" :=
    importPath?_quote ['\t'] (List.all_eq_true.mp rfl) "fmt"
  have addresses : importPath? "\t\"net/url\"".toList = some "net/url" :=
    importPath?_quote ['\t'] (List.all_eq_true.mp rfl) "net/url"
  show ["\t\"fmt\"".toList, "\t\"net/url\"".toList].filterMap importPath? = _
  simp only [List.filterMap_cons, printing, addresses, List.filterMap_nil]

theorem importsAt_single (rest : String) :
    importsAt ((("\nimport \"net/url\"\n" ++ rest).toList.splitOnP
      (· == '\n')).dropWhile (·.isEmpty)) = ["net/url"] := by
  have lines : ("\nimport \"net/url\"\n" ++ rest).toList =
      [] ++ '\n' :: ("import \"net/url\"".toList ++ '\n' :: rest.toList) := by
    simp
  rw [lines, splitOnP_line (by decide), splitOnP_line (by decide)]
  have addresses : importPath? "\"net/url\"".toList = some "net/url" :=
    importPath?_quote [] nofun "net/url"
  show (importPath? "\"net/url\"".toList).toList = _
  rw [addresses]
  rfl

/-- **The package for printing is imported** iff the path of an operation takes an argument. -/
theorem fmt_mem_importedPackages (operations : List Operation) :
    "fmt" ∈ importedPackages (operationsFile operations) ↔ ∃ op ∈ operations, Splices op := by
  have anySplices : operations.any splices ↔ ∃ op ∈ operations, Splices op := by
    simp only [List.any_eq_true, splices_iff]
  rw [← anySplices, operationsFile, importedPackages_clause]
  split
  · rename_i empty
    rw [List.isEmpty_iff.mp empty]
    decide
  · dsimp only
    rw [imports]
    split
    · rename_i needed
      rw [importsAt_both]
      simp [needed]
    · rename_i unneeded
      rw [importsAt_single]
      simp [unneeded]

end ClientGen.Go
