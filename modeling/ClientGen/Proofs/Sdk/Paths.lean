import ClientGen.Proofs.Go.Paths
import ClientGen.Proofs.PathTemplate.Splicing
import ClientGen.Proofs.TypeScript.Quoting
import ClientGen.TypeScript.Client
import Mathlib.Data.List.Basic

/-!
# The paths of requests

The clients of both languages put the path of a request together from the same segments: the
parameters that are declared, and everything else as it stands in the template.

* `TypeScript.splicedName?` — the path parameter whose value is spliced into a template.
* `TypeScript.pathSegments?` — the segments that an expression puts together.
* `TypeScript.pathSegments?_pathExpression` — they are those of the path.
* `Operation.SharesPath` — both clients make the path of an operation from some segments.
* `sharesPath` — they do, and from no others.
-/

namespace ClientGen.TypeScript

open PathTemplate

/-- **The path parameter whose value is spliced**: a property of the group of path parameters, as a
string, encoded. -/
def splicedName? (code : String) : Option String := do
  let behind ← code.toList.dropPrefix? "encodeURIComponent(String(path".toList
  let (name, rest) ← property? behind
  if rest = "))".toList then some name else none

/-- The segment that a part of a template puts in. -/
def partSegment? : TemplatePart Expression → Option Segment
  | .text text => some (.literal text)
  | .substitution (.raw code) => (splicedName? code).map .param
  | .substitution _ => none

/-- **The segments that an expression puts together**: a template, or a literal. -/
def pathSegments? : Expression → Option (List Segment)
  | .template parts => parts.mapM partSegment?
  | .literal (.string text) => some [.literal text]
  | _ => none

theorem splicedName?_access (name : String) (present : Bool) :
    splicedName? ("encodeURIComponent(String(" ++ access "path" name present ++ "))") =
      some name := by
  have ended : ∀ c ∈ "))".toList.head?, isIdentifierPart c = false := by
    intro c member
    obtain rfl : ')' = c := Option.some.inj member
    rfl
  obtain ⟨behind, written, read⟩ := property?_access "path" name present ended
  have code : ("encodeURIComponent(String(" ++ access "path" name present ++ "))").toList =
      "encodeURIComponent(String(path".toList ++ (behind ++ "))".toList) := by
    simp [written]
  rw [splicedName?, code, List.dropPrefix?_append_of_beq _ (beq_self_eq_true _)]
  simp only [Option.bind_eq_bind, Option.bind_some, read, if_true]

/-- Each part of a template puts in what a client makes of its segment. -/
theorem partSegment?_pathPart (declared : List String) (present : Bool) (segment : Segment) :
    partSegment? (pathPart declared present segment) = some (segment.spliced declared) := by
  cases segment with
  | literal text => rfl
  | param name =>
      by_cases own : name ∈ declared
      · rw [pathPart, if_pos (List.contains_iff_mem.mpr own), Segment.spliced, if_pos own,
          partSegment?, splicedName?_access]
        rfl
      · rw [pathPart, if_neg (mt List.contains_iff_mem.mp own), Segment.spliced, if_neg own]
        rfl

/-- **An expression puts together what a client makes of the path.** -/
theorem pathSegments?_pathExpression (op : Operation) (present : Bool) :
    (pathSegments? (pathExpression op present)).map merged =
      some (merged ((split op.path).map (Segment.spliced op.pathNames))) := by
  rw [pathExpression]
  split
  · have read := mapM_map_eq_some fun segment (_ : segment ∈ split op.path) =>
      partSegment?_pathPart op.pathNames present segment
    rw [pathSegments?, read]
    rfl
  · rename_i plain
    have undeclared : ∀ name, .param name ∈ split op.path → name ∉ op.pathNames := by
      intro name listed own
      exact plain (List.any_eq_true.mpr ⟨_, listed, List.contains_iff_mem.mpr own⟩)
    rw [merged_of_undeclared undeclared, join_split]
    rfl

end ClientGen.TypeScript

namespace ClientGen

open PathTemplate

/-- **Both clients put the path together from some segments**, with undeclared parameters as text.
Adjacent texts count as one. -/
structure Operation.SharesPath (op : Operation) (segments : List Segment) : Prop where
  /-- Every brace that could open a parameter does so. -/
  proper : Proper segments
  /-- The segments make up the template. -/
  whole : join segments = op.path
  /-- The template is kept: parameters written in braces give it back. -/
  kept : join (merged (segments.map (Segment.spliced op.pathNames))) = op.path
  /-- A TypeScript function reads the parameters from their group, which may be absent. -/
  typeScript : ∀ present,
    (TypeScript.pathSegments? (TypeScript.pathExpression op present)).map merged =
      some (merged (segments.map (Segment.spliced op.pathNames)))
  /-- A Go method takes the arguments in its signature for the parameters. -/
  go : (Go.pathSegments? op (Go.pathCode op)).map merged =
    some (merged (segments.map (Segment.spliced op.pathNames)))

/-- **Both clients make the same path**, and that of Go imports what prints arguments if it has to
print some. -/
theorem sharesPath :
    (∀ op : Operation, ∃! segments, op.SharesPath segments) ∧
      ∀ operations, "fmt" ∈ Go.importedPackages (Go.operationsFile operations) ↔
        ∃ op ∈ operations, Go.Splices op := by
  refine ⟨fun op => ⟨split op.path, ?_, fun segments shared => ?_⟩, Go.fmt_mem_importedPackages⟩
  · exact
      { proper := proper_split op.path
        whole := join_split op.path
        kept := by rw [join_merged_spliced, join_split]
        typeScript := TypeScript.pathSegments?_pathExpression op
        go := Go.pathSegments?_pathCode op }
  · rw [← shared.whole, shared.proper.split_join]

end ClientGen
