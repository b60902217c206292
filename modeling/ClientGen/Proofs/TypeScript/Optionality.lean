import ClientGen.Proofs.Api.Parameters
import ClientGen.Proofs.Sdk.Literals
import ClientGen.Proofs.TypeScript.Scope
import Mathlib.Data.List.Sublists

/-!
# What callers of a function may leave out

The parameters of a function come in groups, each a member of one type. Four parts of the output say
what may be left out: the marks of the members of this type, the value that the argument takes if it
is not given, the names it is taken apart into, and the way a path reads its group. They are made
separately, and they have to agree for the code to run.

* `Definition.members` — the members of a type, and which of them may be absent.
* `Function.unpacked`, `Function.substitutions` — what a function takes its argument apart into, and
  what it splices into texts.
* `Agrees` — a type and a function agree on what the callers of an operation may leave out.
* `agrees_function`, `agrees_clientModule` — they do, for every operation of every client module.

All four are derived from one list of groups, so they are compared with this list, and it with the
parameters of the operation that count.
-/

namespace ClientGen.TypeScript

open Text PathTemplate

/-! ## Reading types and functions -/

/-- **The members of a type**, each with whether it may be absent. -/
def Definition.members (d : Definition) : List (String × Bool) :=
  match d.body with
  | .interface properties _ => properties.map fun p => (p.name, p.optional)
  | .alias _ => []
  | .constants _ => []

/-- The names that a pattern takes an object apart into. -/
def namesIn (pattern : String) : List String :=
  ((pattern.toList.filter fun c => !(['\x7b', '\x7d', ' '].contains c)).splitOnP (· == ',')).map
    String.ofList

/-- The names that a statement takes a variable apart into. -/
def Statement.unpacked (source : String) : Statement → List String
  | .const pattern (.identifier name) => if name = source then namesIn pattern else []
  | _ => []

@[simp] theorem Statement.unpacked_identifier (pattern name source : String) :
    (Statement.const pattern (.identifier name)).unpacked source =
      if name = source then namesIn pattern else [] := rfl

@[simp] theorem Statement.unpacked_result (value : Expression) (source : String) :
    (Statement.result value).unpacked source = [] := rfl

/-- **The names that a function takes one of its arguments apart into.** -/
def Function.unpacked (f : Function) (argument : String) : List String :=
  f.body.flatMap (·.unpacked argument)

/-- What a part of a template splices in. -/
def TemplatePart.substitution? : TemplatePart Expression → Option Expression
  | .text _ => none
  | .substitution e => some e

/-- What a statement splices into a text. -/
def Statement.substitutions : Statement → List Expression
  | .const _ (.template parts) => parts.filterMap TemplatePart.substitution?
  | _ => []

/-- **What a function splices into texts.** -/
def Function.substitutions (f : Function) : List Expression :=
  f.body.flatMap Statement.substitutions

/-- **The access in a spliced value**: the name of the object, whether it may be absent, and the
name of the member. The value is made a text, and encoded. -/
def splicedAccess? : Expression → Option (String × Bool × String)
  | .raw code => do
    let behind ← code.toList.dropPrefix? "encodeURIComponent(String(".toList
    let access ← behind.dropSuffix? "))".toList
    accessed? access
  | _ => none

/-! ## Agreement -/

/-- The members that the parameters of an operation take: a group for each place that a parameter is
declared for, and the body. -/
def memberNames (op : Operation) : List String :=
  (groupPlaces.filter fun place => op.parameters.any (·.location == place.2)).map (·.1) ++
    if op.body.isSome then ["body"] else []

/-- **A type and a function agree on what may be left out.** -/
structure Agrees (op : Operation) (d : Definition) (f : Function) : Prop where
  /-- The members are a group for each place with parameters, in order, and the body. -/
  members : d.members.map (·.1) = memberNames op
  /-- A group may be absent iff all of its parameters that count may. -/
  group : ∀ place ∈ groupPlaces, ∀ optional, (place.1, optional) ∈ d.members →
    (optional = true ↔ ∀ p, p.location = place.2 → op.Counts p → p.required = false)
  /-- The body may be absent iff it is not required. -/
  body : ∀ optional, ("body", optional) ∈ d.members →
    ∃ b, op.body = some b ∧ (optional = true ↔ b.required = false)
  /-- The argument has the type, and it is an empty object if it is not given, iff every member may
  be absent; it is taken apart into the members. -/
  argument : ∃ client parameters, f.arguments = [client, parameters] ∧
    parameters.type = .ref d.name ∧
    parameters.fallback.map Expression.text =
      (if ∀ member ∈ d.members, member.2 = true then some emptyBraces else none) ∧
    f.unpacked parameters.name = d.members.map (·.1)
  /-- A spliced value is a declared parameter, read from the group of path parameters, which is
  expected to be absent iff it may be. -/
  access : ∀ e ∈ f.substitutions, ∃ optional name, ("path", optional) ∈ d.members ∧
    name ∈ op.pathNames ∧ splicedAccess? e = some ("path", optional, name)

/-! ## Groups -/

variable {op : Operation}

/-- The groups of an operation are those of the places that a parameter is declared for. -/
theorem groups_ofOperation (op : Operation) :
    (Signature.ofOperation op).groups =
      (groupPlaces.filter fun place => op.parameters.any (·.location == place.2)).map
        fun place => ⟨place.1, op.parametersAt place.2⟩ := by
  have present (location : Location) : (!(op.parametersAt location).isEmpty) =
      op.parameters.any (·.location == location) := by
    rw [Bool.eq_iff_iff, Bool.not_eq_true', List.isEmpty_eq_false_iff, ne_eq,
      Operation.parametersAt_eq_nil_iff]
    simp
  rw [Signature.ofOperation, List.filter_map]
  simp only [Function.comp_def, present]

theorem names_ofOperation (op : Operation) :
    (Signature.ofOperation op).names = memberNames op := by
  rw [Signature.names, groups_ofOperation, List.map_map, memberNames]
  have body : (Signature.ofOperation op).body = op.body := rfl
  rw [body]
  cases op.body <;> rfl

/-- The members of the type of the parameters. -/
theorem members_definition (s : Signature) (own : String) :
    (s.definition own).members =
      s.groups.map (fun g => (g.name, !g.required)) ++
        s.body.toList.map fun b => ("body", !b.required) := by
  cases empty : s.names.isEmpty with
  | true =>
      rw [List.isEmpty_iff, Signature.names, List.append_eq_nil_iff, List.map_eq_nil_iff,
        List.map_eq_nil_iff] at empty
      simp [Definition.members, Signature.definition, Signature.names, empty]
  | false =>
      simp only [Definition.members, Signature.definition, empty, Bool.false_eq_true, if_false,
        List.map_append, List.map_map]
      rfl

theorem names_definition (op : Operation) (own : String) :
    ((Signature.ofOperation op).definition own).members.map (·.1) = memberNames op := by
  rw [members_definition, ← names_ofOperation, Signature.names, List.map_append, List.map_map,
    List.map_map]
  rfl

/-- **Nothing is required iff every member may be absent.** -/
theorem required_eq_false_iff (s : Signature) (own : String) :
    s.required = false ↔ ∀ member ∈ (s.definition own).members, member.2 = true := by
  rw [members_definition, List.forall_mem_append, List.forall_mem_map, List.forall_mem_map,
    Signature.required, Bool.or_eq_false_iff, List.any_eq_false, List.any_eq_false]
  simp

/-- Places with one name for their groups are one. -/
theorem place_eq_of_name_eq {place other : String × Location} (listed : place ∈ groupPlaces)
    (alsoListed : other ∈ groupPlaces) (same : place.1 = other.1) : place = other :=
  List.inj_on_of_nodup_map (f := Prod.fst) (by decide) listed alsoListed same

theorem exists_place_of_mem_groups {g : Group} (listed : g ∈ (Signature.ofOperation op).groups) :
    ∃ place ∈ groupPlaces, g = ⟨place.1, op.parametersAt place.2⟩ := by
  rw [groups_ofOperation] at listed
  obtain ⟨place, kept, rfl⟩ := List.mem_map.mp listed
  exact ⟨place, (List.mem_filter.mp kept).1, rfl⟩

/-- The member for a group may be absent iff nothing in the group is required. -/
theorem optional_of_mem {own : String} {place : String × Location} (listed : place ∈ groupPlaces)
    {optional : Bool}
    (member : (place.1, optional) ∈ ((Signature.ofOperation op).definition own).members) :
    optional = !Group.required ⟨place.1, op.parametersAt place.2⟩ := by
  rw [members_definition] at member
  rcases List.mem_append.mp member with inGroups | inBody
  · obtain ⟨g, kept, same⟩ := List.mem_map.mp inGroups
    obtain ⟨other, alsoListed, rfl⟩ := exists_place_of_mem_groups kept
    obtain ⟨name, required⟩ := Prod.mk.inj same
    obtain rfl := place_eq_of_name_eq alsoListed listed name
    exact required.symm
  · have names : ∀ place ∈ groupPlaces, place.1 ≠ "body" := by decide
    obtain ⟨b, -, same⟩ := List.mem_map.mp inBody
    exact absurd (Prod.mk.inj same).1.symm (names place listed)

/-- The member for the body may be absent iff the body is not required. -/
theorem exists_body_of_mem {own : String} {optional : Bool}
    (member : ("body", optional) ∈ ((Signature.ofOperation op).definition own).members) :
    ∃ b, op.body = some b ∧ optional = !b.required := by
  rw [members_definition] at member
  rcases List.mem_append.mp member with inGroups | inBody
  · have names : ∀ place ∈ groupPlaces, place.1 ≠ "body" := by decide
    obtain ⟨g, kept, same⟩ := List.mem_map.mp inGroups
    obtain ⟨place, listed, rfl⟩ := exists_place_of_mem_groups kept
    exact absurd (Prod.mk.inj same).1 (names place listed)
  · obtain ⟨b, present, same⟩ := List.mem_map.mp inBody
    exact ⟨b, Option.mem_toList.mp present, (Prod.mk.inj same).2.symm⟩

/-! ## Paths -/

/-- An operation with path parameters has a member for them. -/
theorem path_mem_members {name : String} (declared : name ∈ op.pathNames) (own : String) :
    ("path", !(Signature.ofOperation op).requires "path") ∈
      ((Signature.ofOperation op).definition own).members := by
  let g : Group := ⟨"path", op.parametersAt .path⟩
  have inGroups : g ∈ (Signature.ofOperation op).groups := by
    rw [groups_ofOperation]
    obtain ⟨p, present, -⟩ := List.mem_map.mp declared
    obtain ⟨listed, place⟩ := List.mem_filter.mp present
    exact List.mem_map.mpr ⟨("path", .path), List.mem_filter.mpr
      ⟨by decide, List.any_eq_true.mpr ⟨p, listed, place⟩⟩, rfl⟩
  have required : (Signature.ofOperation op).requires "path" = g.required := by
    rw [Signature.requires, Bool.eq_iff_iff, List.any_eq_true]
    constructor
    · rintro ⟨other, kept, requires⟩
      obtain ⟨name, requires⟩ := Bool.and_eq_true_iff.mp requires
      obtain ⟨place, listed, rfl⟩ := exists_place_of_mem_groups kept
      obtain rfl : place = ("path", .path) :=
        place_eq_of_name_eq listed (by decide) (beq_iff_eq.mp name)
      exact requires
    · exact fun requires => ⟨g, inGroups, Bool.and_eq_true_iff.mpr ⟨rfl, requires⟩⟩
  rw [members_definition, required]
  exact List.mem_append_left _ (List.mem_map.mpr ⟨g, inGroups, rfl⟩)

theorem splicedAccess?_access (name : String) (present : Bool) :
    splicedAccess? (.raw ("encodeURIComponent(String(" ++ access "path" name present ++ "))")) =
      some ("path", !present, name) := by
  have word : IsWord "path".toList := ⟨'p', ['a', 't', 'h'], rfl, rfl, List.all_eq_true.mp rfl⟩
  have code : ("encodeURIComponent(String(" ++ access "path" name present ++ "))").toList =
      "encodeURIComponent(String(".toList ++ ((access "path" name present).toList ++
        "))".toList) := by
    simp
  have cut : ((access "path" name present).toList ++ "))".toList).dropSuffix? "))".toList =
      some (access "path" name present).toList :=
    List.dropSuffix?_eq_some_iff.mpr ⟨_, rfl, beq_self_eq_true _⟩
  rw [splicedAccess?, code, List.dropPrefix?_append_of_beq _ (beq_self_eq_true _)]
  simp only [Option.bind_eq_bind, Option.bind_some, cut]
  exact accessed?_access word name present

/-- A path is a template of its segments, or a literal. -/
theorem pathExpression_cases (op : Operation) (present : Bool) :
    pathExpression op present = .template ((split op.path).map (pathPart op.pathNames present)) ∨
      pathExpression op present = .literal (.string op.path) := by
  by_cases takes : (split op.path).any (isSpliced op.pathNames)
  · exact .inl (if_pos takes)
  · exact .inr (if_neg takes)

/-- What is spliced into a template is a declared parameter. -/
theorem exists_of_substitution_mem {present : Bool} {e : Expression}
    (inParts : .substitution e ∈ (split op.path).map (pathPart op.pathNames present)) :
    ∃ name ∈ op.pathNames,
      e = .raw ("encodeURIComponent(String(" ++ access "path" name present ++ "))") := by
  obtain ⟨segment, -, same⟩ := List.mem_map.mp inParts
  cases segment with
  | literal text => cases same
  | param name =>
      by_cases declared : op.pathNames.contains name
      · rw [pathPart, if_pos declared] at same
        cases same
        exact ⟨name, List.contains_iff_mem.mp declared, rfl⟩
      · rw [pathPart, if_neg declared] at same
        cases same

/-- **What a function splices into texts** are declared parameters of the path. -/
theorem exists_of_mem_substitutions {names : FunctionNames} {e : Expression}
    (spliced : e ∈ (function op names).substitutions) :
    ∃ name ∈ op.pathNames, e = .raw ("encodeURIComponent(String(" ++
      access "path" name ((Signature.ofOperation op).requires "path") ++ "))") := by
  obtain ⟨statement, listed, inside⟩ := List.mem_flatMap.mp spliced
  rcases List.mem_append.mp listed with unpacked | made
  · split at unpacked
    · cases unpacked
    · cases List.mem_singleton.mp unpacked
      cases inside
  · rcases List.mem_cons.mp made with rfl | result
    · rcases pathExpression_cases op ((Signature.ofOperation op).requires "path") with
        template | literal
      · rw [template] at inside
        obtain ⟨part, inParts, same⟩ := List.mem_filterMap.mp inside
        cases part with
        | text text => cases same
        | substitution other =>
            cases same
            exact exists_of_substitution_mem inParts
      · rw [literal] at inside
        cases inside
    · cases List.mem_singleton.mp result
      cases inside

/-! ## Functions -/

/-- The members are some of four, in a fixed order. -/
theorem memberNames_sublist (op : Operation) :
    (memberNames op).Sublist (groupPlaces.map (·.1) ++ ["body"]) := by
  refine (List.filter_sublist.map _).append ?_
  split
  · exact .refl _
  · exact List.nil_sublist _

/-- A pattern of members is read as the members. -/
theorem namesIn_memberNames (nonempty : memberNames op ≠ []) :
    namesIn (inBraces (commaSeparated (memberNames op))) = memberNames op := by
  have each : ∀ names ∈ (groupPlaces.map (·.1) ++ ["body"]).sublists, names ≠ [] →
      namesIn (inBraces (commaSeparated names)) = names := by decide +kernel
  exact each _ (List.mem_sublists.mpr (memberNames_sublist op)) nonempty

/-- A path is taken from no variable. -/
theorem unpacked_path (present : Bool) (pattern argument : String) :
    (Statement.const pattern (pathExpression op present)).unpacked argument = [] := by
  rcases pathExpression_cases op present with same | same
  · rw [same]
    rfl
  · rw [same]
    rfl

/-- **The argument of a function is taken apart into the members.** -/
theorem unpacked_function (names : FunctionNames) :
    (function op names).unpacked (if (Signature.ofOperation op).names.isEmpty then "_params"
      else "params") = memberNames op := by
  simp only [Function.unpacked, function, names_ofOperation, List.isEmpty_iff]
  by_cases empty : memberNames op = []
  · simp [empty, unpacked_path]
  · simp [empty, unpacked_path, namesIn_memberNames]

/-- **The type and the function of an operation agree** on what may be left out. -/
theorem agrees_function (op : Operation) (own name client : String) :
    Agrees op ((Signature.ofOperation op).definition own) (function op ⟨name, own, client⟩) := by
  refine { members := names_definition op own, group := ?group, body := ?body,
           argument := ⟨_, _, rfl, rfl, ?fallback, ?unpacked⟩, access := ?access }
  case group =>
    intro place listed optional member
    rw [optional_of_mem listed member, Bool.not_eq_true', Group.required, List.any_eq_false]
    simp only [Operation.mem_parametersAt_iff, and_imp, Bool.not_eq_true]
  case body =>
    intro optional member
    obtain ⟨b, present, rfl⟩ := exists_body_of_mem member
    exact ⟨b, present, iff_of_eq (Bool.not_eq_true' _)⟩
  case fallback =>
    simp only [← required_eq_false_iff]
    cases (Signature.ofOperation op).required <;> rfl
  case unpacked =>
    rw [names_definition]
    exact unpacked_function _
  case access =>
    intro e spliced
    obtain ⟨name, declared, rfl⟩ := exists_of_mem_substitutions spliced
    exact ⟨_, name, path_mem_members declared own, declared, splicedAccess?_access name _⟩

/-- **Types and functions agree** on what callers may leave out: each module has one type and one
function for each of its operations, in order, and they agree. -/
theorem agrees_clientModule (operations : List Operation) :
    (clientModule operations).types.length = operations.length ∧
      (clientModule operations).functions.length = operations.length ∧
      List.Forall₂ (fun op code => Agrees op code.1 code.2) operations
        ((clientModule operations).types.zip (clientModule operations).functions) := by
  have lengths := length_declaredNames operations
  rw [types_clientModule, functions_clientModule, List.length_map, List.length_map, List.length_zip,
    lengths, Nat.min_self, List.zip_map']
  exact ⟨rfl, rfl, forall₂_map_zip lengths.ge fun pair _ => agrees_function ..⟩

end ClientGen.TypeScript
