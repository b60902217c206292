import ClientGen.Proofs.Go.Comments
import ClientGen.Proofs.Go.Declarations
import ClientGen.Proofs.Go.Tags
import ClientGen.Proofs.Go.Types
import ClientGen.Proofs.Naming.Grammar

/-!
# The types that a file declares

The file of models is read again, line by line: a type is declared by a line that starts with the
keyword and goes on with a name, and what stands behind the name is a type, or the brace of a struct
whose fields are the lines down to the next brace.

* `Outline`, `outlines` — a type with the types that stand in it directly, read off a file.
* `Legible` — texts that have only the characters of names and types.
* `Declares` — a text that is read as certain types, whatever stands behind it.
* `outlines_modelsFile` — the file of models declares one type for each model, as its shape says.

Everything rests on the columns: a name and a type never have a blank, so the second column of a
line in a struct is the type of the field; and no description, constant or tag gets to the beginning
of a line.
-/

namespace ClientGen.Go

open Text

/-! ## Reading declarations -/

/-- **A type that is declared**: its name, and the types that stand in it, as fields or as what it
is defined to be. -/
structure Outline where
  /-- The name. -/
  name : String
  /-- The types of its fields, or the type that it is defined as. -/
  parts : List TypeExpr
  deriving DecidableEq

/-- The type of a field: the second column of its line. -/
def fieldIn (line : List Char) : TypeExpr :=
  let behind := (line.dropWhile (· != ' ')).dropWhile (· == ' ')
  .read (behind.takeWhile (· != ' '))

/-- The types that stand in a definition, whose line may open a struct. -/
def partsIn (definition : List Char) (behind : List (List Char)) : List TypeExpr :=
  if definition = "struct \x7b".toList then
    (behind.takeWhile (· != "\x7d".toList)).map fieldIn
  else if definition = "struct\x7b\x7d".toList then []
  else [.read definition]

/-- The types that lines declare. -/
def outlinesIn : List (List Char) → List Outline
  | [] => []
  | line :: behind =>
    match after? "type " line with
    | none => outlinesIn behind
    | some words =>
      let definition := (words.dropWhile (· != ' ')).drop 1
      ⟨String.ofList (words.takeWhile (· != ' ')), partsIn definition behind⟩ :: outlinesIn behind

/-- **The types that a file declares.** -/
def outlines (file : String) : List Outline :=
  outlinesIn (sourceLines file)

/-! ## Characters of names and types -/

/-- The characters of names and types. -/
def isTypeLetter (c : Char) : Bool :=
  isAsciiAlphanumeric c || ['_', '*', '[', ']'].contains c

/-- **A text has only the characters of names and types.** -/
def Legible (text : String) : Prop :=
  ∀ c ∈ text.toList, isTypeLetter c

instance (text : String) : Decidable (Legible text) :=
  decidable_of_iff (text.toList.all isTypeLetter = true) List.all_eq_true

theorem isTypeLetter_of_isAsciiAlphanumeric {c : Char} (alphanumeric : isAsciiAlphanumeric c) :
    isTypeLetter c := by
  rw [isTypeLetter, alphanumeric, Bool.true_or]

namespace Legible

variable {text other : String}

theorem notMem {c : Char} (legible : Legible text) (strange : isTypeLetter c = false) :
    c ∉ text.toList :=
  fun inside => Bool.false_ne_true (strange.symm.trans (legible c inside))

theorem append (legible : Legible text) (further : Legible other) : Legible (text ++ other) := by
  rw [Legible, String.toList_append]
  exact List.forall_mem_append.mpr ⟨legible, further⟩

theorem of_alphanumeric (every : ∀ c ∈ text.toList, isAsciiAlphanumeric c) : Legible text :=
  fun c inside => isTypeLetter_of_isAsciiAlphanumeric (every c inside)

theorem of_isName (isName : Naming.IsName isAsciiCapital text.toList) : Legible text := by
  have letters {cs : List Char} (every : ∀ c ∈ cs, isAsciiAlphanumeric c) :
      ∀ c ∈ cs, isTypeLetter c :=
    fun c inside => isTypeLetter_of_isAsciiAlphanumeric (every c inside)
  unfold Legible
  generalize text.toList = name at isName
  cases isName with
  | letter head tail =>
      exact letters (List.forall_mem_cons.mpr ⟨isAsciiAlphanumeric_of_isAsciiCapital head, tail⟩)
  | digit head tail =>
      exact List.forall_mem_cons.mpr ⟨rfl, letters
        (List.forall_mem_cons.mpr ⟨isAsciiAlphanumeric_of_isAsciiDigit head, tail⟩)⟩

/-- The type of a shape is legible if the names that the shape refers to are. -/
theorem typeOf {shape : Shape} (names : ∀ name ∈ shape.references, Legible name) :
    Legible (typeOf shape) := by
  have scalar : ∀ type ∈ scalarTypes, Legible type := by decide
  have letters {front : String} (legible : Legible front) {type : String} :
      Legible type → Legible (front ++ type) := legible.append
  refine typeOf_induction (P := Legible) scalar (by decide)
    (letters (by decide)) (letters (by decide)) ?_ names
  intro type legible
  unfold orNull
  split
  · exact legible
  · exact letters (by decide) legible

/-- The type of a field is legible if the names that the shape refers to are. -/
theorem fieldType {shape : Shape} (names : ∀ name ∈ shape.references, Legible name)
    (required : Bool) : Legible (fieldType shape required) := by
  unfold Go.fieldType
  dsimp only
  split
  · exact append (by decide) (typeOf names)
  · exact typeOf names

end Legible

/-! ## Texts that declare types -/

/-- **A text declares types**: it has whole lines, and they are read as these types whatever stands
behind them. -/
def Declares (text : String) (types : List Outline) : Prop :=
  ∃ ls, text.toList = ended ls ∧ (∀ line ∈ ls, '\n' ∉ line) ∧
    ∀ behind, outlinesIn (ls ++ behind) = types ++ outlinesIn behind

/-- A line that does not start with the letter of the keyword declares nothing. -/
theorem after?_type_eq_none {line : List Char} (other : line.head? ≠ some 't') :
    after? "type " line = none := by
  have start : ¬ "type ".toList.isPrefixOf line := by
    rw [List.isPrefixOf_iff_prefix]
    rintro ⟨rest, rfl⟩
    exact other rfl
  rw [after?, if_neg start]

theorem outlinesIn_append {front : List (List Char)} (other : ∀ line ∈ front, line.head? ≠ some 't')
    (behind : List (List Char)) : outlinesIn (front ++ behind) = outlinesIn behind := by
  induction front with
  | nil => rfl
  | cons line front ih =>
      obtain ⟨first, others⟩ := List.forall_mem_cons.mp other
      rw [List.cons_append, outlinesIn, after?_type_eq_none first]
      exact ih others

namespace Declares

variable {text other : String} {types further : List Outline}

/-- What a file declares if it declares something as a text. -/
theorem outlines_eq (declares : Declares text types) : outlines text = types := by
  obtain ⟨ls, letters, plain, read⟩ := declares
  have divided : sourceLines text = ls ++ [[]] := by
    rw [sourceLines, letters, ← List.append_nil (ended ls), splitOnP_ended plain,
      List.splitOnP_nil]
  rw [outlines, divided, read]
  exact List.append_nil types

/-- Lines that all start with another letter declare nothing. -/
theorem nothing (ls : List (List Char)) (letters : text.toList = ended ls)
    (plain : ∀ line ∈ ls, '\n' ∉ line) (start : ∀ line ∈ ls, line.head? ≠ some 't') :
    Declares text [] :=
  ⟨ls, letters, plain, outlinesIn_append start⟩

theorem append (first : Declares text types) (second : Declares other further) :
    Declares (text ++ other) (types ++ further) := by
  obtain ⟨ls, letters, plain, read⟩ := first
  obtain ⟨more, moreLetters, morePlain, moreRead⟩ := second
  refine ⟨ls ++ more, ?_, List.forall_mem_append.mpr ⟨plain, morePlain⟩, fun behind => ?_⟩
  · rw [String.toList_append, letters, moreLetters, ended, ended, ended, List.flatMap_append]
  · rw [List.append_assoc, read, moreRead, List.append_assoc]

theorem empty : Declares "" [] :=
  nothing [] rfl nofun nofun

theorem lineFeed : Declares "\n" [] :=
  nothing [[]] rfl (by simp) (by simp)

theorem comment (doc : Option String) : Declares (comment doc) [] := by
  refine nothing _ (toList_comment doc) (fun _ => lineFeed_notMem_of_mem_commentLines) ?_
  intro line listed
  obtain ⟨rest, rfl⟩ := isComment_of_mem_commentLines listed
  simp

end Declares

/-! ## Definitions -/

/-- The line that starts the declaration of a type. -/
def openingLine (name definition : String) : List Char :=
  ("type " ++ name ++ " " ++ definition).toList

theorem outlinesIn_openingLine {name : String} (legible : Legible name) (definition : String)
    (behind : List (List Char)) :
    outlinesIn (openingLine name definition :: behind) =
      ⟨name, partsIn definition.toList behind⟩ :: outlinesIn behind := by
  have letters : openingLine name definition =
      "type ".toList ++ (name.toList ++ ' ' :: definition.toList) := by
    simp [openingLine]
  have words : after? "type " (openingLine name definition) =
      some (name.toList ++ ' ' :: definition.toList) := by
    rw [letters, after?, if_pos (List.isPrefixOf_iff_prefix.mpr (List.prefix_append ..)),
      List.drop_left]
  have blank : ∀ c ∈ (' ' :: definition.toList).head?, (c != ' ') = false := by simp
  obtain ⟨front, rest⟩ := run_append (bne_of_notMem (legible.notMem rfl)) blank
  rw [outlinesIn, words]
  dsimp only
  rw [front, rest, String.ofList_toList]
  rfl

/-- A type that is defined as another one. -/
theorem declares_plain {name type : String} (legibleName : Legible name)
    (legible : Legible type) :
    Declares ("type " ++ name ++ " " ++ (type ++ "\n")) [⟨name, [.read type.toList]⟩] := by
  refine ⟨[openingLine name type], ?_, ?_, fun behind => ?_⟩
  · simp [openingLine, ended]
  · rw [List.forall_mem_singleton]
    have first := legibleName.notMem (c := '\n') rfl
    have second := legible.notMem (c := '\n') rfl
    simp [openingLine, first, second]
  · have other {definition : String} (brace : '\x7b' ∈ definition.toList) :
        type.toList ≠ definition.toList := fun same => legible.notMem rfl (same ▸ brace)
    rw [List.singleton_append, outlinesIn_openingLine legibleName, partsIn,
      if_neg (other (by decide)), if_neg (other (by decide))]
    rfl

/-! ## Structs -/

/-- The line of a field in columns of some widths. -/
def fieldLine (names types : Nat) (f : StructField) : List Char :=
  ("\t" ++ filled names f.name ++ " " ++ filled types f.type ++ " " ++ f.tag).toList

theorem toList_filled (n : Nat) (text : String) :
    ∃ k, (filled n text).toList = text.toList ++ List.replicate k ' ' :=
  ⟨n - text.length, by rw [filled, String.toList_append, String.toList_ofList]⟩

/-- Blanks end a column, and what stands behind them starts the next one. -/
theorem run_column {column : List Char} (solid : ' ' ∉ column) (k : Nat) {behind : List Char}
    (next : ∀ c ∈ behind.head?, c ≠ ' ') :
    (column ++ (List.replicate (k + 1) ' ' ++ behind)).takeWhile (· != ' ') = column ∧
      ((column ++ (List.replicate (k + 1) ' ' ++ behind)).dropWhile (· != ' ')).dropWhile
        (· == ' ') = behind := by
  have blank : ∀ c ∈ (List.replicate (k + 1) ' ' ++ behind).head?, (c != ' ') = false := by
    simp [List.replicate_succ]
  obtain ⟨front, rest⟩ := run_append (bne_of_notMem solid) blank
  have blanks : ∀ c ∈ List.replicate (k + 1) ' ', (c == ' ') = true := by simp
  have starts : ∀ c ∈ behind.head?, (c == ' ') = false := by simpa using next
  refine ⟨front, ?_⟩
  rw [rest]
  exact (run_append blanks starts).2

theorem outside_fieldType (shape : Shape) (required : Bool) : Outside (fieldType shape required) := by
  rcases reference_cases shape with ⟨name, rfl⟩ | other
  · exact .pointer name
  · have outside := outside_typeOf other
    cases required with
    | true => rwa [fieldType_true other]
    | false =>
        rw [fieldType_false other]
        split
        · exact outside
        · exact .pointer _

theorem Outside.ne_empty {type : String} (outside : Outside type) : type ≠ "" := by
  have scalar : ∀ type ∈ scalarTypes, type ≠ "" := by decide
  cases outside with
  | scalar listed => exact scalar type listed
  | pointer target => simp
  | slice items => simp
  | map values => simp

theorem lineFeed_notMem_quote (text : String) : '\n' ∉ (quote text).toList := fun inside =>
  absurd (isControl_of_mem_quote text _ inside) (by decide)

/-- A tag has no line feed, and it does not start with a blank. -/
theorem fieldTag_spec (name : String) (required : Bool) :
    '\n' ∉ (fieldTag name required).toList ∧
      (fieldTag name required).toList.head? ≠ some ' ' := by
  let tag := "json:" ++ quote (tagValue name required)
  show '\n' ∉ (if tag.toList.contains '\x60' then quote tag else "\x60" ++ tag ++ "\x60").toList ∧
    (if tag.toList.contains '\x60' then quote tag else "\x60" ++ tag ++ "\x60").toList.head? ≠
      some ' '
  split
  · refine ⟨lineFeed_notMem_quote tag, ?_⟩
    rw [toList_quote]
    simp
  · have letters : ("\x60" ++ tag ++ "\x60").toList =
        '\x60' :: ("json:".toList ++ (quote (tagValue name required)).toList ++ ['\x60']) := by
      simp [tag]
    rw [letters]
    simp [lineFeed_notMem_quote]

/-- **A field fits into columns**: its name and its type have no blanks, and its tag stays in the
line. -/
structure StructField.Fits (f : StructField) : Prop where
  /-- The name is legible. -/
  name : Legible f.name
  /-- The type is legible. -/
  type : Legible f.type
  /-- The type is not the name of a model. -/
  outside : Outside f.type
  /-- The tag stays in its line. -/
  tag : '\n' ∉ f.tag.toList
  /-- The tag does not start with a blank. -/
  start : f.tag.toList.head? ≠ some ' '

variable {properties : OrderedMap Shape}

/-- A field of a struct has the type and the tag for its property. -/
theorem exists_of_mem_fields {required : List String} {f : StructField}
    (listed : f ∈ fields properties required) :
    ∃ p ∈ properties, f.type = fieldType p.2 (required.contains p.1) ∧
      f.tag = fieldTag p.1 (required.contains p.1) := by
  obtain ⟨⟨name, property, shape⟩, pair, rfl⟩ := List.mem_map.mp listed
  -- closed by reduction alone: comparing the tags themselves would compute with literals
  exact ⟨(property, shape), (List.of_mem_zip pair).2, by dsimp only, by dsimp only⟩

/-- The fields of a struct fit into columns. -/
theorem fits_of_mem_fields (names : ∀ p ∈ properties, ∀ name ∈ p.2.references, Legible name)
    {required : List String} {f : StructField} (listed : f ∈ fields properties required) :
    f.Fits := by
  have exported := isExported_of_mem_fields listed
  obtain ⟨p, member, type, tag⟩ := exists_of_mem_fields listed
  have spec := fieldTag_spec p.1 (required.contains p.1)
  rw [← tag] at spec
  exact { name := .of_alphanumeric exported.isAsciiAlphanumeric
          type := type ▸ .fieldType (names p member) _
          outside := type ▸ outside_fieldType ..
          tag := spec.1
          start := spec.2 }

section Columns

variable {f : StructField} {names types : Nat}

theorem head?_fieldLine : (fieldLine names types f).head? = some '\t' := by
  simp [fieldLine]

theorem StructField.Fits.lineFeed_notMem (fits : f.Fits) : '\n' ∉ fieldLine names types f := by
  obtain ⟨i, first⟩ := toList_filled names f.name
  obtain ⟨j, second⟩ := toList_filled types f.type
  have inName := fits.name.notMem (c := '\n') rfl
  have inType := fits.type.notMem (c := '\n') rfl
  simp [fieldLine, first, second, inName, inType, fits.tag]

/-- **The second column of a line is the type of the field.** -/
theorem StructField.Fits.fieldIn_fieldLine (fits : f.Fits) :
    fieldIn (fieldLine names types f) = .read f.type.toList := by
  obtain ⟨i, first⟩ := toList_filled names f.name
  obtain ⟨j, second⟩ := toList_filled types f.type
  have letters : fieldLine names types f = ('\t' :: f.name.toList) ++ (List.replicate (i + 1) ' ' ++
      (f.type.toList ++ (List.replicate (j + 1) ' ' ++ f.tag.toList))) := by
    simp [fieldLine, first, second, List.replicate_succ']
  have solid : ' ' ∉ '\t' :: f.name.toList := by
    simpa using fits.name.notMem (c := ' ') rfl
  have next : ∀ c ∈ (f.type.toList ++ (List.replicate (j + 1) ' ' ++ f.tag.toList)).head?,
      c ≠ ' ' := by
    have nonempty : f.type.toList ≠ [] := by simpa using fits.outside.ne_empty
    obtain ⟨c, cs, start⟩ := List.exists_cons_of_ne_nil nonempty
    rw [start]
    rintro c here rfl
    cases Option.some.inj here
    exact absurd (fits.type ' ' (start ▸ List.mem_cons_self ..)) (by decide)
  have close : ∀ c ∈ f.tag.toList.head?, c ≠ ' ' := by
    rintro c here rfl
    exact fits.start here
  rw [fieldIn, letters, (run_column solid i next).2, (run_column (fits.type.notMem rfl) j close).1]

/-- The lines of fields are read up to the brace. -/
theorem partsIn_struct {fs : List StructField} (fit : ∀ f ∈ fs, f.Fits)
    (behind : List (List Char)) :
    partsIn "struct \x7b".toList (fs.map (fieldLine names types) ++ "\x7d".toList :: behind) =
      fs.map fun f => .read f.type.toList := by
  have inside : ∀ line ∈ fs.map (fieldLine names types), (line != "\x7d".toList) = true := by
    refine List.forall_mem_map.mpr fun f _ => ?_
    rw [bne_iff_ne]
    intro same
    have heads := congrArg List.head? same
    rw [head?_fieldLine] at heads
    cases heads
  have closed : ∀ line ∈ ("\x7d".toList :: behind).head?, (line != "\x7d".toList) = false := by
    simp
  rw [partsIn, if_pos rfl, List.takeWhile_append_of_pos inside, List.takeWhile_cons_of_neg (by simp),
    List.append_nil, List.map_map]
  refine List.map_congr_left fun f listed => ?_
  rw [Function.comp_apply, (fit f listed).fieldIn_fieldLine]

end Columns

/-- **A struct declares a type with the types of its fields.** -/
theorem declares_struct {name : String} (legible : Legible name)
    (names : ∀ p ∈ properties, ∀ name ∈ p.2.references, Legible name) (required : List String) :
    Declares ("type " ++ name ++ " " ++ structBody properties required)
      [⟨name, (fields properties required).map fun f => .read f.type.toList⟩] := by
  have plain := legible.notMem (c := '\n') rfl
  by_cases empty : properties = []
  · subst empty
    refine ⟨[openingLine name "struct\x7b\x7d"], ?_, ?_, fun behind => ?_⟩
    · simp [openingLine, ended, structBody]
    · simp [openingLine, plain]
    · rw [List.singleton_append, outlinesIn_openingLine legible]
      rfl
  · let fs := fields properties required
    let line := fieldLine (width (fs.map (·.name))) (width (fs.map (·.type)))
    have fit : ∀ f ∈ fs, f.Fits := fun f => fits_of_mem_fields names
    refine ⟨openingLine name "struct \x7b" :: (fs.map line ++ ["\x7d".toList]), ?text, ?plain,
      fun behind => ?read⟩
    case text =>
      have filled : properties.isEmpty = false := List.isEmpty_eq_false_iff.mpr empty
      have body : structBody properties required =
          "struct \x7b\n" ++ String.join (fs.map fun f => String.ofList (line f) ++ "\n") ++
            "\x7d\n" := by
        simp only [structBody, filled, line, fieldLine, String.ofList_toList]
        rfl
      simp [body, openingLine, ended, String.toList_join, List.flatMap_map, List.flatMap_append]
    case plain =>
      refine List.forall_mem_cons.mpr ⟨by simp [openingLine, plain],
        List.forall_mem_append.mpr ⟨List.forall_mem_map.mpr fun f listed => ?_, by decide⟩⟩
      exact (fit f listed).lineFeed_notMem
    case read =>
      have other : ∀ l ∈ fs.map line ++ ["\x7d".toList], l.head? ≠ some 't' := by
        refine List.forall_mem_append.mpr ⟨List.forall_mem_map.mpr fun f _ => ?_, by decide⟩
        rw [head?_fieldLine]
        decide
      rw [List.cons_append, outlinesIn_openingLine legible, outlinesIn_append other,
        List.append_assoc, List.singleton_append]
      exact congrArg (⟨name, ·⟩ :: outlinesIn behind) (partsIn_struct fit behind)

/-! ## The file of models -/

/-- The types that stand in the definition of a shape. -/
def parts : Shape → List TypeExpr
  | .object properties required extra =>
    if isStruct properties extra then
      (fields properties required).map fun f => .read f.type.toList
    else [.read (typeOf (.object properties required extra)).toList]
  | shape => [.read (typeOf shape).toList]

/-- **The type that a model becomes.** -/
def outline (m : Model) : Outline :=
  ⟨m.name, parts m.shape⟩

theorem declares_definition {name : String} {shape : Shape} (legible : Legible name)
    (names : ∀ name ∈ shape.references, Legible name) :
    Declares ("type " ++ name ++ " " ++ definitionBody shape) [⟨name, parts shape⟩] := by
  have plain := declares_plain legible (Legible.typeOf names)
  cases shape with
  | object properties required extra =>
      simp only [definitionBody, parts]
      split
      · refine declares_struct legible (fun p member name mentioned => names name ?_) required
        have child : p.2 ∈ (Shape.object properties required extra).children :=
          List.mem_append_left _ (List.mem_map_of_mem member)
        exact Shape.mem_references_of_mem_children child mentioned
      · exact plain
  | primitive type => exact plain
  | literal value => exact plain
  | enumeration values => exact plain
  | array items => exact plain
  | union variants => exact plain
  | intersection parts => exact plain
  | ref other => exact plain
  | nullable inner => exact plain
  | binary => exact plain
  | unknown => exact plain

/-- Constants declare no types. -/
theorem declares_constantsBlock {name : String} (legible : Legible name)
    {constants : List (String × String)} (names : ∀ c ∈ constants, Legible c.1) :
    Declares (constantsBlock name constants) [] := by
  by_cases empty : constants = []
  · subst empty
    exact .empty
  · let line (c : String × String) : String :=
      "\t" ++ filled (width (constants.map (·.1))) c.1 ++ " " ++ name ++ " = " ++ quote c.2
    refine .nothing ([] :: "const (".toList ::
      (constants.map (fun c => (line c).toList) ++ [")".toList])) ?text ?plain ?start
    case text =>
      have filled : constants.isEmpty = false := List.isEmpty_eq_false_iff.mpr empty
      have block : constantsBlock name constants =
          "\nconst (\n" ++ String.join (constants.map fun c => line c ++ "\n") ++ ")\n" := by
        simp only [constantsBlock, filled, line]
        rfl
      simp [block, ended, String.toList_join, List.flatMap_map, List.flatMap_append]
    case plain =>
      have inName := legible.notMem (c := '\n') rfl
      have inLine : ∀ c ∈ constants, '\n' ∉ (line c).toList := by
        intro c listed
        obtain ⟨k, first⟩ := toList_filled (width (constants.map (·.1))) c.1
        have own := (names c listed).notMem (c := '\n') rfl
        simp [line, first, own, inName, lineFeed_notMem_quote]
      refine List.forall_mem_cons.mpr ⟨List.not_mem_nil, List.forall_mem_cons.mpr ⟨by decide, ?_⟩⟩
      exact List.forall_mem_append.mpr ⟨List.forall_mem_map.mpr inLine, by decide⟩
    case start =>
      refine List.forall_mem_cons.mpr ⟨by decide, List.forall_mem_cons.mpr ⟨by decide, ?_⟩⟩
      exact List.forall_mem_append.mpr ⟨List.forall_mem_map.mpr fun c _ => by simp [line], by decide⟩

/-- The constants of a model have legible names. -/
theorem legible_of_mem_constants {name : String}
    (isName : Naming.IsName isAsciiCapital name.toList) (values taken : List String) :
    ∀ c ∈ (constants name values taken).1, Legible c.1 := by
  intro c listed
  have candidates : ∀ candidate ∈ values.map fun value => name ++ exportedName value,
      Naming.IsName isAsciiCapital candidate.toList := by
    refine List.forall_mem_map.mpr fun value _ => ?_
    rw [String.toList_append]
    exact isName.append (isExported_exportedName value).isAsciiAlphanumeric
  exact .of_isName (Naming.isName_of_mem_uniqueAll candidates (List.of_mem_zip listed).1)

/-- **A model is canonical**: its name and the names that it refers to have the grammar of names. -/
structure Canonical (m : Model) : Prop where
  /-- The name of the model. -/
  name : Naming.IsName isAsciiCapital m.name.toList
  /-- The names of the models that it refers to. -/
  references : ∀ name ∈ m.shape.references, Naming.IsName isAsciiCapital name.toList

theorem declares_modelTexts {models : List Model} (canonical : ∀ m ∈ models, Canonical m)
    (taken : List String) :
    Declares (String.join (modelTexts taken models)) (models.map outline) := by
  induction models generalizing taken with
  | nil => exact .empty
  | cons m models ih =>
      obtain ⟨first, others⟩ := List.forall_mem_cons.mp canonical
      have definition := declares_definition (.of_isName first.name)
        fun name mentioned => .of_isName (first.references name mentioned)
      have block := declares_constantsBlock (.of_isName first.name)
        (legible_of_mem_constants first.name (constantValues m.shape) taken)
      have text := Declares.lineFeed.append
        ((Declares.comment m.doc).append (definition.append block))
      have rest := ih others (constants m.name (constantValues m.shape) taken).2
      have all := text.append rest
      simp only [modelTexts, declarations_eq, String.join_cons, String.append_assoc] at all ⊢
      exact all

/-- **The file of models declares one type for each model**, as its shape says. -/
theorem outlines_modelsFile {models : List Model} (canonical : ∀ m ∈ models, Canonical m)
    (taken : List String) : outlines (modelsFile models taken) = models.map outline := by
  have heading : Declares (header ++ "package gen\n") [] :=
    .nothing ["// Code generated by oapigen. DO NOT EDIT.".toList, [], "package gen".toList]
      (by decide) (by decide) (by decide)
  exact (heading.append (declares_modelTexts canonical taken)).outlines_eq

end ClientGen.Go
