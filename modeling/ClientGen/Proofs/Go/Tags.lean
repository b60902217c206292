import ClientGen.Go.Models
import ClientGen.Proofs.Go.Quoting
import ClientGen.Proofs.Json.Numerals
import ClientGen.Proofs.Naming.Grammar
import ClientGen.Proofs.Naming.Unique

/-!
# What the tags of Go structs say

A tag is a text inside a text: a literal whose text has a key and, in quotes of its own, a value.
The value is taken apart once more. Its first comma ends the name of the member, options follow, and
a lone dash leaves the field out. The quotes are undone exactly; what is written into the value is
not made ready for its own rules.

* `tagText?`, `jsonValue?`, `wire?` — a tag, read in these steps.
* `Keeps` — a field is called on the wire as the property is, and is left out if it may be absent.
* `jsonValue?_fieldTag` — the value of a tag is the name with its option, whatever the name is.
* `struct_keeps_iff` — the fields of a struct, and which of them keep the name of their property.
-/

namespace ClientGen.Go

open Text

/-! ## Reading tags -/

/-- **The text of the literal** that a tag is written as: between back quotes every character but
the carriage return stands for itself, between double quotes there are escapes. -/
def tagText? : List Char → Option String
  | [] => none
  | c :: cs =>
    if c = '\x60' then
      if cs.dropWhile (· != '\x60') = ['\x60'] then
        some (String.ofList ((cs.takeWhile (· != '\x60')).filter (· != '\r')))
      else none
    else
      match quoting.literal? (c :: cs) with
      | some (text, []) => some text
      | _ => none

/-- **The value of the key `json`**, which stands first in a tag. -/
def jsonValue? (tag : String) : Option String := do
  let value ← tag.toList.dropPrefix? "json:".toList
  let (text, _) ← quoting.literal? value
  return text

/-- What becomes of a field on the wire. -/
inductive Wire where
  /-- It is left out. -/
  | skipped
  /-- It is a member with a name, with options. -/
  | member (name : String) (options : List String)
  deriving DecidableEq

/-- **What a value says about a field.** A lone dash leaves the field out. Otherwise the part before
the first comma is the name, unless it is empty, and options follow, with commas between them. -/
def wireOf (field value : String) : Wire :=
  if value = "-" then .skipped
  else
    let name := value.toList.takeWhile (· != ',')
    let options := (value.toList.dropWhile (· != ',')).drop 1
    .member (if name.isEmpty then field else String.ofList name)
      ((options.splitOnP (· == ',')).map String.ofList)

/-- **What becomes of a field on the wire**, by its tag. -/
def StructField.wire? (f : StructField) : Option Wire := do
  let tag ← tagText? f.tag.toList
  let value ← jsonValue? tag
  return wireOf f.name value

/-- **A field keeps the name of a property** on the wire, and has the option to be left out iff the
property may be absent. -/
def StructField.Keeps (f : StructField) (property : String) (required : Bool) : Prop :=
  ∃ options, f.wire? = some (.member property options) ∧
    ("omitempty" ∈ options ↔ required = false)

/-! ## The value of a tag -/

/-- No literal holds a carriage return as it is. -/
theorem carriageReturn_notMem_quote (text : String) : '\r' ∉ (quote text).toList := fun inside =>
  absurd (isControl_of_mem_quote text _ inside) (by decide)

/-- A text between double quotes is read as the text. -/
theorem tagText?_quote (text : String) : tagText? (quote text).toList = some text := by
  have read := literal?_toList_quote text
  have starts : ∃ cs, (quote text).toList = '"' :: cs := ⟨_, by simp [quote]; rfl⟩
  obtain ⟨cs, written⟩ := starts
  rw [written] at read ⊢
  rw [tagText?, if_neg (by decide), read]

theorem bne_of_notMem {x : Char} {cs : List Char} (absent : x ∉ cs) :
    ∀ c ∈ cs, (c != x) = true := by
  intro c member
  rw [bne_iff_ne]
  rintro rfl
  exact absent member

/-- A text without back quotes and carriage returns is read as the text between back quotes. -/
theorem tagText?_raw {text : String} (backQuote : '\x60' ∉ text.toList)
    (carriageReturn : '\r' ∉ text.toList) :
    tagText? ("\x60" ++ text ++ "\x60").toList = some text := by
  have written : ("\x60" ++ text ++ "\x60").toList = '\x60' :: (text.toList ++ ['\x60']) := by
    simp
  have closed : ∀ c ∈ ['\x60'].head?, (c != '\x60') = false := by simp
  obtain ⟨inside, behind⟩ := run_append (bne_of_notMem backQuote) closed
  rw [written, tagText?, if_pos rfl, if_pos behind, inside,
    List.filter_eq_self.mpr (bne_of_notMem carriageReturn), String.ofList_toList]

/-- The name of a property with the option that goes with it. -/
def tagValue (name : String) (required : Bool) : String :=
  name ++ if required then "" else ",omitempty"

theorem jsonValue?_json (value : String) : jsonValue? ("json:" ++ quote value) = some value := by
  have behind : ("json:" ++ quote value).toList.dropPrefix? "json:".toList =
      some (quote value).toList := by
    rw [String.toList_append, List.dropPrefix?_eq_some_iff]
    exact ⟨_, rfl, beq_self_eq_true _⟩
  rw [jsonValue?, behind, Option.bind_eq_bind, Option.bind_some, literal?_toList_quote]
  rfl

/-- **The value of a tag is the name with its option**, whatever the name is. -/
theorem jsonValue?_fieldTag (name : String) (required : Bool) :
    (tagText? (fieldTag name required).toList).bind jsonValue? = some (tagValue name required) := by
  let tag := "json:" ++ quote (tagValue name required)
  have read : tagText? (fieldTag name required).toList = some tag := by
    show tagText? (if tag.toList.contains '\x60' then quote tag
      else "\x60" ++ tag ++ "\x60").toList = some tag
    split
    · exact tagText?_quote tag
    · rename_i backQuote
      refine tagText?_raw (by simpa using backQuote) ?_
      simp only [tag, String.toList_append, List.mem_append, not_or]
      exact ⟨by decide, carriageReturn_notMem_quote _⟩
  rw [read, Option.bind_some]
  exact jsonValue?_json (tagValue name required)

/-! ## Which fields keep the name -/

/-- A member of a value with a name and options is called by the name. -/
theorem wireOf_tagValue {field name : String} {required : Bool} (filled : name ≠ "")
    (comma : ',' ∉ name.toList) (dash : ¬ (name = "-" ∧ required)) :
    wireOf field (tagValue name required) =
      .member name [if required then "" else "omitempty"] := by
  have plain := bne_of_notMem comma
  have nonempty : name.toList.isEmpty = false := by
    simpa [List.isEmpty_eq_false_iff] using filled
  cases required with
  | true =>
      have value : tagValue name true = name := String.append_empty
      have lone : ¬ name = "-" := fun same => dash ⟨same, rfl⟩
      have ended : ∀ c ∈ ([] : List Char).head?, (c != ',') = false := nofun
      obtain ⟨inside, behind⟩ := run_append plain ended
      rw [List.append_nil] at inside behind
      rw [value, wireOf, if_neg lone]
      simp [inside, behind, nonempty]
  | false =>
      have value : (tagValue name false).toList = name.toList ++ ",omitempty".toList :=
        String.toList_append
      have lone : ¬ tagValue name false = "-" := by
        intro same
        have written : name.toList ++ ",omitempty".toList = "-".toList := by rw [← value, same]
        have lengths := congrArg List.length written
        simp at lengths
      have ended : ∀ c ∈ ",omitempty".toList.head?, (c != ',') = false := by simp
      obtain ⟨inside, behind⟩ := run_append plain ended
      rw [wireOf, if_neg lone, value]
      simp only [inside, behind, nonempty]
      simp [List.splitOnP_cons_eq_if_modifyHead]

/-- The name of a member has no comma, unless the field itself has one, and it is not empty. -/
theorem name_of_wireOf {field value name : String} {options : List String}
    (identifier : field ≠ "" ∧ ',' ∉ field.toList)
    (read : wireOf field value = .member name options) :
    name ≠ "" ∧ ',' ∉ name.toList := by
  unfold wireOf at read
  split at read
  · cases read
  · cases read
    split
    · exact identifier
    · rename_i nonempty
      refine ⟨by simpa using nonempty, fun member => ?_⟩
      rw [String.toList_ofList] at member
      simpa using List.mem_takeWhile_imp member

/-- **A field keeps the name of its property** iff the value of a tag can say the name: it is
neither empty nor has a comma, and is no dash that would stand alone. -/
theorem keeps_iff {f : StructField} {property : String} {required : Bool}
    (identifier : f.name ≠ "" ∧ ',' ∉ f.name.toList) (tag : f.tag = fieldTag property required) :
    f.Keeps property required ↔
      property ≠ "" ∧ ',' ∉ property.toList ∧ ¬ (property = "-" ∧ required) := by
  have wire : f.wire? = some (wireOf f.name (tagValue property required)) := by
    have value := jsonValue?_fieldTag property required
    rw [← tag] at value
    obtain ⟨text, literal, inside⟩ := Option.bind_eq_some_iff.mp value
    rw [StructField.wire?, literal, Option.bind_eq_bind, Option.bind_some, inside]
    rfl
  rw [StructField.Keeps, wire]
  constructor
  · rintro ⟨options, read, -⟩
    have read := Option.some.inj read
    obtain ⟨filled, comma⟩ := name_of_wireOf identifier read
    refine ⟨filled, comma, ?_⟩
    rintro ⟨rfl, rfl⟩
    have lone : tagValue "-" true = "-" := rfl
    rw [lone] at read
    cases read
  · rintro ⟨filled, comma, dash⟩
    refine ⟨_, congrArg some (wireOf_tagValue filled comma dash), ?_⟩
    cases required <;> decide

/-! ## Fields of structs -/

/-- **An exported identifier**: a capital letter, followed by letters and digits. -/
def IsExported (name : List Char) : Prop :=
  ∃ c cs, name = c :: cs ∧ isAsciiCapital c ∧ ∀ x ∈ cs, isAsciiAlphanumeric x

theorem IsExported.isAsciiAlphanumeric {name : List Char} (exported : IsExported name) :
    ∀ c ∈ name, Text.isAsciiAlphanumeric c := by
  obtain ⟨c, cs, rfl, capital, parts⟩ := exported
  exact List.forall_mem_cons.mpr ⟨isAsciiAlphanumeric_of_isAsciiCapital capital, parts⟩

theorem isExported_exportedName (name : String) : IsExported (exportedName name).toList := by
  unfold exportedName
  rw [Naming.joined_eq_lettersFrom]
  split
  · exact ⟨'V', ['a', 'l', 'u', 'e'], by simp, rfl, List.all_eq_true.mp rfl⟩
  · rename_i c cs letters
    have parts : ∀ x ∈ c :: cs, isAsciiAlphanumeric x := fun x member =>
      Naming.isAsciiAlphanumeric_of_mem_lettersFrom (letters ▸ member)
    rw [String.toList_ofList]
    split
    · exact ⟨'X', c :: cs, rfl, rfl, parts⟩
    · rename_i letter
      have first := Naming.isAsciiCapital_or_isAsciiDigit_of_lettersFrom letters
      exact ⟨c, cs, rfl, first.resolve_right letter, (List.forall_mem_cons.mp parts).2⟩

theorem isExported_numbered {name : String} (exported : IsExported name.toList) (k : Nat) :
    IsExported (Naming.numbered name k).toList := by
  obtain ⟨c, cs, letters, capital, parts⟩ := exported
  refine ⟨c, cs ++ Nat.toDigits 10 k, ?_, capital, fun x member => ?_⟩
  · rw [Naming.toList_numbered, letters, List.cons_append]
  · rcases List.mem_append.mp member with own | digit
    · exact parts x own
    · exact isAsciiAlphanumeric_of_isAsciiDigit (Json.Numeral.isAsciiDigit_of_mem_toDigits digit)

theorem IsExported.identifier {name : String} (exported : IsExported name.toList) :
    name ≠ "" ∧ ',' ∉ name.toList := by
  obtain ⟨c, cs, letters, capital, parts⟩ := exported
  constructor
  · rintro rfl
    cases letters
  · rw [letters, List.mem_cons, not_or]
    constructor
    · rintro rfl
      exact absurd capital (by decide)
    · intro member
      exact absurd (parts _ member) (by decide)

/-- The text of a struct with some fields, in columns. -/
def textOfFields (name : String) (fs : List StructField) : String :=
  let names := width (fs.map (·.name))
  let types := width (fs.map (·.type))
  "type " ++ name ++ " struct \x7b\n" ++
    String.join (fs.map fun f =>
      "\t" ++ filled names f.name ++ " " ++ filled types f.type ++ " " ++ f.tag ++ "\n") ++ "\x7d\n"

variable {properties : OrderedMap Shape} {required : List String}

theorem names_fields (properties : OrderedMap Shape) (required : List String) :
    (fields properties required).map (·.name) =
      (Naming.uniqueAll [] (properties.map fun p => exportedName p.1)).1 := by
  rw [fields, List.map_map]
  exact List.map_fst_zip (by simp)

/-- **There is one field for each property**, in their order. -/
theorem forall₂_fields (properties : OrderedMap Shape) (required : List String) :
    List.Forall₂ (fun f p => f.type = fieldType p.2 (required.contains p.1) ∧
      f.tag = fieldTag p.1 (required.contains p.1)) (fields properties required) properties := by
  let names := (Naming.uniqueAll [] (properties.map fun p => exportedName p.1)).1
  have listed : (names.zip properties).map (·.2) = properties :=
    List.map_snd_zip (by simp [names])
  have each : List.Forall₂ (fun f p => f.type = fieldType p.2 (required.contains p.1) ∧
      f.tag = fieldTag p.1 (required.contains p.1)) (fields properties required)
        ((names.zip properties).map (·.2)) := by
    rw [fields, List.forall₂_map_left_iff, List.forall₂_map_right_iff, List.forall₂_same]
    rintro ⟨name, property, shape⟩ -
    simp only [and_self]
  rwa [listed] at each

theorem isExported_of_mem_fields {f : StructField} (listed : f ∈ fields properties required) :
    IsExported f.name.toList := by
  have named : f.name ∈ (fields properties required).map (·.name) := List.mem_map_of_mem listed
  rw [names_fields] at named
  obtain ⟨candidate, chosen, given⟩ := Naming.eq_or_eq_numbered_of_mem_uniqueAll named
  obtain ⟨p, -, rfl⟩ := List.mem_map.mp chosen
  rcases given with same | ⟨k, same⟩
  · exact same ▸ isExported_exportedName p.1
  · exact same ▸ isExported_numbered (isExported_exportedName p.1) k

/-- An object with properties is declared as a struct with their fields. -/
theorem declarations_struct (nonempty : properties ≠ []) (name : String) (extra : Extra Shape)
    (taken : List String) :
    (declarations name (.object properties required extra) taken).1 =
      textOfFields name (fields properties required) := by
  have filled : properties.isEmpty = false := List.isEmpty_eq_false_iff.mpr nonempty
  have struct : isStruct properties extra = true := by rw [isStruct, filled]; rfl
  show (if isStruct properties extra then structText name properties required else _) = _
  rw [if_pos struct, structText, filled]
  rfl

/-- **Structs and the names on the wire.** An object with properties is declared as a struct with
one field for each property, in their order; the fields have different names, which are exported
identifiers; and a field keeps the name of its property iff this name is neither empty nor has a
comma, and is not a dash that has to be there. -/
theorem struct_keeps_iff (nonempty : properties ≠ []) (name : String) (extra : Extra Shape)
    (taken : List String) :
    (declarations name (.object properties required extra) taken).1 =
        textOfFields name (fields properties required) ∧
      ((fields properties required).map (·.name)).Nodup ∧
      (∀ f ∈ fields properties required, IsExported f.name.toList) ∧
      List.Forall₂ (fun f p => f.type = fieldType p.2 (required.contains p.1) ∧
        (f.Keeps p.1 (required.contains p.1) ↔
          p.1 ≠ "" ∧ ',' ∉ p.1.toList ∧ ¬ (p.1 = "-" ∧ required.contains p.1)))
        (fields properties required) properties := by
  have exported : ∀ f ∈ fields properties required, IsExported f.name.toList :=
    fun f => isExported_of_mem_fields
  refine ⟨declarations_struct nonempty name extra taken, ?_, exported, ?_⟩
  · rw [names_fields]
    exact Naming.nodup_uniqueAll ..
  · refine ((List.forall₂_and_left _ _).mpr ⟨exported, forall₂_fields properties required⟩).imp ?_
    rintro f p ⟨exported, type, tag⟩
    exact ⟨type, keeps_iff exported.identifier tag⟩

/-- A struct with a member that is called like a dash and has to be there. -/
def dashed : OrderedMap Shape :=
  [("-", .primitive .string), ("id", .primitive .integer)]

theorem struct_keeps_dashed : dashed ≠ [] ∧
    (declarations "Range" (.object dashed ["-"] .unstated) []).1 =
        textOfFields "Range" (fields dashed ["-"]) ∧
      ((fields dashed ["-"]).map (·.name)).Nodup ∧
      (∀ f ∈ fields dashed ["-"], IsExported f.name.toList) ∧
      List.Forall₂ (fun f p => f.type = fieldType p.2 (["-"].contains p.1) ∧
        (f.Keeps p.1 (["-"].contains p.1) ↔
          p.1 ≠ "" ∧ ',' ∉ p.1.toList ∧ ¬ (p.1 = "-" ∧ ["-"].contains p.1)))
        (fields dashed ["-"]) dashed :=
  ⟨List.cons_ne_nil _ _, struct_keeps_iff (List.cons_ne_nil _ _) "Range" .unstated []⟩

/-- **A required dash is lost**: not every field of the struct keeps the name of its property. -/
theorem not_keeps_dashed :
    ¬ List.Forall₂ (fun f p => f.Keeps p.1 (["-"].contains p.1)) (fields dashed ["-"]) dashed := by
  intro keep
  obtain ⟨f, fs, keeps, -, listed⟩ := List.forall₂_cons_right_iff.mp keep
  have member : f ∈ fields dashed ["-"] := listed ▸ List.mem_cons_self ..
  have tags := forall₂_fields dashed ["-"]
  rw [listed] at tags
  have tag := (List.forall₂_cons.mp tags).1.2
  have kept := (keeps_iff (isExported_of_mem_fields member).identifier tag).mp keeps
  exact kept.2.2 ⟨rfl, by simp⟩

end ClientGen.Go
