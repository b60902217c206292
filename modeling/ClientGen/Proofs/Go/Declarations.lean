import ClientGen.Proofs.Api.Renaming
import ClientGen.Proofs.Naming.Unique
import ClientGen.Proofs.OrderedMap.Agreement
import ClientGen.Proofs.Sdk.Finished
import ClientGen.Sdk.Language

/-!
# The declarations of a Go package

A client is one package. Its request code declares names of its own, every model becomes a type, and
every model that lists strings becomes constants as well. The names of models are different from the
beginning; those of the request code are given up by models, and constants take what is free after
all that. Operations become methods of the client and share a scope only with its members.

* `declaredNames`, `declaredMembers` — what the request code declares, read off its lines.
* `Package`, `Package.files` — the types, constants and methods of a package, and its files.
* `files_eq` — the files of a client are those of its package.
* `Package.Unambiguous`, `unambiguous_package` — all names are different.
-/

namespace ClientGen.Go

/-! ## What the request code declares -/

/-- What stands behind a beginning of a line. -/
def after? (beginning : String) (line : List Char) : Option (List Char) :=
  if beginning.toList.isPrefixOf line then some (line.drop beginning.toList.length) else none

/-- The word at the beginning of a text. -/
def firstWord (cs : List Char) : List Char :=
  cs.takeWhile Text.isAsciiAlphanumeric

/-- The names that lines declare in the package. The word behind `func` is empty for a method. -/
def declaredIn (lines : List (List Char)) : List (List Char) :=
  (lines.filterMap fun line =>
    ((after? "type " line).or (after? "func " line)).map firstWord).filter (· != [])

/-- The fields that lines give to the client: the lines of the struct up to its brace. -/
def fieldsIn (lines : List (List Char)) : List (List Char) :=
  let struct := (lines.dropWhile fun line => (after? "type Client struct" line).isNone).tail
  (struct.takeWhile fun line => (after? "\x7d" line).isNone).map fun line => firstWord line.tail

/-- The methods that lines give to the client. -/
def methodsIn (lines : List (List Char)) : List (List Char) :=
  lines.filterMap fun line => (after? "func (c *Client) " line).map firstWord

/-- **The names that the request code declares in the package.** -/
def declaredNames : List String :=
  (declaredIn (clientLines.map String.toList)).map String.ofList

/-- **The members of the client** in the request code: fields and methods. -/
def declaredMembers : List String :=
  (fieldsIn (clientLines.map String.toList) ++ methodsIn (clientLines.map String.toList)).map
    String.ofList

theorem append_eq_ofList {a b : String} {cs ds : List Char} (first : a = String.ofList cs)
    (second : b = String.ofList ds) : a ++ b = String.ofList (cs ++ ds) := by
  rw [first, second, String.ofList_append]

theorem map_toList_eq {lines : List String} {letters : List (List Char)}
    (all : List.Forall₂ (fun line cs => line = String.ofList cs) lines letters) :
    lines.map String.toList = letters := by
  induction all with
  | nil => rfl
  | cons first _ ih => rw [List.map_cons, ih, first, String.toList_ofList]

/-- The request code declares what other names keep away from. -/
theorem clientLines_declare :
    declaredIn (clientLines.map String.toList) =
        ["Client", "NewClient", "APIError", "encodeBody", "formValues", "decodeBody"].map
          String.toList ∧
      fieldsIn (clientLines.map String.toList) ++ methodsIn (clientLines.map String.toList) =
        clientMembers.map String.toList := by
  -- the letters of each line are written out first: deciding about the texts themselves would take
  -- their bytes apart, which is slow
  have letters : ∃ letters, List.Forall₂ (fun line cs => line = String.ofList cs) clientLines
      letters ∧ declaredIn letters =
        ["Client", "NewClient", "APIError", "encodeBody", "formValues", "decodeBody"].map
          String.toList ∧
      fieldsIn letters ++ methodsIn letters = clientMembers.map String.toList := by
    apply Exists.intro
    constructor
    · dsimp only [clientLines]
      repeat' (first | apply List.Forall₂.cons | exact List.Forall₂.nil
                     | exact append_eq_ofList rfl rfl | rfl)
    · decide +kernel
  obtain ⟨letters, all, found⟩ := letters
  rwa [map_toList_eq all]

theorem declaredNames_perm : declaredNames.Perm clientNames := by
  rw [declaredNames, clientLines_declare.1, List.map_map]
  simp only [Function.comp_def, String.ofList_toList, List.map_id']
  decide

theorem declaredMembers_eq : declaredMembers = clientMembers := by
  rw [declaredMembers, clientLines_declare.2, List.map_map]
  simp [Function.comp_def]

/-! ## Packages -/

/-- A type, and the constants of it. -/
structure TypeDeclaration where
  /-- The description. -/
  doc : Option String
  /-- The name. -/
  name : String
  /-- The shape of the values. -/
  shape : Shape
  /-- The names of the constants, with the strings that they stand for. -/
  constants : List (String × String)

/-- **A package**, besides the request code. -/
structure Package where
  /-- The file that describes the package. -/
  doc : String
  /-- The types with their constants. -/
  types : List TypeDeclaration
  /-- The operations with the names of their methods. -/
  methods : List (Operation × String)

/-- What stands behind the name of a struct. -/
def structBody (properties : OrderedMap Shape) (required : List String) : String :=
  if properties.isEmpty then "struct\x7b\x7d\n"
  else
    let fs := fields properties required
    let names := width (fs.map (·.name))
    let types := width (fs.map (·.type))
    let line (f : StructField) : String :=
      "\t" ++ filled names f.name ++ " " ++ filled types f.type ++ " " ++ f.tag ++ "\n"
    "struct \x7b\n" ++ String.join (fs.map line) ++ "\x7d\n"

/-- What stands behind the name of a type. -/
def definitionBody : Shape → String
  | .object properties required extra =>
    if isStruct properties extra then structBody properties required
    else typeOf (.object properties required extra) ++ "\n"
  | shape => typeOf shape ++ "\n"

/-- The block of the constants of a type. -/
def constantsBlock (type : String) (constants : List (String × String)) : String :=
  let names := width (constants.map (·.1))
  let line (c : String × String) : String :=
    "\t" ++ filled names c.1 ++ " " ++ type ++ " = " ++ quote c.2 ++ "\n"
  if constants.isEmpty then "" else "\nconst (\n" ++ String.join (constants.map line) ++ ")\n"

/-- The text of a type and of its constants. -/
def TypeDeclaration.text (d : TypeDeclaration) : String :=
  "\n" ++ (comment d.doc ++
    ("type " ++ d.name ++ " " ++ definitionBody d.shape ++ constantsBlock d.name d.constants))

/-- **The files of a package.** -/
def Package.files (p : Package) : List SourceFile :=
  let operations := p.methods.map (·.1)
  let methods := p.methods.map fun (op, name) => "\n" ++ method op name
  [⟨"doc.go", p.doc⟩,
    ⟨"models.go", header ++ "package gen\n" ++ String.join (p.types.map TypeDeclaration.text)⟩,
    ⟨"client.go", header ++ clientFile⟩,
    ⟨"operations.go", header ++ "package gen\n" ++
      if p.methods.isEmpty then "" else imports operations ++ String.join methods⟩]

/-- The strings that a model has constants for. -/
def constantValues : Shape → List String
  | .enumeration values =>
    if !values.isEmpty && values.all Json.isString then strings values else []
  | _ => []

/-- The declarations of models, where some names are taken. -/
def typeDeclarations (taken : List String) : List Model → List TypeDeclaration
  | [] => []
  | m :: models =>
    let (constants, taken) := constants m.name (constantValues m.shape) taken
    ⟨m.doc, m.name, m.shape, constants⟩ :: typeDeclarations taken models

/-- The names of methods. -/
def methodNames (operations : List Operation) : List String :=
  (Naming.uniqueAll clientMembers (operations.map fun op => exportedName op.id)).1

/-- **The package of a client.** -/
def package (api : Api) : Package :=
  let api := api.rename (collisions api.models)
  { doc := packageFile api
    types := typeDeclarations (clientNames ++ api.models.map (·.name)) api.models
    methods := api.operations.zip (methodNames api.operations) }

/-! ## The text of a package -/

theorem structText_eq (name : String) (properties : OrderedMap Shape) (required : List String) :
    structText name properties required =
      "type " ++ name ++ " " ++ structBody properties required := by
  have empty : " struct\x7b\x7d\n" = " " ++ "struct\x7b\x7d\n" := by decide
  have opened : " struct \x7b\n" = " " ++ "struct \x7b\n" := by decide
  unfold structText structBody
  split
  · rw [empty, String.append_assoc, String.append_assoc, String.append_assoc]
  · simp only [opened, String.append_assoc]

theorem constantsText_eq (name : String) (constants : List (String × String)) :
    constantsText name constants =
      "type " ++ name ++ " " ++ "string\n" ++ constantsBlock name constants := by
  have type : " string\n" = " " ++ "string\n" := by decide
  simp only [constantsText, constantsBlock, type, String.append_assoc]

/-- **The declarations of a model** are a type and its constants. -/
theorem declarations_eq (name : String) (shape : Shape) (taken : List String) :
    declarations name shape taken =
      ("type " ++ name ++ " " ++ definitionBody shape ++
          constantsBlock name (constants name (constantValues shape) taken).1,
        (constants name (constantValues shape) taken).2) := by
  have plain (shape : Shape) :
      "type " ++ name ++ " " ++ typeOf shape ++ "\n" =
        "type " ++ name ++ " " ++ (typeOf shape ++ "\n") ++ constantsBlock name [] := by
    simp [constantsBlock, String.append_assoc]
  cases shape with
  | object properties required extra =>
      simp only [declarations, definitionBody]
      split
      · rw [structText_eq]
        exact congrArg (·, taken) (String.append_empty ..).symm
      · exact congrArg (·, taken) (plain _)
  | enumeration values =>
      simp only [declarations, constantValues]
      split
      · rename_i strings
        obtain ⟨nonempty, all⟩ := Bool.and_eq_true_iff.mp strings
        have type : enumerationType values = "string" := by
          simp_all [enumerationType]
        have body : definitionBody (.enumeration values) = "string\n" :=
          congrArg (· ++ "\n") type
        rw [constantsText_eq, body]
      · exact congrArg (·, taken) (plain _)
  | primitive type => exact congrArg (·, taken) (plain _)
  | literal value => exact congrArg (·, taken) (plain _)
  | array items => exact congrArg (·, taken) (plain _)
  | union variants => exact congrArg (·, taken) (plain _)
  | intersection parts => exact congrArg (·, taken) (plain _)
  | ref other => exact congrArg (·, taken) (plain _)
  | nullable inner => exact congrArg (·, taken) (plain _)
  | binary => exact congrArg (·, taken) (plain _)
  | unknown => exact congrArg (·, taken) (plain _)

theorem modelTexts_eq (taken : List String) (models : List Model) :
    modelTexts taken models = (typeDeclarations taken models).map TypeDeclaration.text := by
  induction models generalizing taken with
  | nil => rfl
  | cons m models ih =>
      simp only [modelTexts, typeDeclarations, declarations_eq, ih, List.map_cons]
      rw [String.append_assoc]
      rfl

theorem length_methodNames (operations : List Operation) :
    (methodNames operations).length = operations.length := by
  rw [methodNames, Naming.length_uniqueAll, List.length_map]

theorem map_fst_zip_methodNames (operations : List Operation) :
    (operations.zip (methodNames operations)).map Prod.fst = operations :=
  List.map_fst_zip (Nat.le_of_eq (length_methodNames operations).symm)

/-- **The files of a client are those of its package.** -/
theorem files_eq (api : Api) : files api = (package api).files := by
  have firsts := map_fst_zip_methodNames (api.rename (collisions api.models)).operations
  have empty : (package api).methods.isEmpty =
      (api.rename (collisions api.models)).operations.isEmpty := by
    conv_rhs => rw [← firsts, List.isEmpty_map]
    rfl
  have operations : (package api).methods.map (·.1) =
      (api.rename (collisions api.models)).operations := firsts
  simp only [files, Package.files, modelsFile, modelTexts_eq, operationsFile, empty, operations]
  rfl

/-! ## The names of types -/

/-- The names of models that the request code declares as well. -/
def colliding (models : List Model) : List String :=
  (models.map (·.name)).filter clientNames.contains

/-- The names that these models get instead. -/
def freeNames (models : List Model) : List String :=
  (Naming.uniqueAll (clientNames ++ models.map (·.name)) ((colliding models).map (· ++ "Model"))).1

theorem mem_colliding {models : List Model} {name : String} :
    name ∈ colliding models ↔ name ∈ models.map (·.name) ∧ name ∈ clientNames := by
  rw [colliding, List.mem_filter, List.contains_iff_mem]

variable {models : List Model}

theorem length_freeNames (models : List Model) :
    (freeNames models).length = (colliding models).length := by
  rw [freeNames, Naming.length_uniqueAll, List.length_map]

/-- New names are given to the models that collide, one each. -/
theorem collisions_eq (distinct : (models.map (·.name)).Nodup) :
    collisions models = (colliding models).zip (freeNames models) ∧
      OrderedMap.keys (collisions models) = colliding models := by
  have keys := List.map_fst_zip (Nat.le_of_eq (length_freeNames models).symm)
  have once : OrderedMap.Distinct ((colliding models).zip (freeNames models)) := by
    show (((colliding models).zip (freeNames models)).map Prod.fst).Nodup
    rw [keys]
    exact distinct.filter _
  have entries : collisions models = (colliding models).zip (freeNames models) := once.ofEntries_eq
  exact ⟨entries, entries ▸ keys⟩

theorem renamed_of_notMem (distinct : (models.map (·.name)).Nodup) {name : String}
    (apart : name ∉ colliding models) : Shape.renamed (collisions models) name = name := by
  have absent : (collisions models).lookup name = none := by
    rw [OrderedMap.lookup_eq_none, (collisions_eq distinct).2]
    exact apart
  rw [Shape.renamed, absent]
  rfl

/-- A model that collides gets the name that stands in its place. -/
theorem renamed_of_mem (distinct : (models.map (·.name)).Nodup) {name : String}
    (collides : name ∈ colliding models) :
    (name, Shape.renamed (collisions models) name) ∈
      (colliding models).zip (freeNames models) := by
  obtain ⟨entries, keys⟩ := collisions_eq distinct
  cases found : (collisions models).lookup name with
  | none =>
      rw [OrderedMap.lookup_eq_none, keys] at found
      exact absurd collides found
  | some other =>
      rw [Shape.renamed, found, ← entries]
      exact OrderedMap.mem_of_lookup found

/-- New names are free. -/
theorem notMem_of_mem_freeNames {name : String} (given : name ∈ freeNames models) :
    name ∉ clientNames ∧ name ∉ models.map (·.name) := by
  have free := Naming.notMem_of_mem_uniqueAll given
  rwa [List.mem_append, not_or] at free

/-- No two models get one name. -/
theorem injOn_renamed (distinct : (models.map (·.name)).Nodup) {name other : String}
    (listed : name ∈ models.map (·.name)) (alsoListed : other ∈ models.map (·.name))
    (same : Shape.renamed (collisions models) name = Shape.renamed (collisions models) other) :
    name = other := by
  -- a new name differs from those that are kept, because all names of models were taken before
  have given {name : String} (collides : name ∈ colliding models) :=
    notMem_of_mem_freeNames (List.of_mem_zip (renamed_of_mem distinct collides)).2
  by_cases first : name ∈ colliding models
  · by_cases second : other ∈ colliding models
    · have once : (((colliding models).zip (freeNames models)).map Prod.snd).Nodup := by
        rw [List.map_snd_zip (Nat.le_of_eq (length_freeNames models))]
        exact Naming.nodup_uniqueAll ..
      have pairs := List.inj_on_of_nodup_map once (renamed_of_mem distinct first)
        (renamed_of_mem distinct second) same
      exact (Prod.mk.inj pairs).1
    · rw [renamed_of_notMem distinct second] at same
      exact absurd (same ▸ alsoListed) (given first).2
  · rw [renamed_of_notMem distinct first] at same
    by_cases second : other ∈ colliding models
    · exact absurd (same ▸ listed) (given second).2
    · rwa [renamed_of_notMem distinct second] at same

/-- **The types have different names**, and none that the request code declares. -/
theorem nodup_renamed (distinct : (models.map (·.name)).Nodup) :
    (clientNames ++ (models.map (·.name)).map (Shape.renamed (collisions models))).Nodup := by
  refine List.nodup_append.mpr ⟨by decide, distinct.map_on ?_, ?_⟩
  · exact fun name listed other alsoListed same => injOn_renamed distinct listed alsoListed same
  · rintro name declared other listed rfl
    obtain ⟨model, inModels, renamed⟩ := List.mem_map.mp listed
    by_cases collides : model ∈ colliding models
    · have free := notMem_of_mem_freeNames (List.of_mem_zip (renamed_of_mem distinct collides)).2
      exact free.1 (renamed ▸ declared)
    · rw [renamed_of_notMem distinct collides] at renamed
      exact collides (mem_colliding.mpr ⟨inModels, renamed ▸ declared⟩)

/-! ## The names of constants -/

theorem takes_constants (name : String) (values taken : List String) :
    Naming.Takes taken ((constants name values taken).1.map (·.1))
      (constants name values taken).2 := by
  have names : (constants name values taken).1.map (·.1) =
      (Naming.uniqueAll taken (values.map fun value => name ++ exportedName value)).1 :=
    List.map_fst_zip (by simp)
  rw [names]
  exact Naming.takes_uniqueAll ..

/-- **The constants of all models have different names** that were free before. -/
theorem takes_typeDeclarations (taken : List String) (models : List Model) :
    ∃ after, Naming.Takes taken
      ((typeDeclarations taken models).flatMap fun d => d.constants.map (·.1)) after := by
  induction models generalizing taken with
  | nil => exact ⟨taken, .nil taken⟩
  | cons m models ih =>
      have first := takes_constants m.name (constantValues m.shape) taken
      obtain ⟨after, later⟩ := ih (constants m.name (constantValues m.shape) taken).2
      exact ⟨after, first.trans later⟩

/-! ## The names of a package -/

/-- **A package belongs to an API**: to each model its type, with the constants of its strings, and
to each operation its method. -/
structure Package.Covers (p : Package) (api : Api) : Prop where
  /-- The types belong to the models. -/
  types : List.Forall₂ (fun m d => d.name = Shape.renamed (collisions api.models) m.name ∧
    d.constants.map (·.2) = constantValues m.shape) api.models p.types
  /-- The methods belong to the operations. -/
  methods : p.methods.map (·.1) =
    api.operations.map (·.mapShapes (Shape.rename (collisions api.models)))

/-- **No name of a package stands twice.** -/
structure Package.Unambiguous (p : Package) : Prop where
  /-- What the request code declares, the types and the constants differ. -/
  declared : (declaredNames ++
    (p.types.map (·.name) ++ p.types.flatMap fun d => d.constants.map (·.1))).Nodup
  /-- The fields and methods of the client differ. -/
  members : (declaredMembers ++ p.methods.map (·.2)).Nodup

theorem forall₂_typeDeclarations (taken : List String) (models : List Model) :
    List.Forall₂ (fun m d => d.name = m.name ∧ d.constants.map (·.2) = constantValues m.shape)
      models (typeDeclarations taken models) := by
  induction models generalizing taken with
  | nil => exact .nil
  | cons m models ih =>
      refine .cons ⟨rfl, ?_⟩ (ih _)
      refine List.map_snd_zip (Nat.le_of_eq ?_)
      rw [Naming.length_uniqueAll, List.length_map]

theorem map_name_typeDeclarations (taken : List String) (models : List Model) :
    (typeDeclarations taken models).map (·.name) = models.map (·.name) := by
  have names : List.Forall₂ (· = ·) ((typeDeclarations taken models).map (·.name))
      (models.map (·.name)) :=
    List.forall₂_map_left_iff.mpr (List.forall₂_map_right_iff.mpr
      ((forall₂_typeDeclarations taken models).flip.imp fun _ _ same => same.1))
  rwa [List.forall₂_eq_eq_eq] at names

/-- Other names for models leave strings as they are. -/
theorem constantValues_rename (newNames : List (String × String)) (shape : Shape) :
    constantValues (shape.rename newNames) = constantValues shape := by
  cases shape <;> rfl

theorem covers_package (api : Api) : (package api).Covers api := by
  have types := forall₂_typeDeclarations
    (clientNames ++ (api.rename (collisions api.models)).models.map (·.name))
    (api.rename (collisions api.models)).models
  refine { types := ?_, methods := map_fst_zip_methodNames _ }
  refine (List.forall₂_map_left_iff.mp types).imp fun m d same => ?_
  rwa [constantValues_rename] at same

/-- **All names of a Go package are different**, if those of the models are. -/
theorem unambiguous_package {api : Api} (distinct : (api.models.map (·.name)).Nodup) :
    (package api).Covers api ∧ (package api).Unambiguous ∧
      ∃ generated, Language.go.generate api none = .ok generated ∧
        generated.Perm (package api).files := by
  refine ⟨covers_package api, { declared := ?declared, members := ?members },
    SourceFile.inOrder (files api), ?finished, files_eq api ▸ SourceFile.inOrder_perm _⟩
  case declared =>
    have taken : (clientNames ++
        (api.rename (collisions api.models)).models.map (·.name)).Nodup := by
      rw [Api.names_rename]
      exact nodup_renamed distinct
    have types : (package api).types.map (·.name) =
        (api.rename (collisions api.models)).models.map (·.name) := map_name_typeDeclarations ..
    obtain ⟨after, constants⟩ := takes_typeDeclarations _
      (api.rename (collisions api.models)).models
    have every := constants.nodup_append taken
    rw [List.append_assoc] at every
    rw [types]
    exact (declaredNames_perm.append_right _).nodup_iff.mpr every
  case members =>
    have methods : (package api).methods.map (·.2) =
        methodNames (api.rename (collisions api.models)).operations :=
      List.map_snd_zip (Nat.le_of_eq (length_methodNames _))
    rw [declaredMembers_eq, methods]
    exact (Naming.takes_uniqueAll clientMembers _).nodup_append (by decide)
  case finished =>
    have paths : ((files api).map (·.path)).Nodup :=
      show ["doc.go", "models.go", "client.go", "operations.go"].Nodup by decide
    exact (SourceFile.finished_of_nodup paths).1

/-- An API with models, strings and operations that ask for one another's names and for those of the
request code. -/
def askedTwice : Api :=
  { title := "Colors", version := "1"
    models := [
      ⟨"Client", .object [("color", .ref "Color")] [] .unstated, none, none⟩,
      ⟨"ClientModel", .ref "Client", none, none⟩,
      ⟨"Color", .enumeration [.string "red", .string "Red", .string "red", .string "model"],
        none, none⟩,
      ⟨"ColorModel", .primitive .string, none, none⟩,
      ⟨"ColorRed", .enumeration [.string "2"], none, none⟩]
    operations := [
      { id := "request", method := .get, path := "/colors", tags := [], parameters := []
        body := none, responses := [], doc := none, pointer := none },
      { id := "Request", method := .post, path := "/colors", tags := [], parameters := []
        body := none, responses := [], doc := none, pointer := none }] }

theorem unambiguous_askedTwice : (askedTwice.models.map (·.name)).Nodup ∧
    (package askedTwice).Covers askedTwice ∧ (package askedTwice).Unambiguous ∧
      ∃ generated, Language.go.generate askedTwice none = .ok generated ∧
        generated.Perm (package askedTwice).files := by
  have distinct : (askedTwice.models.map (·.name)).Nodup := by decide
  exact ⟨distinct, unambiguous_package distinct⟩

end ClientGen.Go
