import ClientGen.Proofs.TypeScript.Lexing

/-!
# The tokens of a printed type

* `TypeExpr.tokens` — the tokens that a type is printed with.
* `Readable` — the types that can be read: names are names, numbers are numbers of the format, and
  unions and intersections are not empty.
* `Alphabet.writes_text` — the text of a readable type stands for its tokens.
-/

namespace ClientGen.TypeScript

open Text

/-! ## The tokens of types -/

/-- Tokens in parentheses. -/
def parenthesized (ts : List Token) : List Token :=
  .mark '(' :: (ts ++ [.mark ')'])

/-- The tokens of a property whose type has tokens. -/
def propertyTokens (p : Property TypeExpr) (type : List Token) : List Token :=
  keyToken p.name :: ((if p.optional then [.mark '?'] else []) ++ .mark ':' :: type)

/-- The tokens of an index signature whose type has tokens. -/
def indexTokens (type : List Token) : List Token :=
  .mark '[' :: .word "key" :: .mark ':' :: .word "string" :: .mark ']' :: .mark ':' :: type

namespace TypeExpr

mutual

/-- **The tokens that a type is printed with.** -/
def tokens : TypeExpr → List Token
  | .primitive type => [.word type.text]
  | .array items =>
    (if items.isCompound then parenthesized items.tokens else items.tokens) ++
      [.mark '[', .mark ']']
  | .union members => List.intercalate [.mark '|'] (tokensOfAll members)
  | .intersection parts => List.intercalate [.mark '&'] (tokensOfParts parts)
  | .object properties index =>
    .mark '{' :: (List.intercalate [.mark ';']
      (tokensOfProperties properties ++ tokensOfIndex index) ++ [.mark '}'])
  | .record key value =>
    .word "Record" :: .mark '<' :: (key.tokens ++ .mark ',' :: (value.tokens ++ [.mark '>']))
  | .literal value => value.tokens
  | .ref name => [.word name]

/-- The tokens of several types. -/
def tokensOfAll : List TypeExpr → List (List Token)
  | [] => []
  | type :: types => type.tokens :: tokensOfAll types

/-- The tokens of the parts of an intersection. -/
def tokensOfParts : List TypeExpr → List (List Token)
  | [] => []
  | type :: types =>
    (if type.isUnion then parenthesized type.tokens else type.tokens) :: tokensOfParts types

/-- The tokens of properties. -/
def tokensOfProperties : List (Property TypeExpr) → List (List Token)
  | [] => []
  | ⟨name, type, optional, doc⟩ :: properties =>
    propertyTokens ⟨name, type, optional, doc⟩ type.tokens :: tokensOfProperties properties

/-- The tokens of the type of all further properties. -/
def tokensOfIndex : Option TypeExpr → List (List Token)
  | some type => [indexTokens type.tokens]
  | none => []

end

/-- The text and the tokens of a part of an intersection. -/
def asPart (type : TypeExpr) : String × List Token :=
  if type.isUnion then (inParentheses type.text, parenthesized type.tokens)
  else (type.text, type.tokens)

/-- The text and the tokens of a property. -/
def asProperty (p : Property TypeExpr) : String × List Token :=
  (p.line p.type.text, propertyTokens p p.type.tokens)

/-- The text and the tokens of an index signature. -/
def asIndex (type : TypeExpr) : String × List Token :=
  (indexLine type.text, indexTokens type.tokens)

theorem texts_eq (types : List TypeExpr) :
    texts types = (types.map fun type => (type.text, type.tokens)).map (·.1) ∧
      tokensOfAll types = (types.map fun type => (type.text, type.tokens)).map (·.2) := by
  induction types with
  | nil => exact ⟨rfl, rfl⟩
  | cons type types ih =>
      rw [texts, tokensOfAll, ih.1, ih.2]
      exact ⟨rfl, rfl⟩

theorem partTexts_eq (types : List TypeExpr) :
    partTexts types = (types.map asPart).map (·.1) ∧
      tokensOfParts types = (types.map asPart).map (·.2) := by
  induction types with
  | nil => exact ⟨rfl, rfl⟩
  | cons type types ih =>
      rw [partTexts, tokensOfParts, ih.1, ih.2, List.map_cons, asPart]
      split <;> exact ⟨rfl, rfl⟩

/-- The texts of the members of an object type and their tokens, side by side: properties first,
then what is said about further members. -/
theorem memberTexts_eq (properties : List (Property TypeExpr)) (index : Option TypeExpr) :
    propertyTexts properties ++ indexTexts index =
        (properties.map asProperty ++ index.toList.map asIndex).map (·.1) ∧
      tokensOfProperties properties ++ tokensOfIndex index =
        (properties.map asProperty ++ index.toList.map asIndex).map (·.2) := by
  have listed : propertyTexts properties = (properties.map asProperty).map (·.1) ∧
      tokensOfProperties properties = (properties.map asProperty).map (·.2) := by
    induction properties with
    | nil => exact ⟨rfl, rfl⟩
    | cons p properties ih =>
        rw [propertyTexts, tokensOfProperties, ih.1, ih.2]
        exact ⟨rfl, rfl⟩
  rw [listed.1, listed.2, List.map_append, List.map_append]
  cases index <;> exact ⟨rfl, rfl⟩

end TypeExpr

/-! ## Types that can be read -/

/-- **A name that a type can have**: an identifier that means nothing else in types. -/
structure Alphabet.TypeName (alphabet : Alphabet) (name : String) : Prop where
  /-- It is made of the characters of identifiers. -/
  named : alphabet.Names name
  /-- It is no type and no literal by itself. -/
  free : name ∉ wordTypes.map (·.1)
  /-- It is no type that shapes lack. -/
  other : name ∉ otherTypes
  /-- It is not reserved. -/
  unreserved : name ∉ keywords

/-- **The types that can be read.** Descriptions of properties are not printed, so there are
none. -/
inductive Readable (alphabet : Alphabet) : TypeExpr → Prop
  /-- Every primitive type. -/
  | primitive (type : PrimitiveType) : Readable alphabet (.primitive type)
  /-- An array of readable items. -/
  | array {items : TypeExpr} (readable : Readable alphabet items) :
      Readable alphabet (.array items)
  /-- A union of at least one readable member. -/
  | union {members : List TypeExpr} (nonempty : members ≠ [])
      (each : ∀ member ∈ members, Readable alphabet member) : Readable alphabet (.union members)
  /-- An intersection of at least one readable part. -/
  | intersection {parts : List TypeExpr} (nonempty : parts ≠ [])
      (each : ∀ part ∈ parts, Readable alphabet part) : Readable alphabet (.intersection parts)
  /-- An object type of readable types. -/
  | object {properties : List (Property TypeExpr)} {index : Option TypeExpr}
      (bare : ∀ p ∈ properties, p.doc = none)
      (each : ∀ p ∈ properties, Readable alphabet p.type)
      (further : ∀ type ∈ index, Readable alphabet type) :
      Readable alphabet (.object properties index)
  /-- A record of readable types. -/
  | record {key value : TypeExpr} (keys : Readable alphabet key)
      (values : Readable alphabet value) : Readable alphabet (.record key value)
  /-- A literal with a text of its own. -/
  | literal {value : Literal} (sound : value.Sound) : Readable alphabet (.literal value)
  /-- A type with a name. -/
  | ref {name : String} (named : alphabet.TypeName name) : Readable alphabet (.ref name)

namespace Alphabet

variable {alphabet : Alphabet} {text : String} {ts : List Token}

/-- Parentheses are put around tokens exactly where they are put around the text. -/
theorem Writes.inParentheses (written : alphabet.Writes text ts) :
    alphabet.Writes (inParentheses text) (parenthesized ts) := by
  intro rest _
  have letters : (TypeScript.inParentheses text).toList ++ rest =
      '(' :: (text.toList ++ ')' :: rest) := by
    simp [TypeScript.inParentheses]
  rw [letters]
  exact (reads_mark (by decide)).trans
    ((written _ (boundary_cons (by decide))).trans (reads_mark (by decide)))

theorem Writes.brackets (written : alphabet.Writes text ts) :
    alphabet.Writes (text ++ "[]") (ts ++ [.mark '[', .mark ']']) := by
  intro rest _
  have letters : (text ++ "[]").toList ++ rest = text.toList ++ '[' :: ']' :: rest := by
    simp
  rw [letters]
  exact (written _ (boundary_cons (by decide))).trans
    ((reads_mark (by decide)).trans (reads_mark (by decide)))

/-- The line of a property stands for its name, its mark and its type. -/
theorem Writes.line {p : Property TypeExpr} (written : alphabet.Writes text ts) :
    alphabet.Writes (p.line text) (propertyTokens p ts) := by
  intro rest boundary
  have colon : alphabet.Reads (':' :: ' ' :: (text.toList ++ rest)) (.mark ':' :: ts) rest :=
    (reads_mark (by decide)).trans ((reads_space (by decide)).trans (written rest boundary))
  cases sign : p.optional with
  | true =>
      have letters : (p.line text).toList ++ rest =
          (key p.name).toList ++ '?' :: ':' :: ' ' :: (text.toList ++ rest) := by
        simp [Property.line, sign]
      rw [letters, propertyTokens, sign]
      exact (writes_key p.name _ (boundary_cons (by decide))).trans
        ((reads_mark (by decide)).trans colon)
  | false =>
      have letters : (p.line text).toList ++ rest =
          (key p.name).toList ++ ':' :: ' ' :: (text.toList ++ rest) := by
        simp [Property.line, sign]
      rw [letters, propertyTokens, sign]
      exact (writes_key p.name _ (boundary_cons (by decide))).trans colon

theorem Writes.indexLine (written : alphabet.Writes text ts) :
    alphabet.Writes (indexLine text) (indexTokens ts) := by
  intro rest boundary
  have letters : (TypeScript.indexLine text).toList ++ rest =
      '[' :: ("key".toList ++ ':' :: ' ' :: ("string".toList ++
        ']' :: ':' :: ' ' :: (text.toList ++ rest))) := by
    show ("[key: string]: " ++ text).toList ++ rest = _
    rw [String.toList_append, List.append_assoc]
    rfl
  have word {name : String} (plain : needsBrackets name = false) :
      alphabet.Writes name [.word name] :=
    writes_word (names_of_plain plain)
  rw [letters]
  exact (reads_mark (by decide)).trans <|
    (word (by decide) _ (boundary_cons (by decide))).trans <|
    (reads_mark (by decide)).trans <| (reads_space (by decide)).trans <|
    (word (by decide) _ (boundary_cons (by decide))).trans <|
    (reads_mark (by decide)).trans <| (reads_mark (by decide)).trans <|
    (reads_space (by decide)).trans (written rest boundary)

/-- Texts between marks with a blank on either side. -/
theorem writes_spaced {separator : String} {mark : Char}
    (letters : separator.toList = [' ', mark, ' ']) (member : mark ∈ marks)
    {items : List (String × List Token)} (written : ∀ item ∈ items, alphabet.Writes item.1 item.2) :
    alphabet.Writes (String.intercalate separator (items.map (·.1)))
      (List.intercalate [.mark mark] (items.map (·.2))) := by
  refine writes_intercalate (fun cs => ?_) (fun cs => ?_) written
  · rw [letters]
    exact boundary_cons (by decide)
  · rw [letters]
    exact (reads_space (by decide)).trans ((reads_mark member).trans (reads_space (by decide)))

/-- **The text of an object type stands for its tokens.** -/
theorem writes_object {properties : List (Property TypeExpr)} {index : Option TypeExpr}
    (each : ∀ p ∈ properties, alphabet.Writes p.type.text p.type.tokens)
    (further : ∀ type ∈ index, alphabet.Writes type.text type.tokens) :
    alphabet.Writes (TypeExpr.object properties index).text
      (TypeExpr.object properties index).tokens := by
  obtain ⟨texts, tokens⟩ := TypeExpr.memberTexts_eq properties index
  have written : ∀ item ∈ properties.map TypeExpr.asProperty ++ index.toList.map TypeExpr.asIndex,
      alphabet.Writes item.1 item.2 := by
    intro item member
    rcases List.mem_append.mp member with listed | other
    · obtain ⟨p, inside, rfl⟩ := List.mem_map.mp listed
      exact (each p inside).line
    · obtain ⟨type, inside, rfl⟩ := List.mem_map.mp other
      exact (further type (Option.mem_toList.mp inside)).indexLine
  rw [TypeExpr.text, TypeExpr.tokens, texts, tokens]
  generalize properties.map TypeExpr.asProperty ++ index.toList.map TypeExpr.asIndex = items
    at written
  have lines : alphabet.Writes (String.intercalate "; " (items.map (·.1)))
      (List.intercalate [.mark ';'] (items.map (·.2))) := by
    refine writes_intercalate (fun cs => ?_) (fun cs => ?_) written
    · exact boundary_cons (by decide : ';' ∈ boundaries)
    · exact (reads_mark (by decide)).trans (reads_space (by decide))
  cases items with
  | nil =>
      intro rest _
      exact (reads_mark (by decide)).trans (reads_mark (by decide))
  | cons item items =>
      intro rest _
      have letters (text : String) : (inBraces text).toList ++ rest =
          '{' :: ' ' :: (text.toList ++ ' ' :: '}' :: rest) := by
        simp [inBraces]
      show alphabet.Reads
        ((inBraces (String.intercalate "; " ((item :: items).map (·.1)))).toList ++ rest) _ _
      rw [letters]
      exact (reads_mark (by decide)).trans <| (reads_space (by decide)).trans <|
        (lines _ (boundary_cons (by decide))).trans <|
        (reads_space (by decide)).trans (reads_mark (by decide))

/-- **The text of a readable type stands for its tokens.** -/
theorem writes_text {type : TypeExpr} (readable : Readable alphabet type) :
    alphabet.Writes type.text type.tokens := by
  induction readable with
  | primitive type => exact writes_word (names_of_plain (by cases type <;> decide))
  | @array items _ ih =>
      rw [TypeExpr.text, TypeExpr.tokens]
      refine Writes.brackets ?_
      split
      · exact ih.inParentheses
      · exact ih
  | @union members _ _ ih =>
      rw [TypeExpr.text, TypeExpr.tokens, (TypeExpr.texts_eq members).1,
        (TypeExpr.texts_eq members).2]
      refine writes_spaced rfl (by decide) fun item member => ?_
      obtain ⟨type, inside, rfl⟩ := List.mem_map.mp member
      exact ih type inside
  | @intersection parts _ _ ih =>
      rw [TypeExpr.text, TypeExpr.tokens, (TypeExpr.partTexts_eq parts).1,
        (TypeExpr.partTexts_eq parts).2]
      refine writes_spaced rfl (by decide) fun item member => ?_
      obtain ⟨type, inside, rfl⟩ := List.mem_map.mp member
      unfold TypeExpr.asPart
      split
      · exact (ih type inside).inParentheses
      · exact ih type inside
  | object _ _ _ each further => exact writes_object each further
  | @record key value _ _ keys values =>
      intro rest boundary
      have letters : (TypeExpr.record key value).text.toList ++ rest =
          "Record".toList ++ '<' :: (key.text.toList ++
            ',' :: ' ' :: (value.text.toList ++ '>' :: rest)) := by
        simp [TypeExpr.text]
      have word : alphabet.Writes "Record" [.word "Record"] :=
        writes_word (names_of_plain (by decide))
      rw [letters]
      exact (word _ (boundary_cons (by decide))).trans <| (reads_mark (by decide)).trans <|
        (keys _ (boundary_cons (by decide))).trans <| (reads_mark (by decide)).trans <|
        (reads_space (by decide)).trans <|
        (values _ (boundary_cons (by decide))).trans (reads_mark (by decide))
  | literal sound => exact writes_literal sound
  | ref named => exact writes_word named.named

end Alphabet

end ClientGen.TypeScript
