import ClientGen.Json.Cursor
import ClientGen.Proofs.Results

/-!
# Trees of values

A value has a tree without faults, and tokens without faults. Building the tree from the tokens and
taking the value of the tree leads back to it, as far as the text may nest.

* `Json.tokens`, `Json.source` — the tokens and the tree of a value.
* `Json.depth` — how many arrays and objects stand inside one another.
* `Source.build_tokens` — tokens are built into their tree, whatever follows them.
* `Source.Next` — what one token does; `Source.build_induction` — what every token keeps holds of
  the tree.
* `Source.value_array_eq_ok_iff`, `Source.value_object_eq_ok_iff` — what a value is read from.
* `Source.value_source` — the value of the tree, if there is room for its depth.
-/

namespace ClientGen.Json

/-! ## Tokens, trees and depths -/

/-- A value that has been read without a fault. -/
def Lexeme.pure {α : Type} (a : α) : Lexeme α :=
  ⟨.ok a, none⟩

@[simp] theorem Lexeme.read_pure {α : Type} (a : α) : (Lexeme.pure a).read = .ok a := rfl

mutual

/-- **The tokens of a value.** -/
def tokens : Json → List Token
  | .null => [.null]
  | .bool b => [.bool b]
  | .number n => [.number (.pure n)]
  | .string s => [.string (.pure s)]
  | .array [] => [.openArray, .closeArray]
  | .array (v :: vs) => .openArray :: (tokens v ++ itemTokens vs)
  | .object [] => [.openObject, .closeObject]
  | .object ((k, v) :: ms) =>
    .openObject :: .string (.pure k) :: .colon :: (tokens v ++ memberTokens ms)

/-- The tokens of further items and of the end of an array. -/
def itemTokens : List Json → List Token
  | [] => [.closeArray]
  | v :: vs => .comma :: (tokens v ++ itemTokens vs)

/-- The tokens of further members and of the end of an object. -/
def memberTokens : List (String × Json) → List Token
  | [] => [.closeObject]
  | (k, v) :: ms => .comma :: .string (.pure k) :: .colon :: (tokens v ++ memberTokens ms)

end

mutual

/-- **The tree of a value.** -/
def source : Json → Source
  | .null => .null
  | .bool b => .bool b
  | .number n => .number (.pure n)
  | .string s => .string (.pure s)
  | .array vs => .array (itemSources vs) none
  | .object ms => .object (memberSources ms) none

/-- The trees of items. -/
def itemSources : List Json → List Source
  | [] => []
  | v :: vs => source v :: itemSources vs

/-- The trees of members. -/
def memberSources : List (String × Json) → List (Lexeme String × Source)
  | [] => []
  | (k, v) :: ms => (.pure k, source v) :: memberSources ms

end

mutual

/-- **How many arrays and objects stand inside one another.** -/
def depth : Json → Nat
  | .null => 0
  | .bool _ => 0
  | .number _ => 0
  | .string _ => 0
  | .array vs => itemsDepth vs + 1
  | .object ms => membersDepth ms + 1

/-- The greatest depth of items. -/
def itemsDepth : List Json → Nat
  | [] => 0
  | v :: vs => max (depth v) (itemsDepth vs)

/-- The greatest depth of members. -/
def membersDepth : List (String × Json) → Nat
  | [] => 0
  | (_, v) :: ms => max (depth v) (membersDepth ms)

end

/-- An array or object is opened only where there is room for it. -/
theorem enter_eq_ok_iff {room inner : Nat} : enter room = .ok inner ↔ room = inner + 1 := by
  cases room with
  | zero => exact ⟨nofun, nofun⟩
  | succ room =>
      exact ⟨fun entered => congrArg (· + 1) (Except.ok.inj entered),
        fun same => congrArg Except.ok (Nat.succ.inj same)⟩

/-! ## Building -/

namespace Source

/-- A value does not start with the end of an array. -/
theorem exists_tokens_eq_cons (v : Json) :
    ∃ token rest, v.tokens = token :: rest ∧ token ≠ .closeArray := by
  cases v with
  | array vs =>
      cases vs with
      | nil => exact ⟨_, _, by rw [tokens], by simp⟩
      | cons v vs => exact ⟨_, _, by rw [tokens], by simp⟩
  | object ms =>
      cases ms with
      | nil => exact ⟨_, _, by rw [tokens], by simp⟩
      | cons m ms =>
          obtain ⟨k, v⟩ := m
          exact ⟨_, _, by rw [tokens], by simp⟩
  | _ => exact ⟨_, _, by rw [tokens], by simp⟩

/-- The first item of an array is read like any value. -/
theorem build_firstItem (v : Json) (stack : List Frame) (rest : List Token) :
    build stack .firstItem (v.tokens ++ rest) =
      build (.array [] :: stack) .value (v.tokens ++ rest) := by
  obtain ⟨token, more, starts, notEnd⟩ := exists_tokens_eq_cons v
  rw [starts, List.cons_append, build, build]
  exact notEnd

mutual

/-- **Tokens are built into their tree, whatever follows them.** -/
theorem build_tokens (v : Json) (stack : List Frame) (rest : List Token) :
    build stack .value (v.tokens ++ rest) = build stack (.after v.source) rest := by
  cases v with
  | null => rw [tokens]; rfl
  | bool b => rw [tokens]; rfl
  | number n => rw [tokens]; rfl
  | string s => rw [tokens]; rfl
  | array vs =>
      cases vs with
      | nil => rw [tokens]; rfl
      | cons v vs =>
          rw [tokens, List.cons_append, List.append_assoc]
          -- an array may end at once, so its first item is read at a place of its own
          show build stack .firstItem _ = _
          rw [build_firstItem, build_tokens v, build_itemTokens vs]
          rfl
  | object ms =>
      cases ms with
      | nil => rw [tokens]; rfl
      | cons m ms =>
          obtain ⟨k, v⟩ := m
          rw [tokens]
          show build (.object [] (.pure k) :: stack) .value
            (v.tokens ++ memberTokens ms ++ rest) = _
          rw [List.append_assoc, build_tokens v, build_memberTokens ms]
          rfl

/-- Further items are built into the array that is open. -/
theorem build_itemTokens (vs : List Json) (items : List Source) (value : Source)
    (stack : List Frame) (rest : List Token) :
    build (.array items :: stack) (.after value) (itemTokens vs ++ rest) =
      build stack (.after (.array (items.reverse ++ value :: itemSources vs) none)) rest := by
  cases vs with
  | nil =>
      rw [itemTokens, itemSources]
      show build stack (.after (.array (value :: items).reverse none)) rest = _
      rw [List.reverse_cons]
  | cons v vs =>
      rw [itemTokens, itemSources]
      show build (.array (value :: items) :: stack) .value (v.tokens ++ itemTokens vs ++ rest) = _
      rw [List.append_assoc, build_tokens v, build_itemTokens vs, List.reverse_cons,
        List.append_assoc]
      rfl

/-- Further members are built into the object that is open. -/
theorem build_memberTokens (ms : List (String × Json)) (members : List (Lexeme String × Source))
    (name : Lexeme String) (value : Source) (stack : List Frame) (rest : List Token) :
    build (.object members name :: stack) (.after value) (memberTokens ms ++ rest) =
      build stack (.after (.object (members.reverse ++ (name, value) :: memberSources ms) none))
        rest := by
  cases ms with
  | nil =>
      rw [memberTokens, memberSources]
      show build stack (.after (.object ((name, value) :: members).reverse none)) rest = _
      rw [List.reverse_cons]
  | cons m ms =>
      obtain ⟨k, v⟩ := m
      rw [memberTokens, memberSources]
      show build (.object ((name, value) :: members) (.pure k) :: stack) .value
        (v.tokens ++ memberTokens ms ++ rest) = _
      rw [List.append_assoc, build_tokens v, build_memberTokens ms, List.reverse_cons,
        List.append_assoc]
      rfl

end

/-! ## Building token by token -/

/-- **What a token does at a place inside open frames**: the frames and the place behind it. -/
inductive Next : List Frame → Place → Token → List Frame → Place → Prop
  /-- A value starts. -/
  | start (stack : List Frame) (token : Token) : Next stack .value token stack (startValue token)
  /-- An array ends at once. -/
  | noItem (stack : List Frame) :
      Next stack .firstItem .closeArray stack (.after (.array [] none))
  /-- The first item of an array starts. -/
  | firstItem (stack : List Frame) (token : Token) :
      Next stack .firstItem token (.array [] :: stack) (startValue token)
  /-- An object ends at once. -/
  | noName (stack : List Frame) (members : List (Lexeme String × Source)) :
      Next stack (.firstName members) .closeObject stack (.after (.object members.reverse none))
  /-- The first name of an object. -/
  | firstName (stack : List Frame) (members : List (Lexeme String × Source))
      (name : Lexeme String) :
      Next stack (.firstName members) (.string name) stack (.colon members name)
  /-- A further name of an object. -/
  | name (stack : List Frame) (members : List (Lexeme String × Source)) (name : Lexeme String) :
      Next stack (.name members) (.string name) stack (.colon members name)
  /-- A member is opened. -/
  | colon (stack : List Frame) (members : List (Lexeme String × Source)) (name : Lexeme String) :
      Next stack (.colon members name) .colon (.object members name :: stack) .value
  /-- An array goes on. -/
  | nextItem (stack : List Frame) (items : List Source) (value : Source) :
      Next (.array items :: stack) (.after value) .comma (.array (value :: items) :: stack) .value
  /-- An object goes on. -/
  | nextName (stack : List Frame) (members : List (Lexeme String × Source))
      (name : Lexeme String) (value : Source) :
      Next (.object members name :: stack) (.after value) .comma stack
        (.name ((name, value) :: members))
  /-- An array or an object ends. -/
  | close (stack : List Frame) (frame : Frame) (value : Source) (token : Token) :
      Next (frame :: stack) (.after value) token stack (.after (frame.close value none))

/-- The tree that breaks off at a place for a fault. -/
def brokenAt (fault : Fault) (stack : List Frame) : Place → Source
  | .value => (breakOff stack (.fault fault)).value
  | .firstItem => (breakOff stack (.array [] (some fault))).value
  | .firstName members => (breakOff stack (.object members.reverse (some fault))).value
  | .name members => (breakOff stack (.object members.reverse (some fault))).value
  | .colon members name =>
    (breakOff stack (.object ((name, .fault fault) :: members).reverse none)).value
  | .after value =>
    match stack with
    | [] => value
    | frame :: stack => (breakOff stack (frame.close value (some fault))).value

theorem value_build_nil (stack : List Frame) (place : Place) :
    (build stack place []).value = brokenAt .ended stack place := by
  cases place with
  | after value => cases stack <;> rfl
  | _ => rfl

/-- **A token leads on, or the tree breaks off.** -/
theorem build_cons_cases (stack : List Frame) (place : Place) (token : Token) :
    (∃ stack' place', Next stack place token stack' place' ∧
        ∀ tokens, build stack place (token :: tokens) = build stack' place' tokens) ∨
      ∀ tokens, (build stack place (token :: tokens)).value = brokenAt .malformed stack place := by
  cases place with
  | value => exact .inl ⟨_, _, .start stack token, fun _ => rfl⟩
  | firstItem =>
      cases token with
      | closeArray => exact .inl ⟨_, _, .noItem stack, fun _ => rfl⟩
      | _ => exact .inl ⟨_, _, .firstItem stack _, fun _ => rfl⟩
  | firstName members =>
      cases token with
      | string name => exact .inl ⟨_, _, .firstName stack members name, fun _ => rfl⟩
      | closeObject => exact .inl ⟨_, _, .noName stack members, fun _ => rfl⟩
      | _ => exact .inr fun _ => rfl
  | name members =>
      cases token with
      | string name => exact .inl ⟨_, _, .name stack members name, fun _ => rfl⟩
      | _ => exact .inr fun _ => rfl
  | colon members name =>
      cases token with
      | colon => exact .inl ⟨_, _, .colon stack members name, fun _ => rfl⟩
      | _ => exact .inr fun _ => rfl
  | after value =>
      cases stack with
      | nil => exact .inr fun _ => rfl
      | cons frame stack =>
          cases frame with
          | array items =>
              cases token with
              | comma => exact .inl ⟨_, _, .nextItem stack items value, fun _ => rfl⟩
              | closeArray => exact .inl ⟨_, _, .close stack _ value _, fun _ => rfl⟩
              | _ => exact .inr fun _ => rfl
          | object members name =>
              cases token with
              | comma => exact .inl ⟨_, _, .nextName stack members name value, fun _ => rfl⟩
              | closeObject => exact .inl ⟨_, _, .close stack _ value _, fun _ => rfl⟩
              | _ => exact .inr fun _ => rfl

/-- **What every token keeps holds of the whole tree**, as soon as it holds of the trees that break
off. -/
theorem build_induction (Inv : List Frame → Place → Prop) (Good : Source → Prop)
    (broken : ∀ fault {stack place}, Inv stack place → Good (brokenAt fault stack place))
    (tokens : List Token)
    (next : ∀ token ∈ tokens, ∀ {stack place stack' place'},
      Next stack place token stack' place' → Inv stack place → Inv stack' place')
    {stack : List Frame} {place : Place} (before : Inv stack place) :
    Good (build stack place tokens).value := by
  induction tokens generalizing stack place with
  | nil =>
      rw [value_build_nil]
      exact broken _ before
  | cons token tokens ih =>
      obtain ⟨first, later⟩ := List.forall_mem_cons.mp next
      rcases build_cons_cases stack place token with ⟨stack', place', step, same⟩ | off
      · rw [same]
        exact ih later (first step before)
      · rw [off]
        exact broken _ before

/-! ## Roots -/

/-- Whether a tree is an array or an object. -/
def isCompound : Source → Bool
  | .array _ _ => true
  | .object _ _ => true
  | _ => false

/-- Whether a place stands inside an array or object, or after one. -/
def Place.inCompound : Place → Bool
  | .value => false
  | .after v => v.isCompound
  | _ => true

theorem isCompound_close (value : Source) (fault : Option Fault) (frame : Frame) :
    (frame.close value fault).isCompound := by
  cases frame with
  | array items => rfl
  | object members name => rfl

theorem isCompound_breakOff {stack : List Frame} {value : Source}
    (inside : stack ≠ [] ∨ value.isCompound) : (breakOff stack value).value.isCompound := by
  induction stack generalizing value with
  | nil => exact inside.resolve_left fun other => other rfl
  | cons frame stack ih => exact ih (.inr (isCompound_close value none frame))

theorem isCompound_brokenAt (fault : Fault) {stack : List Frame} {place : Place}
    (inside : stack ≠ [] ∨ place.inCompound) : (brokenAt fault stack place).isCompound := by
  cases place with
  | value => exact isCompound_breakOff (.inl (inside.resolve_right Bool.false_ne_true))
  | after value =>
      cases stack with
      | nil => exact inside.resolve_left fun other => other rfl
      | cons frame stack => exact isCompound_breakOff (.inr (isCompound_close _ _ _))
  | _ => exact isCompound_breakOff (.inr rfl)

/-- **Once an array or object has been opened, the root of the tree is one.** -/
theorem isCompound_build (tokens : List Token) {stack : List Frame} {place : Place}
    (inside : stack ≠ [] ∨ place.inCompound) : (build stack place tokens).value.isCompound := by
  -- the invariant: frames are closed into arrays and objects only, and places keep them open
  refine build_induction (fun stack place => stack ≠ [] ∨ place.inCompound)
    (fun tree => tree.isCompound) isCompound_brokenAt tokens
    (fun _ _ _ _ _ _ step inside => ?_) inside
  cases step with
  | start => exact .inl (inside.resolve_right Bool.false_ne_true)
  | firstItem => exact .inl (List.cons_ne_nil _ _)
  | colon => exact .inl (List.cons_ne_nil _ _)
  | nextItem => exact .inl (List.cons_ne_nil _ _)
  | close stack frame value => exact .inr (isCompound_close value none frame)
  | _ => exact .inr rfl

/-- A text that is one number and nothing else has one token. -/
theorem tokens_of_build_number {tokens : List Token} {lexeme : Lexeme Number}
    (built : build [] .value tokens = ⟨.number lexeme, none⟩) : tokens = [.number lexeme] := by
  have compound {stack : List Frame} {place : Place} {rest : List Token}
      (inside : stack ≠ [] ∨ place.inCompound) :
      build stack place rest ≠ ⟨.number lexeme, none⟩ := by
    intro same
    have root := isCompound_build rest inside
    rw [same] at root
    cases root
  cases tokens with
  | nil => cases built
  | cons token rest =>
      rw [build] at built
      cases place : startValue token with
      | after value =>
          rw [place] at built
          cases rest with
          | nil =>
              obtain rfl : value = .number lexeme := congrArg SourceText.value built
              cases token with
              | number found =>
                  obtain rfl : found = lexeme := by simpa [startValue, ofToken?] using place
                  rfl
              | _ => cases place
          | cons next rest => cases built
      | value => cases token <;> cases place
      | firstItem => exact absurd (place ▸ built) (compound (.inr rfl))
      | firstName members => exact absurd (place ▸ built) (compound (.inr rfl))
      | name members => cases token <;> cases place
      | colon members name => cases token <;> cases place

/-! ## Values -/

/-- An array is read item by item, with less room for each. -/
theorem value_array_eq_ok_iff {items : List Source} {atEnd : Option Fault} {room : Nat} {v : Json} :
    (array items atEnd).value room = .ok v ↔ ∃ inner vs,
      room = inner + 1 ∧ itemValues inner items = .ok vs ∧ check atEnd = .ok () ∧
        v = .array vs := by
  rw [value]
  simp only [bind_eq_ok_iff, enter_eq_ok_iff, pure, Except.pure, Except.ok.injEq]
  constructor
  · rintro ⟨inner, entered, vs, values, ⟨⟩, ended, rfl⟩
    exact ⟨inner, vs, entered, values, ended, rfl⟩
  · rintro ⟨inner, vs, entered, values, ended, rfl⟩
    exact ⟨inner, entered, vs, values, (), ended, rfl⟩

/-- An object is read member by member, with less room for each. -/
theorem value_object_eq_ok_iff {members : List (Lexeme String × Source)} {atEnd : Option Fault}
    {room : Nat} {v : Json} :
    (object members atEnd).value room = .ok v ↔ ∃ inner ms,
      room = inner + 1 ∧ memberValues inner members = .ok ms ∧ check atEnd = .ok () ∧
        v = .object ms := by
  rw [value]
  simp only [bind_eq_ok_iff, enter_eq_ok_iff, pure, Except.pure, Except.ok.injEq]
  constructor
  · rintro ⟨inner, entered, ms, values, ⟨⟩, ended, rfl⟩
    exact ⟨inner, ms, entered, values, ended, rfl⟩
  · rintro ⟨inner, ms, entered, values, ended, rfl⟩
    exact ⟨inner, entered, ms, values, (), ended, rfl⟩

theorem itemValues_cons_eq_ok_iff {item : Source} {items : List Source} {room : Nat}
    {result : List Json} :
    itemValues room (item :: items) = .ok result ↔ ∃ v vs,
      item.value room = .ok v ∧ itemValues room items = .ok vs ∧ result = v :: vs := by
  rw [itemValues]
  simp only [bind_eq_ok_iff, pure, Except.pure, Except.ok.injEq]
  constructor
  · rintro ⟨v, first, vs, rest, rfl⟩
    exact ⟨v, vs, first, rest, rfl⟩
  · rintro ⟨v, vs, first, rest, rfl⟩
    exact ⟨v, first, vs, rest, rfl⟩

theorem memberValues_cons_eq_ok_iff {name : Lexeme String} {tree : Source}
    {members : List (Lexeme String × Source)} {room : Nat} {result : List (String × Json)} :
    memberValues room ((name, tree) :: members) = .ok result ↔ ∃ k v ms,
      name.read = .ok k ∧ tree.value room = .ok v ∧ memberValues room members = .ok ms ∧
        result = (k, v) :: ms := by
  rw [memberValues]
  simp only [bind_eq_ok_iff, pure, Except.pure, Except.ok.injEq]
  constructor
  · rintro ⟨k, named, v, first, ms, rest, rfl⟩
    exact ⟨k, v, ms, named, first, rest, rfl⟩
  · rintro ⟨k, v, ms, named, first, rest, rfl⟩
    exact ⟨k, named, v, first, ms, rest, rfl⟩

mutual

/-- **The value of the tree of a value**, if there is room for its depth. -/
theorem value_source (v : Json) (room : Nat) (fits : v.depth ≤ room) :
    v.source.value room = .ok v := by
  cases v with
  | null => rfl
  | bool b => rfl
  | number n => rfl
  | string s => rfl
  | array vs =>
      rw [depth] at fits
      obtain ⟨inner, rfl⟩ : ∃ inner, room = inner + 1 := ⟨room - 1, by omega⟩
      have items := itemValues_itemSources vs inner (by omega)
      exact value_array_eq_ok_iff.mpr ⟨inner, vs, rfl, items, rfl, rfl⟩
  | object ms =>
      rw [depth] at fits
      obtain ⟨inner, rfl⟩ : ∃ inner, room = inner + 1 := ⟨room - 1, by omega⟩
      have members := memberValues_memberSources ms inner (by omega)
      exact value_object_eq_ok_iff.mpr ⟨inner, ms, rfl, members, rfl, rfl⟩

theorem itemValues_itemSources (vs : List Json) (room : Nat) (fits : itemsDepth vs ≤ room) :
    itemValues room (itemSources vs) = .ok vs := by
  cases vs with
  | nil => rfl
  | cons v vs =>
      rw [itemsDepth] at fits
      have first := value_source v room (by omega)
      have rest := itemValues_itemSources vs room (by omega)
      exact itemValues_cons_eq_ok_iff.mpr ⟨v, vs, first, rest, rfl⟩

theorem memberValues_memberSources (ms : List (String × Json)) (room : Nat)
    (fits : membersDepth ms ≤ room) : memberValues room (memberSources ms) = .ok ms := by
  cases ms with
  | nil => rfl
  | cons m ms =>
      obtain ⟨k, v⟩ := m
      rw [membersDepth] at fits
      have first := value_source v room (by omega)
      have rest := memberValues_memberSources ms room (by omega)
      exact memberValues_cons_eq_ok_iff.mpr ⟨k, v, ms, rfl, first, rest, rfl⟩

end

end Source

end ClientGen.Json
