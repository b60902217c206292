import ClientGen.Proofs.Json.Depths
import ClientGen.Proofs.Json.Finite

/-!
# Numbers of texts

A number of a text is an integer of at most sixty-four bits or a floating-point number of the
format, whatever the text is like. So the numbers of a value that was read can be written and read
again.

* `Numeral.canonical_of_value?` — the number of a numeral is one of the format.
* `Source.Each` — what holds of every number in a tree that can be read.
* `Source.each_parse` — the numbers in the tree of a text are numbers of the format.
* `Source.Each.of_value` — so are the numbers of a value that was read from a tree.
* `Json.Canonical` — a value in canonical form with such numbers.
-/

namespace ClientGen.Json

open Text Decimal

namespace Numeral

/-! ## Numbers of numerals -/

/-- Digits are collected up to an integer of sixty-four bits and no further. -/
theorem collect_fst_le {n : Nat} (fits : n ≤ greatest) (ds : List Char) :
    (collect n ds).1 ≤ greatest := by
  induction ds generalizing n with
  | nil => exact fits
  | cons d ds ih =>
      rw [collect]
      split
      · exact fits
      · rename_i small
        exact ih (not_lt.mp small)

theorem canonical_lower {x y : Binary64} (canonical : x.Canonical) {power : Nat}
    (found : lower x power = some y) : y.Canonical := by
  induction power using Nat.strongRecOn generalizing x with
  | ind power smaller =>
      rw [lower] at found
      split at found
      · exact Option.some.inj found ▸ canonical
      split at found
      · rename_i small
        obtain ⟨t, ten, large, -⟩ := exists_tenTo? small
        obtain ⟨z, quotient, inside⟩ := Binary64.div?_isSome canonical large
        rw [ten, Option.bind_some, quotient] at found
        exact Option.some.inj found ▸ inside
      · obtain ⟨t, ten, large, -⟩ := exists_tenTo? (le_refl 308)
        obtain ⟨z, quotient, inside⟩ := Binary64.div?_isSome canonical large
        rw [ten, Option.bind_some, quotient, Option.bind_some] at found
        exact smaller (power - 308) (by omega) inside found

theorem canonical_scaled? {n : Nat} {power : Int} {x : Binary64}
    (found : scaled? n power = some x) : x.Canonical := by
  obtain ⟨y, given, found⟩ := Option.bind_eq_some_iff.mp found
  have canonical : y.Canonical := Binary64.canonical_of_ofRatio? Nat.one_pos given
  split at found
  · exact Option.some.inj found ▸ canonical
  split at found
  · cases found
  split at found
  · obtain ⟨t, -, product⟩ := Option.bind_eq_some_iff.mp found
    exact Binary64.canonical_of_ofRatio? (Nat.mul_pos y.den_pos t.den_pos) product
  · exact canonical_lower canonical found

/-- A floating-point number of a numeral is one of the format, however its power is written. -/
theorem canonical_float? {n : Nat} {inner : Int} {power : Option Power} {x : Binary64}
    (found : float? n inner power = some x) : x.Canonical := by
  unfold float? at found
  split at found
  · exact canonical_scaled? found
  · simp only at found
    split at found
    · split at found
      · cases found
      · exact Option.some.inj found ▸ Binary64.canonical_zero false
    split at found
    · exact canonical_scaled? found
    · exact canonical_scaled? found

/-- **The number of a numeral is a number of the format.** -/
theorem canonical_of_value? {numeral : Numeral} {n : Number} (found : numeral.value? = some n) :
    n.Canonical := by
  have bound : greatest = 2 ^ 64 - 1 := rfl
  have half : twoTo 63 = 2 ^ 63 := rfl
  have fits := collect_fst_le (show 0 ≤ greatest from Nat.zero_le _) numeral.whole
  unfold value? at found
  simp only at found
  split at found
  · split at found
    · obtain rfl := Option.some.inj found
      exact ⟨by omega, by omega⟩
    split at found
    · obtain rfl := Option.some.inj found
      exact ⟨by omega, by omega⟩
    · obtain ⟨x, given, rfl⟩ := Option.map_eq_some_iff.mp found
      exact Binary64.canonical_of_ofRatio? Nat.one_pos given
  · obtain ⟨x, given, rfl⟩ := Option.map_eq_some_iff.mp found
    have canonical := canonical_float? given
    exact ⟨canonical.1, canonical.2, canonical.3, canonical.4⟩

end Numeral

namespace Source

/-! ## Numbers of trees -/

mutual

/-- **The lexemes of the numbers in a tree.** -/
def lexemes : Source → List (Lexeme Number)
  | .null => []
  | .bool _ => []
  | .number n => [n]
  | .string _ => []
  | .array items _ => itemLexemes items
  | .object members _ => memberLexemes members
  | .fault _ => []

/-- The lexemes in items. -/
def itemLexemes : List Source → List (Lexeme Number)
  | [] => []
  | v :: vs => lexemes v ++ itemLexemes vs

/-- The lexemes in the values of members. -/
def memberLexemes : List (Lexeme String × Source) → List (Lexeme Number)
  | [] => []
  | (_, v) :: ms => lexemes v ++ memberLexemes ms

end

theorem itemLexemes_eq (items : List Source) : itemLexemes items = items.flatMap lexemes := by
  induction items with
  | nil => rfl
  | cons item items ih => rw [itemLexemes, ih, List.flatMap_cons]

theorem memberLexemes_eq (members : List (Lexeme String × Source)) :
    memberLexemes members = members.flatMap fun m => m.2.lexemes := by
  induction members with
  | nil => rfl
  | cons member members ih => rw [memberLexemes, ih, List.flatMap_cons]

/-- **What holds of every number in a tree** that can be read. -/
def Each (P : Number → Prop) (tree : Source) : Prop :=
  ∀ lexeme ∈ tree.lexemes, ∀ n, lexeme.value = .ok n → P n

variable {P : Number → Prop}

/-- The numbers of an array are those of its items. -/
theorem each_array {items : List Source} {atEnd : Option Fault} :
    (array items atEnd).Each P ↔ ∀ item ∈ items, item.Each P := by
  simp only [Each, lexemes, itemLexemes_eq, List.mem_flatMap]
  exact ⟨fun each item member lexeme inside => each lexeme ⟨item, member, inside⟩,
    fun each lexeme ⟨item, member, inside⟩ => each item member lexeme inside⟩

/-- The numbers of an object are those of its members. -/
theorem each_object {members : List (Lexeme String × Source)} {atEnd : Option Fault} :
    (object members atEnd).Each P ↔ ∀ m ∈ members, m.2.Each P := by
  simp only [Each, lexemes, memberLexemes_eq, List.mem_flatMap]
  exact ⟨fun each m member lexeme inside => each lexeme ⟨m, member, inside⟩,
    fun each lexeme ⟨m, member, inside⟩ => each m member lexeme inside⟩

mutual

/-- **The numbers of a value** that was read from a tree are numbers of the tree. -/
theorem Each.of_value {tree : Source} (each : tree.Each P) {room : Nat} {v : Json}
    (read : tree.value room = .ok v) : v.Each P := by
  cases tree with
  | array items atEnd =>
      obtain ⟨inner, vs, -, values, -, rfl⟩ := value_array_eq_ok_iff.mp read
      exact Json.each_array (each_of_itemValues (each_array.mp each) values)
  | object members atEnd =>
      obtain ⟨inner, ms, -, values, -, rfl⟩ := value_object_eq_ok_iff.mp read
      exact Json.each_object (each_of_memberValues (each_object.mp each) values)
  | number lexeme =>
      obtain ⟨n, found, rfl⟩ := map_eq_ok_iff.mp read
      have found := mapError_eq_ok_iff.mp found
      refine fun m member => ?_
      obtain rfl := List.mem_singleton.mp member
      exact each lexeme (List.mem_singleton_self _) m found
  | string lexeme =>
      obtain ⟨s, -, rfl⟩ := map_eq_ok_iff.mp read
      exact Json.each_string s
  | null => exact Except.ok.inj read ▸ nofun
  | bool b => exact Except.ok.inj read ▸ Json.each_bool b
  | fault fault => cases read

theorem each_of_itemValues {items : List Source} (each : ∀ item ∈ items, item.Each P)
    {room : Nat} {vs : List Json} (read : itemValues room items = .ok vs) :
    ∀ v ∈ vs, v.Each P := by
  cases items with
  | nil =>
      obtain rfl := Except.ok.inj read
      exact List.forall_mem_nil _
  | cons item items =>
      obtain ⟨v, vs, first, rest, rfl⟩ := itemValues_cons_eq_ok_iff.mp read
      obtain ⟨own, others⟩ := List.forall_mem_cons.mp each
      exact List.forall_mem_cons.mpr ⟨own.of_value first, each_of_itemValues others rest⟩

theorem each_of_memberValues {members : List (Lexeme String × Source)}
    (each : ∀ m ∈ members, m.2.Each P) {room : Nat} {ms : List (String × Json)}
    (read : memberValues room members = .ok ms) : ∀ m ∈ ms, m.2.Each P := by
  cases members with
  | nil =>
      obtain rfl := Except.ok.inj read
      exact List.forall_mem_nil _
  | cons member members =>
      obtain ⟨k, tree⟩ := member
      obtain ⟨name, v, ms, -, first, rest, rfl⟩ := memberValues_cons_eq_ok_iff.mp read
      obtain ⟨own, others⟩ := List.forall_mem_cons.mp each
      exact List.forall_mem_cons.mpr ⟨own.of_value first, each_of_memberValues others rest⟩

end

/-! ## Numbers of tokens -/

/-- What holds of the numbers in the part of a tree that is open. -/
def Frame.Each (P : Number → Prop) : Frame → Prop
  | .array items => ∀ item ∈ items, item.Each P
  | .object members _ => ∀ m ∈ members, m.2.Each P

/-- What holds of the numbers in the part of a tree before a place. -/
def Place.Each (P : Number → Prop) : Place → Prop
  | .value => True
  | .firstItem => True
  | .firstName members => ∀ m ∈ members, m.2.Each P
  | .name members => ∀ m ∈ members, m.2.Each P
  | .colon members _ => ∀ m ∈ members, m.2.Each P
  | .after tree => Source.Each P tree

theorem each_fault (fault : Fault) : (Source.fault fault).Each P :=
  nofun

theorem each_reverse {members : List (Lexeme String × Source)} {atEnd : Option Fault}
    (each : ∀ m ∈ members, m.2.Each P) : (object members.reverse atEnd).Each P :=
  each_object.mpr fun m member => each m (List.mem_reverse.mp member)

/-- A frame that is closed holds its own numbers and those of the value in it. -/
theorem Frame.Each.close {frame : Frame} (each : frame.Each P) {value : Source}
    (own : value.Each P) (fault : Option Fault) : (frame.close value fault).Each P := by
  cases frame with
  | array items =>
      refine each_array.mpr fun item member => ?_
      exact List.forall_mem_cons.mpr ⟨own, each⟩ item (List.mem_reverse.mp member)
  | object members name =>
      exact each_reverse (List.forall_mem_cons.mpr ⟨own, each⟩)

/-- Breaking off closes every open frame, and adds no number. -/
theorem each_breakOff {stack : List Frame} (frames : ∀ frame ∈ stack, frame.Each P)
    {value : Source} (own : value.Each P) : (breakOff stack value).value.Each P := by
  induction stack generalizing value with
  | nil => exact own
  | cons frame stack ih =>
      obtain ⟨first, rest⟩ := List.forall_mem_cons.mp frames
      exact ih rest (first.close own none)

/-- A token that starts a value has at most its own number. -/
theorem each_startValue {token : Token}
    (number : ∀ lexeme, token = .number lexeme → ∀ n, lexeme.value = .ok n → P n) :
    (startValue token).Each P := by
  cases token with
  | number lexeme =>
      intro other member
      obtain rfl := List.mem_singleton.mp member
      exact number other rfl
  | openArray => trivial
  | openObject => exact List.forall_mem_nil _
  | _ => exact nofun

/-- Where a text breaks off, the tree has the numbers that were read so far. -/
theorem each_brokenAt (fault : Fault) {stack : List Frame} {place : Place}
    (frames : ∀ frame ∈ stack, frame.Each P) (before : place.Each P) :
    (brokenAt fault stack place).Each P := by
  cases place with
  | value => exact each_breakOff frames (each_fault _)
  | firstItem => exact each_breakOff frames (each_array.mpr (List.forall_mem_nil _))
  | firstName members => exact each_breakOff frames (each_reverse before)
  | name members => exact each_breakOff frames (each_reverse before)
  | colon members name =>
      exact each_breakOff frames (each_reverse (List.forall_mem_cons.mpr ⟨each_fault _, before⟩))
  | after value =>
      cases stack with
      | nil => exact before
      | cons frame stack =>
          obtain ⟨first, rest⟩ := List.forall_mem_cons.mp frames
          exact each_breakOff rest (first.close before _)

/-- One token keeps what holds of the numbers in the open frames and before the place. -/
theorem Next.each {stack stack' : List Frame} {place place' : Place} {token : Token}
    (next : Next stack place token stack' place')
    (number : ∀ lexeme, token = .number lexeme → ∀ n, lexeme.value = .ok n → P n)
    (frames : ∀ frame ∈ stack, frame.Each P) (before : place.Each P) :
    (∀ frame ∈ stack', frame.Each P) ∧ place'.Each P := by
  cases next with
  | start => exact ⟨frames, each_startValue number⟩
  | noItem => exact ⟨frames, each_array.mpr (List.forall_mem_nil _)⟩
  | firstItem =>
      exact ⟨List.forall_mem_cons.mpr ⟨List.forall_mem_nil _, frames⟩, each_startValue number⟩
  | noName => exact ⟨frames, each_reverse before⟩
  | firstName => exact ⟨frames, before⟩
  | name => exact ⟨frames, before⟩
  | colon => exact ⟨List.forall_mem_cons.mpr ⟨before, frames⟩, trivial⟩
  | nextItem =>
      obtain ⟨first, rest⟩ := List.forall_mem_cons.mp frames
      exact ⟨List.forall_mem_cons.mpr ⟨List.forall_mem_cons.mpr ⟨before, first⟩, rest⟩, trivial⟩
  | nextName =>
      obtain ⟨first, rest⟩ := List.forall_mem_cons.mp frames
      exact ⟨rest, List.forall_mem_cons.mpr ⟨before, first⟩⟩
  | close =>
      obtain ⟨first, rest⟩ := List.forall_mem_cons.mp frames
      exact ⟨rest, first.close before none⟩

/-- **The numbers in a tree are those of the tokens** that it was built from. -/
theorem each_build (tokens : List Token)
    (numbers : ∀ lexeme, .number lexeme ∈ tokens → ∀ n, lexeme.value = .ok n → P n)
    {stack : List Frame} {place : Place} (frames : ∀ frame ∈ stack, frame.Each P)
    (before : place.Each P) : (build stack place tokens).value.Each P := by
  refine build_induction (fun stack place => (∀ frame ∈ stack, frame.Each P) ∧ place.Each P)
    (fun tree => tree.Each P) (fun fault {_ _} inv => each_brokenAt fault inv.1 inv.2)
    tokens (fun token member _ _ _ _ next inv => ?_) ⟨frames, before⟩
  exact next.each (fun lexeme same => numbers lexeme (same ▸ member)) inv.1 inv.2

end Source

/-- The number of a scanned lexeme is a number of the format. -/
theorem canonical_of_scanNumber {cs : List Char} {lexeme : Lexeme Number} {n : Number}
    (read : (scanNumber cs).1 = lexeme) (value : lexeme.value = .ok n) : n.Canonical := by
  unfold scanNumber at read
  split at read
  · split at read
    · rename_i found
      obtain rfl := read
      exact Except.ok.inj value ▸ Numeral.canonical_of_value? found
    · obtain rfl := read
      cases value
  · obtain rfl := read
    cases value

/-- **The numbers of the tokens of a text are numbers of the format.** -/
theorem Token.canonical_of_mem_scan (cs : List Char) :
    ∀ lexeme, .number lexeme ∈ Token.scan cs → ∀ n, lexeme.value = .ok n → n.Canonical := by
  have other {token : Token} {rest : List Token} (different : ∀ lexeme, token ≠ .number lexeme)
      (later : ∀ lexeme, .number lexeme ∈ rest → ∀ n, lexeme.value = .ok n → n.Canonical) :
      ∀ lexeme, .number lexeme ∈ token :: rest → ∀ n, lexeme.value = .ok n → n.Canonical := by
    intro lexeme member
    rcases List.mem_cons.mp member with same | member
    · exact absurd same.symm (different lexeme)
    · exact later lexeme member
  have own {cs : List Char} {found : Lexeme Number} {after : Option (List Char)}
      {rest : List Token} (scanned : scanNumber cs = (found, after))
      (later : ∀ lexeme, .number lexeme ∈ rest → ∀ n, lexeme.value = .ok n → n.Canonical) :
      ∀ lexeme, .number lexeme ∈ .number found :: rest →
        ∀ n, lexeme.value = .ok n → n.Canonical := by
    intro lexeme member n value
    rcases List.mem_cons.mp member with same | member
    · obtain rfl := Token.number.inj same
      exact canonical_of_scanNumber (congrArg Prod.fst scanned) value
    · exact later lexeme member n value
  fun_induction Token.scan cs with
  | case1 => exact nofun
  | case2 c cs space ih => exact ih
  | case3 cs s rest scanned space ih => exact other (fun _ => Token.noConfusion) ih
  | case4 cs s scanned space => exact other (fun _ => Token.noConfusion) nofun
  | case5 c cs space quote number found rest scanned ih => exact own scanned ih
  | case6 c cs space quote number found scanned => exact own scanned nofun
  | case7 c cs space quote number token mark ih =>
      refine other (fun lexeme same => ?_) ih
      exact mark?_ne_number c lexeme (same ▸ mark)
  | case8 c cs space quote number token letters word mark rest found ih =>
      refine other (fun lexeme same => ?_) ih
      exact word?_ne_number c lexeme letters (same ▸ word)
  | case9 c cs space quote number token letters word mark fault missed =>
      exact other (fun _ => Token.noConfusion) nofun
  | case10 c cs space quote number word mark => exact other (fun _ => Token.noConfusion) nofun

/-- **The numbers of a text are numbers of the format.** -/
theorem Source.each_parse (text : String) : (Source.parse text).value.Each Number.Canonical :=
  each_build _ (Token.canonical_of_mem_scan _) (List.forall_mem_nil _) trivial

/-! ## Values in canonical form -/

/-- **A value in canonical form whose numbers are numbers of the format.** -/
structure Canonical (v : Json) : Prop where
  /-- The value is in canonical form. -/
  own : v.canonical = v
  /-- Its numbers are numbers of the format. -/
  numbers : v.Each Number.Canonical

theorem Canonical.of_mem_items {vs : List Json} (canonical : (array vs).Canonical) :
    ∀ v ∈ vs, v.Canonical := fun v member =>
  ⟨items_of_canonical canonical.own v member, each_array_iff.mp canonical.numbers v member⟩

theorem Canonical.of_mem_members {ms : List (String × Json)} (canonical : (object ms).Canonical) :
    ∀ m ∈ ms, m.2.Canonical := fun m member =>
  ⟨(members_of_canonical canonical.own).2 m member,
    each_object_iff.mp canonical.numbers m member⟩

/-- The canonical form of a value that was read from a tree. -/
theorem Source.Each.canonical_of_value {tree : Source} (each : tree.Each Number.Canonical)
    {room : Nat} {v : Json} (read : tree.value room = .ok v) : v.canonical.Canonical :=
  ⟨v.canonical_canonical, (each.of_value read).canonical⟩

end ClientGen.Json
