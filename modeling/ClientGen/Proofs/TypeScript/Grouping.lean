import ClientGen.Proofs.TypeScript.TypeTokens

/-!
# Printed types are read with their grouping

The tokens of a type are read level by level. On each level a type is a chain of items of the level
below: a union is the chain of its members' chains, since a union inside a union has no parentheses,
and in the same way an intersection. What stands in parentheses is one item of the lowest level.

* `Grammar.ReadsAs` — a reader reads some tokens as a value, whatever follows them.
* `Grammar.Chain` — items between separators.
* `Grammar.Grouped` — what is read of a type on each level.
-/

namespace ClientGen.TypeScript

namespace Grammar

/-! ## Readers -/

section

variable {α β γ : Type}

/-- What follows is none of some marks. -/
def Stops (stops : List Char) (rest : List Token) : Prop :=
  ∀ c ∈ stops, rest.head? ≠ some (.mark c)

/-- **A reader reads some tokens as a value**, wherever none of some marks follows. -/
def ReadsAs (reader : Reader α) (stops : List Char) (ts : List Token) (a : α) : Prop :=
  ∀ rest, Stops stops rest → reader (ts ++ rest) = some (a, rest)

theorem Stops.mono {few many : List Char} {rest : List Token} (stop : Stops many rest)
    (fewer : few ⊆ many) : Stops few rest :=
  fun c member => stop c (fewer member)

theorem stops_mark {stops : List Char} {c : Char} (other : c ∉ stops) (rest : List Token) :
    Stops stops (.mark c :: rest) := by
  intro d member same
  obtain rfl : c = d := Token.mark.inj (Option.some.inj same)
  exact other member

/-! ## Chains -/

/-- **Items between separators.** -/
inductive Chain (separator : Char) (item : List Token → α → Prop) : List Token → List α → Prop
  /-- One item. -/
  | single {ts : List Token} {a : α} (read : item ts a) : Chain separator item ts [a]
  /-- An item, a separator, and further items. -/
  | cons {ts us : List Token} {a : α} {as : List α} (read : item ts a)
      (others : Chain separator item us as) :
      Chain separator item (ts ++ .mark separator :: us) (a :: as)

variable {separator : Char} {item : List Token → α → Prop} {ts us : List Token} {as bs : List α}

theorem Chain.append (first : Chain separator item ts as) (second : Chain separator item us bs) :
    Chain separator item (ts ++ .mark separator :: us) (as ++ bs) := by
  induction first with
  | single read => exact .cons read second
  | cons read _ ih =>
      rw [List.append_assoc, List.cons_append]
      exact .cons read ih

theorem Chain.length_le (chain : Chain separator item ts as) : as.length ≤ ts.length + 1 := by
  induction chain with
  | single => exact Nat.le_add_left ..
  | cons _ _ ih =>
      simp only [List.length_cons, List.length_append]
      omega

/-- **Chains between separators are a chain.** -/
theorem exists_chain {split : α → List γ} {parts : β → List γ} {tokens : β → List Token}
    {items : List β} (nonempty : items ≠ [])
    (each : ∀ b ∈ items, ∃ as, Chain separator item (tokens b) as ∧ as.flatMap split = parts b) :
    ∃ as, Chain separator item (List.intercalate [.mark separator] (items.map tokens)) as ∧
      as.flatMap split = items.flatMap parts := by
  induction items with
  | nil => exact absurd rfl nonempty
  | cons b items ih =>
      obtain ⟨first, others⟩ := List.forall_mem_cons.mp each
      obtain ⟨as, chain, same⟩ := first
      cases items with
      | nil =>
          refine ⟨as, ?_, ?_⟩
          · rwa [List.map_singleton, List.intercalate_singleton]
          · rw [same, List.flatMap_singleton]
      | cons next items =>
          obtain ⟨bs, later, equal⟩ := ih (List.cons_ne_nil _ _) others
          refine ⟨as ++ bs, ?_, ?_⟩
          · rw [List.map_cons, List.map_cons, List.intercalate_cons_cons, List.append_assoc]
            exact chain.append later
          · rw [List.flatMap_append, same, equal]
            rfl

/-- **A chain is read item by item**, wherever neither a separator nor what stops an item
follows. -/
theorem Chain.reads {item? : Reader α} {stops : List Char} (apart : separator ∉ stops)
    (chain : Chain separator (ReadsAs item? stops) ts as) {rest : List Token}
    (stop : Stops (separator :: stops) rest) {count : Nat} (enough : as.length ≤ count) :
    chain? separator item? count (ts ++ rest) = some (as, rest) := by
  have inner : Stops stops rest := stop.mono (List.subset_cons_self ..)
  induction chain generalizing count with
  | @single ts a read =>
      obtain ⟨count, rfl⟩ := Nat.exists_eq_succ_of_ne_zero (Nat.pos_iff_ne_zero.mp enough)
      rw [chain?, read rest inner]
      cases rest with
      | nil => rfl
      | cons t rest =>
          cases t with
          | mark c =>
              have other : c ≠ separator := by
                rintro rfl
                exact stop c (List.mem_cons_self ..) rfl
              simp [other]
          | word name => rfl
          | string text => rfl
          | number x => rfl
  | @cons ts us a as read others ih =>
      obtain ⟨count, rfl⟩ := Nat.exists_eq_succ_of_ne_zero
        (Nat.pos_iff_ne_zero.mp (Nat.lt_of_lt_of_le (Nat.succ_pos _) enough))
      have later := ih (Nat.le_of_succ_le_succ enough)
      rw [List.append_assoc, List.cons_append, chain?, read _ (stops_mark apart _)]
      simp [later]

end

/-! ## The lowest level -/

section

variable {depth : Nat} {ts : List Token} {tree : TypeExpr}

/-- What stops a type of the lowest level. -/
def primaryStops : List Char :=
  ['<']

/-- What stops a type with the brackets behind it. -/
def postfixStops : List Char :=
  ['[', '<']

/-- What stops an intersection. -/
def intersectionStops : List Char :=
  '&' :: postfixStops

/-- What stops a union. -/
def unionStops : List Char :=
  '|' :: intersectionStops

/-- **Tokens are a type of the lowest level**, behind which brackets may stand. -/
def ReadsBelow (depth : Nat) (ts : List Token) (tree : TypeExpr) : Prop :=
  ∀ rest, Stops primaryStops rest → postfix? (type? depth) (ts ++ rest) = some (arrays tree rest)

theorem arrays_of_stops {rest : List Token} (stop : Stops postfixStops rest) :
    arrays tree rest = (tree, rest) := by
  unfold arrays
  split
  · rename_i ts
    exact absurd rfl (stop '[' (by decide))
  · rfl

/-- Where no bracket follows, nothing more is read. -/
theorem ReadsBelow.readsAs (read : ReadsBelow depth ts tree) :
    ReadsAs (postfix? (type? depth)) postfixStops ts tree := by
  intro rest stop
  rw [read rest (stop.mono (by decide)), arrays_of_stops stop]

/-- **Brackets behind a type make an array of it.** -/
theorem ReadsBelow.brackets (read : ReadsBelow depth ts tree) :
    ReadsBelow depth (ts ++ [.mark '[', .mark ']']) (.array tree) := by
  intro rest stop
  rw [List.append_assoc]
  exact read _ (stops_mark (by decide) _)

/-- **A type in parentheses is of the lowest level.** -/
theorem readsBelow_parenthesized (read : ReadsAs (type? depth) unionStops ts tree) :
    ReadsBelow depth (parenthesized ts) tree := by
  intro rest stop
  have inner := read (.mark ')' :: rest) (stops_mark (by decide) rest)
  have tokens : parenthesized ts ++ rest = .mark '(' :: (ts ++ .mark ')' :: rest) := by
    simp [parenthesized]
  rw [tokens, postfix?, primary?, inner]
  rfl

/-- A word is of the lowest level. -/
theorem readsBelow_word {name : String} (meaning : wordType? name = some tree) :
    ReadsBelow depth [.word name] tree := by
  intro rest stop
  rw [List.singleton_append, postfix?, primary?, meaning]
  · rfl
  · rintro ts rfl
    exact stop '<' (by decide) rfl

/-- **A number with its sign is of the lowest level.** -/
theorem readsBelow_number (x : Decimal.Binary64) :
    ReadsBelow depth (numberTokens x) (.literal (.float x)) := by
  intro rest stop
  unfold numberTokens
  split
  · rename_i negative
    have sign : (x.withSign false).withSign true = x := by
      rw [← negative]
      rfl
    show some (arrays (.literal (.float ((x.withSign false).withSign true))) rest) = _
    rw [sign]
  · rfl

/-! ## Object types -/

/-- The flat form of a member. -/
def Member.flat : Member → Member
  | .property p => .property { p with type := p.type.flat }
  | .index type => .index type.flat

/-- The tokens of a member. -/
def Member.tokens : Member → List Token
  | .property p => propertyTokens p p.type.tokens
  | .index type => indexTokens type.tokens

/-- The members of an object type. -/
def membersOf (properties : List (Property TypeExpr)) (index : Option TypeExpr) : List Member :=
  properties.map .property ++ index.toList.map .index

theorem tokens_membersOf (properties : List (Property TypeExpr)) (index : Option TypeExpr) :
    TypeExpr.tokensOfProperties properties ++ TypeExpr.tokensOfIndex index =
      (membersOf properties index).map Member.tokens := by
  rw [(TypeExpr.memberTexts_eq properties index).2, membersOf]
  simp only [List.map_append, List.map_map]
  rfl

/-- A property is read as a member. -/
theorem readsAs_property {p : Property TypeExpr} (bare : p.doc = none)
    (read : ReadsAs (type? depth) unionStops ts tree) :
    ReadsAs (member? (type? depth)) unionStops (propertyTokens p ts)
      (.property { p with type := tree }) := by
  obtain ⟨name, type, optional, doc⟩ := p
  obtain rfl : doc = none := bare
  intro rest stop
  have key (us : List Token) : member? (type? depth) (keyToken name :: us) =
      property? (type? depth) (keyToken name :: us) := by
    unfold keyToken
    split <;> rfl
  have named (us : List Token) : key? (keyToken name :: us) = some (name, us) := by
    unfold keyToken
    split <;> rfl
  have marked : questionMark ((if optional then [.mark '?'] else []) ++ .mark ':' :: (ts ++ rest)) =
      (optional, .mark ':' :: (ts ++ rest)) := by
    cases optional <;> rfl
  have tokens : propertyTokens ⟨name, type, optional, none⟩ ts ++ rest = keyToken name ::
      ((if optional then [.mark '?'] else []) ++ .mark ':' :: (ts ++ rest)) := by
    simp [propertyTokens]
  rw [tokens, key, property?, named]
  simp only [Option.bind_eq_bind, Option.bind_some, marked, expect?, if_pos, read rest stop]
  rfl

/-- An index signature is read as a member. -/
theorem readsAs_index (read : ReadsAs (type? depth) unionStops ts tree) :
    ReadsAs (member? (type? depth)) unionStops (indexTokens ts) (.index tree) := by
  intro rest stop
  have tokens : indexTokens ts ++ rest = .mark '[' :: .word "key" :: .mark ':' :: .word "string" ::
      .mark ']' :: .mark ':' :: (ts ++ rest) := rfl
  rw [tokens, member?, if_pos rfl, read rest stop]
  rfl

/-- No member starts with a closing brace. -/
theorem not_brace {result : Member × List Token} (read : member? (type? depth) ts = some result)
    (us : List Token) (brace : ts = .mark '}' :: us) : False := by
  subst brace
  have none : member? (type? depth) (.mark '}' :: us) = none := rfl
  rw [none] at read
  cases read

/-- **A chain of members is read up to the closing brace.** -/
theorem members?_of_chain {ms : List Member}
    (chain : Chain ';' (ReadsAs (member? (type? depth)) unionStops) ts ms) (rest : List Token)
    {count : Nat} (enough : ms.length ≤ count) :
    members? (type? depth) count (ts ++ .mark '}' :: rest) = some (ms, rest) := by
  induction chain generalizing count with
  | @single ts m read =>
      obtain ⟨count, rfl⟩ := Nat.exists_eq_succ_of_ne_zero (Nat.pos_iff_ne_zero.mp enough)
      have found := read (.mark '}' :: rest) (stops_mark (by decide) rest)
      rw [members?, found]
      · rfl
      · exact not_brace found
  | @cons ts us m ms read others ih =>
      obtain ⟨count, rfl⟩ := Nat.exists_eq_succ_of_ne_zero
        (Nat.pos_iff_ne_zero.mp (Nat.lt_of_lt_of_le (Nat.succ_pos _) enough))
      have later := ih (Nat.le_of_succ_le_succ enough)
      have found := read (.mark ';' :: (us ++ .mark '}' :: rest)) (stops_mark (by decide) _)
      rw [List.append_assoc, List.cons_append, members?, found]
      · simp [later]
      · exact not_brace found

/-- **The members of an object type are read up to the closing brace**, also if there are none. -/
theorem exists_members? {members : List Member}
    (each : ∀ m ∈ members, ∃ n, ReadsAs (member? (type? depth)) unionStops m.tokens n ∧
      n.flat = m.flat) :
    ∃ ms, ms.map Member.flat = members.map Member.flat ∧ ∀ rest count,
      (List.intercalate [.mark ';'] (members.map Member.tokens)).length < count →
        members? (type? depth) count (List.intercalate [.mark ';'] (members.map Member.tokens) ++
          .mark '}' :: rest) = some (ms, rest) := by
  rcases eq_or_ne members [] with rfl | nonempty
  · exact ⟨[], rfl, fun rest count _ => by cases count <;> rfl⟩
  · have chains : ∀ m ∈ members, ∃ ms,
        Chain ';' (ReadsAs (member? (type? depth)) unionStops) m.tokens ms ∧
          ms.flatMap (fun m => [m.flat]) = [m.flat] := by
      intro m member
      obtain ⟨n, read, same⟩ := each m member
      exact ⟨[n], .single read, by rw [List.flatMap_singleton, same]⟩
    obtain ⟨ms, chain, same⟩ := exists_chain nonempty chains
    rw [← List.map_eq_flatMap, ← List.map_eq_flatMap] at same
    refine ⟨ms, same, fun rest count enough => ?_⟩
    exact members?_of_chain chain rest (chain.length_le.trans enough)

/-- **Members that differ in grouping only make types that differ in grouping only.** -/
theorem exists_object {properties : List (Property TypeExpr)} {index : Option TypeExpr}
    {ms : List Member} (same : ms.map Member.flat = (membersOf properties index).map Member.flat) :
    ∃ tree, object? ms = some tree ∧ tree.flat = (TypeExpr.object properties index).flat := by
  have listed (ns : List Member) :
      (ns.filterMap Member.property?).map (fun p => { p with type := p.type.flat }) =
        (ns.map Member.flat).filterMap Member.property? := by
    rw [List.map_filterMap, List.filterMap_map]
    congr 1
    funext m
    cases m <;> rfl
  have further (ns : List Member) : (ns.filterMap Member.index?).map TypeExpr.flat =
      (ns.map Member.flat).filterMap Member.index? := by
    rw [List.map_filterMap, List.filterMap_map]
    congr 1
    funext m
    cases m <;> rfl
  have ownProperties : (membersOf properties index).filterMap Member.property? = properties := by
    simp [membersOf, Function.comp_def, Member.property?]
  have ownIndex : (membersOf properties index).filterMap Member.index? = index.toList := by
    simp [membersOf, Function.comp_def, Member.index?]
  have equalProperties := listed ms
  rw [same, ← listed, ownProperties] at equalProperties
  have equalIndex := further ms
  rw [same, ← further, ownIndex] at equalIndex
  cases index with
  | none =>
      have none : ms.filterMap Member.index? = [] := List.map_eq_nil_iff.mp equalIndex
      refine ⟨_, by rw [object?, none], ?_⟩
      rw [TypeExpr.flat, TypeExpr.flat, TypeExpr.flatProperties_eq, TypeExpr.flatProperties_eq,
        equalProperties]
  | some type =>
      obtain ⟨tree, only, flat⟩ : ∃ tree, ms.filterMap Member.index? = [tree] ∧
          tree.flat = type.flat :=
        List.map_eq_singleton_iff.mp equalIndex
      refine ⟨_, by rw [object?, only], ?_⟩
      rw [TypeExpr.flat, TypeExpr.flat, TypeExpr.flatProperties_eq, TypeExpr.flatProperties_eq,
        equalProperties, TypeExpr.flatIndex, TypeExpr.flatIndex, flat]

end

/-! ## Types on each level -/

/-- **What is read of a type**, on each level on which it can stand, up to its flat form. -/
structure Grouped (depth : Nat) (type : TypeExpr) : Prop where
  /-- On the lowest level, if it is neither a union nor an intersection. -/
  below : type.isCompound = false →
    ∃ tree, ReadsBelow depth type.tokens tree ∧ tree.flat = type.flat
  /-- As a chain of parts, if it is no union. -/
  parts : type.isUnion = false →
    ∃ trees, Chain '&' (ReadsAs (postfix? (type? depth)) postfixStops) type.tokens trees ∧
      trees.flatMap (fun tree => tree.flat.components) = type.flat.components
  /-- As a chain of members. -/
  members :
    ∃ trees, Chain '|' (ReadsAs (intersection? (type? depth)) intersectionStops) type.tokens trees ∧
      trees.flatMap (fun tree => tree.flat.alternatives) = type.flat.alternatives

section

variable {depth : Nat} {type : TypeExpr} {ts : List Token} {trees : List TypeExpr}

/-- A chain of parts is read as an intersection. -/
theorem Chain.readsAs_intersection
    (chain : Chain '&' (ReadsAs (postfix? (type? depth)) postfixStops) ts trees) :
    ReadsAs (intersection? (type? depth)) intersectionStops ts (joined .intersection trees) := by
  intro rest stop
  have enough : trees.length ≤ (ts ++ rest).length + 1 := by
    have := chain.length_le
    rw [List.length_append]
    omega
  rw [intersection?, chain.reads (by decide) stop enough]
  rfl

/-- A chain of members is read as a union. -/
theorem Chain.readsAs_union
    (chain : Chain '|' (ReadsAs (intersection? (type? depth)) intersectionStops) ts trees) :
    ReadsAs (type? (depth + 1)) unionStops ts (joined .union trees) := by
  intro rest stop
  have enough : trees.length ≤ (ts ++ rest).length + 1 := by
    have := chain.length_le
    rw [List.length_append]
    omega
  rw [type?, union?, chain.reads (by decide) stop enough]
  rfl

/-- **A type is read with its flat form.** -/
theorem Grouped.reads (grouped : Grouped depth type) :
    ∃ tree, ReadsAs (type? (depth + 1)) unionStops type.tokens tree ∧ tree.flat = type.flat := by
  obtain ⟨trees, chain, same⟩ := grouped.members
  refine ⟨_, chain.readsAs_union, ?_⟩
  rw [TypeExpr.flat_joined_union, same, (TypeExpr.tidy_flat type).union]

/-- A type that is no union is a single member. -/
theorem Grouped.of_parts (other : type.isCompound = true)
    (parts : ∃ trees, Chain '&' (ReadsAs (postfix? (type? depth)) postfixStops) type.tokens trees ∧
      trees.flatMap (fun tree => tree.flat.components) = type.flat.components) :
    Grouped depth type := by
  refine ⟨fun plain => absurd (other.symm.trans plain) (by decide), fun _ => parts, ?_⟩
  obtain ⟨trees, chain, same⟩ := parts
  refine ⟨[joined .intersection trees], .single chain.readsAs_intersection, ?_⟩
  rw [List.flatMap_singleton, TypeExpr.flat_joined_intersection, same,
    (TypeExpr.tidy_flat type).intersection]

/-- A type of the lowest level is a single part and a single member. -/
theorem Grouped.of_below {tree : TypeExpr} (read : ReadsBelow depth type.tokens tree)
    (same : tree.flat = type.flat) : Grouped depth type := by
  have part : Chain '&' (ReadsAs (postfix? (type? depth)) postfixStops) type.tokens [tree] :=
    .single read.readsAs
  refine ⟨fun _ => ⟨tree, read, same⟩, fun _ => ⟨[tree], part, ?_⟩,
    ⟨[tree], .single part.readsAs_intersection, ?_⟩⟩
  · rw [List.flatMap_singleton, same]
  · rw [List.flatMap_singleton, same]

/-- **A type in parentheses.** -/
theorem exists_parenthesized
    (reads : ∃ tree, ReadsAs (type? depth) unionStops type.tokens tree ∧ tree.flat = type.flat) :
    ∃ tree, ReadsBelow depth (parenthesized type.tokens) tree ∧ tree.flat = type.flat := by
  obtain ⟨tree, read, same⟩ := reads
  exact ⟨tree, readsBelow_parenthesized read, same⟩

/-- **An object type is of the lowest level.** -/
theorem exists_readsBelow_object {properties : List (Property TypeExpr)} {index : Option TypeExpr}
    (bare : ∀ p ∈ properties, p.doc = none)
    (each : ∀ p ∈ properties, ∃ tree, ReadsAs (type? depth) unionStops p.type.tokens tree ∧
      tree.flat = p.type.flat)
    (further : ∀ type ∈ index, ∃ tree, ReadsAs (type? depth) unionStops type.tokens tree ∧
      tree.flat = type.flat) :
    ∃ tree, ReadsBelow depth (TypeExpr.object properties index).tokens tree ∧
      tree.flat = (TypeExpr.object properties index).flat := by
  have single : ∀ m ∈ membersOf properties index, ∃ n,
      ReadsAs (member? (type? depth)) unionStops m.tokens n ∧ n.flat = m.flat := by
    intro m member
    rcases List.mem_append.mp member with listed | other
    · obtain ⟨p, inside, rfl⟩ := List.mem_map.mp listed
      obtain ⟨tree, read, same⟩ := each p inside
      refine ⟨_, readsAs_property (bare p inside) read, ?_⟩
      rw [Member.flat, Member.flat, same]
    · obtain ⟨type, inside, rfl⟩ := List.mem_map.mp other
      obtain ⟨tree, read, same⟩ := further type (Option.mem_toList.mp inside)
      refine ⟨_, readsAs_index read, ?_⟩
      rw [Member.flat, Member.flat, same]
  obtain ⟨ms, same, read⟩ := exists_members? single
  obtain ⟨tree, made, flat⟩ := exists_object same
  refine ⟨tree, fun rest _ => ?_, flat⟩
  have enough (ts : List Token) : ts.length < (ts ++ .mark '}' :: rest).length := by
    rw [List.length_append, List.length_cons]
    omega
  rw [TypeExpr.tokens, tokens_membersOf, List.cons_append, List.append_assoc, List.singleton_append,
    postfix?, primary?, read rest _ (enough _)]
  simp [made]

/-- **A record is of the lowest level.** -/
theorem exists_readsBelow_record {key value : TypeExpr}
    (keys : ∃ tree, ReadsAs (type? depth) unionStops key.tokens tree ∧ tree.flat = key.flat)
    (values : ∃ tree, ReadsAs (type? depth) unionStops value.tokens tree ∧
      tree.flat = value.flat) :
    ∃ tree, ReadsBelow depth (TypeExpr.record key value).tokens tree ∧
      tree.flat = (TypeExpr.record key value).flat := by
  obtain ⟨k, readKey, sameKey⟩ := keys
  obtain ⟨v, readValue, sameValue⟩ := values
  refine ⟨.record k v, fun rest stop => ?_, ?_⟩
  · have tokens : (TypeExpr.record key value).tokens ++ rest = .word "Record" :: .mark '<' ::
        (key.tokens ++ .mark ',' :: (value.tokens ++ .mark '>' :: rest)) := by
      simp [TypeExpr.tokens]
    have first := readKey (.mark ',' :: (value.tokens ++ .mark '>' :: rest))
      (stops_mark (by decide) _)
    have second := readValue (.mark '>' :: rest) (stops_mark (by decide) _)
    rw [tokens, postfix?, primary?, record?, first]
    simp only [Option.bind_eq_bind, Option.bind_some, expect?, if_pos, second]
    rfl
  · rw [TypeExpr.flat, TypeExpr.flat, sameKey, sameValue]

end

/-! ## Every readable type -/

theorem length_le_intercalate {separator ts : List Token} {tss : List (List Token)}
    (member : ts ∈ tss) : ts.length ≤ (List.intercalate separator tss).length := by
  induction tss with
  | nil => cases member
  | cons us tss ih =>
      cases tss with
      | nil =>
          obtain rfl := List.mem_singleton.mp member
          rw [List.intercalate_singleton]
      | cons next tss =>
          rw [List.intercalate_cons_cons, List.length_append, List.length_append]
          rcases List.mem_cons.mp member with rfl | later
          · omega
          · have := ih later
            omega

/-- A type that is grouped on every level deep enough is read inside others. -/
theorem exists_readsAs {type : TypeExpr} {depth : Nat}
    (grouped : ∀ depth, type.tokens.length ≤ depth + 1 → Grouped depth type)
    (enough : type.tokens.length < depth) :
    ∃ tree, ReadsAs (type? depth) unionStops type.tokens tree ∧ tree.flat = type.flat := by
  obtain ⟨depth, rfl⟩ := Nat.exists_eq_succ_of_ne_zero (Nat.ne_zero_of_lt enough)
  exact (grouped depth (Nat.le_of_lt enough)).reads

theorem wordType?_text (type : PrimitiveType) : wordType? type.text = some (.primitive type) := by
  cases type <;> rfl

theorem wordType?_eq_ref {alphabet : Alphabet} {name : String} (named : alphabet.TypeName name) :
    wordType? name = some (.ref name) := by
  have unknown : wordTypes.lookup name = none := by
    refine List.lookup_eq_none_iff.mpr fun entry member => ?_
    rw [bne_iff_ne]
    rintro rfl
    exact named.free (List.mem_map_of_mem member)
  rw [wordType?, unknown]
  exact if_neg (not_or.mpr ⟨named.unreserved, named.other⟩)

/-- **A literal is of the lowest level.** -/
theorem exists_readsBelow_literal {value : Literal} (sound : value.Sound) (depth : Nat) :
    ∃ tree, ReadsBelow depth (TypeExpr.literal value).tokens tree ∧
      tree.flat = (TypeExpr.literal value).flat := by
  have word {name : String} (meaning : wordType? name = some (.literal value)) :
      ∃ tree, ReadsBelow depth [.word name] tree ∧ tree.flat = (TypeExpr.literal value).flat :=
    ⟨_, readsBelow_word meaning, rfl⟩
  have number {x : Decimal.Binary64} (denotes : value.number? = some x) :
      ∃ tree, ReadsBelow depth (numberTokens x) tree ∧
        tree.flat = (TypeExpr.literal value).flat := by
    refine ⟨_, readsBelow_number x, ?_⟩
    rw [TypeExpr.flat, TypeExpr.flat, Literal.denoted_of_number? denotes]
    rfl
  cases value with
  | string text => exact ⟨.literal (.string text), fun _ _ => rfl, rfl⟩
  | int i =>
      obtain ⟨x, found, -⟩ := Decimal.Binary64.exists_ofNat? sound
      have denotes : (Literal.int i).number? = some (x.withSign (decide (i < 0))) := by
        rw [Literal.number?, found]
        rfl
      have tokens : (TypeExpr.literal (.int i)).tokens =
          numberTokens (x.withSign (decide (i < 0))) := by
        rw [TypeExpr.tokens, Literal.tokens, denotes]
        · rfl
        all_goals simp
      rw [tokens]
      exact number denotes
  | float x => exact number rfl
  | bool b =>
      cases b with
      | true => exact word rfl
      | false => exact word rfl
  | null => exact word rfl

/-- The item of an array stands in parentheses if it has to. -/
theorem exists_readsBelow_items {items : TypeExpr} {depth : Nat}
    (grouped : ∀ depth, items.tokens.length ≤ depth + 1 → Grouped depth items)
    (enough : (if items.isCompound then parenthesized items.tokens else items.tokens).length ≤
      depth + 1) :
    ∃ tree, ReadsBelow depth
      (if items.isCompound then parenthesized items.tokens else items.tokens) tree ∧
        tree.flat = items.flat := by
  split at enough
  · rename_i compound
    simp only [parenthesized, List.length_cons, List.length_append] at enough
    rw [if_pos compound]
    exact exists_parenthesized (exists_readsAs grouped (by omega))
  · rename_i plain
    rw [if_neg plain]
    exact (grouped depth enough).below (by simpa using plain)

/-- The part of an intersection stands in parentheses if it has to. -/
theorem exists_chain_part {part : TypeExpr} {depth : Nat}
    (grouped : ∀ depth, part.tokens.length ≤ depth + 1 → Grouped depth part)
    (enough : part.asPart.2.length ≤ depth + 1) :
    ∃ trees, Chain '&' (ReadsAs (postfix? (type? depth)) postfixStops) part.asPart.2 trees ∧
      trees.flatMap (fun tree => tree.flat.components) = part.flat.components := by
  unfold TypeExpr.asPart at enough ⊢
  split at enough
  · rename_i union
    simp only [parenthesized, List.length_cons, List.length_append] at enough
    rw [if_pos union]
    obtain ⟨tree, read, same⟩ := exists_parenthesized (exists_readsAs grouped
      (by omega : part.tokens.length < depth))
    refine ⟨[tree], .single read.readsAs, ?_⟩
    rw [List.flatMap_singleton, same]
  · rename_i plain
    rw [if_neg plain]
    exact (grouped depth enough).parts (by simpa using plain)

/-- The types inside an object type are shorter than the object type. -/
theorem length_lt_of_object {properties : List (Property TypeExpr)} {index : Option TypeExpr}
    {depth : Nat} (enough : (TypeExpr.object properties index).tokens.length ≤ depth + 1) :
    (∀ p ∈ properties, p.type.tokens.length < depth) ∧
      ∀ type ∈ index, type.tokens.length < depth := by
  rw [TypeExpr.tokens, tokens_membersOf, List.length_cons, List.length_append,
    List.length_singleton] at enough
  have short (m : Member) (member : m ∈ membersOf properties index) :
      m.tokens.length < depth := by
    have among : m.tokens ∈ (membersOf properties index).map Member.tokens :=
      List.mem_map_of_mem member
    exact Nat.lt_of_le_of_lt (length_le_intercalate among) (Nat.lt_of_succ_lt_succ enough)
  refine ⟨fun p inside => ?_, fun type inside => ?_⟩
  · have := short (.property p) (List.mem_append_left _ (List.mem_map_of_mem inside))
    simp only [Member.tokens, propertyTokens, List.length_cons, List.length_append] at this
    omega
  · have := short (.index type)
      (List.mem_append_right _ (List.mem_map_of_mem (Option.mem_toList.mpr inside)))
    simp only [Member.tokens, indexTokens, List.length_cons] at this
    omega

/-- **Every readable type is grouped.** -/
theorem grouped {alphabet : Alphabet} {type : TypeExpr} (readable : Readable alphabet type)
    (depth : Nat) (enough : type.tokens.length ≤ depth + 1) : Grouped depth type := by
  induction readable generalizing depth with
  | primitive type => exact .of_below (readsBelow_word (wordType?_text type)) rfl
  | @array items _ ih =>
      rw [TypeExpr.tokens, List.length_append] at enough
      obtain ⟨tree, read, same⟩ := exists_readsBelow_items ih (Nat.le_of_add_right_le enough)
      have brackets : ReadsBelow depth (TypeExpr.array items).tokens (.array tree) := by
        rw [TypeExpr.tokens]
        exact read.brackets
      refine .of_below brackets ?_
      rw [TypeExpr.flat, TypeExpr.flat, same]
  | @union members nonempty _ ih =>
      refine ⟨fun simple => ?_, fun noUnion => ?_, ?_⟩
      · cases simple
      · cases noUnion
      have tokens : (TypeExpr.union members).tokens =
          List.intercalate [.mark '|'] (members.map TypeExpr.tokens) := by
        rw [TypeExpr.tokens, (TypeExpr.texts_eq members).2, List.map_map]
        rfl
      rw [tokens] at enough ⊢
      rw [TypeExpr.alternatives_flat_union]
      refine exists_chain nonempty fun member inside => (ih member inside depth ?_).members
      exact (length_le_intercalate (List.mem_map_of_mem inside)).trans enough
  | @intersection parts nonempty _ ih =>
      refine .of_parts rfl ?_
      have tokens : (TypeExpr.intersection parts).tokens =
          List.intercalate [.mark '&'] (parts.map fun part => part.asPart.2) := by
        rw [TypeExpr.tokens, (TypeExpr.partTexts_eq parts).2, List.map_map]
        rfl
      rw [tokens] at enough ⊢
      rw [TypeExpr.components_flat_intersection]
      refine exists_chain nonempty fun part inside => exists_chain_part (ih part inside) ?_
      have among : part.asPart.2 ∈ parts.map fun part => part.asPart.2 :=
        List.mem_map_of_mem inside
      exact (length_le_intercalate among).trans enough
  | @object properties index bare _ _ each further =>
      obtain ⟨inProperty, inIndex⟩ := length_lt_of_object enough
      obtain ⟨tree, read, same⟩ := exists_readsBelow_object bare
        (fun p inside => exists_readsAs (each p inside) (inProperty p inside))
        (fun type inside => exists_readsAs (further type inside) (inIndex type inside))
      exact .of_below read same
  | @record key value _ _ keys values =>
      rw [TypeExpr.tokens] at enough
      simp only [List.length_cons, List.length_append] at enough
      have inKey : key.tokens.length < depth := by omega
      have inValue : value.tokens.length < depth := by omega
      obtain ⟨tree, read, same⟩ := exists_readsBelow_record (exists_readsAs keys inKey)
        (exists_readsAs values inValue)
      exact .of_below read same
  | literal sound =>
      obtain ⟨tree, read, same⟩ := exists_readsBelow_literal sound depth
      exact .of_below read same
  | ref named => exact .of_below (readsBelow_word (wordType?_eq_ref named)) rfl

end Grammar

/-- **A printed type is read with its grouping.** The text of a readable type denotes a type, and
that type has the same flat form. -/
theorem Alphabet.exists_type?_text {alphabet : Alphabet} {type : TypeExpr}
    (readable : Readable alphabet type) :
    ∃ tree, alphabet.type? type.text = some tree ∧ tree.flat = type.flat := by
  have tokens := (writes_text readable).tokens?
  have grouped := Grammar.grouped readable type.tokens.length (Nat.le_succ _)
  obtain ⟨tree, read, same⟩ := grouped.reads
  have found := read [] (fun _ _ => nofun)
  rw [List.append_nil] at found
  refine ⟨tree, ?_, same⟩
  rw [Alphabet.type?, tokens]
  simp [found]

end ClientGen.TypeScript
