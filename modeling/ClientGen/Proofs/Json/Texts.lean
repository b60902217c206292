import ClientGen.Proofs.Json.Numerals
import ClientGen.Proofs.Json.Strings
import ClientGen.Proofs.Json.Tree

/-!
# Texts of values

The text of a value is scanned into the tokens of the value, blanks and line ends aside, and the
tokens are built into its tree. So whoever reads the text of a value reads the tree of the value.

* `Json.numbers`, `Json.mapNumbers` — the numbers inside a value, and other numbers for them.
* `Json.Number.reread` — what the text of a number is read as.
* `Json.Number.Faithful` — numbers that are read as they were written.
* `Token.scan_prettyChars` — the text of a value is scanned into its tokens, whatever follows it.
* `Source.parse_pretty_reread` — the tree of the text of a value.
* `parse_numberText` — the text of a faithful number is read as that number.
* `parse_pretty` — the text of a value is read as the value, unless it nests too deep.

**Numbers.** An integer of at most sixty-four bits is always read as it was written. A
floating-point number is written with its shortest digits and read in two rounded steps, so another
number may be read for it, and faithfulness is a condition.
-/

namespace ClientGen.Json

open Text

/-! ## Numbers inside values -/

mutual

/-- **The numbers inside a value.** -/
def numbers : Json → List Number
  | .null => []
  | .bool _ => []
  | .number n => [n]
  | .string _ => []
  | .array vs => itemNumbers vs
  | .object ms => memberNumbers ms

/-- The numbers inside items. -/
def itemNumbers : List Json → List Number
  | [] => []
  | v :: vs => numbers v ++ itemNumbers vs

/-- The numbers inside the values of members. -/
def memberNumbers : List (String × Json) → List Number
  | [] => []
  | (_, v) :: ms => numbers v ++ memberNumbers ms

end

mutual

/-- **Other numbers** inside a value. -/
def mapNumbers (f : Number → Number) : Json → Json
  | .null => .null
  | .bool b => .bool b
  | .number n => .number (f n)
  | .string s => .string s
  | .array vs => .array (mapItemNumbers f vs)
  | .object ms => .object (mapMemberNumbers f ms)

/-- Other numbers inside items. -/
def mapItemNumbers (f : Number → Number) : List Json → List Json
  | [] => []
  | v :: vs => mapNumbers f v :: mapItemNumbers f vs

/-- Other numbers inside the values of members. -/
def mapMemberNumbers (f : Number → Number) : List (String × Json) → List (String × Json)
  | [] => []
  | (k, v) :: ms => (k, mapNumbers f v) :: mapMemberNumbers f ms

end

mutual

/-- Numbers that stay leave the value as it is. -/
theorem mapNumbers_eq_self {f : Number → Number} (v : Json) (fixed : ∀ n ∈ v.numbers, f n = n) :
    v.mapNumbers f = v := by
  cases v with
  | number n => rw [mapNumbers, fixed n (by simp [numbers])]
  | array vs => rw [mapNumbers, mapItemNumbers_eq_self vs fixed]
  | object ms => rw [mapNumbers, mapMemberNumbers_eq_self ms fixed]
  | null => rfl
  | bool b => rfl
  | string s => rfl

theorem mapItemNumbers_eq_self {f : Number → Number} (vs : List Json)
    (fixed : ∀ n ∈ itemNumbers vs, f n = n) : mapItemNumbers f vs = vs := by
  cases vs with
  | nil => rfl
  | cons v vs =>
      have within : ∀ n ∈ v.numbers ++ itemNumbers vs, f n = n := fixed
      obtain ⟨first, rest⟩ := List.forall_mem_append.mp within
      rw [mapItemNumbers, mapNumbers_eq_self v first, mapItemNumbers_eq_self vs rest]

theorem mapMemberNumbers_eq_self {f : Number → Number} (ms : List (String × Json))
    (fixed : ∀ n ∈ memberNumbers ms, f n = n) : mapMemberNumbers f ms = ms := by
  cases ms with
  | nil => rfl
  | cons m ms =>
      obtain ⟨k, v⟩ := m
      have within : ∀ n ∈ v.numbers ++ memberNumbers ms, f n = n := fixed
      obtain ⟨first, rest⟩ := List.forall_mem_append.mp within
      rw [mapMemberNumbers, mapNumbers_eq_self v first, mapMemberNumbers_eq_self ms rest]

end

/-- **What holds of every number** inside a value. -/
def Each (P : Number → Prop) (v : Json) : Prop :=
  ∀ n ∈ v.numbers, P n

section

variable {P : Number → Prop}

theorem each_bool (b : Bool) : (Json.bool b).Each P :=
  nofun

theorem each_string (s : String) : (Json.string s).Each P :=
  nofun

theorem each_array {vs : List Json} (items : ∀ v ∈ vs, v.Each P) : (Json.array vs).Each P := by
  show ∀ n ∈ itemNumbers vs, P n
  induction vs with
  | nil => nofun
  | cons v vs ih =>
      obtain ⟨first, rest⟩ := List.forall_mem_cons.mp items
      rw [itemNumbers]
      exact List.forall_mem_append.mpr ⟨first, ih rest⟩

theorem each_object {ms : List (String × Json)} (members : ∀ m ∈ ms, m.2.Each P) :
    (Json.object ms).Each P := by
  show ∀ n ∈ memberNumbers ms, P n
  induction ms with
  | nil => nofun
  | cons m ms ih =>
      obtain ⟨first, rest⟩ := List.forall_mem_cons.mp members
      rw [memberNumbers]
      exact List.forall_mem_append.mpr ⟨first, ih rest⟩

theorem each_ofStrings (ss : List String) : (ofStrings ss).Each P := by
  refine each_array fun v member => ?_
  obtain ⟨s, -, rfl⟩ := List.mem_map.mp member
  exact each_string s

end

/-- A number whose text is read as a number, though not always as the same one. -/
def Number.Readable (n : Number) : Prop :=
  ∃ m, parse n.text = .ok (.number m)

/-- **What the text of a number is read as.** -/
def Number.reread (n : Number) : Number :=
  match parse n.text with
  | .ok (.number m) => m
  | _ => n

theorem Number.Readable.parse_eq {n : Number} (readable : n.Readable) :
    parse n.text = .ok (.number n.reread) := by
  obtain ⟨m, parsed⟩ := readable
  rw [reread, parsed]

/-- **A value whose numbers can be read** from their texts. -/
def Readable (v : Json) : Prop :=
  v.Each Number.Readable

/-- **A number that is read as it was written**: an integer of at most sixty-four bits, or a
floating-point number whose text is read as that number. -/
def Number.Faithful : Number → Prop
  | .int i => -(2 ^ 63) ≤ i ∧ i < 2 ^ 64
  | .float x => parse (Number.float x).text = .ok (.number (.float x))

/-- **A value whose numbers are read as they were written.** -/
def Faithful (v : Json) : Prop :=
  ∀ n ∈ v.numbers, n.Faithful

theorem faithful_string (s : String) : (Json.string s).Faithful :=
  each_string s

theorem faithful_object {ms : List (String × Json)} (members : ∀ m ∈ ms, m.2.Faithful) :
    (Json.object ms).Faithful :=
  each_object members

theorem faithful_ofStrings (ss : List String) : (ofStrings ss).Faithful :=
  each_ofStrings ss

/-- A tree whose value is a number is a number. -/
theorem Source.eq_number_of_value {tree : Source} {room : Nat} {n : Number}
    (value : tree.value room = .ok (.number n)) : ∃ skipped, tree = .number ⟨.ok n, skipped⟩ := by
  cases tree with
  | number lexeme =>
      obtain ⟨read, skipped⟩ := lexeme
      cases read with
      | error fault => cases value
      | ok m =>
          cases value
          exact ⟨skipped, rfl⟩
  | string lexeme =>
      obtain ⟨read, skipped⟩ := lexeme
      cases read <;> cases value
  | array items atEnd =>
      unfold Source.value at value
      cases inner : enter room with
      | error failure => simp [inner, bind, Except.bind] at value
      | ok room =>
          cases values : itemValues room items <;> cases atEnd <;>
            simp [inner, values, check, bind, Except.bind, pure, Except.pure] at value
  | object members atEnd =>
      unfold Source.value at value
      cases inner : enter room with
      | error failure => simp [inner, bind, Except.bind] at value
      | ok room =>
          cases values : memberValues room members <;> cases atEnd <;>
            simp [inner, values, check, bind, Except.bind, pure, Except.pure] at value
  | null => cases value
  | bool b => cases value
  | fault fault => cases value

namespace Token

/-! ## Blanks, marks and words -/

theorem scan_space {c : Char} (space : isSpace c) (cs : List Char) : scan (c :: cs) = scan cs := by
  rw [scan, if_pos space]

theorem scan_replicate (n : Nat) (cs : List Char) :
    scan (List.replicate n ' ' ++ cs) = scan cs := by
  induction n with
  | zero => rfl
  | succ n ih => rw [List.replicate_succ, List.cons_append, scan_space rfl, ih]

theorem scan_newline (level : Nat) (cs : List Char) : scan (newline level ++ cs) = scan cs := by
  rw [newline, List.cons_append, scan_space rfl, scan_replicate]

/-- A mark is one token. -/
theorem scan_mark {c : Char} {token : Token} (mark : mark? c = some token) (cs : List Char) :
    scan (c :: cs) = token :: scan cs := by
  have others : isSpace c = false ∧ ¬ c = '"' ∧ ¬ (c = '-' ∨ isAsciiDigit c) := by
    unfold mark? at mark
    split_ifs at mark <;> subst c <;> decide
  obtain ⟨space, quote, number⟩ := others
  rw [scan, if_neg (by simp [space]), if_neg quote, if_neg number]
  simp only [mark]

theorem after_append (word cs : List Char) : after word (word ++ cs) = .ok cs := by
  induction word with
  | nil => rfl
  | cons letter word ih => rw [List.cons_append, after, if_pos rfl, ih]

/-- A word is one token. -/
theorem scan_word {c : Char} {token : Token} {letters : List Char}
    (word : word? c = some (token, letters)) (cs : List Char) :
    scan (c :: (letters ++ cs)) = token :: scan cs := by
  have others : isSpace c = false ∧ ¬ c = '"' ∧ ¬ (c = '-' ∨ isAsciiDigit c) ∧ mark? c = none := by
    unfold word? at word
    split_ifs at word <;> subst c <;> decide
  obtain ⟨space, quote, number, mark⟩ := others
  rw [scan, if_neg (by simp [space]), if_neg quote, if_neg number]
  simp only [mark, word]
  split
  · rename_i rest found
    rw [after_append] at found
    cases found
    rfl
  · rename_i fault found
    rw [after_append] at found
    cases found

/-! ## Numbers -/

/-- A numeral starts with a minus or with a digit. -/
theorem start_of_scan {cs : List Char} {result : Numeral × List Char}
    (scanned : Numeral.scan cs = .ok result) :
    ∃ c tail, cs = c :: tail ∧ (c = '-' ∨ isAsciiDigit c) := by
  cases cs with
  | nil => cases scanned
  | cons c tail =>
      refine ⟨c, tail, rfl, ?_⟩
      by_cases minus : c = '-'
      · exact .inl minus
      · refine .inr (Bool.of_not_eq_false fun other => ?_)
        have positive : Numeral.scanMinus (c :: tail) = (false, c :: tail) := by
          simp [Numeral.scanMinus, minus]
        have none : Numeral.digits (c :: tail) = [] := by
          simp [Numeral.digits, other]
        obtain ⟨_, _, -, whole, -⟩ := Numeral.scan_eq_ok_iff.mp scanned
        rw [positive, Numeral.scanWhole, none] at whole
        cases whole

/-- A number is one token. -/
theorem scan_number {cs after : List Char} {lexeme : Lexeme Number}
    (scanned : scanNumber cs = (lexeme, some after)) : scan cs = .number lexeme :: scan after := by
  obtain ⟨result, found⟩ : ∃ result, Numeral.scan cs = .ok result := by
    unfold scanNumber at scanned
    split at scanned
    · exact ⟨_, ‹_›⟩
    · cases scanned
  obtain ⟨c, tail, rfl, start⟩ := start_of_scan found
  have others : isSpace c = false ∧ ¬ c = '"' := by
    rcases start with rfl | digit
    · decide
    · constructor
      · refine Bool.of_not_eq_true fun space => ?_
        simp only [isSpace, Bool.or_eq_true, beq_iff_eq] at space
        rcases space with ((rfl | rfl) | rfl) | rfl <;> exact absurd digit (by decide)
      · rintro rfl
        exact absurd digit (by decide)
  rw [scan, if_neg (by simp [others.1]), if_neg others.2, if_pos start]
  split
  · rename_i n rest same
    rw [scanned] at same
    cases same
    rfl
  · rename_i n same
    rw [scanned] at same
    cases same

/-- A text without tokens consists of blanks. -/
theorem scan_append_of_nil {cs : List Char} (empty : scan cs = []) (rest : List Char) :
    scan (cs ++ rest) = scan rest := by
  induction cs with
  | nil => rfl
  | cons c cs ih =>
      by_cases space : isSpace c
      · rw [scan_space space] at empty
        rw [List.cons_append, scan_space space, ih empty]
      · rw [scan, if_neg space] at empty
        split at empty
        · split at empty <;> cases empty
        · split at empty
          · split at empty <;> cases empty
          · split at empty
            · cases empty
            · split at empty <;> cases empty
            · cases empty

/-- What is read as a number has been passed over as well. -/
theorem scanNumber_ok {cs : List Char} {n : Number} {skipped : Option Fault}
    {after : Option (List Char)} (scanned : scanNumber cs = (⟨.ok n, skipped⟩, after)) :
    skipped = none ∧ after.isSome := by
  unfold scanNumber at scanned
  split at scanned
  · split at scanned
    · cases scanned
      exact ⟨rfl, rfl⟩
    · cases scanned
  · cases scanned

theorem mark?_ne_number (c : Char) (lexeme : Lexeme Number) : mark? c ≠ some (.number lexeme) := by
  unfold mark?
  split_ifs <;> simp

theorem word?_ne_number (c : Char) (lexeme : Lexeme Number) (letters : List Char) :
    word? c ≠ some (.number lexeme, letters) := by
  unfold word?
  split_ifs <;> simp

/-- **A text that is one number is that number with a further text behind it**, as long as that text
does not continue the number. -/
theorem scan_append_of_number {cs rest : List Char} {n : Number} {skipped : Option Fault}
    (single : scan cs = [.number ⟨.ok n, skipped⟩]) (ended : Numeral.Ended rest) :
    scan (cs ++ rest) = .number (.pure n) :: scan rest := by
  -- blanks may stand before the number and after it, so the induction is on the text
  induction cs with
  | nil => rw [scan] at single; cases single
  | cons c cs ih =>
      by_cases space : isSpace c
      · rw [scan_space space] at single
        rw [List.cons_append, scan_space space, ih single]
      · rw [scan, if_neg space] at single
        split at single
        · split at single <;> cases single
        · split at single
          · split at single
            · rename_i lexeme after found
              obtain ⟨same, empty⟩ := List.cons.inj single
              obtain rfl := Token.number.inj same
              obtain ⟨rfl, -⟩ := scanNumber_ok found
              rw [scan_number (scanNumber_append found (.inr ended)), scan_append_of_nil empty]
              rfl
            · rename_i lexeme found
              obtain rfl := Token.number.inj (List.cons.inj single).1
              cases (scanNumber_ok found).2
          · split at single
            · rename_i token mark
              obtain rfl := (List.cons.inj single).1
              exact absurd mark (mark?_ne_number c _)
            · rename_i token letters mark word
              split at single
              · obtain rfl := (List.cons.inj single).1
                exact absurd word (word?_ne_number c _ _)
              · cases single
            · cases single

/-- A text whose value is a number has that number as its only token. -/
theorem scan_of_parse {text : String} {n : Number} (parsed : parse text = .ok (.number n)) :
    ∃ skipped, scan text.toList = [.number ⟨.ok n, skipped⟩] := by
  unfold parse Cursor.ofText at parsed
  cases value : (Source.parse text).value.value depthLimit with
  | error failure =>
      simp only [Cursor.value, value, bind, Except.bind] at parsed
      cases parsed
  | ok v =>
      cases ending : (Source.parse text).atEnd with
      | some fault =>
          simp only [Cursor.value, value, ending, check, bind, Except.bind] at parsed
          cases parsed
      | none =>
          simp only [Cursor.value, value, ending, check, bind, Except.bind] at parsed
          obtain rfl : v = .number n := Except.ok.inj parsed
          obtain ⟨skipped, root⟩ := Source.eq_number_of_value value
          refine ⟨skipped, Source.tokens_of_build_number ?_⟩
          rw [← root, ← ending]
          rfl

/-- **The text of a number is one token**, whatever follows it without continuing it. -/
theorem scan_numberText {n : Number} (readable : n.Readable) {rest : List Char}
    (ended : Numeral.Ended rest) :
    scan (n.text.toList ++ rest) = .number (.pure n.reread) :: scan rest := by
  obtain ⟨skipped, single⟩ := scan_of_parse readable.parse_eq
  exact scan_append_of_number single ended

/-! ## Values -/

/-- What follows a value inside an array or object does not continue a number. -/
theorem ended_prettyItems (level : Nat) (vs : List Json) (rest : List Char) :
    Numeral.Ended (prettyItems level vs ++ rest) := by
  cases vs with
  | nil => exact Numeral.ended_cons (by decide)
  | cons v vs => exact Numeral.ended_cons (by decide)

theorem ended_prettyMembers (level : Nat) (ms : List (String × Json)) (rest : List Char) :
    Numeral.Ended (prettyMembers level ms ++ rest) := by
  cases ms with
  | nil => exact Numeral.ended_cons (by decide)
  | cons m ms => exact Numeral.ended_cons (by decide)

mutual

/-- **The text of a value is scanned into its tokens**, whatever follows it without continuing a
number, with the numbers as they are read. -/
theorem scan_prettyChars (v : Json) (level : Nat) {rest : List Char} (readable : v.Readable)
    (ended : Numeral.Ended rest) :
    scan (prettyChars level v ++ rest) = (v.mapNumbers Number.reread).tokens ++ scan rest := by
  cases v with
  | null => exact scan_word (c := 'n') rfl rest
  | bool b =>
      cases b with
      | false => exact scan_word (c := 'f') rfl rest
      | true => exact scan_word (c := 't') rfl rest
  | number n =>
      rw [prettyChars, mapNumbers, tokens]
      exact scan_numberText (readable n (by simp [numbers])) ended
  | string s =>
      rw [prettyChars, mapNumbers, tokens]
      exact scan_stringText s rest
  | array vs =>
      cases vs with
      | nil =>
          rw [prettyChars, mapNumbers, mapItemNumbers, tokens]
          show scan ('[' :: ']' :: rest) = _
          rw [scan_mark rfl, scan_mark rfl]
          rfl
      | cons v vs =>
          have within : ∀ n ∈ v.numbers ++ itemNumbers vs, n.Readable := readable
          obtain ⟨first, others⟩ := List.forall_mem_append.mp within
          have text : prettyChars level (.array (v :: vs)) ++ rest =
              '[' :: (newline (level + 1) ++
                (prettyChars (level + 1) v ++ (prettyItems level vs ++ rest))) := by
            simp [prettyChars]
          rw [text, scan_mark rfl, scan_newline,
            scan_prettyChars v (level + 1) first (ended_prettyItems level vs rest),
            scan_prettyItems vs level rest others]
          simp [mapNumbers, mapItemNumbers, tokens]
  | object ms =>
      cases ms with
      | nil =>
          rw [prettyChars, mapNumbers, mapMemberNumbers, tokens]
          show scan ('\x7b' :: '\x7d' :: rest) = _
          rw [scan_mark rfl, scan_mark rfl]
          rfl
      | cons m ms =>
          obtain ⟨k, v⟩ := m
          have within : ∀ n ∈ v.numbers ++ memberNumbers ms, n.Readable := readable
          obtain ⟨first, others⟩ := List.forall_mem_append.mp within
          have text : prettyChars level (.object ((k, v) :: ms)) ++ rest =
              '\x7b' :: (newline (level + 1) ++ (stringText k ++ ':' :: ' ' ::
                (prettyChars (level + 1) v ++ (prettyMembers level ms ++ rest)))) := by
            simp [prettyChars]
          rw [text, scan_mark rfl, scan_newline, scan_stringText, scan_mark rfl, scan_space rfl,
            scan_prettyChars v (level + 1) first (ended_prettyMembers level ms rest),
            scan_prettyMembers ms level rest others]
          simp [mapNumbers, mapMemberNumbers, tokens, Lexeme.pure]

/-- Further items and the end of an array are scanned into their tokens. -/
theorem scan_prettyItems (vs : List Json) (level : Nat) (rest : List Char)
    (readable : ∀ n ∈ itemNumbers vs, n.Readable) :
    scan (prettyItems level vs ++ rest) =
      itemTokens (mapItemNumbers Number.reread vs) ++ scan rest := by
  cases vs with
  | nil =>
      rw [prettyItems, mapItemNumbers, itemTokens, List.append_assoc, scan_newline]
      exact scan_mark rfl rest
  | cons v vs =>
      have within : ∀ n ∈ v.numbers ++ itemNumbers vs, n.Readable := readable
      obtain ⟨first, others⟩ := List.forall_mem_append.mp within
      have text : prettyItems level (v :: vs) ++ rest =
          ',' :: (newline (level + 1) ++
            (prettyChars (level + 1) v ++ (prettyItems level vs ++ rest))) := by
        simp [prettyItems]
      rw [text, scan_mark rfl, scan_newline,
        scan_prettyChars v (level + 1) first (ended_prettyItems level vs rest),
        scan_prettyItems vs level rest others]
      simp [mapItemNumbers, itemTokens]

/-- Further members and the end of an object are scanned into their tokens. -/
theorem scan_prettyMembers (ms : List (String × Json)) (level : Nat) (rest : List Char)
    (readable : ∀ n ∈ memberNumbers ms, n.Readable) :
    scan (prettyMembers level ms ++ rest) =
      memberTokens (mapMemberNumbers Number.reread ms) ++ scan rest := by
  cases ms with
  | nil =>
      rw [prettyMembers, mapMemberNumbers, memberTokens, List.append_assoc, scan_newline]
      exact scan_mark rfl rest
  | cons m ms =>
      obtain ⟨k, v⟩ := m
      have within : ∀ n ∈ v.numbers ++ memberNumbers ms, n.Readable := readable
      obtain ⟨first, others⟩ := List.forall_mem_append.mp within
      have text : prettyMembers level ((k, v) :: ms) ++ rest =
          ',' :: (newline (level + 1) ++ (stringText k ++ ':' :: ' ' ::
            (prettyChars (level + 1) v ++ (prettyMembers level ms ++ rest)))) := by
        simp [prettyMembers]
      rw [text, scan_mark rfl, scan_newline, scan_stringText, scan_mark rfl, scan_space rfl,
        scan_prettyChars v (level + 1) first (ended_prettyMembers level ms rest),
        scan_prettyMembers ms level rest others]
      simp [mapMemberNumbers, memberTokens, Lexeme.pure]

end

end Token

/-! ## Whole texts -/

/-- A text that is scanned as a number to its end is read as that number. -/
theorem parse_of_scanNumber {text : String} {n : Number}
    (scanned : scanNumber text.toList = (.pure n, some [])) : parse text = .ok (.number n) := by
  have nothing : Token.scan [] = [] := by rw [Token.scan]
  have tree : Source.parse text = ⟨.number (.pure n), none⟩ := by
    rw [Source.parse, Token.scan_number scanned, nothing]
    rfl
  rw [parse, Cursor.ofText, tree]
  rfl

/-- A faithful number is read from its text. -/
theorem parse_numberText {n : Number} (faithful : n.Faithful) : parse n.text = .ok (.number n) := by
  cases n with
  | int i => exact parse_of_scanNumber (scanNumber_text faithful.1 faithful.2)
  | float x => exact faithful

theorem Number.Faithful.readable {n : Number} (faithful : n.Faithful) : n.Readable :=
  ⟨n, parse_numberText faithful⟩

theorem Number.Faithful.reread_eq {n : Number} (faithful : n.Faithful) : n.reread = n := by
  rw [reread, parse_numberText faithful]

/-- A value that is read as it was written is its own reading. -/
theorem Faithful.mapNumbers_eq {v : Json} (faithful : v.Faithful) :
    v.mapNumbers Number.reread = v :=
  mapNumbers_eq_self v fun n member => (faithful n member).reread_eq

/-- **The tree of the text of a value** is the tree of the value with the numbers as they are read,
and nothing is wrong after it. -/
theorem Source.parse_pretty_reread (v : Json) (readable : v.Readable) :
    parse v.pretty = ⟨(v.mapNumbers Number.reread).source, none⟩ := by
  have text : v.pretty.toList = prettyChars 0 v ++ ['\n'] := by
    rw [pretty, String.toList_ofList]
  have last : Token.scan ['\n'] = [] := by
    rw [Token.scan_space rfl, Token.scan]
  rw [parse, text, Token.scan_prettyChars v 0 readable (Numeral.ended_cons (by decide)), last,
    build_tokens]
  rfl

/-- The tree of the text of a value that is read as it was written is the tree of the value. -/
theorem Source.parse_pretty (v : Json) (faithful : v.Faithful) :
    parse v.pretty = ⟨v.source, none⟩ := by
  rw [parse_pretty_reread v fun n member => (faithful n member).readable, faithful.mapNumbers_eq]

/-- **The text of a value is read as the value**, unless it nests too deep. -/
theorem parse_pretty {v : Json} (faithful : v.Faithful) (shallow : v.depth ≤ depthLimit) :
    parse v.pretty = .ok v := by
  rw [parse, Cursor.ofText, Source.parse_pretty v faithful]
  simp only [Cursor.value, Source.value_source v depthLimit shallow, check, bind, Except.bind]
  rfl

end ClientGen.Json
