import ClientGen.Proofs.Naming.Grammar
import ClientGen.Proofs.TypeScript.FlatTypes
import Mathlib.Data.Bool.AllAny

/-!
# The tokens of what is printed

What is printed is taken apart into the tokens that it was put together from. A name or a numeral
ends where a character stands that cannot continue it, and the printer puts such a character behind
everything that it prints.

* `Alphabet.Reads` — a text is read as some tokens, up to a rest.
* `Alphabet.Writes` — a text stands for some tokens wherever a boundary follows.
* `Alphabet.writes_word`, `Alphabet.writes_key`, `Alphabet.writes_literal` — names, keys and
  literals.
* `Alphabet.writes_intercalate` — texts between separators.
-/

namespace ClientGen.TypeScript

open Text Decimal

namespace Alphabet

variable (alphabet : Alphabet)

/-! ## Reading up to a rest -/

/-- **A text is read as some tokens**, up to a rest. -/
def Reads (cs : List Char) (ts : List Token) (rest : List Char) : Prop :=
  alphabet.tokens? cs = (alphabet.tokens? rest).map (ts ++ ·)

/-- A name in the alphabet. -/
def Names (name : String) : Prop :=
  ∃ c cs, name.toList = c :: cs ∧ alphabet.starts c ∧ ∀ d ∈ cs, alphabet.continues d

/-- The characters that stand behind what is printed. -/
def boundaries : List Char :=
  [' ', '[', ']', ')', '<', '>', ',', ';', ':', '?']

/-- **A rest that starts with a boundary**, or is empty. -/
def Boundary (rest : List Char) : Prop :=
  ∀ c ∈ rest.head?, c ∈ boundaries

/-- **A text stands for some tokens** wherever a boundary follows. -/
def Writes (text : String) (ts : List Token) : Prop :=
  ∀ rest, Boundary rest → alphabet.Reads (text.toList ++ rest) ts rest

variable {alphabet} {cs ds rest : List Char} {ts us : List Token}

theorem boundary_cons {c : Char} (member : c ∈ boundaries) : Boundary (c :: cs) := by
  intro d same
  obtain rfl := Option.some.inj same
  exact member

theorem Reads.trans (first : alphabet.Reads cs ts ds) (second : alphabet.Reads ds us rest) :
    alphabet.Reads cs (ts ++ us) rest := by
  unfold Reads at first second ⊢
  rw [first, second, Option.map_map]
  congr 1
  funext vs
  exact (List.append_assoc ts us vs).symm

theorem reads_nil (rest : List Char) : alphabet.Reads rest [] rest := by
  unfold Reads
  simp

theorem reads_space {c : Char} (space : c ∈ spaces) : alphabet.Reads (c :: rest) [] rest := by
  unfold Reads
  rw [tokens?, if_pos space]
  simp

/-- What is read as one token. -/
theorem reads_token {c : Char} {token : Token} (visible : c ∉ spaces)
    (read : alphabet.token? (c :: cs) = some (token, rest)) :
    alphabet.Reads (c :: cs) [token] rest := by
  unfold Reads
  rw [tokens?, if_neg visible]
  split
  · rename_i found after same
    rw [read] at same
    cases same
    rfl
  · rename_i none
    rw [read] at none
    cases none

theorem Writes.tokens? {text : String} (written : alphabet.Writes text ts) :
    alphabet.tokens? text.toList = some ts := by
  have read := written [] (by simp [Boundary])
  rw [Reads, List.append_nil, Alphabet.tokens?.eq_def alphabet []] at read
  simpa using read

/-! ## Single tokens -/

theorem reads_mark {c : Char} (mark : c ∈ marks) : alphabet.Reads (c :: rest) [.mark c] rest := by
  have visible : c ∉ spaces := by
    have apart : ∀ d ∈ marks, d ∉ spaces := List.all_iff_forall_prop.mp rfl
    exact apart c mark
  refine reads_token visible ?_
  rw [token?, if_pos mark]

theorem reads_string (text : String) (rest : List Char) :
    alphabet.Reads ((quote text).toList ++ rest) [.string text] rest := by
  obtain ⟨cs, written⟩ : ∃ cs, (quote text).toList ++ rest = '"' :: cs := by
    simp [quote]
  rw [written]
  refine reads_token (by decide) ?_
  rw [token?, if_neg (by decide), if_pos rfl, ← written, literal?_quote]
  rfl

theorem Boundary.not_continues (boundary : Boundary rest) :
    ∀ c ∈ rest.head?, alphabet.continues c = false := by
  intro c member
  have ascii : ∀ d ∈ boundaries, d.toNat < 128 ∧ isIdentifierPart d = false :=
    List.all_iff_forall_prop.mp rfl
  obtain ⟨small, other⟩ := ascii c (boundary c member)
  rw [alphabet.continues_ascii c small, other]

theorem Boundary.ended (boundary : Boundary rest) : Json.Numeral.Ended rest := by
  intro c member
  have apart : ∀ d ∈ boundaries, Json.Numeral.continues d = false :=
    List.all_iff_forall_prop.mp rfl
  exact apart c (boundary c member)

/-- A digit is no space, no mark, no quote, and does not start a name. -/
theorem digit_apart {c : Char} (digit : isAsciiDigit c) :
    c ∉ spaces ∧ c ∉ marks ∧ c ≠ '"' ∧ c.toNat < 128 ∧ isIdentifierStart c = false := by
  have others : ∀ d ∈ '"' :: (spaces ++ marks), isAsciiDigit d = false :=
    List.all_iff_forall_prop.mp rfl
  have other (listed : c ∈ '"' :: (spaces ++ marks)) : False := by
    rw [others c listed] at digit
    cases digit
  refine ⟨fun space => other ?_, fun mark => other ?_, fun quote => other ?_, ?_⟩
  · exact List.mem_cons_of_mem _ (List.mem_append_left _ space)
  · exact List.mem_cons_of_mem _ (List.mem_append_right _ mark)
  · exact quote ▸ List.mem_cons_self ..
  · have ascii := toNat_lt_of_isAsciiAlphanumeric (isAsciiAlphanumeric_of_isAsciiDigit digit)
    refine ⟨ascii, ?_⟩
    revert digit
    exact ascii_induction (P := fun c => isAsciiDigit c → isIdentifierStart c = false) (by decide)
      ascii

/-- What starts a name starts nothing else. -/
theorem starts_apart {c : Char} (starts : alphabet.starts c) :
    c ∉ spaces ∧ c ∉ marks ∧ c ≠ '"' ∧ ¬ isAsciiDigit c := by
  have other (ascii : c.toNat < 128 ∧ isIdentifierStart c = false) : False := by
    rw [alphabet.starts_ascii c ascii.1, ascii.2] at starts
    cases starts
  have others : ∀ d ∈ '"' :: (spaces ++ marks), d.toNat < 128 ∧ isIdentifierStart d = false :=
    List.all_iff_forall_prop.mp rfl
  refine ⟨fun space => other (others c ?_), fun mark => other (others c ?_),
    fun quote => other (others c ?_), fun digit => other (digit_apart digit).2.2.2⟩
  · exact List.mem_cons_of_mem _ (List.mem_append_left _ space)
  · exact List.mem_cons_of_mem _ (List.mem_append_right _ mark)
  · exact quote ▸ List.mem_cons_self ..

theorem writes_word {name : String} (named : alphabet.Names name) :
    alphabet.Writes name [.word name] := by
  intro rest boundary
  obtain ⟨c, cs, letters, starts, continues⟩ := named
  obtain ⟨visible, noMark, noQuote, noDigit⟩ := starts_apart starts
  obtain ⟨taken, left⟩ := run_append continues boundary.not_continues
  rw [letters, List.cons_append]
  refine reads_token visible ?_
  rw [token?, if_neg noMark, if_neg noQuote, if_neg noDigit, if_pos starts, taken, left, ← letters,
    String.ofList_toList]

theorem reads_numeral {numeral : Json.Numeral} {x : Binary64}
    (scanned : Json.Numeral.scan cs = .ok (numeral, [])) (unsigned : numeral.negative = false)
    (value : numeral.nearest? = some x) (boundary : Boundary rest) :
    alphabet.Reads (cs ++ rest) [.number x] rest := by
  obtain ⟨c, after, rfl, digit⟩ := Json.Numeral.exists_digit_of_scan scanned unsigned
  obtain ⟨visible, noMark, noQuote, -⟩ := digit_apart digit
  have later := Json.Numeral.scan_append scanned (.inr boundary.ended)
  have ended : ¬ rest.head?.any alphabet.continues := by
    intro some
    obtain ⟨d, first, continues⟩ := (Option.any_eq_true _ _).mp some
    rw [boundary.not_continues d first] at continues
    cases continues
  rw [List.cons_append] at later ⊢
  refine reads_token visible ?_
  rw [token?, if_neg noMark, if_neg noQuote, if_pos digit, number?, later]
  simp only [List.nil_append, if_neg ended, value]
  rfl

/-! ## Texts between separators -/

/-- **Texts between separators stand for their tokens between marks.** -/
theorem writes_intercalate {separator : String} {mark : Token}
    (boundary : ∀ cs, Boundary (separator.toList ++ cs))
    (between : ∀ cs, alphabet.Reads (separator.toList ++ cs) [mark] cs)
    {items : List (String × List Token)} (written : ∀ item ∈ items, alphabet.Writes item.1 item.2) :
    alphabet.Writes (String.intercalate separator (items.map (·.1)))
      (List.intercalate [mark] (items.map (·.2))) := by
  intro rest follows
  induction items with
  | nil => exact reads_nil rest
  | cons item items ih =>
      obtain ⟨first, others⟩ := List.forall_mem_cons.mp written
      cases items with
      | nil =>
          rw [List.map_singleton, String.intercalate_singleton, List.map_singleton,
            List.intercalate_singleton]
          exact first rest follows
      | cons next items =>
          simp only [List.map_cons, String.intercalate_cons_cons, String.toList_append,
            List.append_assoc, List.intercalate_cons_cons]
          exact (first _ (boundary _)).trans ((between _).trans (ih others))

end Alphabet

/-! ## Literals and keys -/

/-- **A literal that has a text of its own**: an integer of sixty-four bits, or a number of the
format. -/
def Literal.Sound : Literal → Prop
  | .int i => i.natAbs < 2 ^ 64
  | .float x => x.Canonical
  | _ => True

/-- The tokens of a number: a minus stands by itself. -/
def numberTokens (x : Binary64) : List Token :=
  if x.negative then [.mark '-', .number (x.withSign false)] else [.number x]

/-- **The tokens of a literal.** -/
def Literal.tokens : Literal → List Token
  | .string text => [.string text]
  | .bool true => [.word "true"]
  | .bool false => [.word "false"]
  | .null => [.word "null"]
  | l => (l.number?.map numberTokens).getD []

/-- The token of a property key. -/
def keyToken (name : String) : Token :=
  if needsBrackets name then .string name else .word name

namespace Alphabet

variable {alphabet : Alphabet}

/-- A name of ASCII is a name in every alphabet. -/
theorem names_of_plain {name : String} (plain : needsBrackets name = false) :
    alphabet.Names name := by
  obtain ⟨c, cs, letters, start, parts⟩ := letters_of_plain plain
  obtain ⟨first, others⟩ := List.forall_mem_cons.mp parts
  refine ⟨c, cs, letters, ?_, fun d member => ?_⟩
  · rw [alphabet.starts_ascii c (toNat_lt_of_isIdentifierPart first), start]
  · have part := others d member
    rw [alphabet.continues_ascii d (toNat_lt_of_isIdentifierPart part), part]

theorem writes_key (name : String) : alphabet.Writes (key name) [keyToken name] := by
  intro rest boundary
  cases plain : needsBrackets name with
  | true =>
      rw [key, plain, if_pos rfl, keyToken, plain, if_pos rfl]
      exact reads_string name rest
  | false =>
      rw [key, plain, if_neg (by decide), keyToken, plain, if_neg (by decide)]
      exact writes_word (names_of_plain plain) rest boundary

/-- A text with a minus in front stands for a minus and its tokens. -/
theorem Writes.minus {text negated : String} {ts : List Token} (written : alphabet.Writes text ts)
    (letters : negated.toList = '-' :: text.toList) :
    alphabet.Writes negated (.mark '-' :: ts) := by
  intro rest boundary
  rw [letters, List.cons_append]
  exact (reads_mark (by decide)).trans (written rest boundary)

/-- **The text of a number stands for its tokens.** -/
theorem writes_float {x : Binary64} (canonical : x.Canonical) :
    alphabet.Writes (render numberLayout x) (numberTokens x) := by
  have unsigned {y : Binary64} (canonical : y.Canonical) (plain : y.negative = false) :
      alphabet.Writes (render numberLayout y) [.number y] := by
    intro rest boundary
    obtain ⟨numeral, scanned, bare, value⟩ := Json.Numeral.nearest?_render canonical plain .up
    exact reads_numeral scanned bare value boundary
  cases sign : x.negative with
  | false =>
      rw [numberTokens, sign, if_neg (by decide)]
      exact unsigned canonical sign
  | true =>
      rw [numberTokens, sign, if_pos rfl]
      have opposite : (x.withSign false).Canonical :=
        ⟨canonical.short, canonical.least, canonical.greatest, canonical.leading⟩
      exact (unsigned opposite rfl).minus (render_of_negative sign)

/-- **The text of an integer stands for its tokens.** -/
theorem writes_int {i : Int} (small : i.natAbs < 2 ^ 64) :
    alphabet.Writes (toString i) (Literal.int i).tokens := by
  obtain ⟨x, found, unsigned, -⟩ := Binary64.exists_ofNat? small
  have sign : x.withSign false = x := by
    rw [← unsigned]
    rfl
  have digits : alphabet.Writes (Nat.repr i.natAbs) [.number x] := by
    intro rest boundary
    rw [Nat.toList_repr]
    have value := (Json.Numeral.nearest?_toDigits i.natAbs).trans found
    exact reads_numeral (Json.Numeral.scan_toDigits _) rfl value boundary
  have tokens : (Literal.int i).tokens = numberTokens (x.withSign (decide (i < 0))) := by
    simp only [Literal.tokens, Literal.number?, found, Option.map_some, Option.getD_some]
  rw [tokens]
  cases i with
  | ofNat n =>
      have plain : decide (Int.ofNat n < 0) = false := by simp
      rw [plain, sign, numberTokens, unsigned, if_neg (by decide)]
      exact digits
  | negSucc n =>
      have minus : decide (Int.negSucc n < 0) = true := by simp [Int.negSucc_lt_zero]
      have opposite : (x.withSign true).withSign false = x := sign
      rw [minus, numberTokens, Binary64.withSign_negative, if_pos rfl, opposite]
      refine digits.minus ?_
      show ("-" ++ (n + 1).repr).toList = _
      rw [String.toList_append]
      rfl

/-- **The text of a literal stands for its tokens.** -/
theorem writes_literal {l : Literal} (sound : l.Sound) : alphabet.Writes l.text l.tokens := by
  cases l with
  | string text => exact fun rest _ => reads_string text rest
  | int i => exact writes_int sound
  | float x => exact writes_float sound
  | bool b =>
      cases b with
      | true => exact writes_word (names_of_plain (by decide))
      | false => exact writes_word (names_of_plain (by decide))
  | null => exact writes_word (names_of_plain (by decide))

end Alphabet

end ClientGen.TypeScript
