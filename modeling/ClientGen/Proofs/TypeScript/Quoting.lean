import ClientGen.Proofs.Naming.Grammar
import ClientGen.Proofs.Text.Quoting
import ClientGen.TypeScript.Text
import Mathlib.Tactic.SplitIfs

/-!
# String literals and properties of TypeScript

The literals between double quotes, read as a compiler reads strict code. Code units that are not a
character by themselves are not read.

* `escape?` — the escapes.
* `quoting` — the literals.
* `literal?_quote` — what `quote` writes is read as the text it was written for.
* `isLineEnd_of_mem_escapeString` — no line ends in it.
* `property?` — the name of a property behind an object.
* `property?_access` — what `access` writes is read as the property it was written for.
-/

namespace ClientGen.TypeScript

open Text

/-! ## Escapes -/

/-- The characters that end a line. -/
def isLineEnd (c : Char) : Bool :=
  c == '\n' || c == '\r' || c.toNat == 0x2028 || c.toNat == 0x2029

/-- The characters that an escape of one letter stands for. -/
def letterEscape? : Char → Option Char
  | 'b' => some (Char.ofNat 8)
  | 't' => some '\t'
  | 'n' => some '\n'
  | 'v' => some (Char.ofNat 11)
  | 'f' => some (Char.ofNat 12)
  | 'r' => some '\r'
  | _ => none

/-- The number of hexadecimal digits up to a closing brace, and what follows the brace. -/
def codeInBraces? : Option Nat → List Char → Option (Nat × List Char)
  | _, [] => none
  | value, c :: cs =>
    if c = '}' then value.map (·, cs)
    else (hexValue? c).bind fun digit => codeInBraces? (some (value.getD 0 * 16 + digit)) cs

/-- The code of a character: four digits, or any digits in braces. -/
def code? : List Char → Option (Nat × List Char)
  | '{' :: cs => codeInBraces? none cs
  | cs => numeral? 16 4 0 cs

/-- What follows the end of a line: a carriage return and a line feed are one end. -/
def behindLineEnd (c : Char) (cs : List Char) : List Char :=
  if c == '\r' && cs.head? == some '\n' then cs.tail else cs

/-- **What an escape stands for**, and what follows. The end of a line stands for nothing, a zero
that no digit follows for itself, other digits have no meaning, and other characters stand for
themselves. -/
def escape? : List Char → Option (List Char × List Char)
  | [] => none
  | c :: cs =>
    match letterEscape? c with
    | some d => some ([d], cs)
    | none =>
      if c = 'x' then (numeral? 16 2 0 cs).bind charOfCode?
      else if c = 'u' then (code? cs).bind charOfCode?
      else if isAsciiDigit c then
        if c = '0' ∧ ¬ (cs.head?.any isAsciiDigit) then some ([Char.ofNat 0], cs) else none
      else if isLineEnd c then some ([], behindLineEnd c cs)
      else some ([c], cs)

theorem length_of_codeInBraces? {value : Option Nat} {n : Nat} {cs rest : List Char}
    (read : codeInBraces? value cs = some (n, rest)) : rest.length < cs.length := by
  induction cs generalizing value with
  | nil => cases read
  | cons c cs ih =>
      rw [codeInBraces?] at read
      split at read
      · obtain ⟨_, -, same⟩ := Option.map_eq_some_iff.mp read
        cases same
        exact Nat.lt_succ_self _
      · obtain ⟨digit, -, later⟩ := Option.bind_eq_some_iff.mp read
        exact Nat.lt_succ_of_lt (ih later)

theorem length_of_code? {n : Nat} {cs rest : List Char} (read : code? cs = some (n, rest)) :
    rest.length < cs.length := by
  unfold code? at read
  split at read
  · exact Nat.lt_succ_of_lt (length_of_codeInBraces? read)
  · have taken := length_of_numeral? read
    omega

theorem length_behindLineEnd (c : Char) (cs : List Char) :
    (behindLineEnd c cs).length ≤ cs.length := by
  rw [behindLineEnd]
  split
  · rw [List.length_tail]
    exact Nat.sub_le ..
  · exact Nat.le_refl _

theorem length_of_escape? {cs text rest : List Char} (read : escape? cs = some (text, rest)) :
    rest.length < cs.length := by
  cases cs with
  | nil => cases read
  | cons c cs =>
      rw [List.length_cons]
      rw [escape?] at read
      split at read
      · cases read
        exact Nat.lt_succ_self _
      split at read
      · obtain ⟨⟨n, after⟩, digits, found⟩ := Option.bind_eq_some_iff.mp read
        have taken := length_of_numeral? digits
        rw [snd_of_charOfCode? found]
        show after.length < _
        omega
      split at read
      · obtain ⟨⟨n, after⟩, digits, found⟩ := Option.bind_eq_some_iff.mp read
        rw [snd_of_charOfCode? found]
        exact Nat.lt_succ_of_lt (length_of_code? digits)
      split at read
      · split at read
        · cases read
          exact Nat.lt_succ_self _
        · cases read
      split at read
      · cases read
        exact Nat.lt_succ_of_le (length_behindLineEnd c cs)
      · cases read
        exact Nat.lt_succ_self _

/-! ## Literals -/

/-- **The literals between double quotes.** They stand on one line. -/
def quoting : Quoting where
  isExcluded := isLineEnd
  escape? := escape?
  shorter := length_of_escape?

theorem escape?_hex4 (c : Char) (small : c.toNat < 65536) (rest : List Char) :
    escape? ('u' :: (hex4 c.toNat ++ rest)) = some ([c], rest) := by
  have brace : hexDigit (c.toNat / 4096 % 16) ≠ '{' := by
    have each : ∀ d < 16, hexDigit d ≠ '{' := by decide
    exact each _ (Nat.mod_lt _ (by decide))
  have digits : code? (hex4 c.toNat ++ rest) = some (c.toNat, rest) := by
    have plain : code? (hex4 c.toNat ++ rest) = numeral? 16 4 0 (hex4 c.toNat ++ rest) := by
      show code? (_ :: _) = _
      unfold code?
      split
      · rename_i same
        exact absurd (List.cons.inj same).1 brace
      · rfl
    rw [plain, numeral?_hex4 small]
  show (code? (hex4 c.toNat ++ rest)).bind charOfCode? = _
  rw [digits]
  exact charOfCode?_toNat c rest

/-- **Each character is written so that it is understood.** -/
theorem understands_escapeChar (c : Char) : quoting.Understands (escapeChar c) c := by
  rw [escapeChar]
  refine Quoting.understands_ite (fun _ => rfl) fun backslash => ?_
  refine Quoting.understands_ite (fun _ => rfl) fun quote => ?_
  refine Quoting.understands_ite (fun _ => rfl) fun lineFeed => ?_
  refine Quoting.understands_ite (fun _ => rfl) fun carriageReturn => ?_
  refine Quoting.understands_ite (fun _ => rfl) fun _ => ?_
  split
  · rename_i hidden
    refine Quoting.understands_escape (escape?_hex4 c ?_)
    simp only [isControl, Bool.or_eq_true, Bool.and_eq_true, decide_eq_true_eq, beq_iff_eq]
      at hidden
    omega
  · rename_i hidden
    simp only [Bool.or_eq_true, not_or, Bool.not_eq_true] at hidden
    refine Quoting.understands_plain quote backslash ?_
    show isLineEnd c = false
    simp [isLineEnd, hidden, lineFeed, carriageReturn]

/-- **A text between quotes is read as the text**, whatever follows it. -/
theorem literal?_quote (text : String) (rest : List Char) :
    quoting.literal? ((quote text).toList ++ rest) = some (text, rest) := by
  have written : (quote text).toList ++ rest =
      '"' :: (text.toList.flatMap escapeChar ++ '"' :: rest) := by
    simp [quote, escapeString]
  rw [written]
  exact Quoting.literal?_flatMap understands_escapeChar text rest

/-- A text between quotes by itself is read up to its end. -/
theorem literal?_toList_quote (text : String) :
    quoting.literal? (quote text).toList = some (text, []) := by
  simpa using literal?_quote text []

theorem isLineEnd_of_mem_escapeChar (c : Char) : ∀ d ∈ escapeChar c, isLineEnd d = false := by
  unfold escapeChar
  split_ifs with _ _ lineFeed carriageReturn _ hidden
  · simp [isLineEnd]
  · simp [isLineEnd]
  · simp [isLineEnd]
  · simp [isLineEnd]
  · simp [isLineEnd]
  · refine List.forall_mem_cons.mpr ⟨by decide, List.forall_mem_cons.mpr ⟨by decide, ?_⟩⟩
    exact forall_mem_hex4 (by decide) c.toNat
  · rw [beq_iff_eq] at lineFeed carriageReturn
    simp only [Bool.or_eq_true, beq_iff_eq, not_or] at hidden
    simpa [isLineEnd, lineFeed, carriageReturn] using ⟨hidden.1.2, hidden.2⟩

/-- **No end of a line stands in a literal.** -/
theorem isLineEnd_of_mem_escapeString (text : String) :
    ∀ c ∈ (escapeString text).toList, isLineEnd c = false := by
  intro c member
  rw [escapeString, String.toList_ofList] at member
  obtain ⟨d, -, written⟩ := List.mem_flatMap.mp member
  exact isLineEnd_of_mem_escapeChar d c written

/-! ## Properties -/

/-- A name of ASCII, and what follows. -/
def word? (cs : List Char) : Option (String × List Char) :=
  if cs.head?.any isIdentifierStart then
    some (String.ofList (cs.takeWhile isIdentifierPart), cs.dropWhile isIdentifierPart)
  else none

/-- A literal in front of a closing bracket, and what follows the bracket. -/
def bracketed? (cs : List Char) : Option (String × List Char) := do
  let (text, rest) ← quoting.literal? cs
  if rest.head? = some ']' then some (text, rest.tail) else none

/-- **The name of the property** behind an object, which may be absent, and what follows. -/
def property? : List Char → Option (String × List Char)
  | '.' :: cs => word? cs
  | '[' :: cs => bracketed? cs
  | '?' :: '.' :: '[' :: cs => bracketed? cs
  | '?' :: '.' :: cs => word? cs
  | _ => none

theorem isIdentifierPart_of_start {c : Char} (start : isIdentifierStart c) :
    isIdentifierPart c := by
  simp only [isIdentifierStart, isIdentifierPart, isAsciiAlphanumeric, Bool.or_eq_true] at start ⊢
  exact start.imp_left (Or.imp_left Or.inl)

theorem toNat_lt_of_isIdentifierPart {c : Char} (part : isIdentifierPart c) : c.toNat < 128 := by
  simp only [isIdentifierPart, Bool.or_eq_true, beq_iff_eq] at part
  rcases part with (alphanumeric | rfl) | rfl
  · exact toNat_lt_of_isAsciiAlphanumeric alphanumeric
  · decide
  · decide

/-- The characters of a name that needs no brackets. -/
theorem letters_of_plain {name : String} (plain : needsBrackets name = false) :
    ∃ c cs, name.toList = c :: cs ∧ isIdentifierStart c ∧ ∀ d ∈ c :: cs, isIdentifierPart d := by
  unfold needsBrackets at plain
  split at plain
  · cases plain
  · rename_i c cs letters
    rw [Bool.or_eq_false_iff, Bool.not_eq_false', Bool.not_eq_false'] at plain
    refine ⟨c, cs, letters, plain.1, List.forall_mem_cons.mpr ⟨?_, List.all_eq_true.mp plain.2⟩⟩
    exact isIdentifierPart_of_start plain.1

/-- A name that needs no brackets is read as it stands. -/
theorem word?_append {name : String} (plain : needsBrackets name = false) {rest : List Char}
    (ended : ∀ c ∈ rest.head?, isIdentifierPart c = false) :
    word? (name.toList ++ rest) = some (name, rest) := by
  obtain ⟨c, cs, letters, start, parts⟩ := letters_of_plain plain
  have starts : (c :: cs ++ rest).head?.any isIdentifierStart := start
  obtain ⟨taken, left⟩ := run_append parts ended
  rw [letters, word?, if_pos starts, taken, left, ← letters, String.ofList_toList]

theorem bracketed?_quote (text : String) (rest : List Char) :
    bracketed? ((quote text).toList ++ ']' :: rest) = some (text, rest) := by
  rw [bracketed?, literal?_quote]
  rfl

/-- **What is accessed is the property**, whatever follows that cannot belong to its name. -/
theorem property?_access (object property : String) (present : Bool) {rest : List Char}
    (ended : ∀ c ∈ rest.head?, isIdentifierPart c = false) :
    ∃ behind, (access object property present).toList = object.toList ++ behind ∧
      property? (behind ++ rest) = some (property, rest) := by
  cases plain : needsBrackets property with
  | true =>
      have read := bracketed?_quote property rest
      cases present with
      | true =>
          refine ⟨'[' :: ((quote property).toList ++ [']']), by simp [access, plain], ?_⟩
          rwa [List.cons_append, property?, List.append_assoc]
      | false =>
          refine ⟨'?' :: '.' :: '[' :: ((quote property).toList ++ [']']), by simp [access, plain],
            ?_⟩
          rwa [List.cons_append, List.cons_append, List.cons_append, property?, List.append_assoc]
  | false =>
      have read := word?_append plain ended
      cases present with
      | true =>
          refine ⟨'.' :: property.toList, by simp [access, plain], ?_⟩
          rwa [List.cons_append, property?]
      | false =>
          refine ⟨'?' :: '.' :: property.toList, by simp [access, plain], ?_⟩
          obtain ⟨c, cs, letters, start, -⟩ := letters_of_plain plain
          rw [List.cons_append, List.cons_append, property?]
          · exact read
          · intro others bracket
            rw [letters] at bracket
            obtain rfl := (List.cons.inj bracket).1
            exact absurd start (by decide)

end ClientGen.TypeScript
