import ClientGen.Text.Blank

/-!
# Texts between quotes

Languages write a text between double quotes, where a backslash starts an escape. They differ in
what an escape stands for, and in what has to be escaped. Reading such a text takes it apart from
the left and leaves what stands behind the closing quote.

* `Quoting` — the escapes of a language.
* `Quoting.literal?` — the text that a literal stands for, and what follows.
* `Quoting.Understands` — some characters stand for one character.
* `Quoting.literal?_flatMap` — a text is read if every character is written understandably.
* `numeral?` — the number that some digits stand for.
* `run_append` — the characters of a kind at the beginning of a text.
-/

namespace ClientGen.Text

/-! ## Runs -/

/-- **Characters of a kind up to where another one stands.** -/
theorem run_append {p : Char → Bool} {cs rest : List Char} (all : ∀ c ∈ cs, p c)
    (ended : ∀ c ∈ rest.head?, p c = false) :
    (cs ++ rest).takeWhile p = cs ∧ (cs ++ rest).dropWhile p = rest := by
  rw [List.takeWhile_append_of_pos all, List.dropWhile_append_of_pos all]
  cases rest with
  | nil => exact ⟨List.append_nil cs, rfl⟩
  | cons c rest =>
      have other : ¬ p c := by simp [ended c rfl]
      rw [List.takeWhile_cons_of_neg other, List.dropWhile_cons_of_neg other]
      exact ⟨List.append_nil cs, rfl⟩

/-! ## Numbers -/

/-- The number that as many digits as asked for stand for, and what follows. -/
def numeral? (base : Nat) : (count value : Nat) → List Char → Option (Nat × List Char)
  | 0, value, cs => some (value, cs)
  | count + 1, value, c :: cs => do
    let digit ← hexValue? c
    if digit < base then numeral? base count (value * base + digit) cs else none
  | _ + 1, _, [] => none

/-- A number takes as many digits as it is asked for. -/
theorem length_of_numeral? {base count value n : Nat} {cs rest : List Char}
    (read : numeral? base count value cs = some (n, rest)) : rest.length + count = cs.length := by
  induction count generalizing value cs with
  | zero =>
      cases read
      rfl
  | succ count ih =>
      cases cs with
      | nil => cases read
      | cons c cs =>
          obtain ⟨digit, -, later⟩ := Option.bind_eq_some_iff.mp read
          split at later
          · have shorter := ih later
            rw [List.length_cons]
            omega
          · cases later

/-- What holds of all hexadecimal digits holds of four of them. -/
theorem forall_mem_hex4 {p : Char → Prop} (each : ∀ d < 16, p (hexDigit d)) (n : Nat) :
    ∀ c ∈ hex4 n, p c := by
  have digit (k : Nat) : p (hexDigit (k % 16)) := each _ (Nat.mod_lt _ (by decide))
  simp [hex4, digit]

theorem hexValue?_hexDigit : ∀ d < 16, hexValue? (hexDigit d) = some d := by
  decide

/-- Four hexadecimal digits are read as the number they were written for. -/
theorem numeral?_hex4 {n : Nat} (small : n < 65536) (rest : List Char) :
    numeral? 16 4 0 (hex4 n ++ rest) = some (n, rest) := by
  have digit (k : Nat) : hexValue? (hexDigit (k % 16)) = some (k % 16) :=
    hexValue?_hexDigit _ (Nat.mod_lt _ (by decide))
  have below (k : Nat) : k % 16 < 16 := Nat.mod_lt _ (by decide)
  have sum : (((0 * 16 + n / 4096 % 16) * 16 + n / 256 % 16) * 16 + n / 16 % 16) * 16 + n % 16 =
      n := by omega
  show numeral? 16 4 0 (_ :: _ :: _ :: _ :: rest) = _
  simp only [numeral?, digit, Option.bind_eq_bind, Option.bind_some, if_pos (below _), sum]

/-- The character of a code, and what follows the code. -/
def charOfCode? (code : Nat × List Char) : Option (List Char × List Char) :=
  (charOf? code.1).map fun c => ([c], code.2)

theorem snd_of_charOfCode? {code : Nat × List Char} {text rest : List Char}
    (found : charOfCode? code = some (text, rest)) : rest = code.2 := by
  obtain ⟨c, -, same⟩ := Option.map_eq_some_iff.mp found
  exact (Prod.mk.inj same).2.symm

/-- A character is found again under its code. -/
theorem charOfCode?_toNat (c : Char) (rest : List Char) :
    charOfCode? (c.toNat, rest) = some ([c], rest) := by
  have valid : c.toNat < 0xD800 ∨ (0xDFFF < c.toNat ∧ c.toNat ≤ 0x10FFFF) := by
    have valid : c.toNat.isValidChar := c.valid
    unfold Nat.isValidChar at valid
    omega
  rw [charOfCode?, charOf?, if_pos valid, Char.ofNat_toNat]
  rfl

/-! ## Literals -/

/-- **How a language writes texts between quotes.** -/
structure Quoting where
  /-- The characters that cannot stand for themselves, apart from quotes and backslashes. -/
  isExcluded : Char → Bool
  /-- The text that stands for an escape, read from behind its backslash, and what follows. -/
  escape? : List Char → Option (List Char × List Char)
  /-- An escape takes up some characters. -/
  shorter : ∀ {cs text rest}, escape? cs = some (text, rest) → rest.length < cs.length

namespace Quoting

variable (q : Quoting)

/-- A text with another one in front of it, and what follows. -/
def put (text : List Char) (read : List Char × List Char) : List Char × List Char :=
  (text ++ read.1, read.2)

/-- The text from behind an opening quote up to the closing one, and what follows. -/
def inside? (cs : List Char) : Option (List Char × List Char) :=
  match cs with
  | [] => none
  | c :: cs =>
    if c = '"' then some ([], cs)
    else if c = '\\' then
      match _h : q.escape? cs with
      | some (text, rest) => (inside? rest).map (put text)
      | none => none
    else if q.isExcluded c then none
    else (inside? cs).map (put [c])
termination_by cs.length
decreasing_by
  · have := q.shorter _h
    simp only [List.length_cons]
    omega
  · simp

/-- **The text of the literal** at the beginning, and what follows. -/
def literal? : List Char → Option (String × List Char)
  | [] => none
  | c :: cs =>
    if c = '"' then (q.inside? cs).map fun (text, rest) => (String.ofList text, rest) else none

/-- A literal takes a character at least: its closing quote. -/
theorem length_of_inside? {cs text rest : List Char} (read : q.inside? cs = some (text, rest)) :
    rest.length < cs.length := by
  fun_induction inside? q cs generalizing text with
  | case1 => cases read
  | case2 cs =>
      cases read
      simp
  | case3 cs escaped after found _ ih =>
      obtain ⟨⟨later, behind⟩, deeper, same⟩ := Option.map_eq_some_iff.mp read
      cases same
      have inner := ih deeper
      have outer := q.shorter found
      rw [List.length_cons]
      omega
  | case4 => cases read
  | case5 => cases read
  | case6 c cs _ _ _ ih =>
      obtain ⟨⟨later, behind⟩, deeper, same⟩ := Option.map_eq_some_iff.mp read
      cases same
      have inner := ih deeper
      rw [List.length_cons]
      omega

theorem length_of_literal? {cs rest : List Char} {text : String}
    (read : q.literal? cs = some (text, rest)) : rest.length < cs.length := by
  cases cs with
  | nil => cases read
  | cons c cs =>
      rw [literal?] at read
      split at read
      · obtain ⟨⟨inner, behind⟩, found, same⟩ := Option.map_eq_some_iff.mp read
        cases same
        have shorter := q.length_of_inside? found
        rw [List.length_cons]
        omega
      · cases read

/-! ## Characters that are understood -/

/-- **Some characters stand for one character** inside a literal, whatever follows. -/
def Understands (written : List Char) (c : Char) : Prop :=
  ∀ rest, q.inside? (written ++ rest) = (q.inside? rest).map (put [c])

variable {q}

/-- A character stands for itself unless it is a quote, a backslash or excluded. -/
theorem understands_plain {c : Char} (quote : c ≠ '"') (backslash : c ≠ '\\')
    (plain : q.isExcluded c = false) : q.Understands [c] c := by
  intro rest
  rw [List.singleton_append, inside?, if_neg quote, if_neg backslash, plain]
  rfl

/-- What an escape stands for is understood behind a backslash. -/
theorem understands_escape {written : List Char} {c : Char}
    (escaped : ∀ rest, q.escape? (written ++ rest) = some ([c], rest)) :
    q.Understands ('\\' :: written) c := by
  intro rest
  have found := escaped rest
  rw [List.cons_append, inside?, if_neg (by decide), if_pos rfl]
  split
  · rename_i text after other
    rw [found] at other
    cases other
    rfl
  · rename_i missing
    rw [found] at missing
    cases missing

/-- A character that has an escape of its own is understood if it would be without this escape. -/
theorem understands_ite {c d letter : Char} {other : List Char}
    (escaped : ∀ rest, q.escape? (letter :: rest) = some ([d], rest))
    (others : c ≠ d → q.Understands other c) :
    q.Understands (if c == d then ['\\', letter] else other) c := by
  split
  · rename_i same
    obtain rfl := eq_of_beq same
    exact understands_escape escaped
  · rename_i different
    exact others (by simpa using different)

variable {write : Char → List Char}

/-- Characters that are understood are read one by one, up to the closing quote. -/
theorem inside?_flatMap (understood : ∀ c, q.Understands (write c) c) (cs rest : List Char) :
    q.inside? (cs.flatMap write ++ '"' :: rest) = some (cs, rest) := by
  induction cs with
  | nil =>
      rw [List.flatMap_nil, List.nil_append, inside?, if_pos rfl]
  | cons c cs ih =>
      rw [List.flatMap_cons, List.append_assoc, understood c, ih]
      rfl

/-- **A literal is read as the text it was written for**, whatever follows it. -/
theorem literal?_flatMap (understood : ∀ c, q.Understands (write c) c) (text : String)
    (rest : List Char) :
    q.literal? ('"' :: (text.toList.flatMap write ++ '"' :: rest)) = some (text, rest) := by
  rw [literal?, if_pos rfl, inside?_flatMap understood]
  simp

end Quoting

end ClientGen.Text
