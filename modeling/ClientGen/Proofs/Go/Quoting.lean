import ClientGen.Go.Text
import ClientGen.Proofs.Text.Quoting
import Mathlib.Tactic.SplitIfs

/-!
# String literals of Go

The literals between double quotes, read as a compiler reads them. A byte of a literal that is not a
character by itself is not read.

* `escape?` — the escapes.
* `quoting` — the literals.
* `literal?_quote` — what `quote` writes is read as the text it was written for.
* `isControl_of_mem_quote` — it has no control characters.
-/

namespace ClientGen.Go

open Text

/-- The characters that an escape of one letter stands for. -/
def letterEscape? : Char → Option Char
  | 'a' => some (Char.ofNat 7)
  | 'b' => some (Char.ofNat 8)
  | 't' => some '\t'
  | 'n' => some '\n'
  | 'v' => some (Char.ofNat 11)
  | 'f' => some (Char.ofNat 12)
  | 'r' => some '\r'
  | '\\' => some '\\'
  | '"' => some '"'
  | _ => none

/-- The character of a byte, and what follows. -/
def charOfByte? (code : Nat × List Char) : Option (List Char × List Char) :=
  if code.1 < 128 then charOfCode? code else none

/-- **What an escape stands for**, and what follows: one letter, two, four or eight hexadecimal
digits behind a letter, or three octal digits. -/
def escape? : List Char → Option (List Char × List Char)
  | [] => none
  | c :: cs =>
    match letterEscape? c with
    | some d => some ([d], cs)
    | none =>
      if c = 'x' then (numeral? 16 2 0 cs).bind charOfByte?
      else if c = 'u' then (numeral? 16 4 0 cs).bind charOfCode?
      else if c = 'U' then (numeral? 16 8 0 cs).bind charOfCode?
      else (numeral? 8 3 0 (c :: cs)).bind charOfByte?

/-- The character of a byte is that of its code. -/
theorem charOfCode?_of_charOfByte? {code : Nat × List Char} {read : List Char × List Char}
    (found : charOfByte? code = some read) : charOfCode? code = some read := by
  rw [charOfByte?] at found
  split at found
  · exact found
  · cases found

/-- Digits behind an escape are taken up. -/
theorem length_of_digits {base count : Nat} {cs text rest : List Char}
    {character : Nat × List Char → Option (List Char × List Char)}
    (behind : ∀ code text rest, character code = some (text, rest) → rest = code.2)
    (read : (numeral? base count 0 cs).bind character = some (text, rest)) :
    rest.length + count = cs.length := by
  obtain ⟨⟨n, after⟩, digits, found⟩ := Option.bind_eq_some_iff.mp read
  rw [behind _ _ _ found]
  exact length_of_numeral? digits

theorem length_of_escape? {cs text rest : List Char} (read : escape? cs = some (text, rest)) :
    rest.length < cs.length := by
  cases cs with
  | nil => cases read
  | cons c cs =>
      have ofCode (code : Nat × List Char) (text rest : List Char)
          (found : charOfCode? code = some (text, rest)) : rest = code.2 :=
        snd_of_charOfCode? found
      have ofByte (code : Nat × List Char) (text rest : List Char)
          (found : charOfByte? code = some (text, rest)) : rest = code.2 :=
        ofCode _ _ _ (charOfCode?_of_charOfByte? found)
      rw [List.length_cons]
      rw [escape?] at read
      split at read
      · cases read
        exact Nat.lt_succ_self _
      · split at read
        · have taken := length_of_digits ofByte read
          omega
        · split at read
          · have taken := length_of_digits ofCode read
            omega
          · split at read
            · have taken := length_of_digits ofCode read
              omega
            · have taken := length_of_digits ofByte read
              rw [List.length_cons] at taken
              omega

/-- **The literals between double quotes.** They stand on one line. -/
def quoting : Quoting where
  isExcluded c := c == '\n'
  escape? := escape?
  shorter := length_of_escape?

/-- **Each character is written so that it is understood.** -/
theorem understands_escapeChar (c : Char) : quoting.Understands (escapeChar c) c := by
  rw [escapeChar]
  refine Quoting.understands_ite (fun _ => rfl) fun backslash => ?_
  refine Quoting.understands_ite (fun _ => rfl) fun quote => ?_
  refine Quoting.understands_ite (fun _ => rfl) fun lineFeed => ?_
  refine Quoting.understands_ite (fun _ => rfl) fun _ => ?_
  refine Quoting.understands_ite (fun _ => rfl) fun _ => ?_
  split
  · rename_i control
    refine Quoting.understands_escape fun rest => ?_
    have small : c.toNat < 65536 := by
      simp only [isControl, Bool.or_eq_true, Bool.and_eq_true, decide_eq_true_eq] at control
      omega
    show (numeral? 16 4 0 (hex4 c.toNat ++ rest)).bind charOfCode? = _
    rw [numeral?_hex4 small]
    exact charOfCode?_toNat c rest
  · exact Quoting.understands_plain quote backslash (beq_eq_false_iff_ne.mpr lineFeed)

theorem toList_quote (text : String) :
    (quote text).toList = '"' :: (text.toList.flatMap escapeChar ++ ['"']) := by
  simp [quote]

/-- **A text between quotes is read as the text**, whatever follows it. -/
theorem literal?_quote (text : String) (rest : List Char) :
    quoting.literal? ((quote text).toList ++ rest) = some (text, rest) := by
  rw [toList_quote, List.cons_append, List.append_assoc, List.singleton_append]
  exact Quoting.literal?_flatMap understands_escapeChar text rest

/-- A text between quotes by itself is read up to its end. -/
theorem literal?_toList_quote (text : String) :
    quoting.literal? (quote text).toList = some (text, []) := by
  simpa using literal?_quote text []

theorem isControl_of_mem_escapeChar (c : Char) : ∀ d ∈ escapeChar c, isControl d = false := by
  unfold escapeChar
  split_ifs with _ _ _ _ _ control
  · simp [isControl]
  · simp [isControl]
  · simp [isControl]
  · simp [isControl]
  · simp [isControl]
  · refine List.forall_mem_cons.mpr ⟨by decide, List.forall_mem_cons.mpr ⟨by decide, ?_⟩⟩
    exact forall_mem_hex4 (by decide) c.toNat
  · simpa using control

/-- **No control character stands in a literal.** -/
theorem isControl_of_mem_quote (text : String) : ∀ c ∈ (quote text).toList, isControl c = false := by
  have inside : ∀ c ∈ text.toList.flatMap escapeChar, isControl c = false := by
    intro c member
    obtain ⟨d, -, written⟩ := List.mem_flatMap.mp member
    exact isControl_of_mem_escapeChar d c written
  rw [toList_quote]
  exact List.forall_mem_cons.mpr ⟨by decide, List.forall_mem_append.mpr ⟨inside, by simp [isControl]⟩⟩

end ClientGen.Go
