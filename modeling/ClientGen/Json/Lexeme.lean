import ClientGen.Json.Numeral

/-!
# Texts of strings and numbers

The text of a string or a number is looked at in two ways: its value is wanted, or it is passed
over. Passing over is more tolerant: it asks neither whether a number is within range nor whether
the halves of a surrogate pair stand together.

* `Lexeme` — the outcome of both looks.
* `Quotation.scan` — the pieces of a string up to its closing quote.
* `Quotation.decode` — the characters that the pieces stand for.
-/

namespace ClientGen.Json

open Text

/-- **A text that is read or passed over.** What cannot be passed over cannot be read either. -/
structure Lexeme (α : Type) where
  /-- The value, or why it cannot be read. -/
  value : Except Fault α
  /-- Why the text cannot even be passed over. -/
  skipped : Option Fault
  deriving Repr

namespace Quotation

/-- **A piece of a string's text.** -/
inductive Piece where
  /-- A character, plain or escaped by its own short escape. -/
  | char (c : Char)
  /-- A unit of sixteen bits, written in hexadecimal. -/
  | unit (n : Nat)
  deriving DecidableEq, Repr

/-- The character of a short escape. -/
def shortEscape? (c : Char) : Option Char :=
  if c = '"' ∨ c = '\\' ∨ c = '/' then some c
  else if c = 'b' then some (Char.ofNat 8)
  else if c = 'f' then some (Char.ofNat 12)
  else if c = 'n' then some '\n'
  else if c = 'r' then some '\r'
  else if c = 't' then some '\t'
  else none

/-- The number of bytes of a text in UTF-8. -/
def byteCount (cs : List Char) : Nat :=
  (String.ofList cs).utf8ByteSize

/-- The fault of a text that does not start with four hexadecimal digits: one of fewer than four
bytes ends too early, whatever it holds. -/
def noDigits (cs : List Char) : Fault :=
  if byteCount (cs.take 4) < 4 then .ended else .malformed

/-- Four hexadecimal digits. -/
def fourDigits (cs : List Char) : Except Fault (Nat × List Char) :=
  match cs with
  | a :: b :: c :: d :: rest =>
    match hexValue? a, hexValue? b, hexValue? c, hexValue? d with
    | some a, some b, some c, some d => .ok (((a * 16 + b) * 16 + c) * 16 + d, rest)
    | _, _, _, _ => .error (noDigits cs)
  | _ => .error (noDigits cs)

/-- The piece after a backslash. -/
def escape : List Char → Except Fault (Piece × List Char)
  | [] => .error .ended
  | c :: cs =>
    if c = 'u' then (fourDigits cs).map fun (n, cs) => (.unit n, cs)
    else match shortEscape? c with
      | some c => .ok (.char c, cs)
      | none => .error .malformed

theorem length_of_fourDigits {cs rest : List Char} {n : Nat}
    (h : fourDigits cs = .ok (n, rest)) : rest.length < cs.length := by
  unfold fourDigits at h
  split at h
  · split at h
    · simp only [Except.ok.injEq, Prod.mk.injEq] at h
      simp only [← h.2, List.length_cons]
      omega
    · simp at h
  · simp at h

theorem length_of_escape {cs rest : List Char} {p : Piece}
    (h : escape cs = .ok (p, rest)) : rest.length < cs.length := by
  unfold escape at h
  split at h
  · simp at h
  · rename_i c cs
    split at h
    · cases hf : fourDigits cs with
      | error f => simp [hf, Except.map] at h
      | ok r =>
        obtain ⟨n, rest'⟩ := r
        simp only [hf, Except.map, Except.ok.injEq, Prod.mk.injEq] at h
        have := length_of_fourDigits hf
        rw [← h.2]
        simp only [List.length_cons]
        omega
    · split at h
      · simp only [Except.ok.injEq, Prod.mk.injEq] at h
        simp [← h.2]
      · simp at h

/-- **The pieces of a string up to its closing quote**, and what follows that quote. The pieces read
so far come first, in reverse. -/
def scan (before : List Piece) (cs : List Char) : List Piece × Except Fault (List Char) :=
  match cs with
  | [] => (before.reverse, .error .ended)
  | c :: cs =>
    if c = '"' then (before.reverse, .ok cs)
    else if c = '\\' then
      match _h : escape cs with
      | .error fault => (before.reverse, .error fault)
      | .ok (piece, rest) => scan (piece :: before) rest
    else if c.toNat < 0x20 then (before.reverse, .error .malformed)
    else scan (.char c :: before) cs
termination_by cs.length
decreasing_by
  · have := length_of_escape _h
    simp only [List.length_cons]
    omega
  · simp

theorem length_of_scan {before pieces : List Piece} {cs rest : List Char}
    (h : scan before cs = (pieces, .ok rest)) : rest.length < cs.length := by
  fun_induction scan before cs with
  | case1 => simp at h
  | case2 before cs =>
    simp only [Prod.mk.injEq, Except.ok.injEq] at h
    simp [h.2]
  | case3 => simp at h
  | case4 before cs piece rest' hesc _ ih =>
    have := length_of_escape hesc
    have := ih h
    simp only [List.length_cons]
    omega
  | case5 => simp at h
  | case6 before c cs _ _ _ ih =>
    have := ih h
    simp only [List.length_cons]
    omega

/-- The leading half of a surrogate pair. -/
def isLeading (n : Nat) : Bool :=
  0xD800 ≤ n && n ≤ 0xDBFF

/-- The trailing half of a surrogate pair. -/
def isTrailing (n : Nat) : Bool :=
  0xDC00 ≤ n && n ≤ 0xDFFF

/-- The character of a surrogate pair. -/
def paired (leading trailing : Nat) : Char :=
  Char.ofNat (0x10000 + (leading - 0xD800) * 0x400 + (trailing - 0xDC00))

/-- **The characters that pieces stand for**, where `atEnd` is the fault at their end, if there is
one. Halves of surrogate pairs have to stand together. -/
def decode (atEnd : Option Fault) : List Piece → Except Fault (List Char)
  | [] =>
    match atEnd with
    | some fault => .error fault
    | none => .ok []
  | .char c :: ps => (decode atEnd ps).map (c :: ·)
  | .unit n :: ps =>
    if isTrailing n then .error .malformed
    else if isLeading n then
      match ps with
      | .unit m :: ps =>
        if isTrailing m then (decode atEnd ps).map (paired n m :: ·) else .error .malformed
      | .char _ :: _ => .error .malformed
      | [] => .error (atEnd.getD .malformed)
    else (decode atEnd ps).map (Char.ofNat n :: ·)

end Quotation

/-- **The string whose opening quote has been read**, and what follows it; nothing follows a text
that cannot be passed over. -/
def scanString (cs : List Char) : Lexeme String × Option (List Char) :=
  match Quotation.scan [] cs with
  | (pieces, .ok rest) =>
    (⟨(Quotation.decode none pieces).map String.ofList, none⟩, some rest)
  | (pieces, .error fault) =>
    (⟨(Quotation.decode (some fault) pieces).map String.ofList, some fault⟩, none)

/-- **The number at the start of a text**, and what follows it. A numeral that breaks off at the end
of the text cannot be passed over because of its last character. -/
def scanNumber (cs : List Char) : Lexeme Number × Option (List Char) :=
  match Numeral.scan cs with
  | .ok (numeral, rest) =>
    match numeral.value? with
    | some n => (⟨.ok n, none⟩, some rest)
    | none => (⟨.error .malformed, none⟩, some rest)
  | .error fault => (⟨.error fault, some .malformed⟩, none)

theorem length_of_scanString {cs rest : List Char} {s : Lexeme String}
    (h : scanString cs = (s, some rest)) : rest.length < cs.length := by
  unfold scanString at h
  split at h
  · rename_i hs
    simp only [Prod.mk.injEq, Option.some.injEq] at h
    exact h.2 ▸ Quotation.length_of_scan hs
  · simp at h

theorem length_of_scanNumber {cs rest : List Char} {n : Lexeme Number}
    (h : scanNumber cs = (n, some rest)) : rest.length < cs.length := by
  unfold scanNumber at h
  split at h
  · rename_i hs
    have := Numeral.length_of_scan hs
    split at h <;>
    · simp only [Prod.mk.injEq, Option.some.injEq] at h
      exact h.2 ▸ this
  · simp at h

end ClientGen.Json
