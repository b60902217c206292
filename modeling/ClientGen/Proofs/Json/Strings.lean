import ClientGen.Json.Printer
import ClientGen.Json.Token
import ClientGen.Proofs.Text.Quoting

/-!
# Strings that are written and read

A string is written between quotes, character by character. Each character is written as one piece:
itself, a short escape, or a unit in hexadecimal. Reading takes the pieces one by one, so what
follows the closing quote is left for others.

* `Quotation.scan_escapeChar` — one character is read as one piece.
* `Quotation.decode_pieces` — the pieces stand for the characters they were written for.
* `scanString_escaped` — a written string is read, whatever follows it.
-/

namespace ClientGen.Json

open Text

namespace Quotation

/-! ## Pieces -/

/-- The piece that a character is written as. -/
def pieceOf (c : Char) : Piece :=
  if c.toNat < 0x20 ∧ c ≠ '\n' ∧ c ≠ '\r' ∧ c ≠ '\t' ∧ c.toNat ≠ 8 ∧ c.toNat ≠ 12 then
    .unit c.toNat
  else .char c

/-- Four hexadecimal digits are read as the number they were written for. -/
theorem fourDigits_hex4 {n : Nat} (small : n < 65536) (rest : List Char) :
    fourDigits (hex4 n ++ rest) = .ok (n, rest) := by
  have digit (k : Nat) : hexValue? (hexDigit (k % 16)) = some (k % 16) :=
    hexValue?_hexDigit _ (Nat.mod_lt _ (by decide))
  have sum : ((n / 4096 % 16 * 16 + n / 256 % 16) * 16 + n / 16 % 16) * 16 + n % 16 = n := by
    omega
  show fourDigits (_ :: _ :: _ :: _ :: rest) = _
  unfold fourDigits
  simp only [digit, sum]

theorem scan_quote (before : List Piece) (rest : List Char) :
    scan before ('"' :: rest) = (before.reverse, .ok rest) := by
  rw [scan]
  simp

theorem scan_plain {c : Char} (quote : c ≠ '"') (backslash : c ≠ '\\')
    (visible : ¬ c.toNat < 0x20) (before : List Piece) (cs : List Char) :
    scan before (c :: cs) = scan (.char c :: before) cs := by
  rw [scan]
  simp [quote, backslash, visible]

theorem scan_backslash {cs rest : List Char} {piece : Piece}
    (escaped : escape cs = .ok (piece, rest)) (before : List Piece) :
    scan before ('\\' :: cs) = scan (piece :: before) rest := by
  rw [scan]
  simp only [show ¬ '\\' = '"' by decide, if_false, if_true]
  split
  · rename_i fault failed
    rw [escaped] at failed
    cases failed
  · rename_i found taken
    rw [escaped] at taken
    cases taken
    rfl

/-- A short escape is read as its character. -/
theorem scan_shortEscape {letter c : Char} (short : shortEscape? letter = some c)
    (other : letter ≠ 'u') (before : List Piece) (cs : List Char) :
    scan before ('\\' :: letter :: cs) = scan (.char c :: before) cs := by
  refine scan_backslash ?_ before
  rw [escape, if_neg other, short]

/-- **One character is read as one piece.** -/
theorem scan_escapeChar (before : List Piece) (c : Char) (cs : List Char) :
    scan before (escapeChar c ++ cs) = scan (pieceOf c :: before) cs := by
  by_cases quote : c = '"'
  · subst quote
    exact scan_shortEscape rfl (by decide) before cs
  by_cases backslash : c = '\\'
  · subst backslash
    exact scan_shortEscape rfl (by decide) before cs
  by_cases lineFeed : c = '\n'
  · subst lineFeed
    exact scan_shortEscape rfl (by decide) before cs
  by_cases carriageReturn : c = '\r'
  · subst carriageReturn
    exact scan_shortEscape rfl (by decide) before cs
  by_cases tab : c = '\t'
  · subst tab
    exact scan_shortEscape rfl (by decide) before cs
  by_cases backspace : c.toNat = 8
  · obtain rfl : c = Char.ofNat 8 := by rw [← backspace, Char.ofNat_toNat]
    exact scan_shortEscape rfl (by decide) before cs
  by_cases formFeed : c.toNat = 12
  · obtain rfl : c = Char.ofNat 12 := by rw [← formFeed, Char.ofNat_toNat]
    exact scan_shortEscape rfl (by decide) before cs
  by_cases control : c.toNat < 0x20
  · have written : escapeChar c = '\\' :: 'u' :: hex4 c.toNat := by
      simp [escapeChar, quote, backslash, lineFeed, carriageReturn, tab, backspace, formFeed,
        control]
    have piece : pieceOf c = .unit c.toNat :=
      if_pos ⟨control, lineFeed, carriageReturn, tab, backspace, formFeed⟩
    rw [written, piece]
    refine scan_backslash ?_ before
    show escape ('u' :: (hex4 c.toNat ++ cs)) = _
    rw [escape, if_pos rfl, fourDigits_hex4 (by omega)]
    rfl
  · have written : escapeChar c = [c] := by
      simp [escapeChar, quote, backslash, lineFeed, carriageReturn, tab, backspace, formFeed,
        control]
    have piece : pieceOf c = .char c := if_neg fun small => control small.1
    rw [written, piece]
    exact scan_plain quote backslash control before cs

/-- All characters of a string are read as pieces, up to the closing quote. -/
theorem scan_escaped (before : List Piece) (cs rest : List Char) :
    scan before (cs.flatMap escapeChar ++ '"' :: rest) =
      (before.reverse ++ cs.map pieceOf, .ok rest) := by
  induction cs generalizing before with
  | nil => simpa using scan_quote before rest
  | cons c cs ih =>
      rw [List.flatMap_cons, List.append_assoc, scan_escapeChar, ih]
      simp

/-- **The pieces stand for the characters they were written for.** -/
theorem decode_pieces (cs : List Char) : decode none (cs.map pieceOf) = .ok cs := by
  induction cs with
  | nil => rfl
  | cons c cs ih =>
      rw [List.map_cons, pieceOf]
      split
      · rename_i control
        have small := control.1
        have trailing : isTrailing c.toNat = false := by
          simp only [isTrailing, Bool.and_eq_false_iff, decide_eq_false_iff_not]
          omega
        have leading : isLeading c.toNat = false := by
          simp only [isLeading, Bool.and_eq_false_iff, decide_eq_false_iff_not]
          omega
        unfold decode
        simp [trailing, leading, ih, Except.map, Char.ofNat_toNat]
      · rw [decode, ih]
        rfl

end Quotation

/-- **A written string is read, whatever follows it.** -/
theorem scanString_escaped (s : String) (rest : List Char) :
    scanString (s.toList.flatMap escapeChar ++ '"' :: rest) = (⟨.ok s, none⟩, some rest) := by
  have read := Quotation.scan_escaped [] s.toList rest
  unfold scanString
  rw [read, List.reverse_nil, List.nil_append]
  simp [Quotation.decode_pieces, Except.map]

/-- A written string is one token. -/
theorem Token.scan_stringText (s : String) (rest : List Char) :
    Token.scan (stringText s ++ rest) = .string ⟨.ok s, none⟩ :: Token.scan rest := by
  have text : stringText s ++ rest = '"' :: (s.toList.flatMap escapeChar ++ '"' :: rest) := by
    simp [stringText]
  rw [text, Token.scan]
  simp only [show isSpace '"' = false by decide, Bool.false_eq_true, if_false, if_true]
  split
  · rename_i lexeme after found
    rw [scanString_escaped] at found
    cases found
    rfl
  · rename_i lexeme found
    rw [scanString_escaped] at found
    cases found

end ClientGen.Json
