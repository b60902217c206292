import ClientGen.Proofs.Pointer.Escape
import Mathlib.Data.List.Induction

/-!
# Resolving pointers

A pointer is resolved from the root of a document along its tokens: what stands between the slashes
is written, and each written token is read back.

A token is written by two replacements one after the other: first every tilde becomes `~0`, then
every slash becomes `~1`. It is read back by the two replacements of pairs in the opposite order.
The order matters both times: the tilde of `~1` must not be replaced again, and the `1` of `~01`
must not be taken for the second half of a pair.

* `Pointer.tokens?` — the tokens of a pointer, if it starts at the root.
* `Pointer.tokens?_descend` — a pointer that descends along tokens is resolved along them.
* `Pointer.replaceChar`, `Pointer.replacePair` — replacing a character by a text, and two characters
  by one.
* `Pointer.escapeChars_eq`, `Pointer.unescapeChars_eq` — the written form of a token, and the token
  of a written form.
* `Pointer.descend_injective` — a place determines the tokens that lead to it.
-/

namespace ClientGen.Pointer

/-- **The tokens of a pointer** that starts at the root. -/
def tokens? (pointer : String) : Option (List String) :=
  match pointer.toList.splitOnP (· == '/') with
  | ['#'] :: written => some (written.map fun cs => String.ofList (unescapeChars cs))
  | _ => none

/-- The texts between the slashes of a pointer. -/
theorem splitOnP_descend (tokens : List String) :
    (descend "#" tokens).toList.splitOnP (· == '/') =
      ['#'] :: tokens.map fun token => escapeChars token.toList := by
  induction tokens using List.reverseRecOn with
  | nil => rfl
  | append_singleton tokens token ih =>
      have noSlash : ∀ c ∈ escapeChars token.toList, (c == '/') = false := fun c member => by
        simpa using ne_slash_of_mem_escapeChars member
      have last : (descend "#" (tokens ++ [token])).toList =
          (descend "#" tokens).toList ++ '/' :: escapeChars token.toList := by
        simp [descend, child, escape]
      rw [last, List.splitOnP_append_cons _ _ rfl, ih, List.splitOnP_eq_singleton noSlash,
        List.map_append, List.map_singleton, List.cons_append]

/-- **A pointer that descends along tokens** is resolved along them. -/
theorem tokens?_descend (tokens : List String) : tokens? (descend "#" tokens) = some tokens := by
  rw [tokens?, splitOnP_descend]
  have back (token : String) :
      String.ofList (unescapeChars (escapeChars token.toList)) = token := by
    rw [unescapeChars_escapeChars, String.ofList_toList]
  simp [Function.comp_def, back]

theorem descend_append (root : String) (tokens more : List String) :
    descend root (tokens ++ more) = descend (descend root tokens) more :=
  List.foldl_append

/-! ## Replacements -/

/-- A text with every `c` replaced. -/
def replaceChar (c : Char) (result : List Char) (cs : List Char) : List Char :=
  cs.flatMap fun d => if d = c then result else [d]

/-- A text with every `first` that a `second` follows replaced, together with it. -/
def replacePair (first second result : Char) : List Char → List Char
  | [] => []
  | [c] => [c]
  | c :: d :: cs =>
    if c = first ∧ d = second then result :: replacePair first second result cs
    else c :: replacePair first second result (d :: cs)

/-! ## Writing -/

@[simp] theorem replaceChar_nil (c : Char) (result : List Char) : replaceChar c result [] = [] := rfl

theorem replaceChar_cons (c : Char) (result : List Char) (d : Char) (ds : List Char) :
    replaceChar c result (d :: ds) = (if d = c then result else [d]) ++ replaceChar c result ds :=
  List.flatMap_cons

theorem replaceChar_append (c : Char) (result : List Char) (cs ds : List Char) :
    replaceChar c result (cs ++ ds) = replaceChar c result cs ++ replaceChar c result ds :=
  List.flatMap_append

/-- **A token is written by two replacements**: of its tildes, and then of its slashes. -/
theorem escapeChars_eq (cs : List Char) :
    escapeChars cs = replaceChar '/' ['~', '1'] (replaceChar '~' ['~', '0'] cs) := by
  induction cs with
  | nil => rfl
  | cons c cs ih =>
      rw [escapeChars_cons, replaceChar_cons, replaceChar_append, ← ih]
      congr 1
      split
      · rfl
      · rw [replaceChar_cons, replaceChar_nil, List.append_nil]

/-! ## Reading -/

section Pairs

variable {first second result : Char}

@[simp] theorem replacePair_nil : replacePair first second result [] = [] := rfl

/-- A pair is replaced. -/
@[simp] theorem replacePair_pair (cs : List Char) :
    replacePair first second result (first :: second :: cs) =
      result :: replacePair first second result cs := by
  rw [replacePair, if_pos ⟨rfl, rfl⟩]

/-- What does not start a pair stays. -/
theorem replacePair_cons {c : Char} {cs : List Char}
    (single : c = first → cs.head? ≠ some second) :
    replacePair first second result (c :: cs) = c :: replacePair first second result cs := by
  cases cs with
  | nil => rfl
  | cons d ds =>
      have noPair : ¬(c = first ∧ d = second) := fun ⟨start, follows⟩ =>
        single start (congrArg some follows)
      rw [replacePair, if_neg noPair]

/-- A text that is replaced starts as it did, or with what replaces its first pair. -/
theorem head?_replacePair (first second result : Char) (cs : List Char) :
    (replacePair first second result cs).head? = cs.head? ∨
      cs.head? = some first ∧ (replacePair first second result cs).head? = some result := by
  match cs with
  | [] => exact .inl rfl
  | [c] => exact .inl rfl
  | c :: d :: cs =>
      rw [replacePair]
      split
      case isTrue pair => exact .inr ⟨congrArg some pair.1, rfl⟩
      case isFalse => exact .inl rfl

end Pairs

/-- **A token is read by two replacements**: of the pairs for a slash, and then of those for a
tilde. -/
theorem unescapeChars_eq (cs : List Char) :
    unescapeChars cs = replacePair '~' '0' '~' (replacePair '~' '1' '/' cs) := by
  induction cs using unescapeChars.induct with
  | case1 => rfl
  | case2 cs ih =>
      -- the pair for a tilde outlasts the first replacement
      have first : replacePair '~' '1' '/' ('~' :: '0' :: cs) =
          '~' :: '0' :: replacePair '~' '1' '/' cs := by
        rw [replacePair_cons fun _ => by simp, replacePair_cons fun tilde => by simp at tilde]
      rw [first, replacePair_pair, unescapeChars, ih]
  | case3 cs ih =>
      -- the slash that replaces the first pair starts no other pair
      rw [replacePair_pair, replacePair_cons fun tilde => by simp at tilde, unescapeChars, ih]
  | case4 c cs notTilde notSlash ih =>
      have slash : c = '~' → cs.head? ≠ some '1' := by
        rintro rfl follows
        obtain ⟨rest, rfl⟩ := List.head?_eq_some_iff.mp follows
        exact notSlash rest rfl rfl
      have tilde : c = '~' → (replacePair '~' '1' '/' cs).head? ≠ some '0' := by
        rintro rfl follows
        rcases head?_replacePair '~' '1' '/' cs with same | ⟨-, new⟩
        · obtain ⟨rest, rfl⟩ := List.head?_eq_some_iff.mp (same ▸ follows)
          exact notTilde rest rfl rfl
        · simp [new] at follows
      rw [replacePair_cons slash, replacePair_cons tilde, unescapeChars, ih]
      · exact notTilde
      · exact notSlash

/-! ## Places -/

/-- The texts between the slashes of a place below a root. -/
theorem toList_descend (root : String) (tokens : List String) :
    (descend root tokens).toList =
      root.toList ++ tokens.flatMap fun token => '/' :: escapeChars token.toList := by
  induction tokens generalizing root with
  | nil => simp
  | cons token tokens ih => simp [ih, child, escape]

/-- The place below a root, without the root, is the place below the root of documents. -/
theorem descend_eq_iff {root : String} {tokens others : List String} :
    descend root tokens = descend root others ↔ descend "#" tokens = descend "#" others := by
  rw [← String.toList_inj, ← String.toList_inj, toList_descend, toList_descend, toList_descend,
    toList_descend, List.append_cancel_left_eq, List.append_cancel_left_eq]

/-- **A place determines the tokens that lead to it** from a root. -/
theorem descend_injective (root : String) : Function.Injective (descend root) := by
  intro tokens others same
  have resolved := congrArg tokens? (descend_eq_iff.mp same)
  rw [tokens?_descend, tokens?_descend] at resolved
  exact Option.some.inj resolved

end ClientGen.Pointer
