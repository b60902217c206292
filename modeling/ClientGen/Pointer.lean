/-!
# Pointers into a document

A pointer is a text such as `#/paths/~1pets/get`: a root followed by reference tokens, each after a
slash. Inside a token a tilde is written `~0` and a slash `~1`.

* `Pointer.escape`, `Pointer.unescape` — a token and its written form.
* `Pointer.child` — one step down.
-/

namespace ClientGen.Pointer

/-- The written form of a token. -/
def escapeChars : List Char → List Char
  | [] => []
  | c :: cs =>
    if c = '~' then '~' :: '0' :: escapeChars cs
    else if c = '/' then '~' :: '1' :: escapeChars cs
    else c :: escapeChars cs

/-- The token that a written form stands for; a tilde before any other character stays. -/
def unescapeChars : List Char → List Char
  | [] => []
  | '~' :: '0' :: cs => '~' :: unescapeChars cs
  | '~' :: '1' :: cs => '/' :: unescapeChars cs
  | c :: cs => c :: unescapeChars cs

/-- **The written form of a token.** -/
def escape (token : String) : String :=
  String.ofList (escapeChars token.toList)

/-- **The token of a written form.** -/
def unescape (written : String) : String :=
  String.ofList (unescapeChars written.toList)

/-- A pointer extended by one token. -/
def child (parent token : String) : String :=
  parent ++ "/" ++ escape token

/-- A pointer extended by several tokens. -/
def descend (root : String) (tokens : List String) : String :=
  tokens.foldl child root

@[simp] theorem descend_nil (root : String) : descend root [] = root := rfl

@[simp] theorem descend_cons (root token : String) (tokens : List String) :
    descend root (token :: tokens) = descend (child root token) tokens := rfl

end ClientGen.Pointer
