/-!
# Path templates

A path such as `/users/{id}/posts` alternates between literal text and parameters in braces.

* `PathTemplate.Segment` — a literal or a parameter.
* `PathTemplate.split` — the segments of a path.
* `PathTemplate.join` — the path of a list of segments.

A brace that is not closed is literal text. Inside braces everything up to the next closing brace is
the name, further opening braces included.
-/

namespace ClientGen.PathTemplate

/-- **A piece of a path.** -/
inductive Segment where
  /-- Text that is copied. -/
  | literal (text : String)
  /-- The name between braces. -/
  | param (name : String)
  deriving DecidableEq, Repr

/-- The name up to the next closing brace, and what follows that brace. -/
def name? : List Char → Option (List Char × List Char)
  | [] => none
  | c :: cs =>
    if c = '}' then some ([], cs)
    else (name? cs).map fun (name, rest) => (c :: name, rest)

theorem length_of_name? {cs name rest : List Char} (h : name? cs = some (name, rest)) :
    rest.length < cs.length := by
  induction cs generalizing name with
  | nil => simp [name?] at h
  | cons c cs ih =>
    by_cases hc : c = '}'
    · simp [name?, hc] at h
      simp [h.2]
    · simp [name?, hc] at h
      obtain ⟨n, hn, -⟩ := h
      have := ih hn
      simp only [List.length_cons]
      omega

/-- The literal of a text, unless the text is empty. -/
def literals (text : List Char) : List Segment :=
  if text.isEmpty then [] else [.literal (String.ofList text)]

/-- The segments of a text, where `before` is the literal text read so far, reversed. -/
def splitFrom (before : List Char) (cs : List Char) : List Segment :=
  match cs with
  | [] => literals before.reverse
  | c :: cs =>
    if c = '{' then
      match _h : name? cs with
      | some (name, rest) =>
        literals before.reverse ++ .param (String.ofList name) :: splitFrom [] rest
      | none => literals (before.reverse ++ c :: cs)
    else splitFrom (c :: before) cs
termination_by cs.length
decreasing_by
  · have := length_of_name? _h
    simp only [List.length_cons]
    omega
  · simp

/-- **The segments of a path.** -/
def split (path : String) : List Segment :=
  splitFrom [] path.toList

/-- The text of a segment. -/
def Segment.text : Segment → String
  | .literal text => text
  | .param name => "\x7b" ++ name ++ "\x7d"

/-- The path of a list of segments. -/
def join (segments : List Segment) : String :=
  String.join (segments.map Segment.text)

end ClientGen.PathTemplate
