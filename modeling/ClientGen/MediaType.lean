import ClientGen.Text.Blank

/-!
# Media types

Which of several media types a client should speak, and how it encodes one.

* `MediaType.essence` — a media type without parameters, in lower case.
* `MediaType.classes` — the classes of media types, best first.
* `MediaType.preferred?` — the first media type of the best class.
* `ContentKind`, `MediaType.kind` — the coarse encoding of a body.

**One order.** JSON comes before forms, forms before text, text before raw bytes. A media type may
be in more than one class; the choice and the kind both go by the best one.
-/

namespace ClientGen

/-- **The coarse encoding of a body.** -/
inductive ContentKind where
  /-- A JSON value. -/
  | json
  /-- Form fields. -/
  | form
  /-- Plain text. -/
  | text
  /-- Raw bytes. -/
  | binary
  /-- Anything else. -/
  | unknown
  deriving DecidableEq, Repr, Inhabited

/-- The name of a kind. -/
def ContentKind.name : ContentKind → String
  | .json => "json"
  | .form => "form"
  | .text => "text"
  | .binary => "binary"
  | .unknown => "unknown"

/-- All kinds, in the order in which they are named to users. -/
def ContentKind.all : List ContentKind :=
  [.json, .form, .text, .binary, .unknown]

namespace MediaType

open Text

/-- A media type without its parameters, without blanks at the ends, in ASCII lower case. -/
def essence (mediaType : String) : List Char :=
  (trim (mediaType.toList.takeWhile (· != ';'))).map asciiLower

/-- `application/json` and every type with the suffix `+json`. -/
def isJson (e : List Char) : Bool :=
  e == "application/json".toList || "+json".toList.isSuffixOf e

/-- `multipart/form-data`. -/
def isMultipart (e : List Char) : Bool :=
  e == "multipart/form-data".toList

/-- `application/x-www-form-urlencoded`. -/
def isUrlencoded (e : List Char) : Bool :=
  e == "application/x-www-form-urlencoded".toList

/-- Every type below `text/`. -/
def isText (e : List Char) : Bool :=
  "text/".toList.isPrefixOf e

/-- `application/octet-stream`. -/
def isOctets (e : List Char) : Bool :=
  e == "application/octet-stream".toList

/-- Every type below `audio/`, `image/` and `video/`. -/
def isMedia (e : List Char) : Bool :=
  ["audio/", "image/", "video/"].any fun p => p.toList.isPrefixOf e

/-- **The classes of media types**, best first, as properties of essences. -/
def classes : List (List Char → Bool) :=
  [isJson, isMultipart, isUrlencoded, isText, isOctets, isMedia]

/-- **The media type to speak**: the first one of the best class that has any of them, or the first
one if they are in no class. -/
def preferred? (mediaTypes : List String) : Option String :=
  (classes.findSome? fun isIn => mediaTypes.find? fun m => isIn (essence m)).or mediaTypes.head?

/-- **The kind of a media type.** -/
def kind (mediaType : String) : ContentKind :=
  let e := essence mediaType
  if isJson e then .json
  else if isMultipart e || isUrlencoded e then .form
  else if isText e then .text
  else if isOctets e || isMedia e then .binary
  else .unknown

end MediaType

end ClientGen
