import RuleFilter.Json.Number
import RuleFilter.Json.Token

/-! # Reading documents

Tokens are assembled into a value with the unfinished arrays and objects kept in a stack, innermost
first. At most 127 of them may be open at a time. `Json.ofText?` keeps members as written;
`Json.ofPayload?` is its canonical form. -/

namespace RuleFilter

namespace Json

/-- The value of a word: one of three literals, or a number. -/
def ofWord? (cs : List Char) : Option Json :=
  let word := String.ofList cs
  if word = "null" then some .null
  else if word = "true" then some (.bool true)
  else if word = "false" then some (.bool false)
  else (Number.read? cs).map .num

/-! ### Assembly -/

/-- An array or object that is not finished, with what precedes the value now being read, in
reverse. -/
inductive Frame where
  | items (before : List Json)
  | members (before : Members) (key : String)

/-- What has been read of a document. -/
inductive Assembly where
  /-- A value is due. -/
  | valueDue (frames : List Frame)
  /-- An array has just been opened. -/
  | arrayOpened (frames : List Frame)
  /-- An object has just been opened. -/
  | objectOpened (frames : List Frame)
  /-- The key of another member is due. -/
  | keyDue (frames : List Frame) (before : Members)
  /-- The colon after a key is due. -/
  | colonDue (frames : List Frame) (before : Members) (key : String)
  /-- A value has just been finished. -/
  | finished (frames : List Frame) (value : Json)

namespace Assembly

/-- The greatest number of arrays and objects that may be open at a time. -/
def maxDepth : Nat := 127

/-- Reads the first token of a value. -/
def beginValue? (frames : List Frame) : Token → Option Assembly
  | .beginArray => if frames.length < maxDepth then some (.arrayOpened frames) else none
  | .beginObject => if frames.length < maxDepth then some (.objectOpened frames) else none
  | .text s => some (.finished frames (.str s))
  | .word cs => (ofWord? cs).map (.finished frames)
  | _ => none

/-- Reads a token after a finished value. -/
def afterValue? (value : Json) : List Frame → Token → Option Assembly
  | .items before :: frames, .comma => some (.valueDue (.items (value :: before) :: frames))
  | .items before :: frames, .endArray => some (.finished frames (.arr (value :: before).reverse))
  | .members before key :: frames, .comma => some (.keyDue frames ((key, value) :: before))
  | .members before key :: frames, .endObject =>
    some (.finished frames (.obj ((key, value) :: before).reverse))
  | _, _ => none

/-- Reads a token. -/
def step? : Assembly → Token → Option Assembly
  | .valueDue frames, token => beginValue? frames token
  | .arrayOpened frames, .endArray => some (.finished frames (.arr []))
  | .arrayOpened frames, token => beginValue? (.items [] :: frames) token
  | .objectOpened frames, .endObject => some (.finished frames (.obj []))
  | .objectOpened frames, .text key => some (.colonDue frames [] key)
  | .keyDue frames before, .text key => some (.colonDue frames before key)
  | .colonDue frames before key, .colon => some (.valueDue (.members before key :: frames))
  | .finished frames value, token => afterValue? value frames token
  | _, _ => none

/-- The document, if it is finished. -/
def document? : Assembly → Option Json
  | .finished [] value => some value
  | _ => none

end Assembly

/-- The document that a sequence of tokens spells. -/
def ofTokens? (tokens : List Token) : Option Json :=
  (tokens.foldlM Assembly.step? (Assembly.valueDue [])).bind Assembly.document?

/-- Reads a document, members as written. -/
def ofText? (text : String) : Option Json :=
  (Scan.tokens? .between text.toList).bind ofTokens?

/-- Reads a document in canonical form. -/
def ofPayload? (text : String) : Option Json :=
  (ofText? text).map canonical

end Json

end RuleFilter
