import RuleFilter.Json.Basic

/-! # Tokens of a document

A document's text is a sequence of punctuation, quoted texts and words. A word is a maximal run of
letters, digits, signs and points; which words are literals or numbers is decided when values are
read. The text of a token is read one character at a time, by `Scan.step`. -/

namespace RuleFilter.Json

/-- A token of a document. -/
inductive Token where
  | beginArray
  | endArray
  | beginObject
  | endObject
  | comma
  | colon
  | text (s : String)
  | word (cs : List Char)

/-! ### Quoted texts -/

/-- The value of a hexadecimal digit. -/
def hexValue? (c : Char) : Option Nat :=
  if '0' ≤ c ∧ c ≤ '9' then some (c.toNat - '0'.toNat)
  else if 'a' ≤ c ∧ c ≤ 'f' then some (c.toNat - 'a'.toNat + 10)
  else if 'A' ≤ c ∧ c ≤ 'F' then some (c.toNat - 'A'.toNat + 10)
  else none

/-- The 16-bit unit of four hexadecimal digits. -/
def hexUnit? (a b c d : Char) : Option Nat := do
  return (((← hexValue? a) * 16 + (← hexValue? b)) * 16 + (← hexValue? c)) * 16 + (← hexValue? d)

/-- The character that a one-letter escape stands for. -/
def escapedChar? : Char → Option Char
  | '"' => some '"'
  | '\\' => some '\\'
  | '/' => some '/'
  | 'b' => some '\x08'
  | 'f' => some '\x0c'
  | 'n' => some '\n'
  | 'r' => some '\r'
  | 't' => some '\t'
  | _ => none

/-- The code numbers in the body of a quoted text: a character's own, or the 16-bit unit of an
escape. Control characters must be escaped. -/
def codes? : List Char → Option (List Nat)
  | [] => some []
  | '\\' :: 'u' :: a :: b :: c :: d :: rest => do
    return (← hexUnit? a b c d) :: (← codes? rest)
  | '\\' :: c :: rest => do
    return (← escapedChar? c).toNat :: (← codes? rest)
  | c :: rest =>
    if c = '\\' ∨ c.toNat < 0x20 then none else (codes? rest).map (c.toNat :: ·)

/-- The first half of a surrogate pair. -/
def isHighSurrogate (u : Nat) : Bool :=
  0xD800 ≤ u && u < 0xDC00

/-- The second half of a surrogate pair. -/
def isLowSurrogate (u : Nat) : Bool :=
  0xDC00 ≤ u && u < 0xE000

/-- The characters of code numbers, with surrogate pairs joined; half a pair is no text. -/
def joinCodes? : List Nat → Option (List Char)
  | [] => some []
  | u :: v :: rest =>
    if isHighSurrogate u then
      if isLowSurrogate v then
        (joinCodes? rest).map (Char.ofNat (0x10000 + (u - 0xD800) * 0x400 + (v - 0xDC00)) :: ·)
      else none
    else if isLowSurrogate u then none
    else (joinCodes? (v :: rest)).map (Char.ofNat u :: ·)
  | [u] => if isHighSurrogate u || isLowSurrogate u then none else some [Char.ofNat u]

/-- The text that the body of a quoted text stands for. -/
def unquote? (body : List Char) : Option String :=
  ((codes? body).bind joinCodes?).map String.ofList

/-! ### Scanning -/

/-- The four characters that may stand between tokens. -/
def isSpace (c : Char) : Bool :=
  c == ' ' || c == '\t' || c == '\n' || c == '\r'

/-- The characters of words. -/
def isWordChar (c : Char) : Bool :=
  c.isAlphanum || c == '-' || c == '+' || c == '.'

/-- The tokens of one character. -/
def punctuation? : Char → Option Token
  | '[' => some .beginArray
  | ']' => some .endArray
  | '{' => some .beginObject
  | '}' => some .endObject
  | ',' => some .comma
  | ':' => some .colon
  | _ => none

/-- Where scanning stands; what has been read of an unfinished token is kept in reverse. -/
inductive Scan where
  | between
  | inText (body : List Char) (escaped : Bool)
  | inWord (word : List Char)

namespace Scan

/-- Reads a character outside all tokens. -/
def start? (c : Char) : Option (List Token × Scan) :=
  if isSpace c then some ([], .between)
  else if c = '"' then some ([], .inText [] false)
  else if isWordChar c then some ([], .inWord [c])
  else (punctuation? c).map fun token => ([token], .between)

/-- Reads a character: the tokens it completes, and where scanning stands after it. -/
def step? : Scan → Char → Option (List Token × Scan)
  | .between, c => start? c
  | .inText body true, c => some ([], .inText (c :: body) false)
  | .inText body false, c =>
    if c = '"' then (unquote? body.reverse).map fun s => ([.text s], .between)
    else some ([], .inText (c :: body) (c == '\\'))
  | .inWord word, c =>
    if isWordChar c then some ([], .inWord (c :: word))
    else (start? c).map fun (tokens, scan) => (.word word.reverse :: tokens, scan)

/-- The token that the end of the text completes. -/
def finish? : Scan → Option (List Token)
  | .between => some []
  | .inText _ _ => none
  | .inWord word => some [.word word.reverse]

/-- The tokens of the rest of a text. -/
def tokens? : Scan → List Char → Option (List Token)
  | scan, [] => scan.finish?
  | scan, c :: rest => do
    let (first, scan) ← scan.step? c
    return first ++ (← scan.tokens? rest)

end Scan

end RuleFilter.Json
