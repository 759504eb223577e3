/-! # Identifiers

Field names and placeholder names are written into SQL text as they are, so they are kept to
words: an ASCII letter or underscore followed by ASCII letters, digits and underscores. A path is
one or more words joined by dots, such as `users.age`. -/

namespace RuleFilter.Identifier

/-- A character that may open a word. -/
def isWordStart (c : Char) : Bool :=
  c.isAlpha || c == '_'

/-- A character that may stand inside a word. -/
def isWordPart (c : Char) : Bool :=
  c.isAlphanum || c == '_'

/-- A letter or underscore followed by letters, digits and underscores. -/
def isWord : List Char → Bool
  | [] => false
  | c :: rest => isWordStart c && rest.all isWordPart

/-- The segments of a dotted path. -/
def segments (path : String) : List (List Char) :=
  path.toList.splitOn '.'

/-- Words joined by single dots. -/
def isPath (path : String) : Bool :=
  (segments path).all isWord

end RuleFilter.Identifier
