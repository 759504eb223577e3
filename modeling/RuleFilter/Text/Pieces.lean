/-! # Pieces of a text

The pieces between the occurrences of a delimiter, found from left to right without overlap.
Joining the pieces with the delimiter gives back the text. -/

namespace RuleFilter.Text

/-- The pieces between the occurrences of a delimiter that is not empty; the first `skip`
characters still belong to the occurrence found last. -/
def piecesAfter (delimiter : List Char) : Nat → List Char → List (List Char)
  | _, [] => [[]]
  | skip + 1, _ :: rest => piecesAfter delimiter skip rest
  | 0, c :: rest =>
    if delimiter.isPrefixOf (c :: rest) then
      [] :: piecesAfter delimiter (delimiter.length - 1) rest
    else
      (piecesAfter delimiter 0 rest).modifyHead (c :: ·)

/-- The pieces of a text. The empty delimiter occurs before, between and after all characters. -/
def pieces (delimiter text : List Char) : List (List Char) :=
  if delimiter.isEmpty then [] :: (text.map ([·]) ++ [[]]) else piecesAfter delimiter 0 text

/-- The pieces of a string. -/
def splitAt (delimiter text : String) : List String :=
  (pieces delimiter.toList text.toList).map String.ofList

end RuleFilter.Text
