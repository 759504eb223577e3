/-! # Quoted texts

A text is quoted by writing a mark at both ends and every mark inside it twice. -/

namespace RuleFilter.Text

/-- The text with every occurrence of the mark written twice. -/
def doubled (mark : Char) (cs : List Char) : List Char :=
  cs.flatMap fun c => if c = mark then [mark, mark] else [c]

/-- The text between two marks, with every mark inside it written twice. -/
def quoted (mark : Char) (cs : List Char) : List Char :=
  mark :: doubled mark cs ++ [mark]

end RuleFilter.Text
