import RecordSql.Text.WordTable
/-!
Word characters and decimal digits.
-/

namespace RecordSql.Text

/-- Whether words are made of this character. -/
def isWord (c : Char) : Bool :=
  wordRanges.contains c

/-- Whether the character is a decimal digit of some script. -/
def isAnyDigit (c : Char) : Bool :=
  digitRanges.contains c

end RecordSql.Text
