import RecordSql.Text.Ranges
/-!
Blanks: the characters of the Unicode property White_Space, and trimming by them or by any class.
-/

namespace RecordSql.Text

/-- Characters of the property White_Space. -/
def blankRanges : Ranges :=
  [
    (0x9, 0xD), (0x20, 0x20), (0x85, 0x85), (0xA0, 0xA0), (0x1680, 0x1680), (0x2000, 0x200A),
    (0x2028, 0x2029), (0x202F, 0x202F), (0x205F, 0x205F), (0x3000, 0x3000)
  ]

/-- Whether a character is a blank. -/
def isBlank (c : Char) : Bool :=
  blankRanges.contains c

/-- Every blank of the ASCII range is one of the property. -/
example : [' ', '\t', '\n', '\r'].all isBlank = true := by decide

/-- Drops the characters of a class from the end. -/
def dropEnd (p : Char → Bool) (cs : List Char) : List Char :=
  (cs.reverse.dropWhile p).reverse

/-- Drops the characters of a class from both ends. -/
def dropEnds (p : Char → Bool) (cs : List Char) : List Char :=
  dropEnd p (cs.dropWhile p)

/-- A text without the characters of a class at its ends. -/
def trimBy (p : Char → Bool) (s : String) : String :=
  String.ofList (dropEnds p s.toList)

/-- A text without blanks at its ends. -/
def trim (s : String) : String :=
  trimBy isBlank s

end RecordSql.Text
