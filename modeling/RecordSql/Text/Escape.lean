import RecordSql.Text.EscapeTable
/-!
Texts shown in a listing: between double quotes, with every character that would not be seen, or
would be misread, written as an escape.
-/

namespace RecordSql.Text

/-- A code point in hexadecimal between braces. -/
def codeEscape (c : Char) : List Char :=
  '\\' :: 'u' :: '\x7b' :: Nat.toDigits 16 c.toNat ++ ['\x7d']

/-- One character as it is listed. -/
def listedChar (c : Char) : List Char :=
  match c with
  | '\x00' => ['\\', '0']
  | '\t' => ['\\', 't']
  | '\r' => ['\\', 'r']
  | '\n' => ['\\', 'n']
  | '"' => ['\\', '"']
  | '\\' => ['\\', '\\']
  | _ => if attachingRanges.contains c || glyphlessRanges.contains c then codeEscape c else [c]

/-- A text as it is listed. -/
def listed (s : String) : String :=
  String.ofList ('"' :: s.toList.flatMap listedChar ++ ['"'])

/-- A list of texts in square brackets. -/
def listing (items : List String) : String :=
  "[" ++ ", ".intercalate (items.map listed) ++ "]"

end RecordSql.Text
