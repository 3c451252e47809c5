import RecordSql.Value
import RecordSql.Text.Word
import RecordSql.Text.Utf8
/-!
Statements with their values written in, for people to read. The result is never to be executed.
-/

namespace RecordSql.Explain

open RecordSql.Text

/-- A text between two `quote`s, those inside it after a backslash. -/
def quoted (quote : Char) (s : String) : String :=
  String.singleton quote ++ replaceChar quote (String.ofList ['\\', quote]) s
    ++ String.singleton quote

/-- Whether the character is a control character. -/
def isControl (c : Char) : Bool :=
  c.toNat < 0x20 || (0x7F ≤ c.toNat && c.toNat < 0xA0)

/-- Bytes that spell a text without control characters are shown as that text. -/
def bytesText (quote : Char) (bytes : List UInt8) : String :=
  let binary := String.singleton quote ++ "<binary>" ++ String.singleton quote
  match utf8? bytes with
  | some s => if s.toList.any isControl then binary else quoted quote s
  | none => binary

mutual
/-- A value as it is shown. -/
def shown (quote : Char) : Value → String
  | .null => "NULL"
  | .bool b => if b then "true" else "false"
  | .int n => toString n.toInt
  | .uint n => toString n.toNat
  | .float x => x.sixPlaces
  | .text s => quoted quote s
  | .blob bytes => bytesText quote bytes
  | .time t => quoted quote (t.text 3)
  | .array items => "(" ++ ",".intercalate (shownAll quote items) ++ ")"

/-- Several values as they are shown. -/
def shownAll (quote : Char) : List Value → List String
  | [] => []
  | v :: vs => shown quote v :: shownAll quote vs
end

/-- Puts one text after the other in the place of the question marks, as long as there are any. -/
def fillMarks (texts : List String) : List Char → List Char
  | [] => []
  | c :: cs =>
    match texts with
    | t :: ts => if c == '?' then t.toList ++ fillMarks ts cs else c :: fillMarks texts cs
    | [] => c :: cs

/-- The text for the placeholder with these digits; one without a value stays as it is. -/
def numberedText (texts : List String) (digits : List Char) : List Char :=
  let known := match (nat? 10 digits).filter (· < Nat.pow 2 64) with
    | some (n + 1) => texts[n]?
    | _ => none
  match known with
  | some t => t.toList
  | none => '$' :: digits

/-- Puts texts in the place of dollar signs followed by digits. `digits` are those read so far
after a dollar sign, last digit first. -/
def fillNumbers (texts : List String) (digits : Option (List Char)) : List Char → List Char
  | [] => match digits with
    | none => []
    | some [] => ['$']
    | some ds => numberedText texts ds.reverse
  | c :: cs =>
    match digits with
    | none => if c == '$' then fillNumbers texts (some []) cs else c :: fillNumbers texts none cs
    | some ds =>
      if isAnyDigit c then fillNumbers texts (some (c :: ds)) cs
      else
        let before := if ds.isEmpty then ['$'] else numberedText texts ds.reverse
        if c == '$' then before ++ fillNumbers texts (some []) cs
        else before ++ c :: fillNumbers texts none cs

/-- Writes values into a statement whose placeholders are numbered or are question marks. -/
def explain (numbered : Bool) (quote : Char) (sql : String) (values : List Value) : String :=
  let texts := shownAll quote values
  String.ofList (if numbered then fillNumbers texts none sql.toList else fillMarks texts sql.toList)

end RecordSql.Explain
