import RecordSql.Error
import RecordSql.Json.Raw
import RecordSql.Schema.Field
import RecordSql.Text.Utf8
/-!
Serializers: how a field's value is stored when that is not by its type, and how it is loaded again.
-/

namespace RecordSql

/-- A serializer. -/
inductive Serializer where
  /-- Values are stored as JSON text. -/
  | json
  /-- Seconds since 1970 are stored as times. -/
  | unixTime
  deriving DecidableEq, Repr

namespace Serializer

/-- The serializer with a name, whatever the case of its letters. -/
def lookup (name : String) : Option Serializer :=
  [("json", json), ("unixtime", unixTime)].lookup (Text.lower name)

/-- An error about a field. -/
def fault (field : Field) (detail : String) : Error := .serialization (field.name ++ ": " ++ detail)

mutual
/-- A stored value as a document. -/
def document : Value → Json
  | .null => .null
  | .bool b => .bool b
  | .int n => Json.ofInt n.toInt
  | .uint n => Json.ofInt n.toNat
  | .float x => Json.ofFloat x
  | .text s => .string s
  | .blob bytes => .string (Text.utf8Lossy bytes)
  | .time t => .string t.rfc3339
  | .array items => .array (documents items)

/-- Stored values as documents. -/
def documents : List Value → List Json
  | [] => []
  | v :: vs => document v :: documents vs
end

/-- Reads JSON text; the empty text is null. -/
def readText (field : Field) (text : String) : Except Error Json :=
  if text.isEmpty then .ok .null
  else match Json.ofText? text with
    | some document => .ok document
    | none => .error (fault field "malformed JSON")

/-- The value to be stored for a field. -/
def store (s : Serializer) (field : Field) (document : Json) : Except Error Value :=
  match s, document with
  | .json, .null => .ok (if field.notNull then .text "" else .null)
  | .json, _ => .ok (.text document.text)
  | .unixTime, .null => .ok .null
  | .unixTime, .number (.integer n) =>
    if Nat.pow 2 63 ≤ n then
      .error (fault field ("integer overflow converting " ++ toString n ++ " to unix time"))
    else match Instant.ofSeconds? n with
      | some t => .ok (.time t)
      | none => .error (fault field (toString n ++ " is out of range"))
  | .unixTime, _ => .error (fault field ("unix time requires an integer, got " ++ document.text))

/-- The document that was stored for a field. -/
def load (s : Serializer) (field : Field) (stored : Value) : Except Error Json :=
  match s, stored with
  | _, .null => .ok .null
  | .json, .text text => readText field text
  | .json, .blob bytes => readText field (Text.utf8Lossy bytes)
  | .json, _ => .ok (document stored)
  | .unixTime, .time t => .ok (Json.ofInt t.seconds)
  | .unixTime, .int n => .ok (Json.ofInt n.toInt)
  | .unixTime, _ => .error (fault field ("cannot read unix time from " ++ stored.literal))

end Serializer

end RecordSql
