/-!
What can go wrong while schemas are read, statements are built and settings are loaded. Each error
names what it is about.
-/

namespace RecordSql

/-- An error. -/
inductive Error where
  /-- Not a record type. -/
  | unsupportedModel (name : String)
  /-- A record type that cannot be made into a schema. -/
  | invalidSchema (model reason : String)
  /-- A setting of a field that cannot be read. -/
  | invalidTag (model field reason : String)
  /-- A relationship without a way to relate the two sides. -/
  | invalidRelationship (model field reason : String)
  /-- A field that is not there. -/
  | invalidField (detail : String)
  /-- An update or deletion of every row. -/
  | missingWhere (clause : String)
  /-- A field of a kind that has no column type. -/
  | unsupportedDataType (model field kind : String)
  /-- An error of a dialect. -/
  | dialect (detail : String)
  /-- A value that cannot be stored or loaded. -/
  | serialization (detail : String)
  /-- Settings that cannot be loaded. -/
  | config (detail : String)
  /-- Several errors of one statement. -/
  | multiple (errors : List Error)

namespace Error

mutual
/-- The text of an error. -/
def message : Error → String
  | .unsupportedModel name => "unsupported model: " ++ name
  | .invalidSchema model reason => "invalid schema " ++ model ++ ": " ++ reason
  | .invalidTag model field reason => "invalid tag on " ++ model ++ "." ++ field ++ ": " ++ reason
  | .invalidRelationship model field reason =>
    "invalid relationship " ++ model ++ "." ++ field ++ ": " ++ reason
  | .invalidField detail => "invalid field: " ++ detail
  | .missingWhere clause => clause ++ " statement requires a WHERE condition"
  | .unsupportedDataType model field kind =>
    "unsupported data type for " ++ model ++ "." ++ field ++ ": " ++ kind
  | .dialect detail => "dialect error: " ++ detail
  | .serialization detail => "serialization error: " ++ detail
  | .config detail => "configuration error: " ++ detail
  | .multiple errors => "multiple errors: " ++ "; ".intercalate (messages errors)

/-- The texts of several errors. -/
def messages : List Error → List String
  | [] => []
  | e :: es => message e :: messages es
end

/-- One error for a list of them: none, the only one, or all together. -/
def aggregate : List Error → Option Error
  | [] => none
  | [e] => some e
  | es => some (.multiple es)

end Error

end RecordSql
