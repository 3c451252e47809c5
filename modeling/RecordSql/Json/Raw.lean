import RecordSql.Json.Document
/-!
The grammar of JSON text. Reading gives the document as it is written: numbers as their digits,
members in their order, repeated keys included, and a string that spells half a surrogate pair as
no text. What a reader of the document makes of those is a second step, so that a part that nobody
looks at has to be well formed only.
-/

namespace RecordSql.Json

/-- A document as it is written. -/
inductive Raw where
  | null
  | bool (b : Bool)
  | number (lexeme : Lexeme)
  | string (text : Option String)
  | array (items : List Raw)
  | object (members : List (Option String × Raw))

/-- Blanks between tokens. -/
def isSpace (c : Char) : Bool :=
  c == ' ' || c == '\t' || c == '\n' || c == '\r'

/-- Skips blanks. -/
def skip (cs : List Char) : List Char := cs.dropWhile isSpace

/-- The value of a hexadecimal digit. -/
def hexValue? (c : Char) : Option Nat :=
  if '0' ≤ c ∧ c ≤ '9' then some (c.toNat - '0'.toNat)
  else if 'a' ≤ c ∧ c ≤ 'f' then some (c.toNat - 'a'.toNat + 10)
  else if 'A' ≤ c ∧ c ≤ 'F' then some (c.toNat - 'A'.toNat + 10)
  else none

/-- What a string has spelled so far, last character first. -/
structure Spelling where
  reversed : List Char := []
  /-- The first half of a surrogate pair that waits for the second. -/
  half : Option Nat := none
  /-- Some half stood alone. -/
  broken : Bool := false

/-- Adds a whole character. -/
def Spelling.push (s : Spelling) (c : Char) : Spelling :=
  ⟨c :: s.reversed, none, s.broken || s.half.isSome⟩

/-- Adds a sixteen-bit unit. -/
def Spelling.pushUnit (s : Spelling) (unit : Nat) : Spelling :=
  if 0xD800 ≤ unit ∧ unit < 0xDC00 then ⟨s.reversed, some unit, s.broken || s.half.isSome⟩
  else if 0xDC00 ≤ unit ∧ unit < 0xE000 then
    match s.half with
    | some high =>
      let c := Char.ofNat (0x10000 + (high - 0xD800) * 0x400 + (unit - 0xDC00))
      ⟨c :: s.reversed, none, s.broken⟩
    | none => { s with broken := true }
  else s.push (Char.ofNat unit)

/-- The text that was spelled, unless some half stood alone. -/
def Spelling.text? (s : Spelling) : Option String :=
  if s.broken || s.half.isSome then none else some (String.ofList s.reversed.reverse)

/-- The character of a short escape. -/
def escaped? : Char → Option Char
  | '"' => some '"'
  | '\\' => some '\\'
  | '/' => some '/'
  | 'b' => some '\x08'
  | 'f' => some '\x0c'
  | 'n' => some '\n'
  | 'r' => some '\r'
  | 't' => some '\t'
  | _ => none

/-- The rest of a string up to its closing quote, and what follows. -/
def stringRest (s : Spelling) : List Char → Option (Option String × List Char)
  | [] => none
  | '"' :: rest => some (s.text?, rest)
  | '\\' :: 'u' :: a :: b :: c :: d :: rest =>
    match hexValue? a, hexValue? b, hexValue? c, hexValue? d with
    | some a, some b, some c, some d =>
      stringRest (s.pushUnit (((a * 16 + b) * 16 + c) * 16 + d)) rest
    | _, _, _, _ => none
  | '\\' :: e :: rest =>
    match escaped? e with
    | some c => stringRest (s.push c) rest
    | none => none
  | c :: rest => if c == '\\' || c.toNat < 0x20 then none else stringRest (s.push c) rest

/-- The leading digits and what follows them. -/
def digits (cs : List Char) : List Nat × List Char :=
  let (ds, rest) := cs.span fun c => decide ('0' ≤ c) && decide (c ≤ '9')
  (ds.map fun c => c.toNat - '0'.toNat, rest)

/-- The part of a number after the point, if there is a point; it has a digit. -/
def fraction? (cs : List Char) : Option (Option (List Nat) × List Char) :=
  match cs with
  | '.' :: rest =>
    match digits rest with
    | ([], _) => none
    | (ds, rest) => some (some ds, rest)
  | _ => some (none, cs)

/-- The exponent of a number, if there is one; it has a digit. -/
def exponent? (cs : List Char) : Option (Option (Bool × List Nat) × List Char) :=
  match cs with
  | c :: rest =>
    if c == 'e' || c == 'E' then
      let (minus, rest) := match rest with
        | '-' :: rest => (true, rest)
        | '+' :: rest => (false, rest)
        | _ => (false, rest)
      match digits rest with
      | ([], _) => none
      | (ds, rest) => some (some (minus, ds), rest)
    else some (none, cs)
  | [] => some (none, [])

/-- A number without its sign; a zero that stands first stands alone before the point. -/
def number? (negative : Bool) (cs : List Char) : Option (Raw × List Char) :=
  match digits cs with
  | ([], _) => none
  | (0 :: _ :: _, _) => none
  | (whole, rest) => do
    let (fraction, rest) ← fraction? rest
    let (exponent, rest) ← exponent? rest
    return (.number ⟨negative, whole, fraction, exponent⟩, rest)

mutual
/-- A value at the start of the text. Each step takes a character, so the fuel lasts. -/
def value? (fuel : Nat) (cs : List Char) : Option (Raw × List Char) :=
  match fuel with
  | 0 => none
  | fuel + 1 =>
    match cs with
    | 'n' :: 'u' :: 'l' :: 'l' :: rest => some (.null, rest)
    | 't' :: 'r' :: 'u' :: 'e' :: rest => some (.bool true, rest)
    | 'f' :: 'a' :: 'l' :: 's' :: 'e' :: rest => some (.bool false, rest)
    | '"' :: rest => (stringRest {} rest).map fun (s, rest) => (.string s, rest)
    | '-' :: rest => number? true rest
    | '[' :: rest =>
      match skip rest with
      | ']' :: rest => some (.array [], rest)
      | rest => (items? fuel rest).map fun (items, rest) => (.array items, rest)
    | '\x7b' :: rest =>
      match skip rest with
      | '\x7d' :: rest => some (.object [], rest)
      | rest => (members? fuel rest).map fun (members, rest) => (.object members, rest)
    | _ => number? false cs

/-- The items of an array up to its closing bracket. -/
def items? (fuel : Nat) (cs : List Char) : Option (List Raw × List Char) :=
  match fuel with
  | 0 => none
  | fuel + 1 =>
    match value? fuel cs with
    | none => none
    | some (item, rest) =>
      match skip rest with
      | ']' :: rest => some ([item], rest)
      | ',' :: rest => (items? fuel (skip rest)).map fun (items, rest) => (item :: items, rest)
      | _ => none

/-- The members of an object up to its closing brace. -/
def members? (fuel : Nat) (cs : List Char) :
    Option (List (Option String × Raw) × List Char) :=
  match fuel with
  | 0 => none
  | fuel + 1 =>
    match cs with
    | '"' :: rest =>
      match stringRest {} rest with
      | some (key, rest) =>
        match skip rest with
        | ':' :: rest =>
          match value? fuel (skip rest) with
          | none => none
          | some (value, rest) =>
            match skip rest with
            | '\x7d' :: rest => some ([(key, value)], rest)
            | ',' :: rest =>
              (members? fuel (skip rest)).map fun (members, rest) => ((key, value) :: members, rest)
            | _ => none
        | _ => none
      | _ => none
    | _ => none
end

/-- Reads a whole text as one document. -/
def Raw.ofText? (text : String) : Option Raw :=
  let cs := text.toList
  match value? (2 * cs.length + 2) (skip cs) with
  | some (raw, rest) => if (skip rest).isEmpty then some raw else none
  | none => none

mutual
/-- The document, provided that its numbers are in range, its strings are texts and it is nested no
deeper than `depth`. -/
def Raw.document? (depth : Nat) : Raw → Option Json
  | .null => some .null
  | .bool b => some (.bool b)
  | .number lexeme => lexeme.number?.map .number
  | .string s => s.map .string
  | .array items =>
    match depth with
    | 0 => none
    | depth + 1 => (Raw.documents? depth items).map .array
  | .object members =>
    match depth with
    | 0 => none
    | depth + 1 => (Raw.memberDocuments? depth members).map .object

/-- The documents of a list, all or none. -/
def Raw.documents? (depth : Nat) : List Raw → Option (List Json)
  | [] => some []
  | item :: items =>
    match Raw.document? depth item, Raw.documents? depth items with
    | some item, some items => some (item :: items)
    | _, _ => none

/-- The members of an object, sorted by key; the last of those with the same key counts. -/
def Raw.memberDocuments? (depth : Nat) :
    List (Option String × Raw) → Option (List (String × Json))
  | [] => some []
  | (key, value) :: members =>
    match key, Raw.document? depth value, Raw.memberDocuments? depth members with
    | some key, some value, some rest =>
      some (if rest.any fun m => m.1 == key then rest else setMember key value rest)
    | _, _, _ => none
end

/-- The deepest nesting of arrays and objects that is read. -/
def maxDepth : Nat := 127

/-- Reads a whole text as a document. -/
def ofText? (text : String) : Option Json :=
  (Raw.ofText? text).bind (Raw.document? maxDepth)

end RecordSql.Json
