import RecordSql.Text.Blank
import RecordSql.Text.Case
import RecordSql.Text.Split
/-!
Tags: the settings that a record type or a field carries as text, `KEY[:VALUE]` items between
separators. A backslash before a separator makes it part of the item.
-/

namespace RecordSql.Tag

open RecordSql.Text

/-- The items of a tag, empty ones included; `current` is the start of the item that is being read,
last character first. -/
def itemsFrom (sep : Char) (current : List Char) : List Char → List (List Char)
  | [] => [current.reverse]
  | [c] => if c == sep then [current.reverse, []] else [(c :: current).reverse]
  | c :: d :: rest =>
    if c == '\\' && d == sep then itemsFrom sep (sep :: current) rest
    else if c == sep then current.reverse :: itemsFrom sep [] (d :: rest)
    else itemsFrom sep (c :: current) (d :: rest)

/-- The items of a tag that are not empty. -/
def items (sep : Char) (tag : String) : List String :=
  ((itemsFrom sep [] tag.toList).filter (!·.isEmpty)).map String.ofList

/-- Whether a flag is set: by any value but `false`. -/
def isTrue (value : String) : Bool :=
  !sameLetters (trim value) "false"

/-- Adds a setting to a tag. -/
def append (tag setting : String) : String :=
  if (trim tag).isEmpty then setting
  else String.ofList (dropEnd (· == ';') tag.toList) ++ ";" ++ setting

/-- The key of an item, as written. -/
def rawKey (item : String) : String :=
  trim (((cut ':' item).map (·.1)).getD item)

/-- Removes the settings with the given keys from a tag. -/
def remove (tag : String) (keys : List String) : String :=
  let kept := (items ';' tag).filter fun item => !keys.any fun k => sameLetters k (rawKey item)
  ";".intercalate (kept.map (replaceChar ';' "\\;"))

/-- The settings of a tag in the order they are written. A key may occur several times. -/
structure Settings where
  entries : List (String × String) := []
  deriving DecidableEq, Repr

/-- The setting of one item. Keys are upper case; a key without a value is its own value; an escaped
quote in a value is a quote. -/
def setting? (item : String) : Option (String × String) :=
  match cut ':' item with
  | some (key, value) =>
    some (upper (trim key), String.ofList (replacePairs [(['\\', '"'], ['"'])] 0 value.toList))
  | none =>
    let key := upper (trim item)
    if key.isEmpty then none else some (key, key)

namespace Settings

/-- Reads the settings of a tag. -/
def parse (sep : Char) (tag : String) : Settings :=
  ⟨(items sep tag).filterMap setting?⟩

/-- The value of a key; the last one counts. -/
def get? (s : Settings) (key : String) : Option String :=
  s.entries.reverse.lookup key

/-- The value of a key, unless it is empty. -/
def value? (s : Settings) (key : String) : Option String :=
  (s.get? key).filter (!·.isEmpty)

/-- Whether a key is set. -/
def contains (s : Settings) (key : String) : Bool :=
  s.entries.any (·.1 == key)

/-- Sets a key, in place of every earlier setting of it. -/
def insert (s : Settings) (key value : String) : Settings :=
  ⟨s.entries.filter (·.1 != key) ++ [(key, value)]⟩

/-- Sets every key of `other`. -/
def merge (s other : Settings) : Settings :=
  other.entries.foldl (fun s (key, value) => s.insert key value) s

/-- Whether a flag is given and set. -/
def flag (s : Settings) (key : String) : Bool :=
  (s.value? key).any isTrue

/-- The value of a key, or the empty text. -/
def text (s : Settings) (key : String) : String :=
  (s.get? key).getD ""

end Settings

end RecordSql.Tag
