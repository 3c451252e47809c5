/-!
Cutting a text at a character, and finding and replacing parts of it.
-/

namespace RecordSql.Text

/-- What stands before and after the first `sep`. -/
def cutChars (sep : Char) : List Char → Option (List Char × List Char)
  | [] => none
  | c :: cs =>
    if c == sep then some ([], cs)
    else (cutChars sep cs).map fun (before, after) => (c :: before, after)

/-- The stretches between the `sep`s; one more than there are `sep`s. -/
def splitChars (sep : Char) : List Char → List (List Char)
  | [] => [[]]
  | c :: cs =>
    if c == sep then [] :: splitChars sep cs
    else match splitChars sep cs with
      | [] => [[c]]
      | part :: parts => (c :: part) :: parts

/-- The text before and after the first `sep`. -/
def cut (sep : Char) (s : String) : Option (String × String) :=
  (cutChars sep s.toList).map fun (a, b) => (String.ofList a, String.ofList b)

/-- The texts between the `sep`s. -/
def splitOn (sep : Char) (s : String) : List String :=
  (splitChars sep s.toList).map String.ofList

/-- Whether `part` stands somewhere in the text. -/
def occurs (part : List Char) : List Char → Bool
  | [] => part.isEmpty
  | c :: cs => part.isPrefixOf (c :: cs) || occurs part cs

/-- Whether `part` stands somewhere in `s`. -/
def contains (s part : String) : Bool :=
  occurs part.toList s.toList

/-- Writes `replacement` wherever `c` stands. -/
def replaceChar (c : Char) (replacement : String) (s : String) : String :=
  String.ofList (s.toList.flatMap fun x => if x == c then replacement.toList else [x])

/-- Goes through the text and, wherever one of the pairs fits, writes its second half for its first;
of several that fit the first in the list counts. The first `skip` characters are already dealt
with. -/
def replacePairs (pairs : List (List Char × List Char)) (skip : Nat) : List Char → List Char
  | [] => []
  | c :: cs =>
    match skip with
    | skip + 1 => replacePairs pairs skip cs
    | 0 =>
      match pairs.find? fun p => !p.1.isEmpty && p.1.isPrefixOf (c :: cs) with
      | some p => p.2 ++ replacePairs pairs (p.1.length - 1) cs
      | none => c :: replacePairs pairs 0 cs

/-- The text after `start`, if it begins with that. -/
def dropStart? : List Char → List Char → Option (List Char)
  | [], cs => some cs
  | _ :: _, [] => none
  | p :: ps, c :: cs => if p == c then dropStart? ps cs else none

end RecordSql.Text
