import RecordSql.Inflection.Rules
import RecordSql.Text.Case
import RecordSql.Text.Split
/-!
Plural and singular of English words. A result takes the case of the word it is made from.
-/

namespace RecordSql.Inflection

open RecordSql.Text

/-- Whether a character is a capital: its own upper-case form, and with a lower-case form unless
it is one of those that stand alone. -/
def isCapital (c : Char) : Bool :=
  (lowerChar c != [c] && upperChar c == [c]) || loneCapitalRanges.contains c

/-- Gives `text` the case of `word`, when that is all lower or all upper. Otherwise `text` stays
as it is after a capital first letter and is lowered after any other. -/
def restoreCase (word text : String) : String :=
  if word == text then text
  else if word == lower word then lower text
  else if word == upper word then upper text
  else if word.toList.head?.any isCapital then text
  else lower text

/-- The groups of a match by number, without the numbers of groups that took no part: the whole
match is number 0. -/
def numberedGroups (found : Found) : List (Nat × List Char) :=
  let taken := found.matched :: (found.groups.mergeSort fun a b => a.1 ≤ b.1).map (·.2)
  taken.zipIdx.map fun (text, i) => (i, text)

/-- Drops every dollar sign that is still there, together with the character after it if there is
one. -/
def dropDollars : List Char → List Char
  | '$' :: _ :: rest => dropDollars rest
  | ['$'] => []
  | c :: rest => c :: dropDollars rest
  | [] => []

/-- Puts `replacement` in the place of a match; in it `$n` stands for group `n`. -/
def substitute (word replacement : String) (found : Found) : String :=
  let filled := (numberedGroups found).foldl (fun text (i, group) =>
      replacePairs [(('$' :: (toString i).toList), (restoreCase word (String.ofList group)).toList)]
        0 text)
    (restoreCase word replacement).toList
  String.ofList (dropDollars (found.before ++ filled ++ found.after))

/-- What a direction of inflection goes by: irregular words that are already in the wanted form, the
irregular words to exchange, and the endings. -/
structure Direction where
  keep : List String
  exchange : List (String × String)
  endings : List (Pattern × String)

/-- Inflects a word. The rule that stands last among those that fit is applied. -/
def Direction.inflect (d : Direction) (word : String) : String :=
  let token := lower word
  if d.keep.contains token then restoreCase word token
  else match d.exchange.lookup token with
    | some form => restoreCase word form
    | none =>
      if token.isEmpty || uncountable.contains token then word
      else
        let rules := d.endings ++ uncountableEndings.map fun p => (p, "$0")
        let fitting := rules.reverse.findSome? fun (pattern, replacement) =>
          (pattern.find? word.toList).map fun found => (replacement, found)
        match fitting with
        | some (replacement, found) => substitute word replacement found
        | none => word

/-- From singular to plural. -/
def toPlural : Direction := ⟨irregular.map (·.2), irregular, pluralEndings⟩

/-- From plural to singular; of two singulars of one plural the later in the list counts. -/
def toSingular : Direction :=
  ⟨irregular.map (·.1), irregular.reverse.map fun (one, many) => (many, one), singularEndings⟩

/-- The plural of a word. -/
def plural (word : String) : String := toPlural.inflect word

/-- The singular of a word. -/
def singular (word : String) : String := toSingular.inflect word

end RecordSql.Inflection
