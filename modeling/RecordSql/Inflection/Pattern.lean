import RecordSql.Text.Word
/-!
Patterns over the spelling of words, with groups whose text can be taken up again. Letters are
matched whatever their case. A pattern tries its choices in order, and the first way to match
counts.
-/

namespace RecordSql.Inflection

/-- A pattern. -/
inductive Pattern where
  /-- These letters. -/
  | text (letters : String)
  /-- One of these letters. -/
  | oneOf (letters : String)
  /-- A character that is none of these letters. -/
  | noneOf (letters : String)
  /-- A character outside ASCII that has no ASCII letter for its other case. -/
  | foreign
  /-- A character that words are not made of. -/
  | nonWord
  /-- The start of the word. -/
  | start
  /-- The end of the word. -/
  | finish
  /-- A place between a word character and none. -/
  | boundary
  | seq (first second : Pattern)
  | alt (first second : Pattern)
  /-- The pattern, or failing that nothing. -/
  | opt (p : Pattern)
  /-- The pattern, keeping what it matched under a number. -/
  | group (number : Nat) (p : Pattern)

/-- One of several spellings, in order. -/
def Pattern.anyOf : List String → Pattern
  | [] => .oneOf ""
  | [s] => .text s
  | s :: rest => .alt (.text s) (.anyOf rest)

/-- One of several patterns, in order. -/
def Pattern.either : List Pattern → Pattern
  | [] => .oneOf ""
  | [p] => p
  | p :: rest => .alt p (.either rest)

/-- Patterns one after the other. -/
def Pattern.all : List Pattern → Pattern
  | [] => .text ""
  | [p] => p
  | p :: rest => .seq p (.all rest)

/-- The letter that stands for a character and its other cases. -/
def folded (c : Char) : Char :=
  if c == '\u017F' then 's'
  else if c == '\u212A' then 'k'
  else if c == '\u00C9' then '\u00E9'
  else c.toLower

/-- Where a match stands: the characters before it, nearest first, those after it, and the text of
each group so far. -/
structure Place where
  before : List Char
  after : List Char
  groups : List (Nat × List Char)

/-- Passes over one character of a class. -/
def Place.takeOne (accepts : Char → Bool) (p : Place) : List Place :=
  match p.after with
  | [] => []
  | c :: rest => if accepts c then [⟨c :: p.before, rest, p.groups⟩] else []

/-- Passes over the given letters. -/
def Place.takeText (letters : List Char) (p : Place) : List Place :=
  match letters with
  | [] => [p]
  | c :: cs => (p.takeOne fun x => folded x == folded c).flatMap (Place.takeText cs)

/-- Whether the next character, if there is one, is a word character. -/
def atWord : List Char → Bool
  | [] => false
  | c :: _ => Text.isWord c

/-- All the places at which a match of the pattern from `p` may end, the preferred first. -/
def Pattern.ends (pattern : Pattern) (p : Place) : List Place :=
  match pattern with
  | .text letters => p.takeText letters.toList
  | .oneOf letters => p.takeOne fun c => letters.toList.any (folded · == folded c)
  | .noneOf letters => p.takeOne fun c => !letters.toList.any (folded · == folded c)
  | .foreign => p.takeOne fun c => 0x80 ≤ (folded c).toNat
  | .nonWord => p.takeOne fun c => !Text.isWord c
  | .start => if p.before.isEmpty then [p] else []
  | .finish => if p.after.isEmpty then [p] else []
  | .boundary => if atWord p.before != atWord p.after then [p] else []
  | .seq first second => (first.ends p).flatMap second.ends
  | .alt first second => first.ends p ++ second.ends p
  | .opt q => q.ends p ++ [p]
  | .group number q => (q.ends p).map fun e =>
    let taken := p.after.take (p.after.length - e.after.length)
    { e with groups := e.groups ++ [(number, taken)] }

/-- A match: what stands before it, the text matched, the groups that took part by number, and what
stands after it. -/
structure Found where
  before : List Char
  matched : List Char
  groups : List (Nat × List Char)
  after : List Char

/-- The first match, looking from `before` on. -/
def Pattern.findFrom? (pattern : Pattern) (before : List Char) (cs : List Char) : Option Found :=
  match pattern.ends ⟨before, cs, []⟩ with
  | e :: _ =>
    some ⟨before.reverse, cs.take (cs.length - e.after.length), e.groups, e.after⟩
  | [] =>
    match cs with
    | [] => none
    | c :: rest => pattern.findFrom? (c :: before) rest

/-- The first match in a word. -/
def Pattern.find? (pattern : Pattern) (word : List Char) : Option Found :=
  pattern.findFrom? [] word

end RecordSql.Inflection
