import RecordSql.Render.Identifier
import RecordSql.Text.Escape
/-!
Expressions as fragments. Every expression has the form that says what it says, and some have a
negated form besides; a negation of conditions that all have one is written with those, and any
other with the word NOT.
-/

namespace RecordSql

/-- An argument as it is written. -/
structure Slot where
  /-- The argument as a whole. -/
  whole : Fragment
  /-- The items of a list. -/
  items : Option (List Fragment) := none
  /-- What the argument puts in the place of names. -/
  entries : List (String × Fragment) := []

namespace Slot

/-- The argument in the place of a placeholder. There a list that is to be spread is written item by
item, an empty one as null. -/
def placed (slot : Slot) (spread : Bool) : Fragment :=
  match spread, slot.items with
  | true, some [] => [.bound .null]
  | true, some items => Fragment.joined "," items
  | _, _ => slot.whole

/-- Arguments with commas between them. -/
def list (slots : List Slot) : Fragment := Fragment.joined "," (slots.map (·.whole))

end Slot

/-- The text of a comparison, or of its opposite. -/
def Comparison.symbol : Comparison → Bool → String
  | .eq, false => " = "
  | .eq, true => " <> "
  | .neq, false => " <> "
  | .neq, true => " = "
  | .gt, false => " > "
  | .gt, true => " <= "
  | .gte, false => " >= "
  | .gte, true => " < "
  | .lt, false => " < "
  | .lt, true => " >= "
  | .lte, false => " <= "
  | .lte, true => " > "
  | .like, false => " LIKE "
  | .like, true => " NOT LIKE "

/-- Whether a comparison asks for equality, or for inequality; the others ask for neither. -/
def Comparison.wantsEqual? : Comparison → Option Bool
  | .eq => some true
  | .neq => some false
  | _ => none

/-- The test whether a column is, or is not, among several arguments. -/
def amongFragment (isIn : Bool) (slots : List Fragment) : Fragment :=
  let keyword := if isIn then " IN (" else " NOT IN ("
  if slots.isEmpty then [.text (keyword ++ "NULL)")]
  else Fragment.enclosed keyword (Fragment.joined "," slots) ")"

/-- A comparison after its column. Null and lists are tested for in a way of their own by equality
and inequality. -/
def comparisonFragment (op : Comparison) (negated isNull : Bool) (slot : Slot) : Fragment :=
  match op.wantsEqual?, slot.items with
  | some wanted, some items => amongFragment (wanted != negated) items
  | some wanted, none =>
    if isNull then [.text (if wanted != negated then " IS NULL" else " IS NOT NULL")]
    else .text (op.symbol negated) :: slot.whole
  | none, _ => .text (op.symbol negated) :: slot.whole

/-- The test whether a column has one of several values; of one value that is no list, by
equality. -/
def memberFragment (column : Fragment) (negated : Bool) (args : List Arg) (slots : List Slot) :
    Fragment :=
  match args, slots with
  | [], _ => if negated then [] else column ++ amongFragment true []
  | [arg], [slot] =>
    if arg.isList then column ++ amongFragment (!negated) [slot.whole]
    else column ++ .text (if negated then " <> " else " = ") :: slot.whole
  | _, _ => column ++ amongFragment (!negated) (slots.map (·.whole))

/-- Raw SQL with arguments in the place of its question marks, as long as there are arguments.
`afterParen` tells whether the last character that is no placeholder opens a parenthesis. -/
def fillMarks (spread : Bool) (afterParen : Bool) (slots : List Slot) : List Char → Fragment
  | [] => []
  | c :: cs =>
    match slots with
    | slot :: rest =>
      if c == '?' then slot.placed (afterParen || spread) ++ fillMarks spread afterParen rest cs
      else .text (String.singleton c) :: fillMarks spread (c == '(') slots cs
    | [] => [.text (String.ofList (c :: cs))]

/-- The characters that end a name after an at sign. -/
def endsName (c : Char) : Bool :=
  [' ', ',', ')', '"', '\'', '\x60', '\r', '\n', ';'].contains c

/-- What stands for a name: its argument, or the name as it was written. -/
def namedFragment (entries : List (String × Fragment)) (reversed : List Char) : Fragment :=
  let name := String.ofList reversed.reverse
  (entries.lookup name).getD [.text ("@" ++ name)]

/-- Raw SQL with arguments in the place of names and question marks. `name` is the part of a name
that has been read, last character first; a question mark inside a name is taken out of it and
written before it. -/
def fillNames (entries : List (String × Fragment)) (name : Option (List Char)) (afterParen : Bool)
    (slots : List Slot) : List Char → Fragment
  | [] => (name.map (namedFragment entries)).getD []
  | c :: cs =>
    if c == '@' && name.isNone then fillNames entries (some []) afterParen slots cs
    else if endsName c then
      (name.map (namedFragment entries)).getD []
        ++ .text (String.singleton c) :: fillNames entries none false slots cs
    else
      match slots, name with
      | slot :: rest, _ =>
        if c == '?' then slot.placed afterParen ++ fillNames entries name afterParen rest cs
        else
          match name with
          | some reversed => fillNames entries (some (c :: reversed)) afterParen slots cs
          | none =>
            .text (String.singleton c) :: fillNames entries none (c == '(') slots cs
      | [], some reversed => fillNames entries (some (c :: reversed)) afterParen [] cs
      | [], none => .text (String.singleton c) :: fillNames entries none (c == '(') [] cs

/-- A case distinction as raw SQL. -/
def caseText (branches : List (String × String)) (otherwise : Option String) : String :=
  "CASE" ++ String.join (branches.map fun (condition, result) =>
      " WHEN " ++ condition ++ " THEN " ++ result)
    ++ (match otherwise with
      | some result => " ELSE " ++ result
      | none => "")
    ++ " END"

/-- Whether raw SQL has the word AND in it, between spaces and in any case. -/
def hasAnd (sql : String) : Bool := Text.contains (Text.upper sql) " AND "

/-- Whether raw SQL has the word OR in it, between spaces and in any case. -/
def hasOr (sql : String) : Bool := Text.contains (Text.upper sql) " OR "

/-- The forms of an expression. -/
structure Forms where
  positive : Fragment
  negative : Option Fragment := none

/-- A child of an expression and its forms. -/
structure Child where
  expr : Expression
  forms : Forms

namespace Child

/-- Whether the child joins what stands before it by OR in a condition. -/
def isLoneOr (c : Child) : Bool := c.expr.isLoneOr

/-- Whether a child that stands beside others needs parentheses, so that their connectives leave it
whole. -/
def needsParens (c : Child) : Bool :=
  match c.expr with
  | .or [.raw sql _ _] => hasAnd sql || hasOr sql
  | .and [.raw sql _ _] => hasOr sql
  | .raw sql _ _ => hasOr sql
  | .named sql _ => hasOr sql
  | _ => false

/-- The children that write something. -/
def present (children : List Child) : List Child := children.filter (!·.expr.isEmpty)

/-- Children after the first, each with its connective. -/
def continued (connective : String) : List Child → Fragment
  | [] => []
  | c :: cs =>
    .text (if c.isLoneOr then " OR " else connective)
      :: Fragment.parenthesized c.needsParens c.forms.positive ++ continued connective cs

/-- The children that write something, joined by a connective. -/
def connected (connective : String) (children : List Child) : Fragment :=
  match present children with
  | [] => []
  | [c] => c.forms.positive
  | c :: cs => Fragment.parenthesized c.needsParens c.forms.positive ++ continued connective cs

/-- Joined children, in parentheses if there is more than one. -/
def grouped (connective : String) (children : List Child) : Fragment :=
  Fragment.parenthesized (1 < (present children).length) (connected connective children)

/-- Children under the word NOT. -/
def notList : List Child → Fragment
  | [] => []
  | c :: cs =>
    let wrap := match c.expr with
      | .raw sql _ _ => hasAnd sql || hasOr sql
      | _ => false
    Fragment.parenthesized wrap c.forms.positive ++
      match cs with
      | [] => []
      | next :: _ =>
        .text (match next.expr with
          | .or _ => " OR "
          | _ => " AND ") :: notList cs

/-- None of the children. -/
def negated (children : List Child) : Fragment :=
  if children.all (·.expr.isNegatable) then
    let kept := children.filter (!·.expr.isEmptyNegation)
    Fragment.parenthesized (1 < kept.length)
      (Fragment.joined " AND " (kept.map fun c => c.forms.negative.getD []))
  else
    .text "NOT " :: Fragment.parenthesized (1 < children.length) (notList children)

/-- The opposite of none of the children. -/
def doublyNegated (children : List Child) : Fragment :=
  grouped (if children.all (·.expr.isNegatable) then " OR " else " AND ") children

end Child

/-- The error of arguments by name where there are no names. -/
def namelessFault (names : List String) : Piece :=
  .fault (.invalidField ("named arguments " ++ Text.listing names ++ " can only be bound by name"))

mutual
/-- An argument as it is written. -/
def Arg.slot (s : Scope) : Arg → Slot
  | .value v => { whole := [.bound v] }
  | .list items =>
    let slots := Arg.slots s items
    { whole :=
        if items.isEmpty then [.text "(NULL)"]
        else match Arg.values? items with
          | some values => [.bound (.array values)]
          | none => Fragment.enclosed "(" (Slot.list slots) ")"
      items := some (slots.map (·.whole)) }
  | .column c => { whole := c.fragment s }
  | .table t => { whole := t.fragment s }
  | .expr e => { whole := (Expression.forms s e).positive }
  | .named name arg =>
    let inner := Arg.slot s arg
    { whole := inner.whole, entries := [(name, inner.whole)] }
  | .map entries =>
    { whole := [namelessFault (entries.map (·.1))], entries := Arg.entrySlots s entries }

/-- Several arguments as they are written. -/
def Arg.slots (s : Scope) : List Arg → List Slot
  | [] => []
  | a :: as => Arg.slot s a :: Arg.slots s as

/-- Arguments by name as they are written. -/
def Arg.entrySlots (s : Scope) : List (String × Arg) → List (String × Fragment)
  | [] => []
  | (name, arg) :: rest => (name, (Arg.slot s arg).whole) :: Arg.entrySlots s rest

/-- The texts and arguments of the branches of a case distinction. -/
def Branch.parts (s : Scope) : List Branch → List (String × String) × List Slot
  | [] => ([], [])
  | .mk condition result args :: rest =>
    let (texts, slots) := Branch.parts s rest
    ((condition, result) :: texts, Arg.slots s args ++ slots)

/-- The forms of an expression. -/
def Expression.forms (s : Scope) : Expression → Forms
  | .compare op column arg =>
    let slot := Arg.slot s arg
    let form (negated : Bool) :=
      column.fragment s ++ comparisonFragment op negated arg.isNull slot
    ⟨form false, some (form true)⟩
  | .member column args =>
    let slots := Arg.slots s args
    let form (negated : Bool) := memberFragment (column.fragment s) negated args slots
    ⟨form false, some (form true)⟩
  | .raw sql args spread => ⟨fillMarks spread false (Arg.slots s args) sql.toList, none⟩
  | .named sql args =>
    let slots := Arg.slots s args
    ⟨fillNames (slots.flatMap (·.entries)).reverse none false slots sql.toList, none⟩
  | .and children => ⟨Child.grouped " AND " (Expression.children s children), none⟩
  | .or children => ⟨Child.grouped " OR " (Expression.children s children), none⟩
  | .not children =>
    let children := Expression.children s children
    ⟨Child.negated children, some (Child.doublyNegated children)⟩
  | .case branches otherwise =>
    let (texts, slots) := Branch.parts s branches
    match otherwise with
    | none => ⟨fillMarks false false slots (caseText texts none).toList, none⟩
    | some (result, args) =>
      let slots := slots ++ Arg.slots s args
      ⟨fillMarks false false slots (caseText texts (some result)).toList, none⟩
  | .comma children =>
    ⟨Fragment.joined ", " ((Expression.children s children).map (·.forms.positive)), none⟩

/-- Expressions with their forms. -/
def Expression.children (s : Scope) : List Expression → List Child
  | [] => []
  | e :: es => ⟨e, Expression.forms s e⟩ :: Expression.children s es
end

/-- An expression as it is written. -/
def Expression.fragment (s : Scope) (e : Expression) : Fragment := (e.forms s).positive

end RecordSql
