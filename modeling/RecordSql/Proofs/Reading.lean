/-
  RecordSql.Proofs.Reading

  How conditions are read back from what is written.  `parse` reads the
  tokens of a text from left to right: comparisons, parentheses and the words
  NOT, AND and OR, of which NOT binds tightest and OR least.  Fragments stand
  for the tokens that they spell (`spelled`).

  A fragment is read as a condition (`IsCondition`) if it is taken for one
  wherever a condition is awaited, whatever stands before it; it is read as a
  text (`IsText`) if it may stand between two parentheses, or alone.  The two
  steps between them are those that a printer of conditions takes: conditions
  joined by one connective are a text (`isText_joined`), and a text between
  parentheses is a condition (`IsText.enclosed`).
-/

import RecordSql.Proofs.Written
import Mathlib.Data.List.Forall2

namespace RecordSql

namespace Fragment

/-- After the first fragment, each comes with the text that separates it from those before. -/
theorem joined_cons (separator : String) (f : Fragment) (fs : List Fragment) :
    joined separator (f :: fs) = f ++ fs.flatMap (Piece.text separator :: ·) := by
  induction fs generalizing f with
  | nil => exact (List.append_nil f).symm
  | cons g fs ih =>
    rw [List.flatMap_cons, List.cons_append, ← ih g]
    rfl

end Fragment

namespace Reading

/-! ## Comparisons -/

/-- What stands between a column and one value. -/
inductive Operator where
  | equal
  | unequal
  | greater
  | atMost
  | atLeast
  | less
  | like
  | unlike
  deriving DecidableEq, Repr

namespace Operator

def text : Operator → String
  | .equal => " = "
  | .unequal => " <> "
  | .greater => " > "
  | .atMost => " <= "
  | .atLeast => " >= "
  | .less => " < "
  | .like => " LIKE "
  | .unlike => " NOT LIKE "

def opposite : Operator → Operator
  | .equal => .unequal
  | .unequal => .equal
  | .greater => .atMost
  | .atMost => .greater
  | .atLeast => .less
  | .less => .atLeast
  | .like => .unlike
  | .unlike => .like

end Operator

/-- A comparison as it is written. -/
inductive Atom where
  /-- The column is null, or is not. -/
  | null (column : Column) (isNull : Bool)
  | compare (column : Column) (operator : Operator) (value : Value)
  /-- The column has one of the values, or has none of them. -/
  | among (column : Column) (isIn : Bool) (values : List Value)

namespace Atom

/-- The comparison that is true where this one is false. -/
def opposite : Atom → Atom
  | .null column isNull => .null column !isNull
  | .compare column operator value => .compare column operator.opposite value
  | .among column isIn values => .among column (!isIn) values

/-- The values of a comparison, in the order of its text. -/
def values : Atom → List Value
  | .null .. => []
  | .compare _ _ value => [value]
  | .among _ _ values => values

/-- The text of a comparison. -/
def fragment (s : Scope) : Atom → Fragment
  | .null column isNull =>
    column.fragment s ++ [.text (if isNull then " IS NULL" else " IS NOT NULL")]
  | .compare column operator value => column.fragment s ++ [.text operator.text, .bound value]
  | .among column isIn values =>
    column.fragment s
      ++ Fragment.enclosed (if isIn then " IN (" else " NOT IN (")
        (Fragment.joined "," (values.map fun v => [.bound v])) ")"

/-- Comparisons that differ in nothing but whether the one is the opposite of the other. -/
def OnOneSide (a b : Atom) : Prop := a = b ∨ a = b.opposite

end Atom

/-- Opposite comparisons are complements. -/
def Complementary (α : Atom → Bool) : Prop := ∀ a : Atom, α a.opposite = !α a

/-- One comparison of each side: null, equal, greater, at least, like, or among. -/
def Atom.affirms : Atom → Bool
  | .null _ isNull => isNull
  | .compare _ operator _ => [.equal, .greater, .atLeast, .like].contains operator
  | .among _ isIn _ => isIn

theorem complementary_affirms : Complementary Atom.affirms := by
  intro a
  cases a with
  | null column isNull => rfl
  | compare column operator v => cases operator <;> rfl
  | among column isIn vs => rfl

/-! ## Formulas -/

/-- What joins two conditions. -/
inductive Connective where
  | and
  | or
  deriving DecidableEq, Repr

namespace Connective

def text : Connective → String
  | .and => " AND "
  | .or => " OR "

/-- All of several truth values, or one of them. -/
def holds : Connective → List Bool → Bool
  | .and, bs => bs.all id
  | .or, bs => bs.any id

@[simp] theorem holds_singleton (c : Connective) (b : Bool) : c.holds [b] = b := by
  cases c <;> simp [holds]

/-- Several at the front count as one. -/
theorem holds_cons_holds (c : Connective) (bs cs : List Bool) :
    c.holds (c.holds bs :: cs) = c.holds (bs ++ cs) := by
  cases c <;> simp [holds]

end Connective

inductive Formula where
  | atom (a : Atom)
  | not (φ : Formula)
  | joined (c : Connective) (φ ψ : Formula)

namespace Formula

/-- The truth value of a formula under an assignment of its comparisons. -/
def eval (α : Atom → Bool) : Formula → Bool
  | .atom a => α a
  | .not φ => !φ.eval α
  | .joined c φ ψ => c.holds [φ.eval α, ψ.eval α]

/-- Joins a condition to those before it, if there are any. -/
def after (c : Connective) : Option Formula → Formula → Formula
  | none, φ => φ
  | some ψ, φ => .joined c ψ φ

theorem eval_after (α : Atom → Bool) (c : Connective) (before : Option Formula) (φ : Formula) :
    (after c before φ).eval α = c.holds ((before.map (eval α)).toList ++ [φ.eval α]) := by
  cases before with
  | none => exact (c.holds_singleton _).symm
  | some ψ => rfl

end Formula

/-! ## The reader -/

inductive Token where
  | atom (a : Atom)
  | not
  | connective (c : Connective)
  | opening
  | closing

/-- What has been read since a parenthesis was opened, or since the start. -/
structure Level where
  /-- Stands before the last OR. -/
  alternatives : Option Formula := none
  /-- Stands since then and before the last AND. -/
  conditions : Option Formula := none
  /-- The condition that comes next stands after NOT. -/
  negated : Bool := false

/-- All that has been read, with its last condition. -/
def Level.whole (level : Level) (last : Formula) : Formula :=
  Formula.after .or level.alternatives (Formula.after .and level.conditions last)

structure Reader where
  level : Level := {}
  /-- The levels around it, the nearest first. -/
  outer : List Level := []
  /-- The last condition that was read; without one, a condition is awaited. -/
  last : Option Formula := none

namespace Reader

/-- Takes a formula for the condition that is awaited. -/
def give (r : Reader) (φ : Formula) : Reader :=
  { r with
    level := { r.level with negated := false }
    last := some (if r.level.negated then .not φ else φ) }

/-- Reads a token. -/
def step (r : Reader) (t : Token) : Option Reader :=
  match r.last, t with
  | none, .atom a => some (r.give (.atom a))
  | none, .not => some { r with level := { r.level with negated := !r.level.negated } }
  | none, .opening => some { outer := r.level :: r.outer }
  | some φ, .connective .and =>
    some
      { r with
        level := { r.level with conditions := some (Formula.after .and r.level.conditions φ) }
        last := none }
  | some φ, .connective .or =>
    some { r with level := { alternatives := some (r.level.whole φ) }, last := none }
  | some φ, .closing =>
    match r.outer with
    | [] => none
    | level :: outer => some (({ level, outer } : Reader).give (r.level.whole φ))
  | _, _ => none

/-- Reads several tokens. -/
def run (r : Reader) (ts : List Token) : Option Reader := ts.foldlM step r

theorem run_append (r : Reader) (ts us : List Token) :
    r.run (ts ++ us) = (r.run ts).bind (·.run us) := List.foldlM_append

theorem run_cons (r : Reader) (t : Token) (ts : List Token) :
    r.run (t :: ts) = (r.step t).bind (·.run ts) := List.foldlM_cons

@[simp] theorem run_nil (r : Reader) : r.run [] = some r := rfl

end Reader

/-- The formula that a list of tokens is read as. -/
def parse (ts : List Token) : Option Formula :=
  match ({} : Reader).run ts with
  | some { level, outer := [], last := some φ } => some (level.whole φ)
  | _ => none

/-! ## Tokens and fragments -/

namespace Token

/-- The text of a token. -/
def fragment (s : Scope) : Token → Fragment
  | .atom a => a.fragment s
  | .not => [.text "NOT "]
  | .connective c => [.text c.text]
  | .opening => [.text "("]
  | .closing => [.text ")"]

def atom? : Token → Option Atom
  | .atom a => some a
  | _ => none

end Token

/-- The text of several tokens. -/
def spelled (s : Scope) (ts : List Token) : Fragment := ts.flatMap (Token.fragment s)

/-- The comparisons among tokens, in the order of the text. -/
def atoms (ts : List Token) : List Atom := ts.filterMap Token.atom?

theorem spelled_cons (s : Scope) (t : Token) (ts : List Token) :
    spelled s (t :: ts) = t.fragment s ++ spelled s ts := List.flatMap_cons

theorem spelled_append (s : Scope) (ts us : List Token) :
    spelled s (ts ++ us) = spelled s ts ++ spelled s us := List.flatMap_append

theorem atoms_append (ts us : List Token) : atoms (ts ++ us) = atoms ts ++ atoms us :=
  List.filterMap_append

/-! ## The values of tokens -/

theorem values_primaryKey (s : Scope) : Fragment.values s.primaryKey = [] := by
  rw [Scope.primaryKey]
  split
  · rfl
  · split <;> rfl

theorem values_name (s : Scope) (raw : Bool) (name : Name) :
    (name.fragmentRaw s raw).values = [] := by
  cases name with
  | ident name => cases raw <;> rfl
  | primaryKey => exact values_primaryKey s
  | _ => rfl

theorem values_alias (s : Scope) (raw : Bool) (announce : String) (aliasName : Option String) :
    Fragment.values (aliasFragment s raw announce aliasName) = [] := by
  cases aliasName with
  | none => rfl
  | some name => cases raw <;> rfl

/-- Columns bind nothing. -/
theorem values_column (s : Scope) (c : Column) : (c.fragment s).values = [] := by
  obtain ⟨table, name, aliasName, raw⟩ := c
  have hrest : Fragment.values (name.fragmentRaw s (raw || name == .ident "*")
      ++ aliasFragment s raw " AS " aliasName) = [] := by
    rw [Fragment.values_append, values_name, values_alias, List.append_nil]
  rw [Column.fragment, List.append_assoc]
  cases table with
  | none => exact hrest
  | some table =>
    show Fragment.values ((table.fragmentRaw s raw ++ [.text "."]) ++ _) = []
    rw [Fragment.values_append, hrest, Fragment.values_append, values_name]
    rfl

theorem values_joined_bound (separator : String) (vs : List Value) :
    (Fragment.joined separator (vs.map fun v => [.bound v])).values = vs := by
  induction vs with
  | nil => rfl
  | cons v vs ih =>
    cases vs with
    | nil => rfl
    | cons w vs => exact congrArg (v :: ·) ih

theorem Atom.values_fragment (s : Scope) (a : Atom) : (a.fragment s).values = a.values := by
  cases a with
  | null column isNull => rw [Atom.fragment, Fragment.values_append, values_column]; rfl
  | compare column operator v => rw [Atom.fragment, Fragment.values_append, values_column]; rfl
  | among column isIn vs =>
    rw [Atom.fragment, Fragment.values_append, values_column, Fragment.enclosed, List.cons_append,
      Fragment.values_text, Fragment.values_append, values_joined_bound]
    exact List.append_nil vs

/-- The values of a text are those of its comparisons. -/
theorem values_spelled (s : Scope) (ts : List Token) :
    (spelled s ts).values = (atoms ts).flatMap Atom.values := by
  induction ts with
  | nil => rfl
  | cons t ts ih =>
    rw [spelled_cons, Fragment.values_append, ih]
    cases t with
    | atom a =>
      have hatoms : atoms (.atom a :: ts) = a :: atoms ts := rfl
      rw [Token.fragment, a.values_fragment, hatoms, List.flatMap_cons]
    | _ => rfl

/-- Opposite comparisons have the same values. -/
theorem Atom.OnOneSide.values {a b : Atom} (h : a.OnOneSide b) : a.values = b.values := by
  rcases h with rfl | rfl
  · rfl
  · cases b <;> rfl

theorem flatMap_values_eq {as bs : List Atom} (h : List.Forall₂ Atom.OnOneSide as bs) :
    as.flatMap Atom.values = bs.flatMap Atom.values := by
  induction h with
  | nil => rfl
  | cons hab _ ih => rw [List.flatMap_cons, List.flatMap_cons, hab.values, ih]

/-! ## Fragments that are read -/

/-- The fragment is spelled by the tokens, its comparisons are those of `as` or their opposites, and
the formula is true where `m` says so. -/
structure Spells (s : Scope) (f : Fragment) (as : List Atom) (m : (Atom → Bool) → Bool)
    (ts : List Token) (φ : Formula) : Prop where
  fragment : f = spelled s ts
  atoms : List.Forall₂ Atom.OnOneSide (atoms ts) as
  eval : ∀ α, Complementary α → φ.eval α = m α

/-- The fragment is read as one condition wherever a condition is awaited. -/
def IsCondition (s : Scope) (f : Fragment) (as : List Atom) (m : (Atom → Bool) → Bool) : Prop :=
  ∃ ts φ, Spells s f as m ts φ ∧
    ∀ level outer, ({ level, outer } : Reader).run ts = some (Reader.give { level, outer } φ)

/-- The fragment is read as all that there is, at the start or after a parenthesis. -/
def IsText (s : Scope) (f : Fragment) (as : List Atom) (m : (Atom → Bool) → Bool) : Prop :=
  ∃ ts φ, Spells s f as m ts φ ∧
    ∀ outer, ∃ level last,
      ({ outer } : Reader).run ts = some { level, outer, last := some last }
        ∧ level.whole last = φ

section Reads

variable {s : Scope} {f : Fragment} {as : List Atom} {m : (Atom → Bool) → Bool}

/-- A comparison is a condition. -/
theorem isCondition_atom (a : Atom) : IsCondition s (a.fragment s) [a] (· a) := by
  have hfragment : a.fragment s = spelled s [.atom a] := (List.append_nil _).symm
  exact ⟨[.atom a], .atom a, ⟨hfragment, .cons (.inl rfl) .nil, fun _ _ => rfl⟩, fun _ _ => rfl⟩

/-- Its opposite is a condition that holds where the comparison does not. -/
theorem isCondition_opposite (a : Atom) :
    IsCondition s (a.opposite.fragment s) [a] (fun α => !α a) := by
  have hfragment : a.opposite.fragment s = spelled s [.atom a.opposite] := (List.append_nil _).symm
  exact ⟨[.atom a.opposite], .atom a.opposite,
    ⟨hfragment, .cons (.inr rfl) .nil, fun _ hα => hα a⟩, fun _ _ => rfl⟩

/-- What a condition means matters under complementary assignments only. -/
theorem IsCondition.congr {m' : (Atom → Bool) → Bool} (h : IsCondition s f as m)
    (hm : ∀ α, Complementary α → m α = m' α) : IsCondition s f as m' := by
  obtain ⟨ts, φ, ⟨hfragment, hatoms, heval⟩, hrun⟩ := h
  exact ⟨ts, φ, ⟨hfragment, hatoms, fun α hα => (heval α hα).trans (hm α hα)⟩, hrun⟩

theorem IsCondition.isText (h : IsCondition s f as m) : IsText s f as m := by
  obtain ⟨ts, φ, hspells, hrun⟩ := h
  exact ⟨ts, φ, hspells, fun outer => ⟨{}, φ, hrun {} outer, rfl⟩⟩

/-- A text between parentheses is a condition. -/
theorem IsText.enclosed (h : IsText s f as m) :
    IsCondition s (Fragment.enclosed "(" f ")") as m := by
  obtain ⟨ts, φ, ⟨hfragment, hatoms, heval⟩, hrun⟩ := h
  refine ⟨.opening :: ts ++ [.closing], φ, ⟨?_, ?_, heval⟩, fun level outer => ?_⟩
  · rw [hfragment, List.cons_append, spelled_cons, spelled_append]
    rfl
  · have hparens : Reading.atoms (.opening :: ts ++ [.closing]) = Reading.atoms ts ++ [] :=
      atoms_append ts [.closing]
    rw [hparens, List.append_nil]
    exact hatoms
  · -- The level around waits while the text is read, and then takes it for its condition.
    obtain ⟨inner, last, hinner, hwhole⟩ := hrun (level :: outer)
    have hopening : Reader.step { level, outer } .opening = some { outer := level :: outer } := rfl
    have hclosing : Reader.step ⟨inner, level :: outer, some last⟩ .closing
        = some (Reader.give { level, outer } (inner.whole last)) := rfl
    rw [List.cons_append, Reader.run_cons, hopening, Option.bind_some, Reader.run_append, hinner,
      Option.bind_some, Reader.run_cons, hclosing, hwhole]
    rfl

/-! ## Joined conditions -/

/-- The level on which conditions are joined by the connective to what stands before them. -/
def Level.joining : Connective → Option Formula → Level
  | .and, before => { conditions := before }
  | .or, before => { alternatives := before }

theorem Level.whole_joining (c : Connective) (before : Option Formula) (φ : Formula) :
    (Level.joining c before).whole φ = Formula.after c before φ := by
  cases c <;> rfl

theorem Reader.step_connective (c : Connective) (before : Option Formula) (outer : List Level)
    (φ : Formula) :
    Reader.step { level := .joining c before, outer, last := some φ } (.connective c)
      = some { level := .joining c (some (Formula.after c before φ)), outer } := by
  cases c <;> rfl

theorem Reader.give_joining (c : Connective) (before : Option Formula) (outer : List Level)
    (φ : Formula) :
    Reader.give { level := .joining c before, outer } φ
      = { level := .joining c before, outer, last := some φ } := by
  cases c <;> rfl

variable {ι : Type} {fragment : ι → Fragment} {comparisons : ι → List Atom}
  {meaning : (Atom → Bool) → ι → Bool}

/-- Conditions joined by a connective are read one by one, each joined to those before it. -/
theorem run_joined (c : Connective) {is : List ι} (hne : is ≠ [])
    (h : ∀ i ∈ is, IsCondition s (fragment i) (comparisons i) (fun α => meaning α i)) :
    ∃ ts, Fragment.joined c.text (is.map fragment) = spelled s ts
      ∧ List.Forall₂ Atom.OnOneSide (atoms ts) (is.flatMap comparisons)
      ∧ ∀ before, ∃ before' last,
          (∀ outer, Reader.run { level := .joining c before, outer } ts
            = some { level := .joining c before', outer, last := some last })
          ∧ ∀ α, Complementary α → (Formula.after c before' last).eval α
              = c.holds ((before.map (Formula.eval α)).toList ++ is.map (meaning α)) := by
  induction is with
  | nil => exact absurd rfl hne
  | cons i is ih =>
    -- The induction is over the conditions, for whatever stands before the first.
    obtain ⟨ts, φ, ⟨hfragment, hatoms, heval⟩, hrun⟩ := h i (List.mem_cons_self ..)
    cases is with
    | nil =>
      refine ⟨ts, hfragment, ?_, fun before => ⟨before, φ, fun outer => ?_, fun α hα => ?_⟩⟩
      · rw [List.flatMap_singleton]
        exact hatoms
      · rw [hrun, Reader.give_joining]
      · rw [Formula.eval_after, heval α hα]
        rfl
    | cons j is =>
      obtain ⟨us, hus, hatoms', hrest⟩ := ih (List.cons_ne_nil j is)
        fun k hk => h k (List.mem_cons_of_mem i hk)
      refine ⟨ts ++ .connective c :: us, ?_, ?_, fun before => ?_⟩
      · rw [spelled_append, spelled_cons, ← hus, ← hfragment]
        rfl
      · rw [atoms_append, List.flatMap_cons]
        exact List.rel_append hatoms hatoms'
      · -- The first condition counts as standing before the rest.
        obtain ⟨before', last, hrun', heval'⟩ := hrest (some (Formula.after c before φ))
        refine ⟨before', last, fun outer => ?_, fun α hα => ?_⟩
        · rw [Reader.run_append, hrun, Reader.give_joining, Option.bind_some, Reader.run_cons,
            Reader.step_connective, Option.bind_some, hrun']
        · rw [heval' α hα]
          show c.holds ((Formula.after c before φ).eval α :: (j :: is).map (meaning α)) = _
          rw [Formula.eval_after, Connective.holds_cons_holds, heval α hα, List.append_assoc]
          rfl

/-- Conditions joined by a connective are a text. -/
theorem isText_joined (c : Connective) {is : List ι} (hne : is ≠ [])
    (h : ∀ i ∈ is, IsCondition s (fragment i) (comparisons i) (fun α => meaning α i)) :
    IsText s (Fragment.joined c.text (is.map fragment)) (is.flatMap comparisons)
      (fun α => c.holds (is.map (meaning α))) := by
  obtain ⟨ts, hfragment, hatoms, hbefore⟩ := run_joined c hne h
  obtain ⟨before, last, hrun, heval⟩ := hbefore none
  have hstart : Level.joining c none = {} := by cases c <;> rfl
  rw [hstart] at hrun
  exact ⟨ts, Formula.after c before last, ⟨hfragment, hatoms, heval⟩,
    fun outer => ⟨.joining c before, last, hrun outer, Level.whole_joining c before last⟩⟩

/-- They are a condition once they stand in parentheses, which a condition alone does without. -/
theorem isCondition_group (c : Connective) {is : List ι} (hne : is ≠ [])
    (h : ∀ i ∈ is, IsCondition s (fragment i) (comparisons i) (fun α => meaning α i)) :
    IsCondition s
      (Fragment.parenthesized (1 < is.length) (Fragment.joined c.text (is.map fragment)))
      (is.flatMap comparisons) (fun α => c.holds (is.map (meaning α))) := by
  match is, hne with
  | [i], _ =>
    have hi := h i (List.mem_singleton_self i)
    -- One condition means the same under either connective.
    have hmeaning : (fun α => c.holds ([i].map (meaning α))) = fun α => meaning α i :=
      funext fun α => c.holds_singleton _
    rw [hmeaning, List.flatMap_singleton]
    exact hi
  | i :: j :: is, hne =>
    have hmore : 1 < (i :: j :: is).length := by simp
    rw [decide_eq_true hmore]
    exact (isText_joined c hne h).enclosed

/-- A text is read by `parse`. -/
theorem IsText.parse (h : IsText s f as m) :
    ∃ ts φ, Spells s f as m ts φ ∧ parse ts = some φ := by
  obtain ⟨ts, φ, hspells, hrun⟩ := h
  obtain ⟨level, last, hrun, hwhole⟩ := hrun []
  refine ⟨ts, φ, hspells, ?_⟩
  rw [Reading.parse, hrun, ← hwhole]

end Reads

end Reading

end RecordSql
