/-
  RecordSql.Proofs.Alike.Fragment

  Fragments of two runs that differ in the values they bind and in nothing
  else.  A relation `R` between scalars says which value of the one run
  stands for which of the other.  A value that is bound comes from a scalar,
  from a list of scalars that is bound as one array, or is the null that is
  written for a list without items (`Value.Alike`).

  Everything else is the same in both: texts, mentions of the table, and
  errors.  The errors that a fragment holds are those of names that stand
  for nothing (`Error.isUnresolved`), which is all that is needed to tell
  them from the errors of a statement as a whole.
-/

import RecordSql.Proofs.Written
import Mathlib.Data.List.Forall2

namespace RecordSql

/-- The errors of names that cannot be resolved: a table, a primary key or an argument by name. -/
def Error.isUnresolved : Error → Bool
  | .unsupportedModel _ => true
  | .invalidField _ => true
  | _ => false

/-- Values that two runs bind to the same placeholder. -/
inductive Value.Alike (R : Value → Value → Prop) : Value → Value → Prop where
  | scalar {v w : Value} : R v w → Value.Alike R v w
  /-- A list of scalars, bound as one value. -/
  | list {vs ws : List Value} : List.Forall₂ R vs ws → Value.Alike R (.array vs) (.array ws)
  /-- A list without items, spread over placeholders. -/
  | noItems : Value.Alike R .null .null

/-- Pieces at the same place of two runs. -/
inductive Piece.Alike (R : Value → Value → Prop) : Piece → Piece → Prop where
  | text (s : String) : Piece.Alike R (.text s) (.text s)
  | bound {v w : Value} : Value.Alike R v w → Piece.Alike R (.bound v) (.bound w)
  | fault {e : Error} : e.isUnresolved = true → Piece.Alike R (.fault e) (.fault e)
  | currentTable : Piece.Alike R .currentTable .currentTable

/-- Fragments at the same place of two runs. -/
def Fragment.Alike (R : Value → Value → Prop) : Fragment → Fragment → Prop :=
  List.Forall₂ (Piece.Alike R)

variable {R : Value → Value → Prop}

namespace Fragment.Alike

theorem nil : Fragment.Alike R [] [] := List.Forall₂.nil

theorem text (s : String) {f g : Fragment} (h : Fragment.Alike R f g) :
    Fragment.Alike R (.text s :: f) (.text s :: g) := List.Forall₂.cons (.text s) h

theorem bound {v w : Value} (hv : Value.Alike R v w) {f g : Fragment} (h : Fragment.Alike R f g) :
    Fragment.Alike R (.bound v :: f) (.bound w :: g) := List.Forall₂.cons (.bound hv) h

theorem fault {e : Error} (he : e.isUnresolved = true) :
    Fragment.Alike R [.fault e] [.fault e] := List.Forall₂.cons (.fault he) nil

theorem append {f f' g g' : Fragment} (hf : Fragment.Alike R f f') (hg : Fragment.Alike R g g') :
    Fragment.Alike R (f ++ g) (f' ++ g') := List.rel_append hf hg

theorem enclosed (opening closing : String) {f g : Fragment} (h : Fragment.Alike R f g) :
    Fragment.Alike R (Fragment.enclosed opening f closing) (Fragment.enclosed opening g closing) :=
  text opening (h.append (text closing nil))

theorem parenthesized (wrap : Bool) {f g : Fragment} (h : Fragment.Alike R f g) :
    Fragment.Alike R (Fragment.parenthesized wrap f) (Fragment.parenthesized wrap g) := by
  cases wrap with
  | false => exact h
  | true => exact h.enclosed "(" ")"

theorem joined (separator : String) {fs gs : List Fragment}
    (h : List.Forall₂ (Fragment.Alike R) fs gs) :
    Fragment.Alike R (Fragment.joined separator fs) (Fragment.joined separator gs) := by
  induction h with
  | nil => exact nil
  | cons hf hrest ih =>
    cases hrest with
    | nil => exact hf
    | cons _ _ => exact hf.append (text separator ih)

/-- Putting alike tables into alike fragments. -/
theorem withTable {f g table table' : Fragment} (h : Fragment.Alike R f g)
    (ht : Fragment.Alike R table table') :
    Fragment.Alike R (f.withTable table) (g.withTable table') := by
  induction h with
  | nil => exact nil
  | cons hp _ ih =>
    refine append ?_ ih
    -- A mention becomes the table, and every other piece stays.
    cases hp with
    | currentTable => exact ht
    | text s => exact text s nil
    | bound hv => exact bound hv nil
    | fault he => exact fault he

theorem values {f g : Fragment} (h : Fragment.Alike R f g) :
    List.Forall₂ (Value.Alike R) f.values g.values := by
  induction h with
  | nil => exact List.Forall₂.nil
  | cons hp _ ih =>
    cases hp with
    | bound hv => exact List.Forall₂.cons hv ih
    | _ => exact ih

theorem faults {f g : Fragment} (h : Fragment.Alike R f g) : f.faults = g.faults := by
  induction h with
  | nil => rfl
  | cons hp _ ih =>
    cases hp with
    | @fault e _ => exact congrArg (e :: ·) ih
    | _ => exact ih

/-- The errors that a fragment holds are those of names that cannot be resolved. -/
theorem isUnresolved_of_mem_faults {f g : Fragment} (h : Fragment.Alike R f g) :
    ∀ e ∈ f.faults, e.isUnresolved = true := by
  induction h with
  | nil => simp
  | cons hp _ ih =>
    cases hp with
    | fault he =>
      intro e hmem
      rw [Fragment.faults_fault, List.mem_cons] at hmem
      rcases hmem with rfl | hmem
      · exact he
      · exact ih e hmem
    | _ => exact ih

end Fragment.Alike

/-! ## Columns and tables

Names are not values: both runs write the same ones. -/

section Names

variable (s : Scope)

theorem Scope.primaryKey_alike : Fragment.Alike R s.primaryKey s.primaryKey := by
  rw [Scope.primaryKey]
  split
  · exact .fault rfl
  · split
    · exact .fault rfl
    · exact .text _ .nil

theorem Name.fragment_alike (name : Name) :
    Fragment.Alike R (name.fragment s) (name.fragment s) := by
  cases name with
  | ident name => exact .text _ .nil
  | currentTable => exact List.Forall₂.cons .currentTable .nil
  | primaryKey => exact s.primaryKey_alike
  | associations => exact .nil

theorem Name.fragmentRaw_alike (raw : Bool) (name : Name) :
    Fragment.Alike R (name.fragmentRaw s raw) (name.fragmentRaw s raw) := by
  cases name with
  | ident name => cases raw <;> exact .text _ .nil
  | currentTable => exact Name.fragment_alike s .currentTable
  | primaryKey => exact Name.fragment_alike s .primaryKey
  | associations => exact Name.fragment_alike s .associations

theorem aliasFragment_alike (raw : Bool) (announce : String) (name : Option String) :
    Fragment.Alike R (aliasFragment s raw announce name) (aliasFragment s raw announce name) := by
  cases name with
  | none => exact .nil
  | some name => cases raw <;> exact .text _ (.text _ .nil)

theorem Column.fragment_alike (c : Column) :
    Fragment.Alike R (c.fragment s) (c.fragment s) := by
  rw [Column.fragment]
  refine (Fragment.Alike.append ?_ (Name.fragmentRaw_alike s _ _)).append
    (aliasFragment_alike s _ _ _)
  cases c.table with
  | none => exact .nil
  | some table => exact (Name.fragmentRaw_alike s _ table).append (.text "." .nil)

theorem Table.fragment_alike (t : Table) : Fragment.Alike R (t.fragment s) (t.fragment s) :=
  (Name.fragmentRaw_alike s _ _).append (aliasFragment_alike s _ _ _)

/-- A list that both runs write item by item in the same way. -/
theorem joined_alike_of_forall {α : Type} (separator : String) (write : α → Fragment)
    (h : ∀ a, Fragment.Alike R (write a) (write a)) (items : List α) :
    Fragment.Alike R (Fragment.joined separator (items.map write))
      (Fragment.joined separator (items.map write)) := by
  apply Fragment.Alike.joined
  -- Both lists are images of the same items.
  rw [List.forall₂_map_left_iff, List.forall₂_map_right_iff]
  exact List.forall₂_same.2 fun a _ => h a

theorem columnList_alike (columns : List Column) :
    Fragment.Alike R (columnList s columns) (columnList s columns) :=
  joined_alike_of_forall "," _ (Column.fragment_alike s) columns

theorem identList_alike (idents : List String) :
    Fragment.Alike R (identList s idents) (identList s idents) :=
  joined_alike_of_forall "," _ (fun _ => .text _ .nil) idents

end Names

end RecordSql
