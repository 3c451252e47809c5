/-
  RecordSql.Proofs.Written

  What a fragment adds to a statement.  A fragment is seen as the literal
  texts around its placeholders (`Fragment.literals`), the values it binds
  (`Fragment.values`) and the errors it records (`Fragment.faults`); these
  three views do not know the output that the fragment is appended to.

  `Output.append_eq` is the one fact about appending that later modules use:
  the text grows by the literals with the placeholders of the values between
  them, numbered on from what was bound, and values and errors are added at
  the end.
  `Statement.write_eq` says the same of a statement, once its table stands
  for itself.

  A text may be written in one piece or in several; fragments that differ in
  nothing else are written alike by every statement (`Fragment.WrittenAs`).
-/

import RecordSql.Proofs.Dialects
import RecordSql.Statement

namespace RecordSql

namespace Fragment

/-! ## The three views of a fragment -/

/-- The value that a piece binds. -/
def boundValue? : Piece → Option Value
  | .bound v => some v
  | _ => none

/-- The error that a piece records. -/
def fault? : Piece → Option Error
  | .fault e => some e
  | _ => none

/-- The values that a fragment binds, in the order of its text. -/
def values (f : Fragment) : List Value := f.filterMap boundValue?

/-- The errors that a fragment records. -/
def faults (f : Fragment) : List Error := f.filterMap fault?

/-- The literal texts of a fragment: what stands before its first placeholder, between each two, and
after the last. -/
def literals : Fragment → List String
  | [] => [""]
  | .text s :: f => (literals f).modifyHead (s ++ ·)
  | .bound _ :: f => "" :: literals f
  | .fault _ :: f => literals f
  | .currentTable :: f => literals f

@[simp] theorem values_nil : values [] = [] := rfl

@[simp] theorem values_text (s : String) (f : Fragment) : values (.text s :: f) = values f := rfl

@[simp] theorem values_bound (v : Value) (f : Fragment) :
    values (.bound v :: f) = v :: values f := rfl

@[simp] theorem values_fault (e : Error) (f : Fragment) : values (.fault e :: f) = values f := rfl

@[simp] theorem values_currentTable (f : Fragment) : values (.currentTable :: f) = values f := rfl

@[simp] theorem faults_nil : faults [] = [] := rfl

@[simp] theorem faults_text (s : String) (f : Fragment) : faults (.text s :: f) = faults f := rfl

@[simp] theorem faults_bound (v : Value) (f : Fragment) : faults (.bound v :: f) = faults f := rfl

@[simp] theorem faults_fault (e : Error) (f : Fragment) :
    faults (.fault e :: f) = e :: faults f := rfl

@[simp] theorem faults_currentTable (f : Fragment) : faults (.currentTable :: f) = faults f := rfl

@[simp] theorem values_append (f g : Fragment) : values (f ++ g) = values f ++ values g :=
  List.filterMap_append ..

@[simp] theorem faults_append (f g : Fragment) : faults (f ++ g) = faults f ++ faults g :=
  List.filterMap_append ..

theorem mem_faults {e : Error} {f : Fragment} : e ∈ faults f ↔ Piece.fault e ∈ f := by
  rw [faults, List.mem_filterMap]
  constructor
  · rintro ⟨p, hp, he⟩
    cases p <;> simp [fault?] at he
    exact he ▸ hp
  · exact fun h => ⟨_, h, rfl⟩

/-- There is one literal more than there are placeholders. -/
theorem literals_length (f : Fragment) : (literals f).length = (values f).length + 1 := by
  induction f with
  | nil => rfl
  | cons p f ih =>
    cases p with
    | text s => rw [literals, List.length_modifyHead, ih, values_text]
    | bound v => rw [literals, List.length_cons, ih, values_bound, List.length_cons]
    | fault e => exact ih
    | currentTable => exact ih

theorem literals_ne_nil (f : Fragment) : literals f ≠ [] := by
  have h := literals_length f
  intro hnil
  rw [hnil] at h
  simp at h

end Fragment

/-! ## Literals with placeholders between them -/

/-- Texts with the placeholders of the positions after `position` between them. -/
def interleaved (mark : Nat → String) (position : Nat) : List String → String
  | [] => ""
  | [s] => s
  | s :: rest => s ++ mark (position + 1) ++ interleaved mark (position + 1) rest

theorem interleaved_cons {mark : Nat → String} {position : Nat} {s : String} {rest : List String}
    (h : rest ≠ []) :
    interleaved mark position (s :: rest)
      = s ++ mark (position + 1) ++ interleaved mark (position + 1) rest := by
  cases rest with
  | nil => exact absurd rfl h
  | cons t rest => rfl

theorem interleaved_modifyHead {mark : Nat → String} {position : Nat} {texts : List String}
    (s : String) (h : texts ≠ []) :
    interleaved mark position (texts.modifyHead (s ++ ·))
      = s ++ interleaved mark position texts := by
  match texts, h with
  | [t], _ => rfl
  | t :: u :: rest, _ =>
    have hrest : u :: rest ≠ [] := List.cons_ne_nil u rest
    rw [List.modifyHead_cons, interleaved_cons hrest, interleaved_cons hrest]
    simp only [String.append_assoc]

/-! ## Appending a fragment -/

namespace Output

@[simp] theorem append_nil (d : Dialect) (o : Output) : o.append d [] = o := rfl

/-- The first piece is pushed, and the rest is appended to the output after it. -/
theorem append_cons (d : Dialect) (o : Output) (p : Piece) (f : Fragment) :
    o.append d (p :: f) = (o.push d p).append d f := rfl

/-- Whatever a fragment mentions, its errors are added at the end. -/
theorem append_errors (d : Dialect) (o : Output) (f : Fragment) :
    (o.append d f).errors = o.errors ++ f.faults := by
  induction f generalizing o with
  | nil => simp
  | cons p f ih =>
    rw [append_cons, ih]
    cases p <;> simp [push]

/-- So are its values. -/
theorem append_values (d : Dialect) (o : Output) (f : Fragment) :
    (o.append d f).values = o.values ++ f.values := by
  induction f generalizing o with
  | nil => simp
  | cons p f ih =>
    rw [append_cons, ih]
    cases p <;> simp [push]

/-- So is its text, with the placeholders of its values between the literals. -/
theorem append_text (d : Dialect) (o : Output) (f : Fragment) :
    (o.append d f).sql
      = o.sql ++ interleaved (d.marks (o.values ++ f.values)) o.values.length f.literals := by
  induction f generalizing o with
  | nil => simp [Fragment.literals, interleaved]
  | cons p f ih =>
    rw [append_cons, ih]
    cases p with
    | text s =>
      rw [Fragment.literals, interleaved_modifyHead s (Fragment.literals_ne_nil f)]
      simp [push, String.append_assoc]
    | bound v =>
      -- The literals of `f` follow an empty one, so a placeholder stands in front.
      rw [Fragment.literals, interleaved_cons (Fragment.literals_ne_nil f), Fragment.values_bound,
        Dialect.marks_append_cons]
      simp [push, String.append_assoc]
    | fault e => simp [push, Fragment.literals]
    | currentTable => simp [push, Fragment.literals]

theorem append_endless (d : Dialect) (o : Output) (f : Fragment) :
    (o.append d f).endless = (o.endless || f.mentionsTable) := by
  induction f generalizing o with
  | nil => simp [Fragment.mentionsTable]
  | cons p f ih =>
    rw [append_cons, ih]
    cases p <;> simp [push, Fragment.mentionsTable]

/-- Appending adds text, values and errors at the end and changes nothing that is there. -/
theorem append_eq (d : Dialect) (o : Output) (f : Fragment) (h : f.mentionsTable = false) :
    o.append d f =
      { o with
        sql := o.sql ++ interleaved (d.marks (o.values ++ f.values)) o.values.length f.literals
        values := o.values ++ f.values
        errors := o.errors ++ f.faults } := by
  have hendless := append_endless d o f
  rw [h, Bool.or_false] at hendless
  rw [← append_text, ← append_values d, ← append_errors d, ← hendless]

end Output

/-! ## Putting the table in -/

namespace Fragment

theorem withTable_append (f g table : Fragment) :
    (f ++ g).withTable table = f.withTable table ++ g.withTable table := List.flatMap_append ..

/-- A table without values adds none. -/
theorem values_withTable (f : Fragment) {table : Fragment} (h : table.values = []) :
    (f.withTable table).values = f.values := by
  induction f with
  | nil => rfl
  | cons p f ih =>
    have hcons : withTable (p :: f) table = withTable [p] table ++ withTable f table := by
      rw [← withTable_append, List.singleton_append]
    rw [hcons, values_append, ih]
    cases p with
    | currentTable =>
      rw [withTable, List.flatMap_singleton, h]
      rfl
    | _ => rfl

theorem mentionsTable_append (f g : Fragment) :
    mentionsTable (f ++ g) = (mentionsTable f || mentionsTable g) := List.any_append

theorem mentionsTable_cons (p : Piece) (f : Fragment) :
    mentionsTable (p :: f) = (mentionsTable [p] || mentionsTable f) := mentionsTable_append [p] f

/-- A mention is left where the table is put in and mentions the table. -/
theorem mentionsTable_withTable (f table : Fragment) :
    (f.withTable table).mentionsTable = (f.mentionsTable && table.mentionsTable) := by
  induction f with
  | nil => rfl
  | cons p f ih =>
    have hcons : withTable (p :: f) table = withTable [p] table ++ withTable f table := by
      rw [← withTable_append, List.singleton_append]
    rw [hcons, mentionsTable_cons, mentionsTable_append, ih, Bool.and_or_distrib_right]
    cases p with
    | currentTable =>
      rw [withTable, List.flatMap_singleton]
      rfl
    | _ => rfl

end Fragment

namespace Statement

/-- A fragment as a statement writes it, with its own table in the place of the table. -/
def resolved (st : Statement) (f : Fragment) : Fragment := f.withTable st.tableFragment

/-- Writing changes the output alone. -/
theorem write_output (st : Statement) (f : Fragment) :
    st.write f = { st with output := st.output.append st.dialect (st.resolved f) } := rfl

/-- A table that is not an expression never mentions the table. -/
theorem tableFragment_mentionsTable (st : Statement)
    (h : ∀ e, st.tableExpr = some e → (e.fragment st.scope).mentionsTable = false) :
    st.tableFragment.mentionsTable = false := by
  rw [tableFragment]
  split
  · next e he => exact h e he
  · split <;> rfl

/-- Writing a fragment appends it. -/
theorem write_eq (st : Statement) (f : Fragment) (h : st.tableFragment.mentionsTable = false) :
    st.write f =
      { st with
        output :=
          { st.output with
            sql := st.output.sql
              ++ interleaved (st.dialect.marks (st.output.values ++ (st.resolved f).values))
                st.output.values.length (st.resolved f).literals
            values := st.output.values ++ (st.resolved f).values
            errors := st.output.errors ++ (st.resolved f).faults } } := by
  rw [write_output, Output.append_eq]
  rw [resolved, Fragment.mentionsTable_withTable, h, Bool.and_false]

end Statement

/-! ## Fragments that are written as others -/

theorem Statement.write_append (st : Statement) (f g : Fragment) :
    st.write (f ++ g) = (st.write f).write g := by
  have houtput : st.output.append st.dialect (st.resolved (f ++ g))
      = (st.output.append st.dialect (st.resolved f)).append st.dialect (st.resolved g) := by
    rw [resolved, Fragment.withTable_append, Output.append, List.foldl_append]
    rfl
  rw [write_output, houtput]
  rfl

namespace Fragment

variable {f g h : Fragment}

/-- Every statement writes the one fragment as it writes the other. -/
def WrittenAs (f g : Fragment) : Prop := ∀ st : Statement, st.write f = st.write g

theorem WrittenAs.refl (f : Fragment) : WrittenAs f f := fun _ => rfl

theorem WrittenAs.trans (hfg : WrittenAs f g) (hgh : WrittenAs g h) : WrittenAs f h :=
  fun st => (hfg st).trans (hgh st)

theorem WrittenAs.append {f' g' : Fragment} (hf : WrittenAs f f') (hg : WrittenAs g g') :
    WrittenAs (f ++ g) (f' ++ g') := by
  intro st
  rw [Statement.write_append, Statement.write_append, hf st, hg]

theorem WrittenAs.append_left (f : Fragment) (hg : WrittenAs g h) : WrittenAs (f ++ g) (f ++ h) :=
  (WrittenAs.refl f).append hg

/-- A text may be written in two pieces. -/
theorem writtenAs_text_append (s t : String) :
    WrittenAs [.text (s ++ t)] [.text s, .text t] := by
  intro st
  have hpush : st.output.append st.dialect [.text (s ++ t)]
      = st.output.append st.dialect [.text s, .text t] := by
    simp only [Output.append, Output.push, List.foldl_cons, List.foldl_nil, String.append_assoc]
  exact congrArg (fun o => { st with output := o }) hpush

theorem writtenAs_text_empty : WrittenAs [.text ""] [] := by
  intro st
  have hpush : st.output.append st.dialect [.text ""] = st.output := by
    simp only [Output.append, Output.push, List.foldl_cons, List.foldl_nil, String.append_empty]
  exact congrArg (fun o => { st with output := o }) hpush

end Fragment

end RecordSql
