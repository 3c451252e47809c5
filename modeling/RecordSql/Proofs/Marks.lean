/-
  RecordSql.Proofs.Marks

  The text of conditions as words, parentheses and what is not made of other
  conditions.  A form of a condition (`Form`) is put together from forms of its
  children by a `Grouping`: which of them are written, what joins them, and
  which are put in parentheses.  There is one grouping for conjunctions and
  alternatives, and two for negations, by opposites and by the word NOT.

  `Form.marks` is what the groupings make of a form, and its text is that of
  the form (`Form.spelled_marks`).
-/

import RecordSql.Proofs.Negation
import RecordSql.Render.Clause

namespace RecordSql

open Reading

/-! ## Forms and marks -/

/-- A condition as it is written, or as it is written negated. -/
structure Form where
  negated : Bool
  expr : Expression

/-- What stands around conditions. -/
inductive Word where
  | not
  | connective (c : Connective)
  | opening
  | closing
  deriving DecidableEq, Repr

inductive Mark where
  | word (w : Word)
  /-- A condition that is not made of others. -/
  | form (f : Form)

namespace Word

def text : Word → String
  | .not => "NOT "
  | .connective c => c.text
  | .opening => "("
  | .closing => ")"

def fragment (w : Word) : Fragment := [.text w.text]

end Word

def Form.fragment (s : Scope) (f : Form) : Fragment :=
  if f.negated then f.expr.negatedFragment s else f.expr.fragment s

namespace Mark

def fragment (s : Scope) : Mark → Fragment
  | .word w => w.fragment
  | .form f => f.fragment s

/-- The text of several marks. -/
def spelled (s : Scope) (ms : List Mark) : Fragment := ms.flatMap (fragment s)

theorem spelled_append (s : Scope) (ms ns : List Mark) :
    spelled s (ms ++ ns) = spelled s ms ++ spelled s ns := List.flatMap_append

end Mark

/-! ## Groupings -/

/-- How a form is put together from forms of conditions. -/
structure Grouping where
  /-- Which conditions are written. -/
  keeps : Expression → Bool
  /-- They are written negated. -/
  negates : Bool := false
  /-- What joins a condition to those before it. -/
  connective : Expression → Connective
  /-- Which conditions are put in parentheses, alone or beside others. -/
  wraps (alone : Bool) (e : Expression) : Bool
  /-- The word NOT stands in front. -/
  underNot : Bool := false

namespace Grouping

section Texts

variable {α : Type} (word : Word → List α)

/-- A text between parentheses. -/
def enclosed (wrap : Bool) (t : List α) : List α :=
  if wrap then word .opening ++ (t ++ word .closing) else t

/-- The text of a condition, in parentheses if the grouping puts it there. -/
def unit (g : Grouping) (alone : Bool) (item : Expression × List α) : List α :=
  enclosed word (g.wraps alone item.1) item.2

/-- Conditions with their connectives between them. -/
def linked (g : Grouping) (alone : Bool) : List (Expression × List α) → List α
  | [] => []
  | [item] => g.unit word alone item
  | item :: next :: items =>
    g.unit word alone item
      ++ (word (.connective (g.connective next.1)) ++ linked g alone (next :: items))

/-- The conditions that are written, joined. -/
def joined (g : Grouping) (items : List (Expression × List α)) : List α :=
  let kept := items.filter (g.keeps ·.1)
  g.linked word (kept.length == 1) kept

/-- All of the form. -/
def assembled (g : Grouping) (items : List (Expression × List α)) : List α :=
  (if g.underNot then word .not else [])
    ++ enclosed word (1 < (items.filter (g.keeps ·.1)).length) (g.joined word items)

end Texts

end Grouping

namespace Expression

/-- Whether a condition is put in parentheses beside others. -/
def isWrapped (e : Expression) : Bool := Child.needsParens ⟨e, ⟨[], none⟩⟩

/-- Whether a condition is put in parentheses under the word NOT. -/
def isWrappedUnderNot : Expression → Bool
  | .raw sql _ _ => hasAnd sql || hasOr sql
  | _ => false

end Expression

namespace Grouping

/-- Conditions that one connective joins. -/
def group (c : Connective) : Grouping where
  keeps e := !e.isEmpty
  connective := Expression.beside c
  wraps alone e := !alone && e.isWrapped

/-- Negated forms that AND joins. -/
def opposites : Grouping where
  keeps e := !e.isEmptyNegation
  negates := true
  connective _ := .and
  wraps _ _ := false

/-- Conditions under the word NOT. -/
def notWord : Grouping where
  keeps _ := true
  connective := Expression.underNot
  wraps _ e := e.isWrappedUnderNot
  underNot := true

end Grouping

/-- How a form is put together, and from which conditions; nothing for one that is not made of
conditions. -/
def Form.grouping? : Form → Option (Grouping × List Expression)
  | ⟨false, .and es⟩ => some (.group .and, es)
  | ⟨false, .or es⟩ => some (.group .or, es)
  | ⟨false, .not es⟩ =>
    some (if es.all Expression.isNegatable then .opposites else .notWord, es)
  | ⟨true, .not es⟩ =>
    some (.group (if es.all Expression.isNegatable then .or else .and), es)
  | _ => none

/-- The forms of conditions that a form is put together from. -/
def Form.parts (f : Form) : List Form :=
  match f.grouping? with
  | none => []
  | some (g, es) => (es.filter g.keeps).map (⟨g.negates, ·⟩)

theorem Form.sizeOf_of_grouping {f : Form} {g : Grouping} {es : List Expression}
    (h : f.grouping? = some (g, es)) : sizeOf es < sizeOf f.expr := by
  unfold grouping? at h
  split at h <;> cases h <;> simp

theorem Form.sizeOf_part {f p : Form} (h : p ∈ f.parts) : sizeOf p.expr < sizeOf f.expr := by
  rw [parts] at h
  split at h
  · exact absurd h List.not_mem_nil
  · next g es hgrouping =>
    obtain ⟨e, he, rfl⟩ := List.mem_map.mp h
    have hmem := List.sizeOf_lt_of_mem (List.mem_of_mem_filter he)
    have hlist := sizeOf_of_grouping hgrouping
    show sizeOf e < _
    omega

/-- What holds of a form if it holds of its parts holds of all forms. -/
@[elab_as_elim]
theorem Form.induction {P : Form → Prop} (h : ∀ f : Form, (∀ p ∈ f.parts, P p) → P f) (f : Form) :
    P f :=
  h f fun p hp =>
    have := sizeOf_part hp
    Form.induction h p
termination_by sizeOf f.expr

/-! ## The marks of a form -/

mutual
/-- The marks of a condition, or of its negated form. -/
def Expression.marks : Bool → Expression → List Mark
  | false, .and es => (Grouping.group .and).assembled ([.word ·]) (Expression.allMarks false es)
  | false, .or es => (Grouping.group .or).assembled ([.word ·]) (Expression.allMarks false es)
  | false, .not es =>
    if es.all Expression.isNegatable then
      Grouping.opposites.assembled ([.word ·]) (Expression.allMarks true es)
    else Grouping.notWord.assembled ([.word ·]) (Expression.allMarks false es)
  | true, .not es =>
    (Grouping.group (if es.all Expression.isNegatable then .or else .and)).assembled ([.word ·])
      (Expression.allMarks false es)
  | negated, e => [.form ⟨negated, e⟩]

/-- The marks of several conditions. -/
def Expression.allMarks (negated : Bool) : List Expression → List (Expression × List Mark)
  | [] => []
  | e :: es => (e, Expression.marks negated e) :: Expression.allMarks negated es
end

namespace Form

def marks (f : Form) : List Mark := f.expr.marks f.negated

/-- Conditions with what is written for their forms. -/
def items {α : Type} (text : Form → List α) (negated : Bool) (es : List Expression) :
    List (Expression × List α) :=
  es.map fun e => (e, text ⟨negated, e⟩)

theorem allMarks_eq (negated : Bool) (es : List Expression) :
    Expression.allMarks negated es = items marks negated es := by
  induction es with
  | nil => rfl
  | cons e es ih => rw [Expression.allMarks, ih]; rfl

theorem marks_of_grouping {f : Form} {g : Grouping} {es : List Expression}
    (h : f.grouping? = some (g, es)) :
    f.marks = g.assembled ([.word ·]) (items marks g.negates es) := by
  unfold grouping? at h
  split at h
  · cases h
    rw [marks, Expression.marks, allMarks_eq]
    rfl
  · cases h
    rw [marks, Expression.marks, allMarks_eq]
    rfl
  · cases h
    show Expression.marks false (.not es) = _
    rw [Expression.marks, allMarks_eq, allMarks_eq]
    split <;> rfl
  · cases h
    rw [marks, Expression.marks, allMarks_eq]
    rfl
  · cases h

theorem marks_of_none {f : Form} (h : f.grouping? = none) : f.marks = [.form f] := by
  obtain ⟨negated, e⟩ := f
  cases negated <;> cases e <;> first | rfl | cases h

end Form

namespace Grouping

/-! ## What is written of conditions -/

section Items

variable {α : Type} (word : Word → List α) (text : Form → List α) (g : Grouping)
  (es : List Expression)

theorem filter_items :
    (Form.items text g.negates es).filter (g.keeps ·.1)
      = Form.items text g.negates (es.filter g.keeps) := by
  rw [Form.items, List.filter_map]
  rfl

/-- Only the conditions that are kept are written. -/
theorem joined_items :
    g.joined word (Form.items text g.negates es)
      = g.linked word ((es.filter g.keeps).length == 1)
          (Form.items text g.negates (es.filter g.keeps)) := by
  rw [joined, filter_items, Form.items, List.length_map]

theorem assembled_items :
    g.assembled word (Form.items text g.negates es)
      = (if g.underNot then word .not else [])
          ++ enclosed word (1 < (es.filter g.keeps).length)
            (g.joined word (Form.items text g.negates es)) := by
  rw [assembled, filter_items, Form.items, List.length_map]

end Items

/-! ## The groupings of forms -/

section Forms

variable {s : Scope} {c : Connective} {es : List Expression}

theorem enclosed_eq_parenthesized (wrap : Bool) (f : Fragment) :
    enclosed Word.fragment wrap f = Fragment.parenthesized wrap f := by
  cases wrap <;> rfl

theorem present_children_eq (s : Scope) (es : List Expression) :
    Child.present (Expression.children s es)
      = Expression.children s (es.filter (group c).keeps) := by
  rw [Child.present, Expression.children_eq_map, Expression.children_eq_map, List.filter_map]
  rfl

theorem continued_eq_linked (e : Expression) :
    Fragment.parenthesized e.isWrapped (e.fragment s)
        ++ Child.continued c.text (Expression.children s es)
      = (group c).linked Word.fragment false (Form.items (Form.fragment s) false (e :: es)) := by
  induction es generalizing e with
  | nil =>
    rw [← enclosed_eq_parenthesized]
    exact List.append_nil _
  | cons d es ih =>
    have hconnective : (if d.isLoneOr then " OR " else c.text) = (Expression.beside c d).text := by
      rw [Expression.beside]
      split <;> rfl
    show Fragment.parenthesized e.isWrapped (e.fragment s)
      ++ .text (if d.isLoneOr then " OR " else c.text)
      :: (Fragment.parenthesized d.isWrapped (d.fragment s)
        ++ Child.continued c.text (Expression.children s es)) = _
    rw [ih, hconnective, ← enclosed_eq_parenthesized]
    rfl

/-- What a connective joins is linked as its grouping tells. -/
theorem connected_eq_joined :
    Child.connected c.text (Expression.children s es)
      = (group c).joined Word.fragment (Form.items (Form.fragment s) false es) := by
  have hjoined := joined_items Word.fragment (Form.fragment s) (group c) es
  refine Eq.trans ?_ hjoined.symm
  rw [Child.connected, present_children_eq (c := c)]
  cases es.filter (group c).keeps with
  | nil => rfl
  | cons e rest =>
    cases rest with
    | nil => rfl
    | cons d es => exact continued_eq_linked e

theorem grouped_eq_assembled :
    Child.grouped c.text (Expression.children s es)
      = (group c).assembled Word.fragment (Form.items (Form.fragment s) false es) := by
  refine Eq.trans ?_ (assembled_items Word.fragment (Form.fragment s) (group c) es).symm
  rw [Child.grouped, connected_eq_joined, present_children_eq (c := c),
    enclosed_eq_parenthesized, Expression.children_eq_map, List.length_map]
  rfl

theorem notList_eq_linked (alone : Bool) :
    Child.notList (Expression.children s es)
      = notWord.linked Word.fragment alone (Form.items (Form.fragment s) false es) := by
  have hunit (e : Expression) : Fragment.parenthesized e.isWrappedUnderNot (e.fragment s)
      = notWord.unit Word.fragment alone (e, Form.fragment s ⟨false, e⟩) := by
    rw [unit, enclosed_eq_parenthesized]
    rfl
  induction es with
  | nil => rfl
  | cons e es ih =>
    cases es with
    | nil =>
      have hwhole : Child.notList (Expression.children s [e])
          = Fragment.parenthesized e.isWrappedUnderNot (e.fragment s) ++ [] := by
        cases e <;> rfl
      rw [hwhole, List.append_nil, hunit]
      rfl
    | cons d es =>
      have hwhole : Child.notList (Expression.children s (e :: d :: es))
          = Fragment.parenthesized e.isWrappedUnderNot (e.fragment s)
            ++ .text (Expression.underNot d).text
              :: Child.notList (Expression.children s (d :: es)) := by
        cases e <;> cases d <;> rfl
      rw [hwhole, ih, hunit]
      rfl

theorem negated_eq_notWord (h : es.all Expression.isNegatable = false) :
    Child.negated (Expression.children s es)
      = notWord.assembled Word.fragment (Form.items (Form.fragment s) false es) := by
  have hall : ¬(Expression.children s es).all (·.expr.isNegatable) = true := by
    rw [Expression.children_eq_map, List.all_map]
    exact Bool.eq_false_iff.mp h
  have hkept : es.filter notWord.keeps = es := List.filter_eq_self.mpr fun _ _ => rfl
  have hassembled := assembled_items Word.fragment (Form.fragment s) notWord es
  rw [joined_items, hkept] at hassembled
  refine Eq.trans ?_ hassembled.symm
  rw [Child.negated, if_neg hall, enclosed_eq_parenthesized, notList_eq_linked (es.length == 1),
    Expression.children_eq_map, List.length_map]
  rfl

theorem joined_eq_linked (alone : Bool) :
    Fragment.joined " AND " (es.map (Expression.negatedFragment s))
      = opposites.linked Word.fragment alone (Form.items (Form.fragment s) true es) := by
  induction es with
  | nil => rfl
  | cons e es ih =>
    cases es with
    | nil => rfl
    | cons d es =>
      show e.negatedFragment s ++ .text " AND " :: Fragment.joined " AND "
        ((d :: es).map (Expression.negatedFragment s)) = _
      rw [ih]
      rfl

theorem negated_eq_opposites (h : es.all Expression.isNegatable = true) :
    Child.negated (Expression.children s es)
      = opposites.assembled Word.fragment (Form.items (Form.fragment s) true es) := by
  have hall : (Expression.children s es).all (·.expr.isNegatable) = true := by
    rw [Expression.children_eq_map, List.all_map]
    exact h
  have hkept : (Expression.children s es).filter (!·.expr.isEmptyNegation)
      = Expression.children s (es.filter opposites.keeps) := by
    rw [Expression.children_eq_map, Expression.children_eq_map, List.filter_map]
    rfl
  have hnegative : (Expression.children s (es.filter opposites.keeps)).map
        (fun c => c.forms.negative.getD [])
      = (es.filter opposites.keeps).map (Expression.negatedFragment s) := by
    rw [Expression.children_eq_map, List.map_map]
    rfl
  have hassembled := assembled_items Word.fragment (Form.fragment s) opposites es
  rw [joined_items] at hassembled
  refine Eq.trans ?_ hassembled.symm
  rw [Child.negated, if_pos hall, hkept]
  show Fragment.parenthesized (1 < (Expression.children s (es.filter opposites.keeps)).length)
    (Fragment.joined " AND " ((Expression.children s (es.filter opposites.keeps)).map
      fun c => c.forms.negative.getD [])) = _
  rw [hnegative, joined_eq_linked ((es.filter opposites.keeps).length == 1),
    Expression.children_eq_map, List.length_map, enclosed_eq_parenthesized]
  rfl

/-- A form that is made of conditions is put together as its grouping tells. -/
theorem fragment_of_grouping {f : Form} {g : Grouping} (h : f.grouping? = some (g, es)) :
    f.fragment s = g.assembled Word.fragment (Form.items (Form.fragment s) g.negates es) := by
  unfold Form.grouping? at h
  split at h
  · cases h
    exact grouped_eq_assembled (c := .and)
  · cases h
    exact grouped_eq_assembled (c := .or)
  · cases h
    show Child.negated (Expression.children s _) = _
    split
    · next hall => exact negated_eq_opposites hall
    · next hall => exact negated_eq_notWord (Bool.eq_false_iff.mpr hall)
  · cases h
    have hall : (Expression.children s es).all (·.expr.isNegatable)
        = es.all Expression.isNegatable := by
      rw [Expression.children_eq_map, List.all_map]
      rfl
    show Child.doublyNegated (Expression.children s es) = _
    rw [Child.doublyNegated, hall]
    split
    · exact grouped_eq_assembled (c := .or)
    · exact grouped_eq_assembled (c := .and)
  · cases h

end Forms

/-! ## The text of the marks -/

variable {s : Scope}

theorem spelled_enclosed (wrap : Bool) (ms : List Mark) :
    Mark.spelled s (enclosed ([.word ·]) wrap ms)
      = enclosed Word.fragment wrap (Mark.spelled s ms) := by
  cases wrap with
  | false => rfl
  | true =>
    show Mark.spelled s ([Mark.word .opening] ++ (ms ++ [Mark.word .closing])) = _
    rw [Mark.spelled_append, Mark.spelled_append]
    rfl

/-- The text of what is put together from the marks of forms is put together from their texts. -/
theorem spelled_linked {g : Grouping} {es : List Expression} (alone : Bool)
    (h : ∀ e ∈ es, Mark.spelled s (Form.marks ⟨g.negates, e⟩) = Form.fragment s ⟨g.negates, e⟩) :
    Mark.spelled s (g.linked ([.word ·]) alone (Form.items Form.marks g.negates es))
      = g.linked Word.fragment alone (Form.items (Form.fragment s) g.negates es) := by
  induction es with
  | nil => rfl
  | cons e es ih =>
    obtain ⟨he, hes⟩ := List.forall_mem_cons.mp h
    have hunit : Mark.spelled s (g.unit ([.word ·]) alone (e, Form.marks ⟨g.negates, e⟩))
        = g.unit Word.fragment alone (e, Form.fragment s ⟨g.negates, e⟩) := by
      rw [unit, spelled_enclosed, he]
      rfl
    cases es with
    | nil => exact hunit
    | cons d es =>
      show Mark.spelled s (unit _ g alone (e, Form.marks ⟨g.negates, e⟩)
        ++ ([Mark.word (.connective (g.connective d))] ++ _)) = _
      rw [Mark.spelled_append, Mark.spelled_append, hunit]
      exact congrArg (_ ++ ·) (congrArg (_ ++ ·) (ih hes))

theorem spelled_joined {g : Grouping} {es : List Expression}
    (h : ∀ e ∈ es.filter g.keeps,
      Mark.spelled s (Form.marks ⟨g.negates, e⟩) = Form.fragment s ⟨g.negates, e⟩) :
    Mark.spelled s (g.joined ([.word ·]) (Form.items Form.marks g.negates es))
      = g.joined Word.fragment (Form.items (Form.fragment s) g.negates es) := by
  rw [joined_items, joined_items]
  exact spelled_linked _ h

theorem spelled_assembled {g : Grouping} {es : List Expression}
    (h : ∀ e ∈ es.filter g.keeps,
      Mark.spelled s (Form.marks ⟨g.negates, e⟩) = Form.fragment s ⟨g.negates, e⟩) :
    Mark.spelled s (g.assembled ([.word ·]) (Form.items Form.marks g.negates es))
      = g.assembled Word.fragment (Form.items (Form.fragment s) g.negates es) := by
  rw [assembled_items, assembled_items, Mark.spelled_append, spelled_enclosed, spelled_joined h]
  cases g.underNot <;> rfl

end Grouping

theorem Form.parts_of_grouping {f : Form} {g : Grouping} {es : List Expression}
    (h : f.grouping? = some (g, es)) : f.parts = (es.filter g.keeps).map (⟨g.negates, ·⟩) := by
  rw [parts, h]

/-- The marks of a form have its text. -/
theorem Form.spelled_marks (s : Scope) (f : Form) : Mark.spelled s f.marks = f.fragment s := by
  induction f using Form.induction with
  | h f ih =>
    cases hgrouping : f.grouping? with
    | none =>
      rw [marks_of_none hgrouping]
      exact List.append_nil _
    | some made =>
      obtain ⟨g, es⟩ := made
      rw [marks_of_grouping hgrouping, Grouping.fragment_of_grouping hgrouping]
      refine Grouping.spelled_assembled fun e he => ih _ ?_
      rw [parts_of_grouping hgrouping]
      exact List.mem_map_of_mem he

end RecordSql
