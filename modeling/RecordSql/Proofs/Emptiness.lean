/-
  RecordSql.Proofs.Emptiness

  What is written of expressions that count as empty.  Groups leave out their
  empty conditions, and so does a negation whose conditions all have a negated
  form, so nothing is left of them.  But a list puts a comma between any two
  entries, and the word NOT stands in front of whatever has no negated form.
  These are the only words that an empty expression can leave
  (`Expression.fragment_eq_nil_iff`); it binds no value and records no error
  (`Expression.isText_of_isEmpty`).

  A negated form that counts as empty leaves nothing at all.
-/

import RecordSql.Proofs.Conditions
import RecordSql.Proofs.Written

namespace RecordSql

/-! ## Fragments of text -/

namespace Fragment

/-- A fragment without placeholders, errors and mentions of the table. -/
def IsText (f : Fragment) : Prop := ∀ p ∈ f, ∃ t, p = .text t

/-- The literal text of a fragment, without its placeholders. -/
def text : Fragment → String
  | [] => ""
  | .text t :: f => t ++ text f
  | _ :: f => text f

variable {f g : Fragment}

theorem text_append (f g : Fragment) : text (f ++ g) = text f ++ text g := by
  induction f with
  | nil => simp [text]
  | cons p f ih => cases p <;> simp [text, ih, String.append_assoc]

theorem isText_nil : IsText [] := List.forall_mem_nil _

theorem IsText.cons (t : String) (hf : f.IsText) : IsText (.text t :: f) :=
  List.forall_mem_cons.mpr ⟨⟨t, rfl⟩, hf⟩

theorem IsText.append (hf : f.IsText) (hg : g.IsText) : IsText (f ++ g) :=
  List.forall_mem_append.mpr ⟨hf, hg⟩

theorem IsText.parenthesized (wrap : Bool) (hf : f.IsText) : (Fragment.parenthesized wrap f).IsText := by
  cases wrap with
  | false => exact hf
  | true => exact .cons "(" (hf.append (isText_nil.cons ")"))

theorem IsText.joined {fs : List Fragment} (separator : String) (h : ∀ f ∈ fs, f.IsText) :
    (Fragment.joined separator fs).IsText := by
  match fs, h with
  | [], _ => exact isText_nil
  | [f], h => exact h f List.mem_cons_self
  | f :: g :: fs, h =>
    obtain ⟨hf, hrest⟩ := List.forall_mem_cons.mp h
    exact hf.append ((IsText.joined separator hrest).cons separator)

/-- Between two fragments or more there is a separator. -/
theorem text_joined_ne {separator : String} {fs : List Fragment} (hsep : separator ≠ "")
    (h : 2 ≤ fs.length) : (Fragment.joined separator fs).text ≠ "" := by
  match fs, h with
  | f :: g :: fs, _ =>
    show (f ++ Piece.text separator :: Fragment.joined separator (g :: fs)).text ≠ ""
    rw [text_append, text]
    intro hempty
    simp only [String.append_eq_empty_iff] at hempty
    exact hsep hempty.2.1

/-- There is no table to put in. -/
theorem IsText.withTable (h : f.IsText) (table : Fragment) : f.withTable table = f := by
  induction f with
  | nil => rfl
  | cons p f ih =>
    obtain ⟨⟨t, rfl⟩, hf⟩ := List.forall_mem_cons.mp h
    have hrest : Fragment.withTable f table = f := ih hf
    calc Fragment.withTable (.text t :: f) table
        = .text t :: Fragment.withTable f table := rfl
      _ = .text t :: f := by rw [hrest]

end Fragment

/-- Text is appended as it is. -/
theorem Output.append_of_isText (d : Dialect) (o : Output) {f : Fragment} (h : f.IsText) :
    o.append d f = { o with sql := o.sql ++ f.text } := by
  induction f generalizing o with
  | nil => simp [append, Fragment.text]
  | cons p f ih =>
    obtain ⟨⟨t, rfl⟩, hf⟩ := List.forall_mem_cons.mp h
    have hstep : o.append d (.text t :: f) = ({ o with sql := o.sql ++ t } : Output).append d f := rfl
    rw [hstep, ih _ hf, Fragment.text]
    simp only [String.append_assoc]

namespace Expression

variable {s : Scope} {e : Expression} {es : List Expression}

/-! ## Groups of empty conditions -/

theorem forall_of_allEmpty (h : allEmpty es = true) : ∀ e ∈ es, e.isEmpty = true := by
  induction es with
  | nil => exact List.forall_mem_nil _
  | cons e es ih =>
    rw [allEmpty, Bool.and_eq_true] at h
    exact List.forall_mem_cons.mpr ⟨h.1, ih h.2⟩

theorem forall_of_allEmptyNegation (h : allEmptyNegation es = true) :
    ∀ e ∈ es, e.isEmptyNegation = true := by
  induction es with
  | nil => exact List.forall_mem_nil _
  | cons e es ih =>
    rw [allEmptyNegation, Bool.and_eq_true] at h
    exact List.forall_mem_cons.mpr ⟨h.1, ih h.2⟩

/-- No child is left of which something would be written. -/
theorem filter_children_eq_nil {p : Expression → Bool} (h : ∀ e ∈ es, p e = true) :
    (children s es).filter (fun c => !p c.expr) = [] := by
  rw [List.filter_eq_nil_iff, children_eq_map]
  intro c hc
  obtain ⟨e, he, rfl⟩ := List.mem_map.mp hc
  simp [h e he]

/-- A group of empty conditions writes nothing, whatever its connective. -/
theorem grouped_of_allEmpty (connective : String) (h : allEmpty es = true) :
    Child.grouped connective (children s es) = [] := by
  have hpresent : Child.present (children s es) = [] :=
    filter_children_eq_nil (forall_of_allEmpty h)
  rw [Child.grouped, Child.connected, hpresent]
  rfl

theorem all_isNegatable_children (s : Scope) (es : List Expression) :
    (children s es).all (·.expr.isNegatable) = es.all isNegatable := by
  rw [children_eq_map, List.all_map]
  rfl

/-- Where all conditions have a negated form, those that write nothing are left out. -/
theorem negated_of_allEmptyNegation (hall : es.all isNegatable = true)
    (h : allEmptyNegation es = true) : Child.negated (children s es) = [] := by
  have hkept : (children s es).filter (!·.expr.isEmptyNegation) = [] :=
    filter_children_eq_nil (forall_of_allEmptyNegation h)
  rw [Child.negated, all_isNegatable_children, if_pos hall, hkept]
  rfl

/-- Elsewhere the word NOT is written before all of them. -/
theorem negated_of_not_isNegatable (hall : es.all isNegatable = false) :
    Child.negated (children s es) = .text "NOT "
      :: Fragment.parenthesized (1 < (children s es).length) (Child.notList (children s es)) := by
  rw [Child.negated, all_isNegatable_children, if_neg (Bool.eq_false_iff.mp hall)]

theorem isText_notList (h : ∀ e ∈ es, (e.fragment s).IsText) :
    (Child.notList (children s es)).IsText := by
  induction es with
  | nil => exact Fragment.isText_nil
  | cons e es ih =>
    obtain ⟨he, hes⟩ := List.forall_mem_cons.mp h
    rw [children]
    unfold Child.notList
    apply Fragment.IsText.append
    · exact Fragment.IsText.parenthesized _ he
    · cases es with
      | nil => exact Fragment.isText_nil
      | cons d es => exact .cons _ (ih hes)

/-! ## What empty expressions write -/

mutual
/-- An empty expression writes text alone. -/
theorem isText_of_isEmpty (s : Scope) : ∀ e : Expression, e.isEmpty = true → (e.fragment s).IsText
  | .compare .., h => Bool.noConfusion h
  | .member .., h => Bool.noConfusion h
  | .case .., h => Bool.noConfusion h
  | .raw sql _ _, h => by
    rw [isEmpty, String.isEmpty_iff] at h
    rw [h]
    exact Fragment.isText_nil
  | .named sql _, h => by
    rw [isEmpty, String.isEmpty_iff] at h
    rw [h]
    exact Fragment.isText_nil
  | .and es, h => by
    have hnil : Expression.fragment s (.and es) = [] := grouped_of_allEmpty " AND " h
    rw [hnil]
    exact Fragment.isText_nil
  | .or es, h => by
    have hnil : Expression.fragment s (.or es) = [] := grouped_of_allEmpty " OR " h
    rw [hnil]
    exact Fragment.isText_nil
  | .not es, h => by
    show (Child.negated (children s es)).IsText
    rw [isEmpty] at h
    cases hall : es.all isNegatable with
    | true =>
      rw [if_pos hall] at h
      rw [negated_of_allEmptyNegation hall h]
      exact Fragment.isText_nil
    | false =>
      rw [hall, if_neg Bool.false_ne_true] at h
      rw [negated_of_not_isNegatable hall]
      exact .cons _ (Fragment.IsText.parenthesized _ (isText_notList (isText_of_allEmpty s es h)))
  | .comma es, h => by
    have hall := isText_of_allEmpty s es h
    show (Fragment.joined ", " ((children s es).map (·.forms.positive))).IsText
    apply Fragment.IsText.joined
    rw [children_eq_map, List.map_map]
    intro f hf
    obtain ⟨e, he, rfl⟩ := List.mem_map.mp hf
    exact hall e he

theorem isText_of_allEmpty (s : Scope) :
    ∀ es : List Expression, allEmpty es = true → ∀ e ∈ es, (e.fragment s).IsText
  | [], _ => List.forall_mem_nil _
  | e :: es, h => by
    rw [allEmpty, Bool.and_eq_true] at h
    exact List.forall_mem_cons.mpr ⟨isText_of_isEmpty s e h.1, isText_of_allEmpty s es h.2⟩
end

/-- The expression has words of its own, whatever its conditions and entries write. -/
inductive Residual : Expression → Prop
  /-- There is a comma between two entries of a list. -/
  | commas {es : List Expression} (hseveral : 2 ≤ es.length) : Residual (.comma es)
  /-- A list of one entry is written as that. -/
  | entry {e : Expression} (he : Residual e) : Residual (.comma [e])
  /-- The word NOT is written before conditions one of which has no negated form. -/
  | notWord {es : List Expression} (hone : es.all isNegatable = false) : Residual (.not es)

/-- Those words are text. -/
theorem Residual.text_ne (h : e.Residual) : (e.fragment s).text ≠ "" := by
  induction h with
  | @commas es hseveral =>
    show (Fragment.joined ", " ((children s es).map (·.forms.positive))).text ≠ ""
    apply Fragment.text_joined_ne (by decide)
    rw [children_eq_map, List.length_map, List.length_map]
    exact hseveral
  | entry _ ih => exact ih
  | @notWord es hone =>
    show (Child.negated (children s es)).text ≠ ""
    rw [negated_of_not_isNegatable hone, Fragment.text]
    intro hempty
    simp only [String.append_eq_empty_iff] at hempty
    exact absurd hempty.1 (by decide)

/-- Without them nothing is written of an empty expression. -/
theorem fragment_eq_nil (s : Scope) : ∀ e : Expression, e.isEmpty = true → ¬ e.Residual →
    e.fragment s = []
  | .compare .., h, _ => Bool.noConfusion h
  | .member .., h, _ => Bool.noConfusion h
  | .case .., h, _ => Bool.noConfusion h
  | .raw sql _ _, h, _ => by
    rw [isEmpty, String.isEmpty_iff] at h
    rw [h]
    rfl
  | .named sql _, h, _ => by
    rw [isEmpty, String.isEmpty_iff] at h
    rw [h]
    rfl
  | .and _, h, _ => grouped_of_allEmpty " AND " h
  | .or _, h, _ => grouped_of_allEmpty " OR " h
  | .not es, h, hresidual => by
    cases hall : es.all isNegatable with
    | true =>
      rw [isEmpty, if_pos hall] at h
      exact negated_of_allEmptyNegation hall h
    | false => exact absurd (.notWord hall) hresidual
  | .comma [], _, _ => rfl
  | .comma [e], h, hresidual => by
    rw [isEmpty, allEmpty, Bool.and_eq_true] at h
    exact fragment_eq_nil s e h.1 fun he => hresidual (.entry he)
  | .comma (_ :: _ :: es), _, hresidual => absurd (.commas (by simp)) hresidual

/-- An empty expression writes nothing exactly if it has no words of its own. -/
theorem fragment_eq_nil_iff (h : e.isEmpty = true) : e.fragment s = [] ↔ ¬ e.Residual := by
  constructor
  · intro hnil hresidual
    apply hresidual.text_ne (s := s)
    rw [hnil]
    rfl
  · exact fragment_eq_nil s e h

/-- A negated form that counts as empty writes nothing. -/
theorem negative_eq_nil (s : Scope) (hnegatable : e.isNegatable = true)
    (h : e.isEmptyNegation = true) : (e.forms s).negative = some [] := by
  cases e with
  | compare op column arg => cases h
  | member column args =>
    rw [isEmptyNegation, List.isEmpty_iff] at h
    subst h
    rfl
  | not es =>
    show some (Child.doublyNegated (children s es)) = some []
    rw [Child.doublyNegated, grouped_of_allEmpty _ h]
  | _ => cases hnegatable

end Expression

/-! ## What statements have of it -/

/-- An expression that counts as empty leaves the values and the errors of a statement as they are, and
its text exactly if it has no words of its own: a comma between entries of a list, or the word NOT
before a condition that has no negated form. A negated form that counts as empty leaves all of the
statement as it is. -/
theorem Statement.empty_expressions_leave_text_iff (st : Statement) (e : Expression) :
    (e.isEmpty = true → ∃ words,
      st.writeExpression e = { st with output := { st.output with sql := st.output.sql ++ words } }
        ∧ (words = "" ↔ ¬ e.Residual))
    ∧ (e.isNegatable = true → e.isEmptyNegation = true → st.writeNegation e = (true, st)) := by
  constructor
  · intro hempty
    have htext : (e.fragment st.scope).IsText := Expression.isText_of_isEmpty st.scope e hempty
    refine ⟨(e.fragment st.scope).text, ?_, ?_⟩
    · rw [writeExpression, write, htext.withTable, Output.append_of_isText _ _ htext]
    · constructor
      · intro hwords hresidual
        exact hresidual.text_ne hwords
      · intro hresidual
        rw [Expression.fragment_eq_nil st.scope e hempty hresidual]
        rfl
  · intro hnegatable hempty
    rw [writeNegation, Expression.negative_eq_nil st.scope hnegatable hempty]
    rfl

/-- The negation of an empty text counts as empty, both as it is and negated. Negated it leaves nothing,
and as it is the word NOT. -/
theorem Statement.empty_expressions_leave_text_iff_notWord :
    let st : Statement := { dialect := .mysql }
    let e : Expression := .not [.sql "" []]
    e.isEmpty = true ∧ e.isNegatable = true ∧ e.isEmptyNegation = true ∧ e.Residual
      ∧ (∃ words, words ≠ "" ∧ (st.writeExpression e).output.sql = words)
      ∧ st.writeNegation e = (true, st) := by
  intro st e
  obtain ⟨hwritten, hnegation⟩ := empty_expressions_leave_text_iff st e
  have hresidual : e.Residual := .notWord rfl
  obtain ⟨words, heq, hwords⟩ := hwritten rfl
  refine ⟨rfl, rfl, rfl, hresidual, ⟨words, fun hnone => hwords.mp hnone hresidual, ?_⟩,
    hnegation rfl rfl⟩
  rw [heq]
  exact String.empty_append

end RecordSql
