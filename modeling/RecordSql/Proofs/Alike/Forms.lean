/-
  RecordSql.Proofs.Alike.Forms

  The forms of alike expressions are alike.  First the functions that join
  children, which look at the shape of each child and at whether it is empty;
  then the induction over arguments and expressions (`Arg.Alike.slot`,
  `Expression.Alike.forms`).
-/

import RecordSql.Proofs.Alike.Expression

namespace RecordSql

variable {R : Value → Value → Prop}

/-- The forms of an expression in two runs. -/
structure Forms.Alike (R : Value → Value → Prop) (p q : Forms) : Prop where
  positive : Fragment.Alike R p.positive q.positive
  negative : Option.Rel (Fragment.Alike R) p.negative q.negative

/-- Children at the same place of two runs. -/
structure Child.Alike (R : Value → Value → Prop) (c d : Child) : Prop where
  expr : Expression.Alike R c.expr d.expr
  forms : Forms.Alike R c.forms d.forms

/-! ## Joined children -/

namespace Child

variable {cs ds : List Child}

theorem Alike.needsParens {c d : Child} (h : Child.Alike R c d) :
    c.needsParens = d.needsParens := by
  obtain ⟨e, _⟩ := c
  obtain ⟨f, _⟩ := d
  have he : Expression.Alike R e f := h.expr
  cases he with
  | and hs | or hs =>
    cases hs with
    | nil => rfl
    | cons hchild hrest => cases hchild <;> cases hrest <;> rfl
  | _ => rfl

theorem present_alike (h : List.Forall₂ (Child.Alike R) cs ds) :
    List.Forall₂ (Child.Alike R) (present cs) (present ds) :=
  filter_forall₂ (fun _ _ hc => by rw [hc.expr.isEmpty]) h

theorem all_isNegatable_alike (h : List.Forall₂ (Child.Alike R) cs ds) :
    (cs.all (·.expr.isNegatable)) = ds.all (·.expr.isNegatable) :=
  all_eq_of_forall₂ (fun _ _ hc => hc.expr.isNegatable) h

theorem continued_alike (connective : String) (h : List.Forall₂ (Child.Alike R) cs ds) :
    Fragment.Alike R (continued connective cs) (continued connective ds) := by
  induction h with
  | nil => exact .nil
  | cons hc _ ih =>
    have hlone := hc.expr.isLoneOr
    rw [continued, continued, isLoneOr, isLoneOr, hlone, hc.needsParens]
    exact .text _ ((hc.forms.positive.parenthesized _).append ih)

theorem connected_alike (connective : String) (h : List.Forall₂ (Child.Alike R) cs ds) :
    Fragment.Alike R (connected connective cs) (connected connective ds) := by
  have hpresent := present_alike h
  rw [connected, connected]
  generalize present cs = cs', present ds = ds' at hpresent
  cases hpresent with
  | nil => exact .nil
  | @cons c d cs ds hc hrest =>
    have hcontinued := continued_alike connective hrest
    -- A child that is left alone needs no parentheses.
    have hall := (hc.forms.positive.parenthesized d.needsParens).append hcontinued
    cases hrest with
    | nil => exact hc.forms.positive
    | cons _ _ =>
      show Fragment.Alike R (Fragment.parenthesized c.needsParens _ ++ _) _
      rw [hc.needsParens]
      exact hall

theorem grouped_alike (connective : String) (h : List.Forall₂ (Child.Alike R) cs ds) :
    Fragment.Alike R (grouped connective cs) (grouped connective ds) := by
  rw [grouped, grouped, (present_alike h).length_eq]
  exact (connected_alike connective h).parenthesized _

theorem notList_alike (h : List.Forall₂ (Child.Alike R) cs ds) :
    Fragment.Alike R (notList cs) (notList ds) := by
  induction h with
  | nil => exact .nil
  | @cons c d cs ds hc hrest ih =>
    simp only [notList]
    -- The kind of a child decides about its parentheses, that of the next about the word between.
    refine Fragment.Alike.append ?_ ?_
    · obtain ⟨e, p⟩ := c
      obtain ⟨f, q⟩ := d
      have he : Expression.Alike R e f := hc.expr
      cases he <;> exact hc.forms.positive.parenthesized _
    · cases hrest with
      | nil => exact .nil
      | @cons c' d' _ _ hc' _ =>
        obtain ⟨e, p⟩ := c'
        obtain ⟨f, q⟩ := d'
        have he : Expression.Alike R e f := hc'.expr
        cases he <;> exact .text _ ih

theorem negated_alike (h : List.Forall₂ (Child.Alike R) cs ds) :
    Fragment.Alike R (negated cs) (negated ds) := by
  have hkept : List.Forall₂ (Child.Alike R) (cs.filter (!·.expr.isEmptyNegation))
      (ds.filter (!·.expr.isEmptyNegation)) :=
    filter_forall₂ (fun _ _ hc => by rw [hc.expr.isEmptyNegation]) h
  rw [negated, negated, all_isNegatable_alike h]
  -- Either both runs write opposites, or both write NOT.
  split
  · simp only [hkept.length_eq]
    refine (Fragment.Alike.joined " AND " ?_).parenthesized _
    refine List.rel_map (fun c d hc => ?_) hkept
    have hnegative := hc.forms.negative
    generalize c.forms.negative = f, d.forms.negative = g at hnegative
    cases hnegative with
    | none => exact .nil
    | some hf => exact hf
  · rw [h.length_eq]
    exact .text "NOT " ((notList_alike h).parenthesized _)

theorem doublyNegated_alike (h : List.Forall₂ (Child.Alike R) cs ds) :
    Fragment.Alike R (doublyNegated cs) (doublyNegated ds) := by
  rw [doublyNegated, doublyNegated, all_isNegatable_alike h]
  exact grouped_alike _ h

end Child

/-! ## Arguments and expressions -/

theorem Arg.names_alike {as bs : List (String × Arg)} (h : List.Forall₂ (Arg.AlikeEntry R) as bs) :
    as.map (·.1) = bs.map (·.1) := by
  induction h with
  | nil => rfl
  | cons hab _ ih =>
    cases hab with
    | mk name _ => exact congrArg (name :: ·) ih

mutual
theorem Arg.Alike.slot (s : Scope) (hnull : KeepsNull R) {a b : Arg} :
    Arg.Alike R a b → Slot.Alike R (a.slot s) (b.slot s)
  | .value hv =>
    { whole := .bound (.scalar hv) .nil
      items := .none
      entries := .nil }
  | @Arg.Alike.list _ as bs hs => by
    have hslots := Arg.slots_alike s hnull hs
    have hvalues := Arg.values?_alike hs
    rw [Arg.slot, Arg.slot, isEmpty_eq_of_forall₂ hs]
    refine ⟨?_, Option.Rel.some (Slot.map_whole_alike hslots), List.Forall₂.nil⟩
    -- A list of scalars is bound as one array, any other is written item by item.
    generalize Arg.values? as = vs, Arg.values? bs = ws at hvalues
    split
    · exact .text _ .nil
    · cases hvalues with
      | some hvs => exact .bound (.list hvs) .nil
      | none => exact .enclosed "(" ")" (Slot.list_alike hslots)
  | .column c =>
    { whole := c.fragment_alike s
      items := .none
      entries := .nil }
  | .table t =>
    { whole := t.fragment_alike s
      items := .none
      entries := .nil }
  | .expr he =>
    { whole := (Expression.Alike.forms s hnull he).positive
      items := .none
      entries := .nil }
  | .named name ha =>
    { whole := (Arg.Alike.slot s hnull ha).whole
      items := .none
      entries := .cons ⟨rfl, (Arg.Alike.slot s hnull ha).whole⟩ .nil }
  | .map hs => by
    rw [Arg.slot, Arg.slot, Arg.names_alike hs]
    exact
      { whole := .fault rfl
        items := .none
        entries := Arg.entrySlots_alike s hnull hs }

theorem Arg.slots_alike (s : Scope) (hnull : KeepsNull R) {as bs : List Arg} :
    List.Forall₂ (Arg.Alike R) as bs →
      List.Forall₂ (Slot.Alike R) (Arg.slots s as) (Arg.slots s bs)
  | .nil => .nil
  | .cons hab hs => .cons (Arg.Alike.slot s hnull hab) (Arg.slots_alike s hnull hs)

theorem Arg.entrySlots_alike (s : Scope) (hnull : KeepsNull R) {as bs : List (String × Arg)} :
    List.Forall₂ (Arg.AlikeEntry R) as bs →
      List.Forall₂ (AlikeNamed R) (Arg.entrySlots s as) (Arg.entrySlots s bs)
  | .nil => .nil
  | .cons (.mk _ hab) hs =>
    .cons ⟨rfl, (Arg.Alike.slot s hnull hab).whole⟩ (Arg.entrySlots_alike s hnull hs)

theorem Branch.parts_alike (s : Scope) (hnull : KeepsNull R) {bs cs : List Branch} :
    List.Forall₂ (Branch.Alike R) bs cs →
      (Branch.parts s bs).1 = (Branch.parts s cs).1
        ∧ List.Forall₂ (Slot.Alike R) (Branch.parts s bs).2 (Branch.parts s cs).2
  | .nil => ⟨rfl, .nil⟩
  | .cons (.mk condition result hargs) hs => by
    have hrest := Branch.parts_alike s hnull hs
    exact ⟨congrArg ((condition, result) :: ·) hrest.1,
      List.rel_append (Arg.slots_alike s hnull hargs) hrest.2⟩

theorem Expression.Alike.forms (s : Scope) (hnull : KeepsNull R) {e f : Expression} :
    Expression.Alike R e f → Forms.Alike R (e.forms s) (f.forms s)
  | @Expression.Alike.compare _ op c a b hab => by
    have hslot := Arg.Alike.slot s hnull hab
    have hform (negated : Bool) :=
      (c.fragment_alike s).append (comparisonFragment_alike op negated b.isNull hslot)
    -- This is where it matters that the same scalars are null.
    rw [Expression.forms, Expression.forms, hab.isNull hnull]
    exact ⟨hform false, .some (hform true)⟩
  | .member c hs =>
    have hslots := Arg.slots_alike s hnull hs
    ⟨memberFragment_alike (c.fragment_alike s) false hs hslots,
      .some (memberFragment_alike (c.fragment_alike s) true hs hslots)⟩
  | .raw sql spread hs =>
    ⟨fillMarks_alike spread false (Arg.slots_alike s hnull hs) sql.toList, .none⟩
  | .named sql hs => by
    have hslots := Arg.slots_alike s hnull hs
    have hentries := List.rel_reverse (List.rel_flatMap hslots fun _ _ h => h.entries)
    exact ⟨fillNames_alike hentries none false hslots sql.toList, .none⟩
  | .and hs => ⟨Child.grouped_alike " AND " (Expression.children_alike s hnull hs), .none⟩
  | .or hs => ⟨Child.grouped_alike " OR " (Expression.children_alike s hnull hs), .none⟩
  | .not hs =>
    have hchildren := Expression.children_alike s hnull hs
    ⟨Child.negated_alike hchildren, .some (Child.doublyNegated_alike hchildren)⟩
  | .case hs => by
    have hparts := Branch.parts_alike s hnull hs
    rw [Expression.forms, Expression.forms]
    generalize Branch.parts s _ = p, Branch.parts s _ = q at hparts
    obtain ⟨texts, slots⟩ := p
    obtain ⟨texts', slots'⟩ := q
    obtain ⟨rfl, hslots⟩ := hparts
    exact ⟨fillMarks_alike false false hslots _, .none⟩
  | .caseElse result hs hargs => by
    have hparts := Branch.parts_alike s hnull hs
    rw [Expression.forms, Expression.forms]
    generalize Branch.parts s _ = p, Branch.parts s _ = q at hparts
    obtain ⟨texts, slots⟩ := p
    obtain ⟨texts', slots'⟩ := q
    obtain ⟨rfl, hslots⟩ := hparts
    have hall := List.rel_append hslots (Arg.slots_alike s hnull hargs)
    exact ⟨fillMarks_alike false false hall _, .none⟩
  | .comma hs =>
    have hchildren := Expression.children_alike s hnull hs
    ⟨.joined ", " (List.rel_map (fun _ _ hc => hc.forms.positive) hchildren), .none⟩

theorem Expression.children_alike (s : Scope) (hnull : KeepsNull R) {es fs : List Expression} :
    List.Forall₂ (Expression.Alike R) es fs →
      List.Forall₂ (Child.Alike R) (Expression.children s es) (Expression.children s fs)
  | .nil => .nil
  | .cons he hs =>
    .cons ⟨he, Expression.Alike.forms s hnull he⟩ (Expression.children_alike s hnull hs)
end

theorem Expression.Alike.fragment (s : Scope) (hnull : KeepsNull R) {e f : Expression}
    (h : Expression.Alike R e f) :
    Fragment.Alike R (e.fragment s) (f.fragment s) :=
  (h.forms s hnull).positive

end RecordSql
