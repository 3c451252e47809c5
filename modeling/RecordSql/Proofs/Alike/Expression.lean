/-
  RecordSql.Proofs.Alike.Expression

  Arguments and expressions of two runs that differ in scalars only
  (`Arg.Alike`, `Expression.Alike`), and what follows for the fragments they
  are written as.

  Whether a branch of the renderer is taken depends on the shape of the
  arguments and on which scalars are null.  The relation keeps the shape, and
  with `KeepsNull` it keeps what is null; so both runs take the same branches,
  and what they write is alike.  Here are one lemma for each test of the
  renderer and one for each function that puts the fragments of arguments
  together; `Forms` has the induction over expressions.
-/

import RecordSql.Proofs.Alike.Fragment

namespace RecordSql

/-! ## The relation -/

/-- Scalars are null in both runs or in neither. -/
def KeepsNull (R : Value → Value → Prop) : Prop := ∀ v w, R v w → v.isNull = w.isNull

mutual
/-- Arguments of two runs: the same but for their scalars, which are related by `R`. -/
inductive Arg.Alike (R : Value → Value → Prop) : Arg → Arg → Prop where
  | value {v w : Value} : R v w → Arg.Alike R (.value v) (.value w)
  | list {as bs : List Arg} : List.Forall₂ (Arg.Alike R) as bs → Arg.Alike R (.list as) (.list bs)
  | column (c : Column) : Arg.Alike R (.column c) (.column c)
  | table (t : Table) : Arg.Alike R (.table t) (.table t)
  | expr {e f : Expression} : Expression.Alike R e f → Arg.Alike R (.expr e) (.expr f)
  | named (name : String) {a b : Arg} :
      Arg.Alike R a b → Arg.Alike R (.named name a) (.named name b)
  | map {as bs : List (String × Arg)} :
      List.Forall₂ (Arg.AlikeEntry R) as bs → Arg.Alike R (.map as) (.map bs)

/-- Arguments by the same name. -/
inductive Arg.AlikeEntry (R : Value → Value → Prop) : String × Arg → String × Arg → Prop where
  | mk (name : String) {a b : Arg} : Arg.Alike R a b → Arg.AlikeEntry R (name, a) (name, b)

/-- Branches with the same texts. -/
inductive Branch.Alike (R : Value → Value → Prop) : Branch → Branch → Prop where
  | mk (condition result : String) {as bs : List Arg} :
      List.Forall₂ (Arg.Alike R) as bs →
        Branch.Alike R (.mk condition result as) (.mk condition result bs)

/-- Expressions of two runs: the same but for the scalars in their arguments. -/
inductive Expression.Alike (R : Value → Value → Prop) : Expression → Expression → Prop where
  | compare (op : Comparison) (c : Column) {a b : Arg} :
      Arg.Alike R a b → Expression.Alike R (.compare op c a) (.compare op c b)
  | member (c : Column) {as bs : List Arg} :
      List.Forall₂ (Arg.Alike R) as bs → Expression.Alike R (.member c as) (.member c bs)
  | raw (sql : String) {as bs : List Arg} (spread : Bool) :
      List.Forall₂ (Arg.Alike R) as bs →
        Expression.Alike R (.raw sql as spread) (.raw sql bs spread)
  | named (sql : String) {as bs : List Arg} :
      List.Forall₂ (Arg.Alike R) as bs → Expression.Alike R (.named sql as) (.named sql bs)
  | and {es fs : List Expression} :
      List.Forall₂ (Expression.Alike R) es fs → Expression.Alike R (.and es) (.and fs)
  | or {es fs : List Expression} :
      List.Forall₂ (Expression.Alike R) es fs → Expression.Alike R (.or es) (.or fs)
  | not {es fs : List Expression} :
      List.Forall₂ (Expression.Alike R) es fs → Expression.Alike R (.not es) (.not fs)
  | case {bs cs : List Branch} :
      List.Forall₂ (Branch.Alike R) bs cs → Expression.Alike R (.case bs none) (.case cs none)
  | caseElse {bs cs : List Branch} (result : String) {as as' : List Arg} :
      List.Forall₂ (Branch.Alike R) bs cs → List.Forall₂ (Arg.Alike R) as as' →
        Expression.Alike R (.case bs (some (result, as))) (.case cs (some (result, as')))
  | comma {es fs : List Expression} :
      List.Forall₂ (Expression.Alike R) es fs → Expression.Alike R (.comma es) (.comma fs)
end

/-! ## What the renderer looks at is the same -/

section Shape

variable {α : Type} {r : α → α → Prop}

theorem isEmpty_eq_of_forall₂ {as bs : List α} (h : List.Forall₂ r as bs) :
    as.isEmpty = bs.isEmpty := by
  cases h <;> rfl

theorem all_eq_of_forall₂ {p : α → Bool} (hp : ∀ a b, r a b → p a = p b) {as bs : List α}
    (h : List.Forall₂ r as bs) : as.all p = bs.all p := by
  induction h with
  | nil => rfl
  | cons hab _ ih => rw [List.all_cons, List.all_cons, hp _ _ hab, ih]

theorem any_eq_of_forall₂ {p : α → Bool} (hp : ∀ a b, r a b → p a = p b) {as bs : List α}
    (h : List.Forall₂ r as bs) : as.any p = bs.any p := by
  induction h with
  | nil => rfl
  | cons hab _ ih => rw [List.any_cons, List.any_cons, hp _ _ hab, ih]

theorem filter_forall₂ {p : α → Bool} (hp : ∀ a b, r a b → p a = p b) {as bs : List α}
    (h : List.Forall₂ r as bs) : List.Forall₂ r (as.filter p) (bs.filter p) :=
  List.rel_filter (fun a b hab => by show p a = true ↔ p b = true; rw [hp a b hab]) h

/-- Entries under the same names: what is found under a name is related. -/
theorem lookup_forall₂ {entries entries' : List (String × α)}
    (h : List.Forall₂ (fun p q => p.1 = q.1 ∧ r p.2 q.2) entries entries') (name : String) :
    Option.Rel r (entries.lookup name) (entries'.lookup name) := by
  induction h with
  | nil => exact .none
  | @cons p q _ _ hpq _ ih =>
    obtain ⟨key, a⟩ := p
    obtain ⟨key', b⟩ := q
    obtain ⟨hkey, hab⟩ := hpq
    have hkey : key = key' := hkey
    rw [← hkey, List.lookup_cons, List.lookup_cons]
    split
    · exact .some hab
    · exact ih

end Shape

variable {R : Value → Value → Prop}

theorem Arg.Alike.isNull (hnull : KeepsNull R) {a b : Arg} (h : Arg.Alike R a b) :
    a.isNull = b.isNull := by
  cases h with
  | value hv => exact hnull _ _ hv
  | _ => rfl

theorem Arg.Alike.isList {a b : Arg} (h : Arg.Alike R a b) : a.isList = b.isList := by
  cases h <;> rfl

/-- A list is all scalars in both runs or in neither. -/
theorem Arg.values?_alike {as bs : List Arg} (h : List.Forall₂ (Arg.Alike R) as bs) :
    Option.Rel (List.Forall₂ R) (Arg.values? as) (Arg.values? bs) := by
  induction h with
  | nil => exact Option.Rel.some List.Forall₂.nil
  | @cons a b as bs hab _ ih =>
    cases hab with
    | value hv =>
      rw [Arg.values?, Arg.values?]
      generalize Arg.values? as = vs, Arg.values? bs = ws at ih
      cases ih with
      | none => exact Option.Rel.none
      | some hvs => exact Option.Rel.some (List.Forall₂.cons hv hvs)
    | _ => exact Option.Rel.none

theorem Expression.Alike.isNegatable {e f : Expression} (h : Expression.Alike R e f) :
    e.isNegatable = f.isNegatable := by
  cases h <;> rfl

theorem Expression.Alike.isLoneOr {e f : Expression} (h : Expression.Alike R e f) :
    e.isLoneOr = f.isLoneOr := by
  cases h with
  | or hs =>
    cases hs with
    | nil => rfl
    | cons _ hrest => cases hrest <;> rfl
  | _ => rfl

theorem Expression.all_isNegatable_alike {es fs : List Expression}
    (h : List.Forall₂ (Expression.Alike R) es fs) :
    es.all isNegatable = fs.all isNegatable :=
  all_eq_of_forall₂ (fun _ _ hef => hef.isNegatable) h

mutual
theorem Expression.Alike.isEmpty {e f : Expression} :
    Expression.Alike R e f → e.isEmpty = f.isEmpty
  | .compare .. => rfl
  | .member .. => rfl
  | .raw .. => rfl
  | .named .. => rfl
  | .and hs => Expression.allEmpty_alike hs
  | .or hs => Expression.allEmpty_alike hs
  | .not hs => by
    rw [Expression.isEmpty, Expression.isEmpty, Expression.all_isNegatable_alike hs,
      Expression.allEmpty_alike hs, Expression.allEmptyNegation_alike hs]
  | .case _ => rfl
  | .caseElse .. => rfl
  | .comma hs => Expression.allEmpty_alike hs

theorem Expression.Alike.isEmptyNegation {e f : Expression} :
    Expression.Alike R e f → e.isEmptyNegation = f.isEmptyNegation
  | .compare .. => rfl
  | .member _ hs => isEmpty_eq_of_forall₂ hs
  | .raw .. => rfl
  | .named .. => rfl
  | .and hs => Expression.allEmpty_alike hs
  | .or hs => Expression.allEmpty_alike hs
  | .not hs => Expression.allEmpty_alike hs
  | .case _ => rfl
  | .caseElse .. => rfl
  | .comma hs => Expression.allEmpty_alike hs

theorem Expression.allEmpty_alike {es fs : List Expression} :
    List.Forall₂ (Expression.Alike R) es fs →
      Expression.allEmpty es = Expression.allEmpty fs
  | .nil => rfl
  | .cons h hs => by
    rw [Expression.allEmpty, Expression.allEmpty, Expression.Alike.isEmpty h,
      Expression.allEmpty_alike hs]

theorem Expression.allEmptyNegation_alike {es fs : List Expression} :
    List.Forall₂ (Expression.Alike R) es fs →
      Expression.allEmptyNegation es = Expression.allEmptyNegation fs
  | .nil => rfl
  | .cons h hs => by
    rw [Expression.allEmptyNegation, Expression.allEmptyNegation,
      Expression.Alike.isEmptyNegation h, Expression.allEmptyNegation_alike hs]
end

/-! ## Arguments as they are written -/

/-- Fragments for the same name. -/
def AlikeNamed (R : Value → Value → Prop) (p q : String × Fragment) : Prop :=
  p.1 = q.1 ∧ Fragment.Alike R p.2 q.2

/-- Arguments as two runs write them. -/
structure Slot.Alike (R : Value → Value → Prop) (p q : Slot) : Prop where
  whole : Fragment.Alike R p.whole q.whole
  items : Option.Rel (List.Forall₂ (Fragment.Alike R)) p.items q.items
  entries : List.Forall₂ (AlikeNamed R) p.entries q.entries

theorem Slot.Alike.placed {p q : Slot} (h : Slot.Alike R p q) (spread : Bool) :
    Fragment.Alike R (p.placed spread) (q.placed spread) := by
  obtain ⟨whole, items, entries⟩ := p
  obtain ⟨whole', items', entries'⟩ := q
  cases spread with
  | false => exact h.whole
  | true =>
    cases h.items with
    | none => exact h.whole
    | some hs =>
      cases hs with
      -- Null is bound for a list without items, whatever the scalars are.
      | nil => exact .bound .noItems .nil
      | cons hf hrest => exact .joined "," (List.Forall₂.cons hf hrest)

theorem Slot.map_whole_alike {slots slots' : List Slot}
    (h : List.Forall₂ (Slot.Alike R) slots slots') :
    List.Forall₂ (Fragment.Alike R) (slots.map (·.whole)) (slots'.map (·.whole)) :=
  List.rel_map (fun _ _ hs => hs.whole) h

theorem Slot.list_alike {slots slots' : List Slot}
    (h : List.Forall₂ (Slot.Alike R) slots slots') :
    Fragment.Alike R (Slot.list slots) (Slot.list slots') :=
  .joined "," (Slot.map_whole_alike h)

theorem amongFragment_alike (isIn : Bool) {fs gs : List Fragment}
    (h : List.Forall₂ (Fragment.Alike R) fs gs) :
    Fragment.Alike R (amongFragment isIn fs) (amongFragment isIn gs) := by
  rw [amongFragment, amongFragment, isEmpty_eq_of_forall₂ h]
  split
  · exact .text _ .nil
  · exact .enclosed _ ")" (.joined "," h)

theorem comparisonFragment_alike (op : Comparison) (negated isNull : Bool) {p q : Slot}
    (h : Slot.Alike R p q) :
    Fragment.Alike R (comparisonFragment op negated isNull p)
      (comparisonFragment op negated isNull q) := by
  obtain ⟨whole, items, entries⟩ := p
  obtain ⟨whole', items', entries'⟩ := q
  have hwhole := h.whole
  rw [comparisonFragment, comparisonFragment]
  cases op.wantsEqual? with
  | none => exact .text _ hwhole
  | some wanted =>
    cases h.items with
    | some hs => exact amongFragment_alike _ hs
    | none =>
      cases isNull with
      | true => exact .text _ .nil
      | false => exact .text _ hwhole

theorem memberFragment_alike {column column' : Fragment} (hc : Fragment.Alike R column column')
    (negated : Bool) {as bs : List Arg} (has : List.Forall₂ (Arg.Alike R) as bs)
    {slots slots' : List Slot} (h : List.Forall₂ (Slot.Alike R) slots slots') :
    Fragment.Alike R (memberFragment column negated as slots)
      (memberFragment column' negated bs slots') := by
  have hmany := hc.append (amongFragment_alike (!negated) (Slot.map_whole_alike h))
  -- One argument is compared by equality; none and several are tests of membership.
  cases has with
  | nil =>
    cases negated with
    | false => exact hc.append (amongFragment_alike true .nil)
    | true => exact .nil
  | @cons a b as bs hab hrest =>
    cases hrest with
    | cons _ _ => exact hmany
    | nil =>
      cases h with
      | nil => exact hmany
      | cons hslot hslots =>
        cases hslots with
        | cons _ _ => exact hmany
        | nil =>
          rw [memberFragment, memberFragment, hab.isList]
          split
          · exact hc.append (amongFragment_alike _ (.cons hslot.whole .nil))
          · exact hc.append (.text _ hslot.whole)

/-! ## Raw SQL -/

theorem fillMarks_alike (spread afterParen : Bool) {slots slots' : List Slot}
    (h : List.Forall₂ (Slot.Alike R) slots slots') (cs : List Char) :
    Fragment.Alike R (fillMarks spread afterParen slots cs)
      (fillMarks spread afterParen slots' cs) := by
  induction cs generalizing afterParen slots slots' with
  | nil => exact .nil
  | cons c cs ih =>
    cases h with
    -- Without arguments left the rest stays as it is.
    | nil => exact .text _ .nil
    | cons hslot hrest =>
      rw [fillMarks, fillMarks]
      split
      · exact (hslot.placed _).append (ih afterParen hrest)
      · exact .text _ (ih _ (.cons hslot hrest))

theorem namedFragment_alike {entries entries' : List (String × Fragment)}
    (h : List.Forall₂ (AlikeNamed R) entries entries') (reversed : List Char) :
    Fragment.Alike R (namedFragment entries reversed) (namedFragment entries' reversed) := by
  have hlookup := lookup_forall₂ h (String.ofList reversed.reverse)
  rw [namedFragment, namedFragment]
  generalize entries.lookup _ = f, entries'.lookup _ = g at hlookup
  cases hlookup with
  | none => exact .text _ .nil
  | some hf => exact hf

theorem pendingName_alike {entries entries' : List (String × Fragment)}
    (h : List.Forall₂ (AlikeNamed R) entries entries') (name : Option (List Char)) :
    Fragment.Alike R ((name.map (namedFragment entries)).getD [])
      ((name.map (namedFragment entries')).getD []) := by
  cases name with
  | none => exact .nil
  | some reversed => exact namedFragment_alike h reversed

theorem fillNames_alike {entries entries' : List (String × Fragment)}
    (he : List.Forall₂ (AlikeNamed R) entries entries') (name : Option (List Char))
    (afterParen : Bool) {slots slots' : List Slot}
    (h : List.Forall₂ (Slot.Alike R) slots slots') (cs : List Char) :
    Fragment.Alike R (fillNames entries name afterParen slots cs)
      (fillNames entries' name afterParen slots' cs) := by
  induction cs generalizing name afterParen slots slots' with
  | nil => exact pendingName_alike he name
  | cons c cs ih =>
    simp only [fillNames]
    -- A name starts, or a name ends, or the character is one of a name or of the text.
    split
    · exact ih _ _ h
    · split
      · exact (pendingName_alike he name).append (.text _ (ih _ _ h))
      · cases h with
        | nil =>
          cases name with
          | none => exact .text _ (ih _ _ .nil)
          | some reversed => exact ih _ _ .nil
        | cons hslot hrest =>
          by_cases hc : (c == '?') = true
          · simp only [hc, if_true]
            exact (hslot.placed _).append (ih _ _ hrest)
          · simp only [hc]
            cases name with
            | none => exact .text _ (ih _ _ (.cons hslot hrest))
            | some reversed => exact ih _ _ (.cons hslot hrest)

end RecordSql
