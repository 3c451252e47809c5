/-
  RecordSql.Proofs.DanglingKeywords

  Whether anything is written after the keyword of a clause.  A build passes
  over a clause that counts as empty and writes the keyword of any other, so
  the test of emptiness and what is written have to agree on every body that
  additions can make.

  They agree on each kind of body (`Clause.Body.opens`) but for two of them.
  An ORDER BY asks for entries although an expression that stands in their
  place may leave nothing; such a body comes about when an empty expression is
  merged with entries.  And neither ORDER BY nor GROUP BY looks into its
  columns, nothing of which may be written.  These are the ways in which a
  keyword can dangle (`Clause.Body.Dangles`).

  What additions make of a clause is a body and its keyword, and the
  expressions in it are among those that were added (`Clause.Added`).  That is
  what each addition preserves, and what the theorem on all of them rests on.
-/

import RecordSql.Proofs.Additions
import RecordSql.Proofs.ConditionOrder
import RecordSql.Proofs.Dialects
import RecordSql.Proofs.Emptiness

namespace RecordSql

/-! ## Fragments of which no text is written -/

/-- A piece of which no text is written, once the table of the statement has been put in. -/
def Piece.isSilent : Piece → Bool
  | .text s => s.isEmpty
  | .bound _ => false
  | .fault _ => true
  | .currentTable => true

/-- The text grows, unless all pieces are silent. -/
theorem Output.append_sql {d : Dialect} (hd : d.Legible) (o : Output) (f : Fragment) :
    ∃ t, (o.append d f).sql = o.sql ++ t ∧ (t = "" ↔ f.all Piece.isSilent = true) := by
  induction f generalizing o with
  | nil => exact ⟨"", String.append_empty.symm, iff_of_true rfl rfl⟩
  | cons p f ih =>
    obtain ⟨t, hsql, ht⟩ := ih (o.push d p)
    rw [append_cons, hsql, List.all_cons, Bool.and_eq_true, ← ht]
    cases p with
    | text s =>
      refine ⟨s ++ t, String.append_assoc, ?_⟩
      rw [String.append_eq_empty_iff, Piece.isSilent, String.isEmpty_iff]
    | bound v =>
      -- Every placeholder has a text.
      refine ⟨d.placeholder (o.values.length + 1) v ++ t, String.append_assoc, ?_⟩
      rw [String.append_eq_empty_iff]
      exact iff_of_false (fun h => hd.placeholder_ne _ _ h.1) fun h => Bool.noConfusion h.1
    | fault e => exact ⟨t, rfl, (and_iff_right rfl).symm⟩
    | currentTable => exact ⟨t, rfl, (and_iff_right rfl).symm⟩

namespace Statement

variable {st st' : Statement} {f g : Fragment} {s : String}

/-- Writing a fragment leaves the text of a statement as it is. -/
def Silent (st : Statement) (f : Fragment) : Prop := (st.write f).output.sql = st.output.sql

section Legible

variable (hd : st.dialect.Legible)

include hd

theorem silent_iff : st.Silent f ↔ (st.resolved f).all Piece.isSilent = true := by
  obtain ⟨t, hsql, ht⟩ := Output.append_sql hd st.output (st.resolved f)
  have hwritten : (st.write f).output.sql = st.output.sql ++ t := hsql
  rw [← ht, Silent, hwritten, String.append_eq_left_iff]

/-- Writing a fragment adds to the text, unless the fragment is silent. -/
theorem write_sql (f : Fragment) :
    ∃ t, (st.write f).output.sql = st.output.sql ++ t ∧ (t = "" ↔ st.Silent f) := by
  obtain ⟨t, hsql, ht⟩ := Output.append_sql hd st.output (st.resolved f)
  exact ⟨t, hsql, ht.trans (silent_iff hd).symm⟩

theorem SameButOutput.silent_iff (h : SameButOutput st st') : st'.Silent f ↔ st.Silent f := by
  have hd' : st'.dialect.Legible := by
    rw [h.dialect]
    exact hd
  rw [Statement.silent_iff hd', Statement.silent_iff hd, h]
  rfl

theorem SameButClauses.silent_iff (h : SameButClauses st st') : st'.Silent f ↔ st.Silent f := by
  have hd' : st'.dialect.Legible := by
    rw [h]
    exact hd
  rw [Statement.silent_iff hd', Statement.silent_iff hd, h]
  rfl

theorem silent_append : st.Silent (f ++ g) ↔ st.Silent f ∧ st.Silent g := by
  rw [silent_iff hd, silent_iff hd, silent_iff hd, resolved, Fragment.withTable_append, List.all_append,
    Bool.and_eq_true]
  rfl

theorem silent_text_cons : st.Silent (.text s :: f) ↔ s = "" ∧ st.Silent f := by
  have hhead : st.Silent [.text s] ↔ s = "" := by
    rw [silent_iff hd, ← String.isEmpty_iff]
    show (s.isEmpty && true) = true ↔ _
    rw [Bool.and_true]
  rw [← List.singleton_append, silent_append hd, hhead]

theorem not_silent_text_cons (hs : s ≠ "") : ¬ st.Silent (.text s :: f) :=
  fun h => hs ((silent_text_cons hd).mp h).1

theorem silent_of_joined_cons {separator : String} {fs : List Fragment}
    (h : st.Silent (Fragment.joined separator (f :: fs))) : st.Silent f := by
  cases fs with
  | nil => exact h
  | cons g fs => exact ((silent_append hd).mp h).1

/-- Between two fragments or more there is a separator. -/
theorem not_silent_joined {separator : String} {fs : List Fragment} (hsep : separator ≠ "")
    (h : 2 ≤ fs.length) : ¬ st.Silent (Fragment.joined separator fs) := by
  match fs, h with
  | f :: g :: fs, _ =>
    intro hsilent
    exact not_silent_text_cons hd hsep ((silent_append hd).mp hsilent).2

end Legible

theorem silent_nil (st : Statement) : st.Silent [] := rfl

end Statement

/-! ## Expressions and conditions -/

section Conditions

open Where

variable {st : Statement} {e : Expression} {es : List Expression}

/-- Nothing is left of an empty expression, unless it has words of its own. -/
theorem Expression.silent_iff_of_isEmpty (he : e.isEmpty = true) :
    st.Silent (e.fragment st.scope) ↔ ¬ e.Residual := by
  constructor
  · intro hsilent hresidual
    have htext := isText_of_isEmpty st.scope e he
    have hsql : (st.write (e.fragment st.scope)).output.sql
        = st.output.sql ++ (e.fragment st.scope).text := by
      rw [Statement.write, htext.withTable, Output.append_of_isText _ _ htext]
    rw [Statement.Silent, hsql, String.append_eq_left_iff] at hsilent
    exact hresidual.text_ne hsilent
  · intro hnone
    rw [fragment_eq_nil st.scope e he hnone]
    exact st.silent_nil

/-- Some of the conditions are kept, and something is written if it is only one. -/
structure Shows (st : Statement) (es : List Expression) : Prop where
  shown : kept es ≠ []
  lone : ∀ e, kept es = [e] → ¬ st.Silent (e.fragment st.scope)

/-- Several conditions have a connective between them. -/
theorem Shows.not_silent (hd : st.dialect.Legible) (h : Shows st es) :
    ¬ st.Silent (Child.connected " AND " (Expression.children st.scope es)) := by
  have hpresent : Child.present (Expression.children st.scope es)
      = Expression.children st.scope (kept es) := Grouping.present_children_eq (c := .and) st.scope es
  rw [Child.connected, hpresent]
  cases hes : kept es with
  | nil => exact absurd hes h.shown
  | cons e rest =>
    cases rest with
    | nil => exact h.lone e hes
    | cons d ds =>
      intro hsilent
      obtain ⟨-, hrest⟩ := (Statement.silent_append hd).mp hsilent
      rw [Expression.children, Child.continued] at hrest
      exact Statement.not_silent_text_cons hd (by split <;> decide) hrest

/-- The order of the conditions does not matter for that. -/
theorem Shows.reordered (h : Shows st es) : Shows st (reordered es) := by
  have hperm : (kept (Where.reordered es)).Perm (kept es) := (reordered_perm es).filter _
  constructor
  · intro hnone
    rw [hnone] at hperm
    exact h.shown hperm.nil_eq.symm
  · intro e he
    rw [he] at hperm
    exact h.lone e (List.singleton_perm.mp hperm).symm

theorem shows_of_allEmpty (hempty : Expression.allEmpty es = false)
    (hwrites : ∀ e ∈ es, e.isEmpty = false → ¬ st.Silent (e.fragment st.scope)) : Shows st es where
  shown hnone := by
    have hall : Expression.allEmpty es = true := isEmpty_and_iff.mpr hnone
    rw [hall] at hempty
    cases hempty
  lone e he := by
    have hkept : e ∈ kept es := by
      rw [he]
      exact List.mem_singleton_self e
    obtain ⟨hmem, hwritten⟩ := List.mem_filter.mp hkept
    exact hwrites e hmem (by simpa using hwritten)

/-- Neither do the parentheses of a conjunction that stands alone. -/
theorem Shows.of_and (h : Shows st [.and es]) : Shows st es := by
  have hand : (Expression.and es).isEmpty = false := by
    cases hempty : (Expression.and es).isEmpty with
    | false => rfl
    | true => exact absurd (by simp [kept, hempty]) h.shown
  have hkept : kept [Expression.and es] = [.and es] := by simp [kept, hand]
  constructor
  · intro hnone
    rw [isEmpty_and_iff.mpr hnone] at hand
    cases hand
  · intro e he hsilent
    apply h.lone _ hkept
    rw [fragment_and, he, sideBySide_singleton]
    exact hsilent

/-- Conditions that are not all empty write something, if those that are not empty do. -/
theorem Where.not_silent (hd : st.dialect.Legible) {w : Where} (hempty : w.isEmpty = false)
    (hwrites : ∀ e ∈ w.conditions, e.isEmpty = false → ¬ st.Silent (e.fragment st.scope)) :
    ¬ st.Silent (w.fragment st.scope) := by
  have hconditions : Shows st w.conditions := shows_of_allEmpty hempty hwrites
  have hflattened : Shows st w.flattened := by
    obtain heq | ⟨es, hand, heq, -⟩ := flattened_cases w
    · rw [heq]
      exact hconditions
    · rw [heq]
      exact (hand ▸ hconditions).of_and
  exact hflattened.reordered.not_silent hd

end Conditions

/-! ## What stands after a keyword -/

namespace Clause.Body

/-- The text that opens a clause, for the clauses that may be empty: its keyword and a space. A GROUP BY
without columns opens with HAVING, and a LIMIT with the keyword of what it writes first. -/
def opening? (s : Scope) : Body → Option String
  | .conditions _ => some "WHERE "
  | .groupBy b => some (if b.columns.isEmpty then "HAVING " else "GROUP BY ")
  | .orderBy _ => some "ORDER BY "
  | .limit b =>
    some (if b.effective.isSome || s.dialect.maxLimit.isSome then "LIMIT " else "OFFSET ")
  | .queries _ => some "WITH "
  | .asOfSystemTime _ => some "AS OF SYSTEM TIME "
  | .custom name _ => some (if name.isEmpty then "" else name ++ " ")
  | _ => none

/-- The expressions in the body of a clause that may be empty. -/
def expressions : Body → List Expression
  | .conditions b => b.conditions
  | .groupBy b => b.having
  | .orderBy b => b.expression.toList
  | .queries b => b.expression.toList
  | .custom _ e => [e]
  | _ => []

/-- Nothing is written after the keyword of a clause, although the body does not count as empty. -/
inductive Dangles (st : Statement) : Body → Prop
  /-- An expression of which nothing is left stands in the place of entries. -/
  | replaced {columns : List OrderByColumn} {e : Expression} (hcolumns : columns ≠ [])
      (hempty : e.isEmpty = true) (hwords : ¬ e.Residual) : Dangles st (.orderBy ⟨columns, some e⟩)
  /-- Nothing is written of the only entry. -/
  | loneEntry {entry : OrderByColumn} (hasc : entry.desc = false)
      (hsilent : st.Silent (entry.column.fragment st.scope)) :
      Dangles st (.orderBy ⟨[entry], none⟩)
  /-- Nothing is written of the only column. -/
  | loneColumn {column : Column} {having : List Expression}
      (hsilent : st.Silent (column.fragment st.scope))
      (hhaving : Expression.allEmpty having = true) : Dangles st (.groupBy ⟨[column], having⟩)

/-- A body is written with a text that opens it, and nothing comes after that exactly if it dangles. -/
def Opens (st : Statement) (body : Body) (opening : String) : Prop :=
  ∃ rest : Fragment,
    (spacedText body.keyword ++ body.fragment st.scope).WrittenAs (.text opening :: rest)
      ∧ (st.Silent rest ↔ body.Dangles st)

variable {st : Statement}

/-- A body after its keyword. -/
theorem opens_of_keyword {body : Body} (keyword : String) {opening : String}
    (hkeyword : body.keyword = keyword) (hopening : keyword ++ " " = opening) (hne : keyword ≠ "")
    (h : st.Silent (body.fragment st.scope) ↔ body.Dangles st) : Opens st body opening := by
  refine ⟨body.fragment st.scope, ?_, h⟩
  rw [hkeyword, spacedText, if_neg (by simpa using hne), hopening]
  exact .refl _

theorem opens_conditions (hd : st.dialect.Legible) {b : Where} (hempty : b.isEmpty = false)
    (hwrites : ∀ e ∈ b.conditions, e.isEmpty = false → ¬ st.Silent (e.fragment st.scope)) :
    Opens st (.conditions b) "WHERE " :=
  opens_of_keyword "WHERE" rfl rfl (by decide) 
    (iff_of_false (Where.not_silent hd hempty hwrites) nofun)

theorem opens_groupBy (hd : st.dialect.Legible) {b : GroupBy} (hempty : b.isEmpty = false)
    (hwrites : ∀ e ∈ b.having, e.isEmpty = false → ¬ st.Silent (e.fragment st.scope)) :
    Opens st (.groupBy b) (if b.columns.isEmpty then "HAVING " else "GROUP BY ") := by
  match b, hempty, hwrites with
  | ⟨[], having⟩, hempty, hwrites =>
    -- Without columns the keyword is that of the conditions, which are not all empty.
    have hhaving : Expression.allEmpty having = false := hempty
    refine ⟨(Where.mk having).fragment st.scope, ?_,
      iff_of_false (Where.not_silent hd hhaving hwrites) nofun⟩
    show Fragment.WrittenAs ((if Expression.allEmpty having then [] else _) : Fragment) _
    rw [hhaving]
    exact .refl _
  | ⟨[column], having⟩, _, _ =>
    -- The only column may be silent; then it is up to the conditions.
    refine opens_of_keyword "GROUP BY" rfl rfl (by decide) ?_
    show st.Silent (column.fragment st.scope ++ if Expression.allEmpty having then []
      else .text " HAVING " :: (Where.mk having).fragment st.scope) ↔ _
    rw [Statement.silent_append hd]
    cases hhaving : Expression.allEmpty having with
    | true => exact ⟨fun h => .loneColumn h.1 hhaving, fun | .loneColumn h _ => ⟨h, st.silent_nil⟩⟩
    | false =>
      refine iff_of_false (fun h => Statement.not_silent_text_cons hd (by decide) h.2) ?_
      rintro (_ | _ | ⟨-, h⟩)
      rw [hhaving] at h
      cases h
  | ⟨_ :: _ :: _, having⟩, _, _ =>
    -- Between columns there is a comma.
    refine opens_of_keyword "GROUP BY" rfl rfl (by decide) (iff_of_false (fun h => ?_) nofun)
    exact Statement.not_silent_joined hd (by decide) (by simp) ((Statement.silent_append hd).mp h).1

theorem opens_orderBy (hd : st.dialect.Legible) {b : OrderBy} (hempty : b.isEmpty = false)
    (hwrites : ∀ e ∈ b.expression.toList, e.isEmpty = false → ¬ st.Silent (e.fragment st.scope)) :
    Opens st (.orderBy b) "ORDER BY " := by
  refine opens_of_keyword "ORDER BY" rfl rfl (by decide) ?_
  match b, hempty, hwrites with
  | ⟨columns, some e⟩, hempty, hwrites =>
    show st.Silent (e.fragment st.scope) ↔ _
    cases he : e.isEmpty with
    | false =>
      refine iff_of_false (hwrites e (List.mem_singleton_self e) he) ?_
      rintro (⟨-, h, -⟩)
      rw [he] at h
      cases h
    | true =>
      -- The body is not empty, so there are entries that the expression replaces.
      have hcolumns : columns ≠ [] := by
        rintro rfl
        rw [OrderBy.isEmpty, List.isEmpty_nil, Bool.true_and] at hempty
        exact Bool.false_ne_true (hempty.symm.trans he)
      rw [Expression.silent_iff_of_isEmpty he]
      exact ⟨fun h => .replaced hcolumns he h, fun | .replaced _ _ h => h⟩
  | ⟨[], none⟩, hempty, _ => cases hempty
  | ⟨[entry], none⟩, _, _ =>
    show st.Silent (entry.column.fragment st.scope ++ (if entry.desc then [.text " DESC"] else []))
      ↔ _
    rw [Statement.silent_append hd]
    cases hdesc : entry.desc with
    | false => exact ⟨fun h => .loneEntry hdesc h.1, fun | .loneEntry _ h => ⟨h, st.silent_nil⟩⟩
    | true =>
      refine iff_of_false (fun h => Statement.not_silent_text_cons hd (by decide) h.2) ?_
      rintro (_ | ⟨h, -⟩)
      rw [hdesc] at h
      cases h
  | ⟨_ :: _ :: _, none⟩, _, _ =>
    exact iff_of_false (Statement.not_silent_joined hd (by decide) (by simp)) nofun

/-- A body that begins with its keyword and goes on. -/
theorem opens_of_text (hd : st.dialect.Legible) {body : Body} {opening text : String} {more : Fragment}
    (hkeyword : body.keyword = "") (hfragment : body.fragment st.scope = .text (opening ++ text) :: more)
    (htext : text ≠ "") (h : ¬ body.Dangles st) : Opens st body opening := by
  refine ⟨.text text :: more, ?_, iff_of_false (Statement.not_silent_text_cons hd htext) h⟩
  rw [hkeyword, hfragment]
  exact (Fragment.writtenAs_text_append opening text).append (.refl more)

theorem opens_limit (hd : st.dialect.Legible) {b : Limit} (hempty : b.isEmpty = false) :
    Opens st (.limit b)
      (if b.effective.isSome || st.dialect.maxLimit.isSome then "LIMIT " else "OFFSET ") := by
  have hnumber (n : Int) : toString n ≠ "" := by
    cases n with
    | ofNat n => exact Nat.repr_ne_empty
    | negSucc n => exact fun h => absurd (String.append_eq_empty_iff.mp h).1 (by decide)
  cases heffective : b.effective with
  | some n =>
    have hfragment : b.fragment st.scope = .text ("LIMIT " ++ toString n)
        :: if 0 < b.offset then [.text (" " ++ "OFFSET " ++ toString b.offset)] else [] := by
      rw [Limit.fragment, heffective]
      rfl
    exact opens_of_text hd rfl hfragment (hnumber n) nofun
  | none =>
    -- Then there is an offset, before which some dialects want a limit.
    have hoffset : 0 < b.offset := by
      rw [Limit.isEmpty, heffective, Option.isNone_none, Bool.true_and] at hempty
      exact Int.not_le.mp (of_decide_eq_false hempty)
    cases hmax : st.dialect.maxLimit with
    | some m =>
      have hfragment : b.fragment st.scope = .text ("LIMIT " ++ toString m)
          :: [.text (" " ++ "OFFSET " ++ toString b.offset)] := by
        have hmax : st.scope.dialect.maxLimit = some m := hmax
        rw [Limit.fragment, heffective]
        simp only [if_pos hoffset, hmax]
        rfl
      exact opens_of_text hd rfl hfragment Nat.repr_ne_empty nofun
    | none =>
      have hfragment : b.fragment st.scope = .text ("OFFSET " ++ toString b.offset) :: [] := by
        have hmax : st.scope.dialect.maxLimit = none := hmax
        rw [Limit.fragment, heffective]
        simp only [if_pos hoffset, hmax]
        rfl
      exact opens_of_text hd rfl hfragment (hnumber _) nofun

theorem opens_queries (hd : st.dialect.Legible) {b : With} (hempty : b.isEmpty = false)
    (hwrites : ∀ e ∈ b.expression.toList, e.isEmpty = false → ¬ st.Silent (e.fragment st.scope)) :
    Opens st (.queries b) "WITH " := by
  refine opens_of_keyword "WITH" rfl rfl (by decide) (iff_of_false ?_ nofun)
  match b, hempty, hwrites with
  | ⟨_, _, some e⟩, hempty, hwrites => exact hwrites e (List.mem_singleton_self e) hempty
  | ⟨recursive, ctes, none⟩, hempty, _ =>
    -- One of the queries has a name, and the first that has is written first.
    intro hsilent
    have hlist := ((Statement.silent_append hd).mp hsilent).2
    cases hnamed : ctes.filter (!·.name.isEmpty) with
    | nil =>
      rw [List.filter_eq_nil_iff] at hnamed
      have hall : ctes.all (·.name.isEmpty) = true :=
        List.all_eq_true.mpr fun c hc => by simpa using hnamed c hc
      exact Bool.false_ne_true (hempty.symm.trans hall)
    | cons c cs =>
      rw [hnamed, List.map_cons] at hlist
      exact Statement.not_silent_text_cons hd (hd.quoted_ne c.name)
        (Statement.silent_of_joined_cons hd hlist)

theorem opens_asOfSystemTime (hd : st.dialect.Legible) {b : AsOfSystemTime} (hempty : b.isEmpty = false) :
    Opens st (.asOfSystemTime b) "AS OF SYSTEM TIME " := by
  cases hraw : b.raw.filter (!·.isEmpty) with
  | some raw =>
    have hfragment : b.fragment = .text ("AS OF SYSTEM TIME " ++ raw) :: [] := by
      rw [AsOfSystemTime.fragment, hraw]
    have hne : raw ≠ "" := by
      obtain ⟨-, h⟩ := Option.filter_eq_some_iff.mp hraw
      simpa using h
    exact opens_of_text hd rfl hfragment hne nofun
  | none =>
    cases htime : b.timestamp with
    | some t =>
      have hfragment : b.fragment = .text ("AS OF SYSTEM TIME " ++ ("'" ++ t.text 6 ++ "'")) :: [] := by
        rw [AsOfSystemTime.fragment, hraw, htime]
        simp only [← String.append_assoc]
        rfl
      refine opens_of_text hd rfl hfragment (fun h => ?_) nofun
      exact absurd (String.append_eq_empty_iff.mp (String.append_eq_empty_iff.mp h).1).1 (by decide)
    | none =>
      have hall : b.raw.all (·.isEmpty) = true := by
        cases hgiven : b.raw with
        | none => rfl
        | some raw => simpa [hgiven] using hraw
      rw [AsOfSystemTime.isEmpty, htime, hall] at hempty
      cases hempty

theorem opens_custom {name : String} {e : Expression}
    (hwrites : ¬ st.Silent (e.fragment st.scope)) :
    Opens st (.custom name e) (if name.isEmpty then "" else name ++ " ") := by
  by_cases hname : name = ""
  · -- Without a name there is no keyword, and nothing is what opens the clause.
    have hnothing : Fragment.WrittenAs (e.fragment st.scope) (.text "" :: e.fragment st.scope) :=
      fun st' => (Fragment.writtenAs_text_empty.append (.refl (e.fragment st.scope)) st').symm
    rw [hname]
    exact ⟨e.fragment st.scope, hnothing, iff_of_false hwrites nofun⟩
  · rw [if_neg (by simpa using hname)]
    exact opens_of_keyword name rfl rfl hname (iff_of_false hwrites nofun)

/-- Every body that does not count as empty opens its clause, if its expressions write something unless
they are empty. -/
theorem opens (hd : st.dialect.Legible) {body : Body} {opening : String} (hopening : body.opening? st.scope = some opening)
    (hempty : body.isEmpty = false)
    (hwrites : ∀ e ∈ body.expressions, e.isEmpty = false → ¬ st.Silent (e.fragment st.scope)) :
    Opens st body opening := by
  cases body with
  | conditions b => exact Option.some.inj hopening ▸ opens_conditions hd hempty hwrites
  | groupBy b => exact Option.some.inj hopening ▸ opens_groupBy hd hempty hwrites
  | orderBy b => exact Option.some.inj hopening ▸ opens_orderBy hd hempty hwrites
  | limit b => exact Option.some.inj hopening ▸ opens_limit hd hempty
  | queries b => exact Option.some.inj hopening ▸ opens_queries hd hempty hwrites
  | asOfSystemTime b => exact Option.some.inj hopening ▸ opens_asOfSystemTime hd hempty
  | custom name e =>
    exact Option.some.inj hopening ▸ opens_custom (hwrites e (List.mem_singleton_self e) hempty)
  | _ => cases hopening

end Clause.Body

/-! ## Clauses that are added -/

namespace Clause

/-- An expression of a merged body is one of those that were merged. -/
theorem Body.mem_expressions_merge {earlier : Option Body} {later : Body} {e : Expression}
    (h : e ∈ (merge earlier later).expressions) :
    (∃ body, earlier = some body ∧ e ∈ body.expressions) ∨ e ∈ later.expressions := by
  unfold merge at h
  -- In the order of the merge: conditions, groups, entries and named queries have expressions.
  split at h
  case h_3 a b =>
    rcases List.mem_append.mp h with h | h
    · exact .inl ⟨_, rfl, h⟩
    · exact .inr h
  case h_4 a b =>
    rcases List.mem_append.mp h with h | h
    · exact .inl ⟨_, rfl, h⟩
    · exact .inr h
  case h_5 a b =>
    obtain ⟨columns, _ | later⟩ := b
    · exact .inl ⟨_, rfl, h⟩
    · exact .inr h
  case h_10 a b =>
    obtain ⟨recursive, ctes, _ | later⟩ := b
    · obtain ⟨recursive, ctes, _ | earlier⟩ := a
      · cases h
      · exact .inl ⟨_, rfl, h⟩
    · exact .inr h
  case h_12 => exact .inr h
  all_goals cases h

/-- A clause that has a body and its keyword, and nothing besides. -/
def holding (body : Body) : Clause := { name := body.keyword, body := some body }

/-- A clause that nothing but additions has made, of bodies whose expressions have a property. -/
def Added (P : Expression → Prop) (c : Clause) : Prop :=
  ∃ body, c = holding body ∧ ∀ e ∈ body.expressions, P e

variable {P : Expression → Prop}

theorem Added.result {a : Addition} {held : Option Clause} (hheld : ∀ c, held = some c → Added P c)
    (ha : ∀ e ∈ a.body.expressions, P e) {c : Clause} (hc : a.result held = some c) : Added P c := by
  rw [Addition.result] at hc
  split at hc
  · exact hheld c hc
  · obtain rfl := Option.some.inj hc
    cases held with
    | none =>
      refine ⟨Body.merge none a.body, rfl, fun e he => ?_⟩
      obtain ⟨_, ⟨⟩, _⟩ | he := Body.mem_expressions_merge he
      exact ha e he
    | some c =>
      obtain ⟨body, rfl, hbody⟩ := hheld c rfl
      refine ⟨Body.merge (some body) a.body, rfl, fun e he => ?_⟩
      obtain ⟨_, ⟨⟩, he⟩ | he := Body.mem_expressions_merge he
      · exact hbody e he
      · exact ha e he

end Clause

namespace Statement

/-- After additions every clause is one that they have made. -/
theorem added_of_addAll {P : Expression → Prop} (st : Statement) {additions : List Addition}
    (hst : ∀ name c, st.clause? name = some c → c.Added P)
    (hadditions : ∀ a ∈ additions, ∀ e ∈ a.body.expressions, P e) :
    ∀ name c, (st.addAll additions).clause? name = some c → c.Added P := by
  induction additions generalizing st with
  | nil => exact hst
  | cons a additions ih =>
    obtain ⟨ha, hrest⟩ := List.forall_mem_cons.mp hadditions
    refine ih (st.addition a) (fun name c hc => ?_) hrest
    rw [clause?_addition] at hc
    split at hc
    · exact Clause.Added.result (hst name) ha hc
    · exact hst name c hc

/-- The space before a clause, unless it is the first text. -/
def gap (st : Statement) : String := if st.output.sql.isEmpty then "" else " "

theorem gap_writtenAs (st : Statement) :
    Fragment.WrittenAs (if st.output.sql.isEmpty then [] else [.text " "]) [.text st.gap] := by
  rw [gap]
  split
  · exact fun st' => (Fragment.writtenAs_text_empty st').symm
  · exact .refl _

/-- A clause that has a body and its keyword, and nothing besides, is written after its gap. -/
theorem writeClause_holding {st : Statement} {name : String} {body : Clause.Body}
    (hc : st.clause? name = some (.holding body)) (hempty : (Clause.holding body).isEmpty = false)
    (hwriter : st.dialect.clauseWriter name = none) :
    st.writeClause name
      = st.write (.text st.gap :: (spacedText body.keyword ++ body.fragment st.scope)) := by
  have hfragment : st.clauseFragment name (.holding body)
      = spacedText body.keyword ++ body.fragment st.scope := by
    rw [clauseFragment, hwriter]
    -- There is nothing before the keyword, between it and the body, and after the body.
    show (([] ++ spacedText body.keyword ++ []) ++ body.fragment st.scope) ++ [] = _
    rw [List.append_nil, List.append_nil, List.nil_append]
  rw [writeClause_eq, clauseText, hc]
  dsimp only
  rw [hempty, hfragment]
  exact st.gap_writtenAs.append (.refl _) st

/-- No condition is asked for where neither an update nor a deletion is built. -/
theorem build_singleton (st : Statement) {name : String} (hupdate : name ≠ "UPDATE")
    (hdelete : name ≠ "DELETE") : st.build [name] = st.writeClause name := by
  have hnone : [name].find? (fun n => n == "UPDATE" || n == "DELETE") = none := by
    rw [List.find?_eq_none]
    intro n hn
    rw [List.mem_singleton.mp hn, beq_false_of_ne hupdate, beq_false_of_ne hdelete]
    exact Bool.false_ne_true
  have hunchecked : st.checkGlobalUpdate [name] = st := by
    rw [checkGlobalUpdate, hnone]
    exact ite_self st
  rw [build, hunchecked]
  rfl

/-- A clause that additions have made is written with its gap, the text that opens its body, and what
comes after that. -/
theorem writeClause_of_opens {st : Statement} (hd : st.dialect.Legible) {name : String} {body : Clause.Body}
    {opening : String} (hc : st.clause? name = some (.holding body))
    (hempty : (Clause.holding body).isEmpty = false) (hwriter : st.dialect.clauseWriter name = none)
    (hopens : body.Opens st opening) :
    ∃ rest, (st.writeClause name).output.sql = st.output.sql ++ st.gap ++ opening ++ rest
      ∧ (rest = "" ↔ body.Dangles st) := by
  obtain ⟨rest, hbody, hrest⟩ := hopens
  have hwritten : st.writeClause name
      = (st.write [.text st.gap, .text opening]).write rest := by
    rw [writeClause_holding hc hempty hwriter, ← write_append]
    exact (Fragment.WrittenAs.refl [.text st.gap]).append hbody st
  have hsame := SameButOutput.write st [.text st.gap, .text opening]
  have hopened : (st.write [.text st.gap, .text opening]).dialect.Legible := hd
  obtain ⟨t, hsql, ht⟩ := write_sql hopened rest
  refine ⟨t, ?_, ?_⟩
  · rw [hwritten, hsql]
    rfl
  · rw [ht, hsame.silent_iff hd, hrest]

/-- Let clauses be added to a statement that has none, each in any case or only where there is none of
its name, in a dialect that writes something for each identifier and value, and let every expression in them that does not count as empty write something. Consider a
clause of a kind that may be empty, whatever has been written since. If it is empty, it is passed over.
Otherwise, unless the dialect writes it in a way of its own, its keyword is written and then nothing
exactly if it dangles: if an expression of which nothing is left has come in the place of the entries of
an ORDER BY, or if nothing is written of its only entry or of the only column of a GROUP BY. -/
theorem no_keyword_dangles_iff {st : Statement} (hd : st.dialect.Legible) (hnone : st.clauses = [])
    {additions : List Addition}
    (hwrites : ∀ a ∈ additions, ∀ e ∈ a.body.expressions, e.isEmpty = false →
      ¬ st.Silent (e.fragment st.scope))
    {st' : Statement} (hst' : SameButOutput (st.addAll additions) st') {name : String} {c : Clause}
    (hc : st'.clause? name = some c) {body : Clause.Body} (hbody : c.body = some body)
    {opening : String} (hopening : body.opening? st'.scope = some opening) :
    (c.isEmpty = true → st'.writeClause name = st')
      ∧ (c.isEmpty = false → st'.dialect.clauseWriter name = none →
        ∃ rest, (st'.writeClause name).output.sql = st'.output.sql ++ st'.gap ++ opening ++ rest
          ∧ (rest = "" ↔ body.Dangles st')) := by
  constructor
  · intro hempty
    rw [writeClause, hc]
    exact if_pos hempty
  · intro hempty hwriter
    have hadded : c.Added fun e => e.isEmpty = false → ¬ st.Silent (e.fragment st.scope) := by
      refine added_of_addAll st (fun name c hc => ?_) hwrites name c ?_
      · rw [clause?, hnone] at hc
        cases hc
      · rw [clause?, ← hst'.clauses]
        exact hc
    obtain ⟨body', rfl, hexpressions⟩ := hadded
    obtain rfl : body' = body := Option.some.inj hbody
    -- What expressions write does not depend on the clauses and the output.
    have hadditions := sameButClauses_addAll st additions
    have hscope : st'.scope = st.scope := by
      rw [SameButOutput] at hst'
      rw [SameButClauses] at hadditions
      rw [hst', hadditions]
      rfl
    have hadded : (st.addAll additions).dialect.Legible := by
      rw [hadditions]
      exact hd
    have hd' : st'.dialect.Legible := by
      rw [hst'.dialect]
      exact hadded
    have hwrites' : ∀ e ∈ body'.expressions, e.isEmpty = false →
        ¬ st'.Silent (e.fragment st'.scope) := by
      intro e he hwritten
      rw [hst'.silent_iff hadded, hadditions.silent_iff hd, hscope]
      exact hexpressions e he hwritten
    have hbodyWritten : body'.isEmpty = false := hempty
    exact writeClause_of_opens hd' hc hempty hwriter
      (Clause.Body.opens hd' hopening hbodyWritten hwrites')

/-- Users in the order of their numbers, for which an empty text is put later. -/
def emptiedOrder : List Addition :=
  [ ⟨.orderBy { columns := [{ column := .named "id" }] }, false⟩
  , ⟨.orderBy { expression := some (.sql "" []) }, false⟩ ]

/-- The entries stay where they were, so that the clause is not empty, and the text is written in their
place: the keyword dangles. -/
theorem no_keyword_dangles_iff_emptiedOrder :
    let st : Statement := { dialect := .mysql, table := "users" }
    let body : Clause.Body :=
      .orderBy { columns := [{ column := .named "id" }], expression := some (.sql "" []) }
    st.clauses = []
      ∧ (∀ a ∈ emptiedOrder, ∀ e ∈ a.body.expressions, e.isEmpty = true)
      ∧ (st.addAll emptiedOrder).clause? "ORDER BY" = some (.holding body)
      ∧ (Clause.holding body).isEmpty = false ∧ body.Dangles st
      ∧ ((st.addAll emptiedOrder).writeClause "ORDER BY").output.sql = "ORDER BY " := by
  intro st body
  have hempty : ∀ a ∈ emptiedOrder, ∀ e ∈ a.body.expressions, e.isEmpty = true := by
    intro a ha e he
    rcases List.mem_pair.mp ha with rfl | rfl
    · cases he
    · rw [List.mem_singleton.mp he]
      rfl
  have hdangles : body.Dangles st := .replaced (List.cons_ne_nil _ _) rfl nofun
  have hc : (st.addAll emptiedOrder).clause? "ORDER BY" = some (.holding body) := rfl
  have hnone : st.clauses = [] := rfl
  have hd : st.dialect.Legible := (Dialect.usual_of_builtIn (by simp [st, Dialect.builtIn])).legible
  obtain ⟨-, hwritten⟩ := no_keyword_dangles_iff hd hnone
    (fun a ha e he hnot => absurd (hempty a ha e he) (Bool.eq_false_iff.mp hnot))
    (SameButOutput.refl (st.addAll emptiedOrder)) hc rfl rfl
  obtain ⟨rest, hsql, hrest⟩ := hwritten rfl rfl
  refine ⟨hnone, hempty, hc, rfl, hdangles, ?_⟩
  rw [hsql, hrest.mpr (.replaced (List.cons_ne_nil _ _) rfl nofun)]
  decide

end Statement

end RecordSql
