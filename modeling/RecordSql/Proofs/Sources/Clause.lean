/-
  RecordSql.Proofs.Sources.Clause

  What a clause is written from.  The body of a clause is drawn from the columns,
  tables, numbers and expressions in it (`Clause.Body.sources`), and a clause from
  its keyword and the fragments around the body besides.

  Two bodies name columns that they are not given: a selection that leaves some
  out has all columns of the schema to choose from, and a conflict in which every
  column is updated sets each to its value in the row that could not be inserted.
-/

import RecordSql.Proofs.ConditionOrder
import RecordSql.Proofs.Sources.Expression

namespace RecordSql

section Clauses

variable (s : Scope)

/-! ## What clauses are written from -/

/-- What the conditions of a clause are written from. -/
def Where.sources (w : Where) : List Source := Expression.allSources s w.conditions

def GroupBy.sources (g : GroupBy) : List Source :=
  g.columns.flatMap (Column.sources s) ++ Expression.allSources s g.having

/-- What a selection that leaves columns out has to choose from. -/
def Select.schemaSources (omits : List String) : List Source :=
  if omits.isEmpty then []
  else .table :: (s.schema.toList.flatMap (·.dbNames)).map .text

def Select.sources (c : Select) : List Source :=
  c.expression.toList.flatMap (Expression.sources s) ++ c.columns.flatMap (Column.sources s)
    ++ Select.schemaSources s c.omits

def Returning.sources (r : Returning) : List Source := r.columns.flatMap (Column.sources s)

def AsOfSystemTime.sources (a : AsOfSystemTime) : List Source :=
  a.raw.toList.map .text ++ a.timestamp.toList.map .time

def Join.sources (j : Join) : List Source :=
  j.expression.toList.flatMap (Expression.sources s) ++ j.table.sources s ++ j.on.sources s
    ++ j.sharedColumns.map .text

def From.sources (f : From) : List Source :=
  (if f.tables.isEmpty then [.table] else f.tables.flatMap (Table.sources s))
    ++ f.joins.flatMap (Join.sources s) ++ f.asOf.toList.flatMap AsOfSystemTime.sources

def OrderBy.sources (o : OrderBy) : List Source :=
  o.expression.toList.flatMap (Expression.sources s) ++ o.columns.flatMap (·.column.sources s)

/-- The limit, the greatest limit of the dialect, and the offset. -/
def Limit.sources (l : Limit) : List Source :=
  l.limit.toList.map .number ++ s.dialect.maxLimit.toList.map (fun n => .number n)
    ++ [.number l.offset]

def Target.sources (t : Target) : List Source :=
  .text t.modifier :: (t.table.getD .current).sources s

def Values.sources (v : Values) : List Source :=
  v.columns.flatMap (Column.sources s) ++ v.rows.flatMap (Arg.allSources s)

/-- The assignments; without any the primary key is set to itself. -/
def Assignments.sources (a : Assignments) : List Source :=
  if a.list.isEmpty then Column.primaryKey.sources s
  else a.list.flatMap fun x => x.column.sources s ++ x.value.sources s

def Delete.sources (d : Delete) : List Source := [.text d.modifier]

def OnConflict.sources (c : OnConflict) : List Source :=
  c.constraint.toList.map .text ++ c.columns.flatMap (Column.sources s)
    ++ c.targetCondition.sources s ++ (c.assignments s).sources s ++ c.condition.sources s

def Locking.sources (l : Locking) : List Source := l.table.toList.flatMap (Table.sources s)

def Cte.sources (c : Cte) : List Source :=
  .text c.name :: (c.columns.map fun column => .text (Text.trim column)) ++ c.body.sources s

def With.sources (w : With) : List Source :=
  w.expression.toList.flatMap (Expression.sources s) ++ w.ctes.flatMap (Cte.sources s)

namespace Clause

/-- What the body of a clause is written from. -/
def Body.sources : Body → List Source
  | .select b => b.sources s
  | .fromTables b => b.sources s
  | .conditions b => b.sources s
  | .groupBy b => b.sources s
  | .orderBy b => b.sources s
  | .limit b => b.sources s
  | .insert b => b.sources s
  | .values b => b.sources s
  | .update b => b.sources s
  | .set b => b.sources s
  | .delete b => b.sources
  | .returning b => b.sources s
  | .onConflict b => b.sources s
  | .locking b => b.sources s
  | .queries b => b.sources s
  | .asOfSystemTime b => b.sources
  | .custom _ b => b.sources s

/-- What a clause is written from: its keyword, its body, and what stands around them. -/
def Parts.sources (p : Parts) : List Source :=
  .text p.name :: p.body.toList.flatMap (Body.sources s)
    ++ (p.before.toList ++ p.afterName.toList ++ p.after.toList).flatMap (Expression.sources s)

end Clause

end Clauses

/-! ## Lists of columns and conditions -/

section Lists

variable {s : Scope} {d : Dialect} {sources : List Source}

theorem drawnFrom_columnList (columns : List Column) :
    (columnList s columns).DrawnFrom s.dialect (columns.flatMap (Column.sources s)) := by
  refine .joined (by decide) fun f hf => ?_
  obtain ⟨c, hc, rfl⟩ := List.mem_map.mp hf
  exact .flatMap hc c.drawnFrom

theorem drawnFrom_identList {idents : List String} (h : ∀ i ∈ idents, .text i ∈ sources) :
    (identList s idents).DrawnFrom s.dialect sources := by
  refine .joined (by decide) fun f hf => ?_
  obtain ⟨i, hi, rfl⟩ := List.mem_map.mp hf
  exact .singleton (Scope.drawnFrom_quoted (h i hi))

theorem drawnFrom_argList (args : List Arg) :
    (argList s args).DrawnFrom s.dialect (Arg.allSources s args) :=
  .joined (by decide) (Slot.drawnFrom_wholes (Arg.drawnFrom_slots s args))

theorem drawnFrom_spacedText {text : String} (h : .text text ∈ sources) :
    (spacedText text).DrawnFrom d sources := by
  rw [spacedText]
  split
  · exact .nil
  · exact .singleton (.append (.verbatim h) (.word (by decide)))

theorem Expression.drawnFrom (e : Expression) :
    (e.fragment s).DrawnFrom s.dialect (e.sources s) := (e.drawnFrom_forms s).positive

theorem Expression.allSources_eq_flatMap (es : List Expression) :
    Expression.allSources s es = es.flatMap (Expression.sources s) := by
  induction es with
  | nil => rfl
  | cons e es ih => rw [Expression.allSources, ih, List.flatMap_cons]

/-- The conditions that are written are among those that were given, or among the children of the only
one. -/
theorem Where.drawnFrom (w : Where) : (w.fragment s).DrawnFrom s.dialect (w.sources s) := by
  refine Child.drawnFrom_connected (by decide) fun c hc => ?_
  rw [Expression.children_eq_map] at hc
  obtain ⟨e, he, rfl⟩ := List.mem_map.mp hc
  have hflattened : e ∈ w.flattened := (reordered_perm w.flattened).mem_iff.mp he
  have hsources : e.sources s ⊆ w.sources s := by
    rw [Where.sources]
    obtain heq | ⟨es, hand, heq, -⟩ := flattened_cases w
    · have hgiven : e ∈ w.conditions := heq ▸ hflattened
      rw [Expression.allSources_eq_flatMap]
      exact fun _ hsource => List.mem_flatMap.mpr ⟨e, hgiven, hsource⟩
    · have hchild : e ∈ es := heq ▸ hflattened
      rw [hand, Expression.allSources_eq_flatMap, List.flatMap_singleton, Expression.sources,
        Expression.allSources_eq_flatMap]
      exact fun _ hsource => List.mem_flatMap.mpr ⟨e, hchild, hsource⟩
  exact (e.drawnFrom_forms s).mono hsources

end Lists

/-! ## Bodies -/

section Bodies

variable {s : Scope}

theorem GroupBy.drawnFrom (g : GroupBy) : (g.fragment s).DrawnFrom s.dialect (g.sources s) := by
  refine (drawnFrom_columnList g.columns).left.append ?_
  split
  · exact .nil
  · refine .word ?_ (Where.drawnFrom ⟨g.having⟩).right
    split <;> decide

/-- The columns that remain are columns of the schema. -/
theorem Select.drawnFrom_remaining {omits : List String} (h : omits.isEmpty = false) :
    (remaining s omits).DrawnFrom s.dialect (schemaSources s omits) := by
  have hcolumn {name : String} (hname : name ∈ s.schema.toList.flatMap (·.dbNames)) :
      ((Column.ofCurrentTable name).fragment s).DrawnFrom s.dialect (schemaSources s omits) := by
    refine (Column.drawnFrom _).mono fun source hsource => ?_
    rw [schemaSources, h, if_neg Bool.false_ne_true]
    rcases List.mem_pair.mp hsource with rfl | rfl
    · exact List.mem_cons_self
    · exact List.mem_cons_of_mem _ (List.mem_map_of_mem hname)
  -- Where no column is left there is a star, which is no name.
  have hnames {names : List String}
      (h : ∀ name ∈ names, name ∈ s.schema.toList.flatMap (·.dbNames)) :
      Fragment.DrawnFrom s.dialect (schemaSources s omits)
        (if names.isEmpty then [.text "*"] else columnList s (names.map Column.ofCurrentTable)) := by
    split
    · exact .word (by decide) .nil
    · refine .joined (by decide) fun f hf => ?_
      rw [List.map_map] at hf
      obtain ⟨name, hname, rfl⟩ := List.mem_map.mp hf
      exact hcolumn (h name hname)
  refine hnames fun name hname => ?_
  cases hschema : s.schema with
  | none =>
    rw [hschema] at hname
    cases hname
  | some layout =>
    rw [hschema] at hname
    rw [Option.toList_some, List.flatMap_singleton]
    exact (List.mem_filter.mp (List.mem_filter.mp hname).1).1

theorem Select.drawnFrom (c : Select) : (c.fragment s).DrawnFrom s.dialect (c.sources s) := by
  rw [fragment]
  refine .append ?_ ?_
  · split
    · exact .word (by decide) .nil
    · exact .nil
  · rw [sources]
    split
    · next e he =>
      rw [he, Option.toList_some, List.flatMap_singleton]
      exact e.drawnFrom.left.left
    · split
      · exact (drawnFrom_columnList _).right.left
      · split
        · next homits => exact (drawnFrom_remaining (by simpa using homits)).right
        · exact .word (by decide) .nil

theorem Returning.drawnFrom (r : Returning) : (r.fragment s).DrawnFrom s.dialect (r.sources s) := by
  rw [fragment]
  split
  · exact .word (by decide) .nil
  · exact drawnFrom_columnList _

theorem AsOfSystemTime.drawnFrom (a : AsOfSystemTime) : a.fragment.DrawnFrom s.dialect a.sources := by
  rw [fragment]
  split
  · next raw hraw =>
    have hgiven : a.raw = some raw := (Option.filter_eq_some_iff.mp hraw).1
    refine .singleton (.append (.word (by decide)) (.verbatim ?_))
    rw [sources, hgiven]
    exact List.mem_append_left _ (List.mem_singleton_self _)
  · next t _ htime =>
    have hquote : "AS OF SYSTEM TIME '" = "AS OF SYSTEM TIME " ++ "'" := rfl
    rw [hquote]
    refine .singleton (.append (.append (.append (.word (by decide)) (.word (by decide))) (.time ?_))
      (.word (by decide)))
    rw [sources, htime]
    exact List.mem_append_right _ (List.mem_singleton_self _)
  · exact .nil

theorem Join.drawnFrom (j : Join) : (j.fragment s).DrawnFrom s.dialect (j.sources s) := by
  rw [fragment, sources]
  split
  · -- An expression is written in place of the whole join.
    next e he =>
    rw [he, Option.toList_some, List.flatMap_singleton]
    exact e.drawnFrom.left.left.left
  · refine .text (.append (.word ?_) (.word (by decide)))
      (.append j.table.drawnFrom.right.left.left ?_)
    · cases j.type <;> decide
    · -- Behind the table stand the conditions, or the columns that both tables have.
      split
      · exact .word (by decide) j.on.drawnFrom.right.left
      · split
        · exact (drawnFrom_identList fun i hi => List.mem_append_right _
            (List.mem_map_of_mem hi)).enclosed (by decide) (by decide)
        · exact .nil

theorem From.drawnFrom (f : From) : (f.fragment s).DrawnFrom s.dialect (f.sources s) := by
  rw [fragment, sources]
  refine .append (.left (.append (.left ?_) (.right ?_))) (.right ?_)
  · split
    · exact .singleton (List.mem_singleton_self _)
    · refine .joined (by decide) fun g hg => ?_
      obtain ⟨t, ht, rfl⟩ := List.mem_map.mp hg
      exact .flatMap ht t.drawnFrom
  · -- Joins are written one behind the other, each with a space before it.
    intro p hp
    obtain ⟨j, hj, hp⟩ := List.mem_flatMap.mp hp
    exact Fragment.DrawnFrom.word (by decide) (.flatMap hj j.drawnFrom) p hp
  · split
    · next a ha =>
      have hgiven : f.asOf = some a := (Option.filter_eq_some_iff.mp ha).1
      rw [hgiven, Option.toList_some, List.flatMap_singleton]
      exact .word (by decide) a.drawnFrom
    · exact .nil

theorem OrderBy.drawnFrom (o : OrderBy) : (o.fragment s).DrawnFrom s.dialect (o.sources s) := by
  rw [fragment, sources]
  split
  · next e he =>
    rw [he, Option.toList_some, List.flatMap_singleton]
    exact e.drawnFrom.left
  · refine .joined (by decide) fun f hf => ?_
    obtain ⟨entry, hentry, rfl⟩ := List.mem_map.mp hf
    refine .append (.right (.flatMap hentry entry.column.drawnFrom)) ?_
    split
    · exact .word (by decide) .nil
    · exact .nil

/-- The number before the offset is the limit, or the greatest one. -/
theorem Limit.drawnFrom (l : Limit) : (l.fragment s).DrawnFrom s.dialect (l.sources s) := by
  have hoffset (opening : String) (h : opening = "" ∨ opening ∈ sqlWords) :
      Fragment.DrawnFrom s.dialect (l.sources s)
        (if 0 < l.offset then [.text (opening ++ "OFFSET " ++ toString l.offset)] else []) := by
    split
    · refine .singleton (.append (.append ?_ (.word (by decide)))
        (.number (List.mem_append_right _ (List.mem_singleton_self _))))
      rcases h with rfl | h
      · exact .empty
      · exact .word h
    · exact .nil
  have hlimit {n : Int} (h : .number n ∈ l.sources s) :
      Piece.DrawnFrom s.dialect (l.sources s) (.text ("LIMIT " ++ toString n)) :=
    .append (.word (by decide)) (.number h)
  rw [fragment]
  cases heffective : l.effective with
  | some n =>
    have hgiven : l.limit = some n := (Option.filter_eq_some_iff.mp heffective).1
    refine .cons (hlimit ?_) (hoffset " " (.inr (by decide)))
    rw [sources, hgiven]
    exact List.mem_append_left _ (List.mem_append_left _ (List.mem_singleton_self _))
  | none =>
    -- An offset needs a limit before it on some dialects, which then give the greatest one.
    by_cases hskip : 0 < l.offset
    · rw [if_pos hskip]
      cases hmax : s.dialect.maxLimit with
      | some n =>
        refine .cons (hlimit (n := n) ?_) (hoffset " " (.inr (by decide)))
        rw [sources, hmax]
        exact List.mem_append_left _ (List.mem_append_right _ (List.mem_singleton_self _))
      | none => exact hoffset "" (.inl rfl)
    · rw [if_neg hskip]
      exact hoffset "" (.inl rfl)

theorem Target.drawnFrom (t : Target) {announce : String} (h : announce = "" ∨ announce ∈ sqlWords) :
    (t.fragment s announce).DrawnFrom s.dialect (t.sources s) := by
  refine (drawnFrom_spacedText List.mem_cons_self).append (.text ?_ ?_)
  · rcases h with rfl | h
    · exact .empty
    · exact .word h
  · exact (Table.drawnFrom _).mono (List.subset_cons_self _ _)

theorem Values.drawnFrom (v : Values) : (v.fragment s).DrawnFrom s.dialect (v.sources s) := by
  rw [fragment, sources]
  split
  · exact .word (by decide) .nil
  · refine ((drawnFrom_columnList _).left.enclosed (by decide) (by decide)).append
      (.joined (by decide) fun f hf => ?_)
    obtain ⟨row, hrow, rfl⟩ := List.mem_map.mp hf
    exact (Fragment.DrawnFrom.right (.flatMap hrow (drawnFrom_argList row))).enclosed (by decide)
      (by decide)

theorem Assignments.drawnFrom (a : Assignments) : (a.fragment s).DrawnFrom s.dialect (a.sources s) := by
  rw [fragment, sources]
  split
  · exact Column.primaryKey.drawnFrom.append (.word (by decide) Column.primaryKey.drawnFrom)
  · refine .joined (by decide) fun f hf => ?_
    obtain ⟨x, hx, rfl⟩ := List.mem_map.mp hf
    exact .flatMap hx
      (x.column.drawnFrom.left.append (.word (by decide) (x.value.drawnFrom_slot s).whole.right))

theorem Delete.drawnFrom (d : Delete) : d.fragment.DrawnFrom s.dialect d.sources := by
  refine .word (by decide) ?_
  split
  · exact .nil
  · exact .singleton (.append (.word (by decide)) (.verbatim (List.mem_singleton_self _)))

theorem OnConflict.drawnFrom_condition (w : Where) :
    (conditionFragment s w).DrawnFrom s.dialect (w.sources s) := by
  rw [conditionFragment]
  split
  · exact .nil
  · exact w.drawnFrom.enclosed (by decide) (by decide)

theorem OnConflict.drawnFrom (c : OnConflict) : (c.fragment s).DrawnFrom s.dialect (c.sources s) := by
  rw [fragment, sources]
  refine .append (.left (.append ?_ ?_)) (drawnFrom_condition c.condition).right
  · -- The target is a constraint by its name, or columns and a condition.
    refine .left ?_
    rw [targetFragment]
    split
    · next name hname =>
      refine .singleton (.append (.append (.word (by decide)) (.verbatim ?_)) (.word (by decide)))
      rw [hname]
      exact List.mem_append_left _ (List.mem_append_left _ (List.mem_singleton_self _))
    · refine .append (.left (.right ?_)) (drawnFrom_condition c.targetCondition).right
      split
      · exact .nil
      · exact (drawnFrom_columnList _).enclosed (by decide) (by decide)
  · split
    · exact .word (by decide) .nil
    · exact .word (by decide) (Assignments.drawnFrom _).right

theorem Locking.drawnFrom (l : Locking) : (l.fragment s).DrawnFrom s.dialect (l.sources s) := by
  rw [fragment, sources]
  refine .word ?_ (.append ?_ ?_)
  · cases l.strength <;> decide
  · split
    · next t ht =>
      rw [ht, Option.toList_some, List.flatMap_singleton]
      exact .word (by decide) t.drawnFrom
    · exact .nil
  · split
    · next w _ =>
      refine .singleton (.append (.word (by decide)) (.word ?_))
      cases w <;> decide
    · exact .nil

theorem Cte.drawnFrom (c : Cte) : (c.fragment s).DrawnFrom s.dialect (c.sources s) := by
  rw [fragment, sources]
  refine .cons (Scope.drawnFrom_quoted List.mem_cons_self) (.append ?_ ?_)
  · split
    · exact .nil
    · refine (drawnFrom_identList fun i hi => ?_).enclosed (by decide) (by decide)
      obtain ⟨column, hcolumn, rfl⟩ := List.mem_map.mp hi
      exact List.mem_cons_of_mem _ (List.mem_append_left _ (List.mem_map.mpr ⟨column, hcolumn, rfl⟩))
  · exact (c.body.drawnFrom.right.mono (List.subset_cons_self _ _)).enclosed (by decide) (by decide)

theorem With.drawnFrom (w : With) : (w.fragment s).DrawnFrom s.dialect (w.sources s) := by
  rw [fragment, sources]
  split
  · next e he =>
    rw [he, Option.toList_some, List.flatMap_singleton]
    exact e.drawnFrom.left
  · refine .append ?_ (.right (.joined (by decide) fun f hf => ?_))
    · split
      · exact .word (by decide) .nil
      · exact .nil
    · obtain ⟨c, hc, rfl⟩ := List.mem_map.mp hf
      exact .flatMap (List.mem_filter.mp hc).1 c.drawnFrom

namespace Clause

/-- The body of a clause is drawn from its sources. -/
theorem Body.drawnFrom (b : Body) : (b.fragment s).DrawnFrom s.dialect (b.sources s) := by
  cases b with
  | select b => exact b.drawnFrom
  | fromTables b => exact b.drawnFrom
  | conditions b => exact b.drawnFrom
  | groupBy b => exact b.drawnFrom
  | orderBy b => exact b.drawnFrom
  | limit b => exact b.drawnFrom
  | insert b => exact b.drawnFrom (.inr (by decide))
  | values b => exact b.drawnFrom
  | update b => exact b.drawnFrom (.inl rfl)
  | set b => exact b.drawnFrom
  | delete b => exact b.drawnFrom
  | returning b => exact b.drawnFrom
  | onConflict b => exact b.drawnFrom
  | locking b => exact b.drawnFrom
  | queries b => exact b.drawnFrom
  | asOfSystemTime b => exact b.drawnFrom
  | custom _ b => exact b.drawnFrom

/-- So is a clause with all that stands around its body. -/
theorem Parts.drawnFrom (p : Parts) : (p.fragment s).DrawnFrom s.dialect (p.sources s) := by
  rw [fragment, sources]
  split
  · exact .nil
  · next body hbody =>
    rw [hbody, Option.toList_some, List.flatMap_singleton]
    have haround {e : Expression}
        (he : e ∈ p.before.toList ++ p.afterName.toList ++ p.after.toList) :
        (e.fragment s).DrawnFrom s.dialect (.text p.name :: body.sources s
          ++ (p.before.toList ++ p.afterName.toList ++ p.after.toList).flatMap (Expression.sources s)) :=
      Fragment.DrawnFrom.right (.flatMap he e.drawnFrom)
    dsimp only
    -- Before the keyword, the keyword, behind it, the body, and behind that.
    refine .append (.append (.append (.append ?_ (drawnFrom_spacedText List.mem_cons_self)) ?_) ?_) ?_
    · split
      · next e he => exact (haround (by simp [he])).append (.word (by decide) .nil)
      · exact .nil
    · split
      · next e he => exact (haround (by simp [he])).append (.word (by decide) .nil)
      · exact .nil
    · exact (body.drawnFrom.mono (List.subset_cons_self _ _)).left
    · split
      · next e he => exact .word (by decide) (haround (by simp [he]))
      · exact .nil

end Clause

end Bodies

end RecordSql
