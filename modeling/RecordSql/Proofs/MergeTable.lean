/-
  RecordSql.Proofs.MergeTable

  What becomes of clauses of one kind that are added one after the other.  For
  each kind the body that they make is given in closed form (`together`), from
  the whole sequence and not by merging its members in turn: which of them
  counts, from where on they count, or that all of them do.  That the closed
  form is the merge of the sequence is proved from its end, since what counts
  is the last.
-/

import Mathlib.Data.List.DropRight
import RecordSql.Proofs.Additions

namespace RecordSql

/-! ## The merge table -/

/-- The last one that selects something, with the `DISTINCT` of those that come after it. -/
def Select.together (first : Select) (later : List Select) : Select :=
  let selecting := (first :: later).rdropWhile (·.selectsNothing)
  let after := (first :: later).rtakeWhile (·.selectsNothing)
  let chosen := selecting.getLast?.getD {}
  { chosen with distinct := chosen.distinct || after.any (·.distinct) }

/-- The last tables that are named, all joins, and the last point in time. -/
def From.together (first : From) (later : List From) : From :=
  { tables := (((first :: later).map (·.tables)).filter (!·.isEmpty)).getLast?.getD []
    joins := (first :: later).flatMap (·.joins)
    asOf := ((first :: later).filterMap (·.asOf)).getLast? }

/-- All conditions. -/
def Where.together (first : Where) (later : List Where) : Where :=
  ⟨(first :: later).flatMap (·.conditions)⟩

/-- All columns, and all conditions on groups. -/
def GroupBy.together (first : GroupBy) (later : List GroupBy) : GroupBy :=
  ⟨(first :: later).flatMap (·.columns), (first :: later).flatMap (·.having)⟩

/-- The last expression, and all entries from the last that reorders on, if one of the later ones
does. -/
def OrderBy.together (first : OrderBy) (later : List OrderBy) : OrderBy :=
  let added := later.flatMap (·.columns)
  { columns := match (added.rdropWhile (!·.reorder)).getLast? with
      | some c => c :: added.rtakeWhile (!·.reorder)
      | none => first.columns ++ added
    expression := ((first :: later).filterMap (·.expression)).getLast? }

/-- The last limit that is not zero, or else zero if one is given; and the last offset that is not
zero, unless it is negative. -/
def Limit.together (first : Limit) (later : List Limit) : Limit :=
  let limits := (first :: later).filterMap (·.limit)
  let offsets := (first :: later).map (·.offset)
  { limit := (limits.filter (· != 0)).getLast?.orElse fun _ => limits.getLast?
    offset := max ((offsets.filter (· != 0)).getLast?.getD 0) 0 }

/-- The last table that is named, and the last word. -/
def Target.together (first : Target) (later : List Target) : Target :=
  { table := ((first :: later).filterMap (·.table)).getLast?
    modifier := (((first :: later).map (·.modifier)).filter (!·.isEmpty)).getLast?.getD "" }

/-- All columns. -/
def Returning.together (first : Returning) (later : List Returning) : Returning :=
  ⟨(first :: later).flatMap (·.columns)⟩

/-- Recursive if one of them is. The last expression, if there is one, stands in the place of all
named queries; those that came before a later expression are gone. -/
def With.together (first : With) (later : List With) : With :=
  { recursive := (first :: later).any (·.recursive)
    ctes :=
      if later.any (·.expression.isSome) then []
      else if first.expression.isSome then first.ctes
      else (first :: later).flatMap (·.ctes)
    expression := ((first :: later).filterMap (·.expression)).getLast? }

/-- Clauses of one kind, at least one. -/
inductive Sequence where
  | select (first : Select) (later : List Select)
  | fromTables (first : From) (later : List From)
  | conditions (first : Where) (later : List Where)
  | groupBy (first : GroupBy) (later : List GroupBy)
  | orderBy (first : OrderBy) (later : List OrderBy)
  | limit (first : Limit) (later : List Limit)
  | insert (first : Target) (later : List Target)
  | values (first : Values) (later : List Values)
  | update (first : Target) (later : List Target)
  | set (first : Assignments) (later : List Assignments)
  | delete (first : Delete) (later : List Delete)
  | returning (first : Returning) (later : List Returning)
  | onConflict (first : OnConflict) (later : List OnConflict)
  | locking (first : Locking) (later : List Locking)
  | queries (first : With) (later : List With)
  | asOfSystemTime (first : AsOfSystemTime) (later : List AsOfSystemTime)
  | custom (name : String) (first : Expression) (later : List Expression)

namespace Sequence

/-- The clauses of the sequence. -/
def bodies : Sequence → List Clause.Body
  | .select first later => (first :: later).map .select
  | .fromTables first later => (first :: later).map .fromTables
  | .conditions first later => (first :: later).map .conditions
  | .groupBy first later => (first :: later).map .groupBy
  | .orderBy first later => (first :: later).map .orderBy
  | .limit first later => (first :: later).map .limit
  | .insert first later => (first :: later).map .insert
  | .values first later => (first :: later).map .values
  | .update first later => (first :: later).map .update
  | .set first later => (first :: later).map .set
  | .delete first later => (first :: later).map .delete
  | .returning first later => (first :: later).map .returning
  | .onConflict first later => (first :: later).map .onConflict
  | .locking first later => (first :: later).map .locking
  | .queries first later => (first :: later).map .queries
  | .asOfSystemTime first later => (first :: later).map .asOfSystemTime
  | .custom name first later => (first :: later).map (.custom name)

/-- The name that they share. -/
def name : Sequence → String
  | .select _ _ => "SELECT"
  | .fromTables _ _ => "FROM"
  | .conditions _ _ => "WHERE"
  | .groupBy _ _ => "GROUP BY"
  | .orderBy _ _ => "ORDER BY"
  | .limit _ _ => "LIMIT"
  | .insert _ _ => "INSERT"
  | .values _ _ => "VALUES"
  | .update _ _ => "UPDATE"
  | .set _ _ => "SET"
  | .delete _ _ => "DELETE"
  | .returning _ _ => "RETURNING"
  | .onConflict _ _ => "ON CONFLICT"
  | .locking _ _ => "FOR"
  | .queries _ _ => "WITH"
  | .asOfSystemTime _ _ => "AS OF SYSTEM TIME"
  | .custom name _ _ => name

/-- The body that they make. Of the kinds that are not merged the last one counts. -/
def merged : Sequence → Clause.Body
  | .select first later => .select (first.together later)
  | .fromTables first later => .fromTables (first.together later)
  | .conditions first later => .conditions (first.together later)
  | .groupBy first later => .groupBy (first.together later)
  | .orderBy first later => .orderBy (first.together later)
  | .limit first later => .limit (first.together later)
  | .insert first later => .insert (first.together later)
  | .values first later => .values (later.getLastD first)
  | .update first later => .update (first.together later)
  | .set first later => .set (later.getLastD first)
  | .delete first later => .delete (later.getLastD first)
  | .returning first later => .returning (first.together later)
  | .onConflict first later => .onConflict (later.getLastD first)
  | .locking first later => .locking (later.getLastD first)
  | .queries first later => .queries (first.together later)
  | .asOfSystemTime first later => .asOfSystemTime (later.getLastD first)
  | .custom name first later => .custom name (later.getLastD first)

/-- The keyword before that body: the name, unless the body writes its keyword itself. A GROUP BY
does so as long as none of the sequence has a column. -/
def keyword : Sequence → String
  | .limit _ _ => ""
  | .values _ _ => ""
  | .delete _ _ => ""
  | .asOfSystemTime _ _ => ""
  | .groupBy first later => if (first :: later).all (·.columns.isEmpty) then "" else "GROUP BY"
  | s => s.name

end Sequence

/-! ## Merging one after the other -/

/-- What holds of the first, and of one more at the end, is what a fold gives. -/
theorem foldl_eq_of_concat {α : Type} {merge : α → α → α} {together : α → List α → α}
    (hfirst : ∀ first, together first [] = first)
    (hlast : ∀ first later c, together first (later ++ [c]) = merge (together first later) c)
    (first : α) (later : List α) : later.foldl merge first = together first later := by
  induction later using List.reverseRecOn with
  | nil => exact (hfirst first).symm
  | append_singleton later c ih => rw [List.foldl_append, ih, hlast]; rfl

theorem Select.foldl_merge (first : Select) (later : List Select) :
    later.foldl merge first = first.together later := by
  refine foldl_eq_of_concat (fun first => ?_) (fun first later c => ?_) first later
  · rw [together, List.rdropWhile_singleton, ← List.nil_append [first]]
    by_cases h : first.selectsNothing = true
    · rw [if_pos h, List.rtakeWhile_concat_pos _ _ _ h]
      -- One that selects nothing has nothing but its DISTINCT.
      obtain ⟨distinct, columns, omits, expression⟩ := first
      simp only [selectsNothing, Bool.and_eq_true, List.isEmpty_iff, Option.isNone_iff_eq_none] at h
      obtain ⟨⟨rfl, rfl⟩, rfl⟩ := h
      simp
    · rw [if_neg h, List.rtakeWhile_concat_neg _ _ _ h]
      simp
  · rw [together, together, ← List.cons_append, merge]
    by_cases h : c.selectsNothing = true
    · rw [if_pos h, List.rdropWhile_concat_pos _ _ _ h, List.rtakeWhile_concat_pos _ _ _ h]
      simp [Bool.or_assoc]
    · rw [if_neg h, List.rdropWhile_concat_neg _ _ _ h, List.rtakeWhile_concat_neg _ _ _ h,
        List.getLast?_concat]
      simp

theorem From.foldl_merge (first : From) (later : List From) :
    later.foldl merge first = first.together later := by
  refine foldl_eq_of_concat (fun first => ?_) (fun first later c => ?_) first later
  · obtain ⟨tables, joins, asOf⟩ := first
    cases tables <;> cases asOf <;> simp [together]
  · rw [together, together, ← List.cons_append, merge]
    obtain ⟨tables, joins, asOf⟩ := c
    cases tables <;> cases asOf <;> simp

theorem Where.foldl_merge (first : Where) (later : List Where) :
    later.foldl merge first = first.together later :=
  foldl_eq_of_concat (fun first => by simp [together])
    (fun first later c => by simp [together, merge]) first later

theorem GroupBy.foldl_merge (first : GroupBy) (later : List GroupBy) :
    later.foldl merge first = first.together later :=
  foldl_eq_of_concat (fun first => by simp [together])
    (fun first later c => by simp [together, merge]) first later

theorem Returning.foldl_merge (first : Returning) (later : List Returning) :
    later.foldl merge first = first.together later :=
  foldl_eq_of_concat (fun first => by simp [together])
    (fun first later c => by simp [together, merge]) first later

theorem OrderBy.fromReorder?_append (cs later : List OrderByColumn) :
    fromReorder? (cs ++ later)
      = (fromReorder? later).orElse fun _ => (fromReorder? cs).map (· ++ later) := by
  induction cs with
  | nil => cases h : fromReorder? later <;> simp [fromReorder?, h]
  | cons c cs ih =>
    rw [List.cons_append, fromReorder?, fromReorder?, ih]
    cases fromReorder? later <;> cases fromReorder? cs <;> cases c.reorder <;> rfl

/-- The entries from the last that reorders on are that entry and those after it. -/
theorem OrderBy.fromReorder?_eq (cs : List OrderByColumn) :
    fromReorder? cs = ((cs.rdropWhile (!·.reorder)).getLast?).map
      (· :: cs.rtakeWhile (!·.reorder)) := by
  induction cs using List.reverseRecOn with
  | nil => rfl
  | append_singleton cs c ih =>
    rw [fromReorder?_append]
    by_cases h : c.reorder = true
    · rw [List.rdropWhile_concat_neg _ cs c (by simp [h]),
        List.rtakeWhile_concat_neg _ cs c (by simp [h]), List.getLast?_concat]
      simp [fromReorder?, h]
    · rw [List.rdropWhile_concat_pos _ cs c (by simp [h]),
        List.rtakeWhile_concat_pos _ cs c (by simp [h]), ih]
      simp [fromReorder?, h, Function.comp_def]

theorem OrderBy.together_columns (first : OrderBy) (later : List OrderBy) :
    (first.together later).columns
      = (fromReorder? (later.flatMap (·.columns))).getD
          (first.columns ++ later.flatMap (·.columns)) := by
  rw [together, fromReorder?_eq]
  cases ((later.flatMap (·.columns)).rdropWhile (!·.reorder)).getLast? <;> rfl

theorem OrderBy.foldl_merge (first : OrderBy) (later : List OrderBy) :
    later.foldl merge first = first.together later := by
  refine foldl_eq_of_concat (fun first => ?_) (fun first later c => ?_) first later
  · obtain ⟨columns, expression⟩ := first
    cases expression <;> simp [together]
  · have hcolumns : (first.together (later ++ [c])).columns
        = ((first.together later).merge c).columns := by
      rw [merge, together_columns, together_columns, List.flatMap_append, List.flatMap_singleton,
        fromReorder?_append]
      cases fromReorder? c.columns <;> cases fromReorder? (later.flatMap (·.columns)) <;> simp
    have hexpression : (first.together (later ++ [c])).expression
        = ((first.together later).merge c).expression := by
      rw [together, together, ← List.cons_append, merge]
      cases h : c.expression <;> simp [h]
    calc first.together (later ++ [c])
        = ⟨(first.together (later ++ [c])).columns, (first.together (later ++ [c])).expression⟩ :=
          rfl
      _ = (first.together later).merge c := by rw [hcolumns, hexpression]

/-- If no limit other than zero is given, the last one is none or zero. -/
theorem Limit.getLast?_of_filter_eq_nil {limits : List Int} (h : limits.filter (· != 0) = []) :
    limits.getLast? = none ∨ limits.getLast? = some 0 := by
  cases hlast : limits.getLast? with
  | none => exact .inl rfl
  | some n =>
    have hzero := List.filter_eq_nil_iff.mp h n (List.mem_of_getLast? hlast)
    rw [bne_iff_ne, ne_eq, not_not] at hzero
    exact .inr (congrArg some hzero)

theorem Limit.together_limit_concat (first : Limit) (later : List Limit) (c : Limit) :
    (first.together (later ++ [c])).limit = ((first.together later).merge c).limit := by
  rw [merge, together, together]
  simp only [← List.cons_append, List.filterMap_append, List.filter_append]
  generalize (first :: later).filterMap (·.limit) = limits
  cases hlimit : c.limit with
  | none => simp [hlimit]
  | some n =>
    by_cases hn : n = 0
    · cases h : (limits.filter (· != 0)).getLast? with
      | none =>
        have hnil := List.getLast?_eq_none_iff.mp h
        obtain hlast | hlast := getLast?_of_filter_eq_nil hnil <;>
          simp only [List.filterMap_cons, List.filterMap_nil, hlimit, hn, hnil, hlast] <;> simp
      | some k => simp [hlimit, hn, h]
    · simp [hlimit, hn]

theorem Limit.together_offset_concat (first : Limit) (later : List Limit) (c : Limit) :
    (first.together (later ++ [c])).offset = ((first.together later).merge c).offset := by
  rw [merge, together, together]
  simp only [← List.cons_append, List.map_append, List.map_singleton, List.filter_append]
  by_cases hc : c.offset = 0
  · simp [hc]
  · simp [hc]

/-- The first is freed of a negative offset, so what is in force is never negative. -/
theorem Limit.foldl_merge (first : Limit) (later : List Limit) :
    later.foldl merge first.normalized = first.together later := by
  induction later using List.reverseRecOn with
  | nil =>
    obtain ⟨limit, offset⟩ := first
    have hlimit : (together ⟨limit, offset⟩ []).limit = limit := by
      cases limit with
      | none => rfl
      | some n => by_cases hn : n = 0 <;> simp [together, hn]
    have hoffset : (together ⟨limit, offset⟩ []).offset = max offset 0 := by
      by_cases hn : offset = 0 <;> simp [together, hn]
    calc normalized ⟨limit, offset⟩
        = ⟨(together ⟨limit, offset⟩ []).limit, (together ⟨limit, offset⟩ []).offset⟩ := by
          rw [hlimit, hoffset, normalized]
      _ = together ⟨limit, offset⟩ [] := rfl
  | append_singleton later c ih =>
    rw [List.foldl_append, ih, List.foldl_cons, List.foldl_nil]
    calc (first.together later).merge c
        = ⟨(first.together (later ++ [c])).limit, (first.together (later ++ [c])).offset⟩ := by
          rw [together_limit_concat, together_offset_concat]
      _ = first.together (later ++ [c]) := rfl

theorem Target.foldl_merge (first : Target) (later : List Target) :
    later.foldl merge first = first.together later := by
  refine foldl_eq_of_concat (fun first => ?_) (fun first later c => ?_) first later
  · obtain ⟨table, modifier⟩ := first
    by_cases h : modifier = "" <;> cases table <;> simp [together, h]
  · rw [together, together, ← List.cons_append, merge]
    obtain ⟨table, modifier⟩ := c
    by_cases h : modifier = "" <;> cases table <;> simp [h]

/-- There is an expression if one of them has one. -/
theorem With.together_expression_isSome (first : With) (later : List With) :
    (first.together later).expression.isSome = (first :: later).any (·.expression.isSome) := by
  rw [together]
  induction first :: later with
  | nil => rfl
  | cons w ws ih => cases h : w.expression <;> simp_all [List.getLast?_cons]

theorem With.foldl_merge (first : With) (later : List With) :
    later.foldl merge first = first.together later := by
  refine foldl_eq_of_concat (fun first => ?_) (fun first later c => ?_) first later
  · obtain ⟨recursive, ctes, expression⟩ := first
    cases expression <;> simp [together]
  · have hheld := together_expression_isSome first later
    rw [merge]
    obtain ⟨recursive, ctes, expression⟩ := c
    cases expression with
    | some e =>
      rw [together, together, ← List.cons_append]
      simp [Bool.or_assoc]
    | none =>
      -- Whether the queries are still there depends on what came before the last one.
      simp only [hheld, List.any_cons, Option.isSome_none]
      cases hlater : later.any (·.expression.isSome) <;>
        cases hfirst : first.expression.isSome <;>
          simp only [together, List.any_append, hlater, hfirst] <;>
            simp [Bool.or_assoc]
      -- Without an expression the merge forgets that there was room for one.
      exact ⟨by simpa using hlater, by simpa using hfirst⟩

/-- Of clauses that are not merged the last one counts. -/
theorem foldl_later {α : Type} (first : α) (later : List α) :
    later.foldl (fun _ c => c) first = later.getLastD first := by
  induction later generalizing first with
  | nil => rfl
  | cons c later ih => rw [List.foldl_cons, ih, List.getLastD_cons]

/-! ## The clause that they are added to -/

namespace Clause

variable {α : Type} {wrap : α → Body} {merge : α → α → α}

/-- Bodies of one kind that are added to a clause with a body of that kind: the merged body and its
keyword are put in, and all else of the clause is kept. -/
theorem foldl_add_of_body (hmerge : ∀ a b, Body.merge (some (wrap a)) (wrap b) = wrap (merge a b))
    (c : Clause) (held : α) (later : List α) :
    (later.map wrap).foldl add { c with name := (wrap held).keyword, body := some (wrap held) }
      = { c with
          name := (wrap (later.foldl merge held)).keyword
          body := some (wrap (later.foldl merge held)) } := by
  induction later generalizing held with
  | nil => rfl
  | cons b later ih =>
    rw [List.map_cons, List.foldl_cons, List.foldl_cons, ← ih (merge held b), add]
    dsimp only
    rw [hmerge]

/-- The first of them starts it, in a clause that has no body. -/
theorem foldl_add (wrap : α → Body) {first start together : α} {later : List α}
    (htogether : later.foldl merge start = together)
    (hstart : Body.merge none (wrap first) = wrap start)
    (hmerge : ∀ a b, Body.merge (some (wrap a)) (wrap b) = wrap (merge a b))
    {c : Clause} (hbody : c.body = none) :
    ((first :: later).map wrap).foldl add c
      = { c with name := (wrap together).keyword, body := some (wrap together) } := by
  rw [← htogether, ← foldl_add_of_body hmerge, List.map_cons, List.foldl_cons, add, hbody, hstart]

end Clause

namespace Sequence

theorem name_of_mem_bodies {s : Sequence} {body : Clause.Body} (h : body ∈ s.bodies) :
    body.name = s.name := by
  cases s <;> (obtain ⟨b, _, rfl⟩ := List.mem_map.mp h; rfl)

theorem bodies_ne_nil (s : Sequence) : s.bodies ≠ [] := by
  cases s <;> exact List.cons_ne_nil _ _

theorem keyword_merged (s : Sequence) : s.merged.keyword = s.keyword := by
  cases s with
  | groupBy first later =>
    have hempty : (first.together later).columns.isEmpty
        = (first :: later).all (·.columns.isEmpty) := by
      rw [GroupBy.together]
      induction first :: later with
      | nil => rfl
      | cons g gs ih =>
        rw [List.flatMap_cons, List.all_cons, ← ih]
        cases g.columns <;> rfl
    rw [merged, keyword, Clause.Body.keyword, hempty]
  | _ => rfl

/-- The clauses of a sequence, added to a clause without a body. -/
theorem foldl_add (s : Sequence) {c : Clause} (hbody : c.body = none) :
    s.bodies.foldl Clause.add c = { c with name := s.keyword, body := some s.merged } := by
  rw [← keyword_merged]
  cases s with
  | select first later =>
    exact Clause.foldl_add .select (Select.foldl_merge first later) rfl (fun _ _ => rfl) hbody
  | fromTables first later =>
    exact Clause.foldl_add .fromTables (From.foldl_merge first later) rfl (fun _ _ => rfl) hbody
  | conditions first later =>
    exact Clause.foldl_add .conditions (Where.foldl_merge first later) rfl (fun _ _ => rfl) hbody
  | groupBy first later =>
    exact Clause.foldl_add .groupBy (GroupBy.foldl_merge first later) rfl (fun _ _ => rfl) hbody
  | orderBy first later =>
    exact Clause.foldl_add .orderBy (OrderBy.foldl_merge first later) rfl (fun _ _ => rfl) hbody
  | limit first later =>
    exact Clause.foldl_add .limit (Limit.foldl_merge first later) rfl (fun _ _ => rfl) hbody
  | insert first later =>
    exact Clause.foldl_add .insert (Target.foldl_merge first later) rfl (fun _ _ => rfl) hbody
  | update first later =>
    exact Clause.foldl_add .update (Target.foldl_merge first later) rfl (fun _ _ => rfl) hbody
  | returning first later =>
    exact Clause.foldl_add .returning (Returning.foldl_merge first later) rfl (fun _ _ => rfl) hbody
  | queries first later =>
    exact Clause.foldl_add .queries (With.foldl_merge first later) rfl (fun _ _ => rfl) hbody
  | values first later =>
    exact Clause.foldl_add .values (foldl_later first later) rfl (fun _ _ => rfl) hbody
  | set first later =>
    exact Clause.foldl_add .set (foldl_later first later) rfl (fun _ _ => rfl) hbody
  | delete first later =>
    exact Clause.foldl_add .delete (foldl_later first later) rfl (fun _ _ => rfl) hbody
  | onConflict first later =>
    exact Clause.foldl_add .onConflict (foldl_later first later) rfl (fun _ _ => rfl) hbody
  | locking first later =>
    exact Clause.foldl_add .locking (foldl_later first later) rfl (fun _ _ => rfl) hbody
  | asOfSystemTime first later =>
    exact Clause.foldl_add .asOfSystemTime (foldl_later first later) rfl (fun _ _ => rfl) hbody
  | custom name first later =>
    exact Clause.foldl_add (.custom name) (foldl_later first later) rfl (fun _ _ => rfl) hbody

/-- A last expression is all that is written of named queries. -/
theorem fragment_merged_queries {first : With} {later : List With} {e : Expression}
    (h : ((first :: later).filterMap (·.expression)).getLast? = some e) (scope : Scope) :
    (queries first later).merged.fragment scope = e.fragment scope := by
  have hexpression : (first.together later).expression = some e := h
  rw [merged, Clause.Body.fragment, With.fragment, hexpression]

end Sequence

namespace Statement

/-- Clauses of one name go into the clause of that name, one after the other. -/
theorem clause?_foldl_addClause (st : Statement) {name : String} {bodies : List Clause.Body}
    (hne : bodies ≠ []) (hname : ∀ body ∈ bodies, body.name = name) :
    (bodies.foldl addClause st).clause? name
      = some (bodies.foldl Clause.add ((st.clause? name).getD {})) := by
  induction bodies generalizing st with
  | nil => exact absurd rfl hne
  | cons body bodies ih =>
    have hadded := clause?_addClause st body name
    rw [if_pos (hname body List.mem_cons_self)] at hadded
    rw [List.foldl_cons, List.foldl_cons]
    cases bodies with
    | nil => exact hadded
    | cons next bodies =>
      rw [ih _ (List.cons_ne_nil _ _) fun b hb => hname b (List.mem_cons_of_mem _ hb), hadded]
      rfl

theorem clause?_foldl_addClause_of_ne (st : Statement) {name : String} {bodies : List Clause.Body}
    (hname : ∀ body ∈ bodies, body.name ≠ name) :
    (bodies.foldl addClause st).clause? name = st.clause? name := by
  induction bodies generalizing st with
  | nil => rfl
  | cons body bodies ih =>
    rw [List.foldl_cons, ih _ fun b hb => hname b (List.mem_cons_of_mem _ hb), clause?_addClause,
      if_neg (hname body List.mem_cons_self)]

/-- Clauses of one kind that are added to a statement without a body for them: the clause has the
body of the merge table and the keyword for it, its fragments and its writer are those that it had,
and the other clauses are untouched. If named queries are given by expressions, the last one is all
that is written of them. -/
theorem merge_table (st : Statement) (s : Sequence)
    (h : (st.clause? s.name).bind (·.body) = none) :
    (s.bodies.foldl addClause st).clause? s.name
        = some { (st.clause? s.name).getD {} with name := s.keyword, body := some s.merged }
      ∧ (∀ other, other ≠ s.name →
          (s.bodies.foldl addClause st).clause? other = st.clause? other)
      ∧ ∀ first later e, s = .queries first later →
          ((first :: later).filterMap (·.expression)).getLast? = some e →
          ∀ scope, s.merged.fragment scope = e.fragment scope := by
  refine ⟨?_, fun other hother => ?_, ?_⟩
  · have hbody : ((st.clause? s.name).getD {}).body = none := by
      cases hheld : st.clause? s.name with
      | none => rfl
      | some c =>
        rw [hheld] at h
        exact h
    rw [clause?_foldl_addClause st s.bodies_ne_nil fun _ hb => Sequence.name_of_mem_bodies hb,
      s.foldl_add hbody]
  · apply clause?_foldl_addClause_of_ne
    intro body hb hname
    exact hother (hname.symm.trans (Sequence.name_of_mem_bodies hb))
  · rintro first later e rfl hlast scope
    exact Sequence.fragment_merged_queries hlast scope

/-- Three orders, the second of which starts over, in a clause that has a hint before it. -/
theorem merge_table_reorder :
    let held : Clause := { name := "ORDER BY", before := some (.sql "/* sorted */" []) }
    let st : Statement := { dialect := .mysql, table := "users", clauses := [("ORDER BY", held)] }
    let entry (name : String) (reorder : Bool) : OrderByColumn := ⟨.named name, false, reorder⟩
    let s : Sequence := .orderBy ⟨[entry "id" true], none⟩
      [⟨[entry "name" false, entry "age" true, entry "role" false], none⟩,
       ⟨[entry "email" false], none⟩]
    (st.clause? s.name).bind (·.body) = none
      ∧ (s.bodies.foldl addClause st).clause? s.name
        = some { held with
            body := some (.orderBy
              ⟨[entry "age" true, entry "role" false, entry "email" false], none⟩) }
      ∧ (s.bodies.foldl addClause st).clause? "WHERE" = none := by
  intro held st entry s
  have hnone : (st.clause? s.name).bind (·.body) = none := rfl
  obtain ⟨hinstalled, hother, -⟩ := merge_table st s hnone
  exact ⟨hnone, hinstalled, hother "WHERE" (by decide)⟩

end Statement

end RecordSql
