/-
  RecordSql.Proofs.RowLimits

  Limits and offsets, from the clauses that are added to the text that is
  written.  A merge treats what is absent, zero, negative and positive in four
  ways, and the limit otherwise than the offset.  But what is merged is always
  the total of the clauses so far (`Limit.total`): of the limits the last that
  is not zero, of the offsets the same, with none below zero.  One more clause
  makes it the total of one more (`Limit.merge_total`), and the induction over
  the additions carries that.

  What is written of a total is up to the signs.  A limit that is absent or
  negative does not count; the greatest limit of the dialect stands in for it
  where there is an offset (`Limit.number`).
-/

import RecordSql.Proofs.DanglingKeywords
import RecordSql.Proofs.Numerals

namespace RecordSql

/-! ## What several clauses add up to -/

/-- The last number that is not zero; zero if there is none. -/
def lastNonzero (ns : List Int) : Int := (ns.filter (· ≠ 0)).getLastD 0

theorem lastNonzero_concat (ns : List Int) (n : Int) :
    lastNonzero (ns ++ [n]) = if n = 0 then lastNonzero ns else n := by
  rw [lastNonzero, List.filter_append]
  by_cases hn : n = 0
  · rw [if_pos hn, List.filter_cons_of_neg (by simpa using hn), List.filter_nil, List.append_nil,
      lastNonzero]
  · rw [if_neg hn, List.filter_cons_of_pos (by simpa using hn), List.filter_nil,
      List.getLastD_concat]

namespace Limit

/-- The last of the limits that is not zero: zero if all that are given are zero, and none if none is
given. -/
def lastLimit (limits : List Limit) : Option Int :=
  let given := limits.filterMap (·.limit)
  if given.isEmpty then none else some (lastNonzero given)

/-- The last of the offsets that is not zero, or zero in the place of a negative one. -/
def lastOffset (limits : List Limit) : Nat := (lastNonzero (limits.map (·.offset))).toNat

/-- What several clauses add up to. -/
def total (limits : List Limit) : Limit := ⟨lastLimit limits, lastOffset limits⟩

/-- One more limit counts unless it is absent, or zero after another. -/
theorem lastLimit_concat (limits : List Limit) (l : Limit) :
    lastLimit (limits ++ [l])
      = if (lastLimit limits).isSome ∧ (l.limit = none ∨ l.limit = some 0) then lastLimit limits
        else l.limit := by
  have hgiven : (limits ++ [l]).filterMap (·.limit)
      = limits.filterMap (·.limit) ++ l.limit.toList := by
    rw [List.filterMap_append, List.filterMap_cons, List.filterMap_nil]
    cases l.limit <;> rfl
  rw [lastLimit, hgiven, lastLimit]
  cases hlimit : l.limit with
  | none =>
    rw [Option.toList_none, List.append_nil]
    split <;> simp_all
  | some n =>
    have hne : ¬ (limits.filterMap (·.limit) ++ [n]).isEmpty = true := by simp
    rw [Option.toList_some, if_neg hne, lastNonzero_concat]
    by_cases hnone : (limits.filterMap (·.limit)).isEmpty = true
    · -- The first limit is the last one so far, be it zero or not.
      have hnot : ¬ ((none : Option Int).isSome = true ∧ (some n = none ∨ some n = some 0)) :=
        fun h => Bool.noConfusion h.1
      rw [if_pos hnone, List.isEmpty_iff.mp hnone, if_neg hnot]
      split
      · next hzero => rw [hzero]; rfl
      · rfl
    · rw [if_neg hnone]
      by_cases hzero : n = 0
      · rw [if_pos hzero, if_pos ⟨rfl, .inr (congrArg some hzero)⟩]
      · rw [if_neg hzero, if_neg fun h => hzero (Option.some.inj (h.2.resolve_left nofun))]

/-- One more offset counts unless it is zero. -/
theorem lastOffset_concat (limits : List Limit) (l : Limit) :
    (lastOffset (limits ++ [l]) : Int)
      = if l.offset = 0 ∧ (0 : Int) < lastOffset limits then (lastOffset limits : Int)
        else max l.offset 0 := by
  rw [lastOffset, List.map_append, List.map_singleton, lastNonzero_concat, lastOffset]
  split
  · next hzero =>
    split <;> omega
  · next hne =>
    rw [if_neg fun h => hne h.1]
    omega

/-- One more clause makes of the total the total of one more. -/
theorem merge_total (limits : List Limit) (l : Limit) :
    (total limits).merge l = total (limits ++ [l]) := by
  rw [merge, total, total, lastLimit_concat, lastOffset_concat]

/-- The first clause is merged with nothing. -/
theorem normalized_eq_total (l : Limit) : l.normalized = total [l] := by
  have hnothing : l.normalized = (total []).merge l := by
    rw [merge, total, if_neg fun h => Bool.noConfusion h.1, if_neg fun h => Int.lt_irrefl 0 h.2]
    rfl
  rw [hnothing, merge_total, List.nil_append]

end Limit

/-! ## The clause after additions -/

namespace Statement

/-- After the first limit, the clause holds the total of the limits so far. -/
theorem foldl_result_limit (before limits : List Limit) :
    (limits.map fun l => Addition.mk (.limit l) false).foldl (fun held a => a.result held)
        (some (.holding (.limit (Limit.total before))))
      = some (.holding (.limit (Limit.total (before ++ limits)))) := by
  induction limits generalizing before with
  | nil => rw [List.append_nil]; rfl
  | cons l limits ih =>
    have hstep : (Addition.mk (.limit l) false).result
        (some (.holding (.limit (Limit.total before))))
        = some (.holding (.limit (Limit.total (before ++ [l])))) := by
      rw [← Limit.merge_total]
      rfl
    rw [List.map_cons, List.foldl_cons, hstep, ih, List.append_assoc, List.singleton_append]

/-- Limits that are added to a statement that has none, among other clauses, make a clause that holds
their total. -/
theorem clause?_limits {st : Statement} {additions : List Addition} {limits : List Limit}
    (hbare : ∀ c, st.clause? "LIMIT" = some c → c = { name := c.name })
    (hlimits : additions.filter (·.name == "LIMIT") = limits.map fun l => ⟨.limit l, false⟩)
    (hne : limits ≠ []) :
    (st.addAll additions).clause? "LIMIT" = some (.holding (.limit (Limit.total limits))) := by
  obtain ⟨l, rest, rfl⟩ := List.exists_cons_of_ne_nil hne
  have hfirst : (Addition.mk (.limit l) false).result (st.clause? "LIMIT")
      = some (.holding (.limit (Limit.total [l]))) := by
    rw [← Limit.normalized_eq_total]
    cases hheld : st.clause? "LIMIT" with
    | none => rfl
    | some c =>
      rw [hbare c hheld]
      rfl
  rw [clause?_addAll, hlimits, List.map_cons, List.foldl_cons, hfirst, foldl_result_limit]
  rfl

end Statement

/-! ## What is written -/

/-- A natural number has no sign. -/
theorem minus_notMem_toString (n : Nat) : '-' ∉ (toString n).toList := by
  intro hminus
  exact absurd (Text.isDigit_of_mem_toString hminus) (by decide)

namespace Limit

variable {limit : Option Int} {offset : Nat}

/-- The number that is written as the limit: the limit itself, or where that is absent or negative and
there is an offset, the greatest limit of the dialect, if it has one. -/
def number (greatest : Option Nat) (limit : Option Int) (offset : Nat) : Option Nat :=
  match limit with
  | some (.ofNat n) => some n
  | _ => if offset = 0 then none else greatest

/-- The text for the limit and the offset; an offset of zero is not written. -/
def words : Option Nat → Nat → String
  | none, 0 => ""
  | none, offset => "OFFSET " ++ toString offset
  | some n, 0 => "LIMIT " ++ toString n
  | some n, offset => "LIMIT " ++ toString n ++ " OFFSET " ++ toString offset

theorem words_eq_empty_iff {number : Option Nat} :
    words number offset = "" ↔ number = none ∧ offset = 0 := by
  constructor
  · intro hempty
    cases number with
    | none =>
      cases offset with
      | zero => exact ⟨rfl, rfl⟩
      | succ offset => exact absurd (String.append_eq_empty_iff.mp hempty).1 (by decide)
    | some n =>
      cases offset with
      | zero => exact absurd (String.append_eq_empty_iff.mp hempty).1 (by decide)
      | succ offset =>
        have hfirst := (String.append_eq_empty_iff.mp hempty).1
        rw [String.append_assoc] at hfirst
        exact absurd (String.append_eq_empty_iff.mp hfirst).1 (by decide)
  · rintro ⟨rfl, rfl⟩
    rfl

/-- There is no negative number in it. -/
theorem minus_notMem_words (number : Option Nat) (offset : Nat) :
    '-' ∉ (words number offset).toList := by
  have hword {word : String} (hword : '-' ∉ word.toList) (n : Nat) :
      '-' ∉ (word ++ toString n).toList := by
    rw [String.toList_append, List.mem_append]
    exact not_or.mpr ⟨hword, minus_notMem_toString n⟩
  cases number with
  | none =>
    cases offset with
    | zero => decide
    | succ offset => exact hword (by decide) _
  | some n =>
    cases offset with
    | zero => exact hword (by decide) _
    | succ offset =>
      refine hword ?_ _
      rw [String.toList_append, List.mem_append]
      exact not_or.mpr ⟨hword (by decide) _, by decide⟩

/-- A limit that is written comes first. -/
theorem limit_prefix_words (n offset : Nat) :
    "LIMIT ".toList <+: (words (some n) offset).toList := by
  cases offset with
  | zero => exact String.toList_append ▸ List.prefix_append _ _
  | succ offset =>
    show _ <+: ("LIMIT " ++ toString n ++ " OFFSET " ++ toString (offset + 1)).toList
    rw [String.append_assoc, String.append_assoc, String.toList_append]
    exact List.prefix_append _ _

/-- A limit counts, or it is absent or negative. -/
theorem counts_or_absent (limit : Option Int) :
    (∃ n : Nat, limit = some (n : Int)) ∨ ∀ n ∈ limit, n < 0 := by
  match limit with
  | none => exact .inr nofun
  | some (.ofNat n) => exact .inl ⟨n, rfl⟩
  | some (.negSucc n) =>
    refine .inr fun m hm => ?_
    obtain rfl := Option.some.inj hm
    exact Int.negSucc_lt_zero n

theorem effective_natCast (n : Nat) (offset : Int) :
    (Limit.mk (some n) offset).effective = some (n : Int) := by
  rw [effective, Option.filter_some, if_pos (decide_eq_true (Int.natCast_nonneg n))]

theorem effective_of_absent {offset : Int} (h : ∀ n ∈ limit, n < 0) :
    (Limit.mk limit offset).effective = none := by
  rw [effective, Option.filter_eq_none_iff]
  intro n hn
  rw [decide_eq_true_eq]
  exact Int.not_le.mpr (h n hn)

theorem number_of_absent {greatest : Option Nat} (h : ∀ n ∈ limit, n < 0) :
    number greatest limit offset = if offset = 0 then none else greatest := by
  match limit with
  | none => rfl
  | some (.ofNat n) => exact absurd (h _ rfl) (Int.not_lt.mpr (Int.natCast_nonneg n))
  | some (.negSucc n) => rfl

/-- A clause is empty exactly if there is neither a number nor an offset to write. -/
theorem isEmpty_iff (greatest : Option Nat) (limit : Option Int) (offset : Nat) :
    (Limit.mk limit offset).isEmpty = true ↔ words (number greatest limit offset) offset = "" := by
  rw [words_eq_empty_iff, isEmpty, Bool.and_eq_true, Option.isNone_iff_eq_none, decide_eq_true_eq]
  obtain ⟨n, rfl⟩ | habsent := counts_or_absent limit
  · rw [effective_natCast]
    exact iff_of_false (fun h => Option.some_ne_none _ h.1) fun h => Option.some_ne_none n h.1
  · rw [effective_of_absent habsent, number_of_absent habsent]
    cases offset with
    | zero => exact iff_of_true ⟨rfl, Int.le_refl 0⟩ ⟨rfl, rfl⟩
    | succ offset =>
      have hpos : ¬ ((offset + 1 : Nat) : Int) ≤ 0 := by omega
      exact iff_of_false (fun h => hpos h.2) fun h => Nat.succ_ne_zero offset h.2

/-- The limit and the offset may be written in one piece. -/
theorem writtenAs_words (n offset : Nat) :
    Fragment.WrittenAs
      [.text ("LIMIT " ++ toString n), .text (" " ++ "OFFSET " ++ toString (offset + 1))]
      [.text (words (some n) (offset + 1))] := by
  have hwords : words (some n) (offset + 1)
      = "LIMIT " ++ toString n ++ (" " ++ "OFFSET " ++ toString (offset + 1)) := by
    show "LIMIT " ++ toString n ++ " OFFSET " ++ toString (offset + 1) = _
    have hspace : " " ++ "OFFSET " = " OFFSET " := by decide
    rw [hspace, String.append_assoc]
  rw [hwords]
  exact fun st => (Fragment.writtenAs_text_append _ _ st).symm

/-- What is written of a limit and an offset, in one piece. -/
theorem fragment_writtenAs (s : Scope) (limit : Option Int) (offset : Nat) :
    ((Limit.mk limit offset).fragment s).WrittenAs
      [.text (words (number s.dialect.maxLimit limit offset) offset)] := by
  have hpos (offset : Nat) : (0 : Int) < (offset + 1 : Nat) := by omega
  obtain ⟨n, rfl⟩ | habsent := counts_or_absent limit
  · rw [Limit.fragment, effective_natCast]
    cases offset with
    | zero => exact .refl _
    | succ offset =>
      dsimp only
      rw [if_pos (hpos offset)]
      exact writtenAs_words n offset
  · rw [Limit.fragment, effective_of_absent habsent, number_of_absent habsent]
    cases offset with
    | zero => exact fun st => (Fragment.writtenAs_text_empty st).symm
    | succ offset =>
      dsimp only
      rw [if_pos (hpos offset), if_pos (hpos offset), if_neg (Nat.succ_ne_zero offset)]
      cases s.dialect.maxLimit with
      | none => exact .refl _
      | some greatest => exact writtenAs_words greatest offset

end Limit

namespace Statement

/-- A clause that holds a limit is passed over if there is nothing to write, and else written after its
gap. -/
theorem writeClause_limit {st : Statement} {limit : Option Int} {offset : Nat}
    (hc : st.clause? "LIMIT" = some (.holding (.limit ⟨limit, offset⟩)))
    (hwriter : st.dialect.clauseWriter "LIMIT" = none) :
    let text := Limit.words (Limit.number st.dialect.maxLimit limit offset) offset
    (text = "" → st.writeClause "LIMIT" = st)
      ∧ (text ≠ "" → st.writeClause "LIMIT" = st.write [.text (st.gap ++ text)]) := by
  intro text
  have hempty := Limit.isEmpty_iff st.dialect.maxLimit limit offset
  have hclause : (Clause.holding (.limit ⟨limit, offset⟩)).isEmpty
      = (Limit.mk limit offset).isEmpty := rfl
  constructor
  · intro htext
    rw [writeClause, hc]
    exact if_pos (hclause.trans (hempty.mpr htext))
  · intro htext
    have hnot : (Clause.holding (.limit ⟨limit, offset⟩)).isEmpty = false :=
      Bool.eq_false_iff.mpr fun h => htext (hempty.mp (hclause.symm.trans h))
    have hwritten := ((Fragment.WrittenAs.refl [.text st.gap]).append
      (Limit.fragment_writtenAs st.scope limit offset)).trans
        fun st' => (Fragment.writtenAs_text_append st.gap text st').symm
    rw [writeClause_holding hc hnot hwriter]
    -- There is no keyword before the body.
    exact hwritten st

/-- Let limits be added to a statement without one, among other clauses, in a dialect that writes them
in the usual way. Of the limits counts the last that is not zero (zero if all are), and of the offsets
the last that is not zero, unless it is negative. Whatever else has been written since, nothing is
written if the limit is absent or negative and there is no offset. Otherwise the limit is written, or
in the place of one that is absent or negative the greatest of the dialect, if it has one; and after it
the offset, if there is one. Nothing negative is written, and where there is a greatest limit no
offset without a limit. -/
theorem limits_written {st st' : Statement} {additions : List Addition} {limits : List Limit}
    (hbare : ∀ c, st.clause? "LIMIT" = some c → c = { name := c.name })
    (hlimits : additions.filter (·.name == "LIMIT") = limits.map fun l => ⟨.limit l, false⟩)
    (hne : limits ≠ []) (hwriter : st.dialect.clauseWriter "LIMIT" = none)
    (hst' : SameButOutput (st.addAll additions) st') :
    let limit := Limit.lastLimit limits
    let offset := Limit.lastOffset limits
    let text := Limit.words (Limit.number st.dialect.maxLimit limit offset) offset
    st'.build ["LIMIT"] = st'.writeClause "LIMIT"
      ∧ (text = "" → st'.writeClause "LIMIT" = st')
      ∧ (text ≠ "" → st'.writeClause "LIMIT" = st'.write [.text (st'.gap ++ text)])
      ∧ (text = "" ↔ (∀ n ∈ limit, n < 0) ∧ offset = 0)
      ∧ '-' ∉ text.toList
      ∧ (st.dialect.maxLimit ≠ none → 0 < offset → "LIMIT ".toList <+: text.toList) := by
  intro limit offset text
  have hc : st'.clause? "LIMIT" = some (.holding (.limit (Limit.total limits))) := by
    rw [clause?, hst'.clauses]
    exact clause?_limits hbare hlimits hne
  have hdialect : st'.dialect = st.dialect := by
    have hadditions := sameButClauses_addAll st additions
    rw [SameButClauses] at hadditions
    rw [hst'.dialect, hadditions]
  obtain ⟨hnothing, hsomething⟩ := writeClause_limit hc (hdialect ▸ hwriter)
  rw [hdialect] at hnothing hsomething
  refine ⟨build_singleton st' (by decide) (by decide), hnothing, hsomething, ?_,
    Limit.minus_notMem_words _ _, ?_⟩
  · rw [Limit.words_eq_empty_iff]
    obtain ⟨n, hlimit⟩ | habsent := Limit.counts_or_absent limit
    · rw [hlimit]
      exact iff_of_false (fun h => Option.some_ne_none n h.1) fun h =>
        absurd (h.1 n rfl) (Int.not_lt.mpr (Int.natCast_nonneg n))
    · rw [Limit.number_of_absent habsent]
      exact ⟨fun h => ⟨habsent, h.2⟩, fun h => ⟨if_pos h.2, h.2⟩⟩
  · intro hgreatest hoffset
    obtain ⟨n, hnumber⟩ : ∃ n, Limit.number st.dialect.maxLimit limit offset = some n := by
      obtain ⟨n, hlimit⟩ | habsent := Limit.counts_or_absent limit
      · exact ⟨n, by rw [hlimit]; rfl⟩
      · rw [Limit.number_of_absent habsent, if_neg hoffset.ne']
        exact Option.ne_none_iff_exists'.mp hgreatest
    show _ <+: (Limit.words (Limit.number st.dialect.maxLimit limit offset) offset).toList
    rw [hnumber]
    exact Limit.limit_prefix_words n offset

/-- A page of users is asked for, then the limit is taken back, among other clauses. A limit of zero
does not count, and the offset stays. -/
theorem limits_written_page :
    let st : Statement := { dialect := .mysql, table := "users" }
    let limits : List Limit := [⟨some 10, 3⟩, ⟨some 0, 0⟩, ⟨some (-1), 0⟩]
    let additions : List Addition :=
      [⟨.limit ⟨some 10, 3⟩, false⟩, ⟨.select {}, false⟩, ⟨.limit ⟨some 0, 0⟩, false⟩,
        ⟨.limit ⟨some (-1), 0⟩, false⟩]
    let st' := (st.addAll additions).build ["SELECT"]
    (∀ c, st.clause? "LIMIT" = some c → c = { name := c.name })
      ∧ additions.filter (·.name == "LIMIT") = limits.map (fun l => ⟨.limit l, false⟩)
      ∧ limits ≠ [] ∧ st.dialect.clauseWriter "LIMIT" = none
      ∧ SameButOutput (st.addAll additions) st'
      ∧ Limit.lastLimit limits = some (-1) ∧ Limit.lastOffset limits = 3
      ∧ (st'.build ["LIMIT"]).output.sql = "SELECT * LIMIT 18446744073709551615 OFFSET 3" := by
  intro st limits additions st'
  have hnone : st.clause? "LIMIT" = none := rfl
  have hbare : ∀ c, st.clause? "LIMIT" = some c → c = { name := c.name } := fun c hc =>
    absurd (hnone.symm.trans hc) (Option.some_ne_none c).symm
  have hlimits : additions.filter (·.name == "LIMIT")
      = limits.map (fun l => ⟨.limit l, false⟩) := rfl
  have hne : limits ≠ [] := List.cons_ne_nil _ _
  have hst' : SameButOutput (st.addAll additions) st' := sameButOutput_build _ _
  obtain ⟨hbuild, -, hwritten, -⟩ := limits_written hbare hlimits hne rfl hst'
  have hlimit : Limit.lastLimit limits = some (-1) := by decide
  have hoffset : Limit.lastOffset limits = 3 := by decide
  refine ⟨hbare, hlimits, hne, rfl, hst', hlimit, hoffset, ?_⟩
  rw [hbuild, hwritten (by decide)]
  decide

end Statement

end RecordSql
