/-
  RecordSql.Proofs.ShownValues

  Values shown in the place of their placeholders.  The text of a statement is
  literals with placeholders between them, in the order of the values
  (`Statement.run_extends`), and showing it puts the text of each value where
  its placeholder stood.

  Question marks are counted, and numbers after a dollar sign are read.  The
  two scans have in common that they pass over a literal (`fillMarks_literal`,
  `fillNumbers_literal`) and then put in the text for the next position
  (`fillMarks_mark`, `fillNumbers_number`), so what is put in is never looked
  at, whatever it contains.
-/

import RecordSql.Proofs.Dialects
import RecordSql.Proofs.Numerals
import RecordSql.Proofs.Runs

namespace RecordSql

open RecordSql.Text

namespace Explain

/-- The value at a position, counted from one, as it is shown. -/
def shownAt (quote : Char) (values : List Value) (position : Nat) : String :=
  (values[position - 1]?).elim "" (shown quote)

/-- The texts are those at the positions from one. -/
def AtPositions (f : Nat → String) (texts : List String) : Prop :=
  ∀ i, i < texts.length → texts[i]? = some (f (i + 1))

theorem shownAll_eq_map (quote : Char) (values : List Value) :
    shownAll quote values = values.map (shown quote) := by
  induction values with
  | nil => rfl
  | cons v vs ih => rw [shownAll, ih, List.map_cons]

theorem atPositions_shownAt (quote : Char) (values : List Value) :
    AtPositions (shownAt quote values) (shownAll quote values) := by
  intro i hi
  rw [shownAll_eq_map, List.length_map] at hi
  rw [shownAll_eq_map, List.getElem?_map, shownAt, Nat.add_sub_cancel, List.getElem?_eq_getElem hi]
  rfl

/-! ## Question marks -/

theorem fillMarks_none (cs : List Char) : fillMarks [] cs = cs := by
  cases cs <;> rfl

/-- A literal without question marks is passed over. -/
theorem fillMarks_literal {s : List Char} (h : '?' ∉ s) (texts : List String) (cs : List Char) :
    fillMarks texts (s ++ cs) = s ++ fillMarks texts cs := by
  induction s with
  | nil => rfl
  | cons c s ih =>
    rw [List.mem_cons, not_or] at h
    cases texts with
    | nil => rw [fillMarks_none, fillMarks_none]
    | cons t ts =>
      rw [List.cons_append, fillMarks, beq_false_of_ne (Ne.symm h.1), if_neg Bool.false_ne_true,
        ih h.2, List.cons_append]

/-- The next text takes the place of a question mark. -/
theorem fillMarks_mark (t : String) (ts : List String) (cs : List Char) :
    fillMarks (t :: ts) ('?' :: cs) = t.toList ++ fillMarks ts cs := rfl

/-- The texts from a position on stand where the question marks stood. -/
theorem fillMarks_interleaved {f : Nat → String} {texts : List String} (hf : AtPositions f texts)
    {position : Nat} {literals : List String}
    (hlength : position + literals.length = texts.length + 1)
    (hclear : ∀ s ∈ literals, '?' ∉ s.toList) :
    fillMarks (texts.drop position) (interleaved Placeholder.mark.text position literals).toList
      = (interleaved f position literals).toList := by
  induction literals generalizing position with
  | nil => cases texts.drop position <;> rfl
  | cons s rest ih =>
    rw [List.forall_mem_cons] at hclear
    by_cases hrest : rest = []
    · -- After the last literal there is no text left.
      subst hrest
      rw [interleaved, interleaved]
      simpa [fillMarks] using fillMarks_literal hclear.1 (texts.drop position) []
    · have hposition : position < texts.length := by
        have := List.length_pos_iff.mpr hrest
        rw [List.length_cons] at hlength
        omega
      have hnext : texts.drop position = f (position + 1) :: texts.drop (position + 1) := by
        have hhead := hf position hposition
        rw [List.getElem?_eq_getElem hposition] at hhead
        rw [List.drop_eq_getElem_cons hposition, Option.some.inj hhead]
      have hmark : (Placeholder.mark.text (position + 1)).toList = ['?'] := by
        rw [Placeholder.text]
        rfl
      rw [List.length_cons] at hlength
      rw [interleaved_cons hrest, interleaved_cons hrest]
      simp only [String.toList_append, List.append_assoc, hmark, List.singleton_append]
      rw [fillMarks_literal hclear.1, hnext, fillMarks_mark, ih (by omega) hclear.2]

/-! ## Numbers -/

/-- The text does not go on with a digit. -/
def EndsNumber (cs : List Char) : Prop := ∀ c ∈ cs.head?, isAnyDigit c = false

theorem endsNumber_nil : EndsNumber [] := nofun

theorem endsNumber_cons {c : Char} (h : isAnyDigit c = false) (cs : List Char) :
    EndsNumber (c :: cs) := by
  intro d hd
  rwa [← Option.some.inj hd]

/-- A literal without dollar signs is passed over. -/
theorem fillNumbers_literal {s : List Char} (h : '$' ∉ s) (texts : List String) (cs : List Char) :
    fillNumbers texts none (s ++ cs) = s ++ fillNumbers texts none cs := by
  induction s with
  | nil => rfl
  | cons c s ih =>
    rw [List.mem_cons, not_or] at h
    rw [List.cons_append, fillNumbers, beq_false_of_ne (Ne.symm h.1), if_neg Bool.false_ne_true,
      ih h.2, List.cons_append]

/-- Digits are collected, the last of them first. -/
theorem fillNumbers_digits (texts : List String) {digits : List Char}
    (h : ∀ c ∈ digits, isAnyDigit c = true) (seen cs : List Char) :
    fillNumbers texts (some seen) (digits ++ cs)
      = fillNumbers texts (some (digits.reverse ++ seen)) cs := by
  induction digits generalizing seen with
  | nil => rfl
  | cons c digits ih =>
    obtain ⟨hc, hrest⟩ := List.forall_mem_cons.mp h
    rw [List.cons_append, fillNumbers, if_pos hc, ih hrest, List.reverse_cons, List.append_assoc,
      List.singleton_append]

/-- A number ends where no digit follows, and the scan goes on from there. -/
theorem fillNumbers_end (texts : List String) {seen : List Char} (hseen : seen ≠ [])
    {cs : List Char} (h : EndsNumber cs) :
    fillNumbers texts (some seen) cs
      = numberedText texts seen.reverse ++ fillNumbers texts none cs := by
  obtain ⟨d, ds, rfl⟩ := List.exists_cons_of_ne_nil hseen
  cases cs with
  | nil => simp [fillNumbers]
  | cons c cs =>
    simp only [fillNumbers, h c rfl, List.isEmpty_cons, Bool.false_eq_true, if_false]
    split <;> rfl

/-- A number that is a position gives the text there. Positions are read as words of 64 bits. -/
theorem numberedText_toString {f : Nat → String} {texts : List String} (hf : AtPositions f texts)
    (hfew : texts.length < Nat.pow 2 64) {position : Nat} (hposition : position < texts.length) :
    numberedText texts (toString (position + 1)).toList = (f (position + 1)).toList := by
  have hword : position + 1 < Nat.pow 2 64 := Nat.lt_of_le_of_lt hposition hfew
  rw [numberedText, nat?_toString, Option.filter_some, if_pos (decide_eq_true hword)]
  simp only [hf position hposition]

/-- The text of its position takes the place of a number. -/
theorem fillNumbers_number {f : Nat → String} {texts : List String} (hf : AtPositions f texts)
    (hfew : texts.length < Nat.pow 2 64) {position : Nat} (hposition : position < texts.length)
    {cs : List Char} (h : EndsNumber cs) :
    fillNumbers texts none ((Placeholder.numbered.text (position + 1)).toList ++ cs)
      = (f (position + 1)).toList ++ fillNumbers texts none cs := by
  have htext : (Placeholder.numbered.text (position + 1)).toList
      = '$' :: (toString (position + 1)).toList := by
    rw [Placeholder.text, String.toList_append]
    rfl
  have hopen (ds : List Char) :
      fillNumbers texts none ('$' :: ds) = fillNumbers texts (some []) ds := rfl
  have hdigits : ∀ c ∈ (toString (position + 1)).toList, isAnyDigit c = true :=
    fun c hc => isAnyDigit_of_isDigit (isDigit_of_mem_toString hc)
  have hseen : (toString (position + 1)).toList.reverse ++ [] ≠ [] := by
    rw [List.append_nil]
    exact List.reverse_ne_nil_iff.mpr (toString_ne_nil (position + 1))
  rw [htext, List.cons_append, hopen, fillNumbers_digits texts hdigits, fillNumbers_end texts hseen h,
    List.append_nil, List.reverse_reverse, numberedText_toString hf hfew hposition]

/-- Literals that begin with no digit make a text that begins with none: where they are empty, a dollar
sign comes next. -/
theorem endsNumber_interleaved {position : Nat} {literals : List String}
    (h : ∀ s ∈ literals, EndsNumber s.toList) :
    EndsNumber (interleaved Placeholder.numbered.text position literals).toList := by
  cases literals with
  | nil => exact nofun
  | cons s rest =>
    have hs := h s (List.mem_cons_self ..)
    by_cases hrest : rest = []
    · subst hrest
      exact hs
    · intro c hc
      rw [interleaved_cons hrest, Placeholder.text] at hc
      simp only [String.toList_append, List.append_assoc] at hc
      cases hchars : s.toList with
      | nil =>
        rw [hchars] at hc
        exact endsNumber_cons (by decide) _ c hc
      | cons d ds =>
        rw [hchars] at hc
        exact hs c (by rw [hchars]; exact hc)

/-- The texts stand where their numbers stood. -/
theorem fillNumbers_interleaved {f : Nat → String} {texts : List String} (hf : AtPositions f texts)
    (hfew : texts.length < Nat.pow 2 64) {position : Nat} {literals : List String}
    (hlength : position + literals.length = texts.length + 1)
    (hclear : ∀ s ∈ literals, '$' ∉ s.toList)
    (hends : ∀ s ∈ literals.tail, EndsNumber s.toList) :
    fillNumbers texts none (interleaved Placeholder.numbered.text position literals).toList
      = (interleaved f position literals).toList := by
  induction literals generalizing position with
  | nil => rfl
  | cons s rest ih =>
    rw [List.forall_mem_cons] at hclear
    by_cases hrest : rest = []
    · subst hrest
      rw [interleaved, interleaved]
      simpa [fillNumbers] using fillNumbers_literal hclear.1 texts []
    · have hposition : position < texts.length := by
        have := List.length_pos_iff.mpr hrest
        rw [List.length_cons] at hlength
        omega
      rw [List.length_cons] at hlength
      rw [interleaved_cons hrest, interleaved_cons hrest]
      simp only [String.toList_append, List.append_assoc]
      rw [List.tail_cons] at hends
      rw [fillNumbers_literal hclear.1,
        fillNumbers_number hf hfew hposition (endsNumber_interleaved hends),
        ih (by omega) hclear.2 fun t ht => hends t (List.mem_of_mem_tail ht)]

end Explain

/-! ## Placeholders -/

open Explain

/-- No literal is taken for a placeholder or for a part of one: none has a question mark where those
are placeholders, and where these are numbered, none has a dollar sign, and none that stands behind
one begins with a decimal digit of any script. -/
def Placeholder.Clear : Placeholder → List String → Prop
  | .mark, literals => ∀ s ∈ literals, '?' ∉ s.toList
  | .numbered, literals =>
    (∀ s ∈ literals, '$' ∉ s.toList) ∧ ∀ s ∈ literals.tail, EndsNumber s.toList

/-- The dialect looks for the placeholders that it writes, and puts the given quotes around texts. -/
structure Dialect.ShowsWith (d : Dialect) (p : Placeholder) (quote : Char) : Prop where
  placeholder_eq : ∀ (position : Nat) (v : Value), d.placeholder position v = p.text position
  explain_eq : ∀ (sql : String) (values : List Value),
    d.explain sql values = Explain.explain (p == .numbered) quote sql values

theorem Dialect.showsWith_of_builtIn {d : Dialect} (h : d ∈ builtIn) :
    ∃ (p : Placeholder) (quote : Char), d.ShowsWith p quote := by
  simp only [builtIn, List.mem_cons, List.not_mem_nil, or_false] at h
  rcases h with rfl | rfl | rfl | rfl
  · exact ⟨.mark, '"', fun _ _ => rfl, fun _ _ => rfl⟩
  · exact ⟨.mark, '"', fun _ _ => rfl, fun _ _ => rfl⟩
  · exact ⟨.numbered, '\'', fun _ _ => rfl, fun _ _ => rfl⟩
  · exact ⟨.mark, '"', fun _ _ => rfl, fun _ _ => rfl⟩

/-- Showing values puts each in the place of its placeholder. -/
theorem Placeholder.explain_interleaved (p : Placeholder) (quote : Char) {literals : List String}
    {values : List Value} (hlength : literals.length = values.length + 1)
    (hfew : p = .numbered → values.length < Nat.pow 2 64) (hclear : p.Clear literals) :
    Explain.explain (p == .numbered) quote (interleaved p.text 0 literals) values
      = interleaved (shownAt quote values) 0 literals := by
  have hf := atPositions_shownAt quote values
  have htexts : (shownAll quote values).length = values.length := by
    rw [shownAll_eq_map, List.length_map]
  have hall : 0 + literals.length = (shownAll quote values).length + 1 := by omega
  rw [← String.toList_inj, Explain.explain, String.toList_ofList]
  cases p with
  | mark => exact fillMarks_interleaved hf hall hclear
  | numbered =>
    exact fillNumbers_interleaved hf (by rw [htexts]; exact hfew rfl) hall hclear.1 hclear.2

/-! ## The texts of statements -/

namespace Statement

/-- The one statement comes about by writing to the other, in the same dialect. -/
structure Extends (st st' : Statement) : Prop where
  dialect : st'.dialect = st.dialect
  output : ∃ f : Fragment, st'.output = st.output.append st.dialect f

namespace Extends

variable {st st' st'' : Statement}

theorem refl (st : Statement) : Extends st st := ⟨rfl, [], rfl⟩

theorem trans (h : Extends st st') (h' : Extends st' st'') : Extends st st'' := by
  obtain ⟨f, hf⟩ := h.output
  obtain ⟨g, hg⟩ := h'.output
  refine ⟨h'.dialect.trans h.dialect, f ++ g, ?_⟩
  rw [hg, h.dialect, hf, Output.append, Output.append, Output.append, List.foldl_append]

theorem write (st : Statement) (f : Fragment) : Extends st (st.write f) := ⟨rfl, _, rfl⟩

end Extends

theorem checkGlobalUpdate_extends (st : Statement) (names : List String) :
    Extends st (st.checkGlobalUpdate names) := by
  rw [checkGlobalUpdate]
  split
  · exact .refl st
  · split
    · exact .write st _
    · exact .refl st

theorem writeClauses_extends (st : Statement) (names : List String) :
    Extends st (names.foldl writeClause st) := by
  induction names generalizing st with
  | nil => exact .refl st
  | cons name names ih =>
    have hstep : Extends st (st.writeClause name) := by
      rw [writeClause_eq]
      exact .write st _
    exact hstep.trans (ih _)

theorem call_extends (st : Statement) (c : Call) : Extends st (st.call c) := by
  cases c with
  | add body => exact ⟨rfl, [], rfl⟩
  | build names => exact (checkGlobalUpdate_extends st names).trans (writeClauses_extends _ names)

/-- All that a run does to the output is to write. -/
theorem run_extends (st : Statement) (calls : List Call) : Extends st (st.run calls) := by
  induction calls generalizing st with
  | nil => exact .refl st
  | cons c calls ih => exact (call_extends st c).trans (ih _)

/-- Let literals stand with one placeholder for each value between them, none of them such that it is
taken for a part of one. Then values that are shown stand where their placeholders stood, and nothing
else is changed, in their texts or around them; where placeholders are numbered, the values are no more
than a word can count. What a statement has written is always of this form, in a dialect that looks for
the placeholders that it writes, and every built-in dialect does. -/
theorem values_shown_in_place :
    (∀ (p : Placeholder) (quote : Char) (literals : List String) (values : List Value),
      literals.length = values.length + 1 → (p = .numbered → values.length < Nat.pow 2 64) →
      p.Clear literals →
      Explain.explain (p == .numbered) quote (interleaved p.text 0 literals) values
        = interleaved (shownAt quote values) 0 literals)
    ∧ (∀ (p : Placeholder) (quote : Char) (st : Statement) (calls : List Call),
      st.dialect.ShowsWith p quote → st.output = {} →
      (∃ literals : List String, literals.length = (st.run calls).output.values.length + 1
        ∧ (st.run calls).output.sql = interleaved p.text 0 literals)
      ∧ ∀ literals : List String, literals.length = (st.run calls).output.values.length + 1 →
        (st.run calls).output.sql = interleaved p.text 0 literals →
        (st.run calls).output.values.length < Nat.pow 2 64 → p.Clear literals →
        (st.run calls).explain
          = interleaved (shownAt quote (st.run calls).output.values) 0 literals)
    ∧ ∀ d ∈ Dialect.builtIn, ∃ (p : Placeholder) (quote : Char), d.ShowsWith p quote := by
  refine ⟨fun p quote literals values hlength hfew hclear =>
    p.explain_interleaved quote hlength hfew hclear, fun p quote st calls hd hempty => ⟨?_, ?_⟩,
    fun d hd => Dialect.showsWith_of_builtIn hd⟩
  · -- The literals are those of all that was written.
    obtain ⟨-, f, hf⟩ := run_extends st calls
    have hmarks (values : List Value) : st.dialect.marks values = p.text :=
      funext fun position => hd.placeholder_eq position _
    refine ⟨f.literals, ?_, ?_⟩
    · rw [hf, hempty, Output.append_values, f.literals_length]
      rfl
    · rw [hf, hempty, Output.append_text, hmarks]
      exact String.empty_append
  · intro literals hlength hsql hfew hclear
    rw [explain, (run_extends st calls).dialect, hsql, hd.explain_eq]
    exact p.explain_interleaved quote hlength (fun _ => hfew) hclear

/-- Ten values; the first looks like the last placeholder, and the last has a quote and a mark. -/
def lookalikes : List Value :=
  .text "$10" :: ([2, 3, 4, 5, 6, 7, 8, 9].map .int) ++ [.text "it's ?"]

/-- Conditions in which the value of the first placeholder looks like the second. -/
def nameAndAge : List Call :=
  [ .add (.conditions
      ⟨[.compare .eq (.named "name") (.value (.text "$2")), .sql "age > ?" [.value (.int 3)]]⟩)
  , .build ["WHERE"] ]

/-- The first of ten placeholders is not taken for the tenth, and no value for a placeholder. -/
theorem values_shown_in_place_lookalikes :
    let users : Statement := { dialect := .postgres, table := "users" }
    Explain.explain true '\'' "$1,$2,$3,$4,$5,$6,$7,$8,$9,$10;" lookalikes
        = "'$10',2,3,4,5,6,7,8,9,'it\\'s ?';"
      ∧ (users.run nameAndAge).output.sql = "WHERE \"name\" = $1 AND age > $2"
      ∧ (users.run nameAndAge).explain = "WHERE \"name\" = '$2' AND age > 3" := by
  intro users
  have hd : users.dialect.ShowsWith .numbered '\'' := ⟨fun _ _ => rfl, fun _ _ => rfl⟩
  have hcommas : Placeholder.numbered.Clear ("" :: List.replicate 9 "," ++ [";"]) := by
    refine ⟨by simp, fun s hs => ?_⟩
    have hcases : s = "," ∨ s = ";" := by simpa using hs
    rcases hcases with rfl | rfl
    · exact endsNumber_cons (by decide) []
    · exact endsNumber_cons (by decide) []
  have hwords : Placeholder.numbered.Clear ["WHERE \"name\" = ", " AND age > ", ""] := by
    refine ⟨by simp, fun s hs => ?_⟩
    have hcases : s = " AND age > " ∨ s = "" := by simpa using hs
    rcases hcases with rfl | rfl
    · exact endsNumber_cons (by decide) "AND age > ".toList
    · exact endsNumber_nil
  have hten := values_shown_in_place.1 .numbered '\'' ("" :: List.replicate 9 "," ++ [";"])
    lookalikes rfl (fun _ => by decide) hcommas
  have htwo := (values_shown_in_place.2.1 .numbered '\'' users nameAndAge hd rfl).2
    ["WHERE \"name\" = ", " AND age > ", ""] (by decide) (by decide) (by decide) hwords
  have htext : interleaved Placeholder.numbered.text 0 ("" :: List.replicate 9 "," ++ [";"])
      = "$1,$2,$3,$4,$5,$6,$7,$8,$9,$10;" := by decide
  refine ⟨?_, by decide, htwo.trans (by decide)⟩
  rw [← htext]
  exact hten.trans (by decide)

/-- A digit of another script behind a placeholder belongs to its number, which then is no position. -/
example : Explain.explain true '\'' "$1\u0663 $2" [.int 7, .int 8] = "$1\u0663 8" := by decide

end Statement

end RecordSql
