/-
  RecordSql.Proofs.Identifiers.DerivedColumns

  Which identifiers come back as the columns of their fields.  A column has the
  words of the identifier, but for two initialisms that are not told from
  others: `https`, and `ui` where a word with a `d` follows it
  (`Identifier.KeepsWords`).  Without these no two fields share a column.
-/

import RecordSql.Proofs.Columns
import RecordSql.Proofs.Identifiers.Respelled
import Mathlib.Data.List.Chain

namespace RecordSql

namespace Naming

/-- No part in capitals is taken for another one. -/
def Unambiguous (ps : List Part) : Prop :=
  ⟨['h', 't', 't', 'p', 's'], true⟩ ∉ ps
    ∧ ps.IsChain fun p q => p = ⟨['u', 'i'], true⟩ → q.word.head? ≠ some 'd'

/-- Parts keep their words exactly if none is taken for another. -/
theorem map_word_respelled_iff (ps : List Part) :
    (respelled ps).map (·.word) = ps.map (·.word) ↔ Unambiguous ps := by
  induction ps using respelled.induct with
  | case1 => simp [respelled, Unambiguous]
  | case2 w ps ih =>
    rw [respelled, List.map_cons, List.map_cons, List.cons_inj_right, ih, Unambiguous, Unambiguous,
      List.isChain_cons]
    simp
  | case3 w =>
    rw [respelled, spelled, Unambiguous]
    by_cases h : w = ['h', 't', 't', 'p', 's']
    · simp [h]
    · simp [h, Ne.symm h]
  | case4 w v up ps h ih =>
    rw [respelled, if_pos h, Unambiguous, List.isChain_cons]
    obtain ⟨rfl, hd⟩ := h
    cases up <;> simp [hd]
  | case5 w v up ps h ih =>
    rw [respelled, if_neg h, List.map_append, spelled]
    by_cases hhttps : w = ['h', 't', 't', 'p', 's']
    · simp [hhttps, Unambiguous]
    · -- The word stays, and the next part has no `d` if it is `ui`.
      have hchain : ((⟨w, true⟩ : Part) :: ⟨v, up⟩ :: ps).IsChain
            (fun p q => p = ⟨['u', 'i'], true⟩ → q.word.head? ≠ some 'd')
          ↔ ((⟨v, up⟩ : Part) :: ps).IsChain
            (fun p q => p = ⟨['u', 'i'], true⟩ → q.word.head? ≠ some 'd') := by
        rw [List.isChain_cons_cons, and_iff_right]
        intro hui hd
        exact h ⟨congrArg Part.word hui, hd⟩
      have hmem : (⟨['h', 't', 't', 'p', 's'], true⟩ : Part) ∉ (⟨w, true⟩ : Part) :: ⟨v, up⟩ :: ps
          ↔ (⟨['h', 't', 't', 'p', 's'], true⟩ : Part) ∉ (⟨v, up⟩ : Part) :: ps := by
        rw [List.mem_cons, not_or, and_iff_right]
        intro heq
        exact hhttps (congrArg Part.word heq).symm
      rw [if_neg hhttps, Unambiguous, hchain, hmem]
      show w :: _ = w :: _ ↔ _
      rw [List.cons_inj_right]
      exact ih

/-! ## Words -/

variable {restored seen words : List (List Char)} {w : List Char}

/-- A word that is to be restored is, where it stands first. -/
theorem mem_marks_iff (hw : w ∈ restored) (hrun : run w seen = 0) :
    ⟨w, true⟩ ∈ marks restored seen words ↔ w ∈ words := by
  constructor
  · intro h
    have hword : w ∈ (marks restored seen words).map (·.word) := List.mem_map_of_mem h
    rwa [map_word_marks] at hword
  · intro h
    induction words generalizing seen with
    | nil => cases h
    | cons v vs ih =>
      rw [marks, List.mem_cons]
      by_cases hv : v = w
      · subst hv
        left
        simp [hw, hrun]
      · refine .inr (ih ?_ ((List.mem_cons.mp h).resolve_left (Ne.symm hv)))
        rw [run_cons, if_neg hv]

/-- A word is restored exactly if there is an odd number of it in a row then. -/
theorem restored_iff (hw : w ∈ restored) (v : List Char) :
    (⟨v, restored.contains v && run v seen % 2 == 0⟩ : Part) = ⟨w, true⟩
      ↔ run w (v :: seen) % 2 ≠ 0 := by
  rw [run_cons]
  by_cases hv : v = w
  · subst hv
    have hcontains : restored.contains v = true := by simpa using hw
    rw [if_pos rfl, hcontains, Bool.true_and, Part.mk.injEq, beq_iff_eq, and_iff_right rfl]
    omega
  · rw [if_neg hv]
    simp [hv]

/-- No word with a `d` follows a restored word exactly if there is an even number of that before each. -/
theorem isChain_marks_iff (hw : w ∈ restored) (v : List Char) (seen words : List (List Char)) :
    (marks restored seen (v :: words)).IsChain (fun p q => p = ⟨w, true⟩ → q.word.head? ≠ some 'd')
      ↔ ∀ before u after, words = before ++ u :: after → u.head? = some 'd' →
        run w (before.reverse ++ v :: seen) % 2 = 0 := by
  induction words generalizing v seen with
  | nil =>
    constructor
    · intro _ before u after heq
      cases before <;> cases heq
    · intro _
      exact List.isChain_singleton _
  | cons u us ih =>
    have hrest := ih u (v :: seen)
    rw [marks] at hrest
    rw [marks, marks, List.isChain_cons_cons, hrest, restored_iff hw]
    constructor
    · rintro ⟨hfirst, hlater⟩ before u' after heq hd
      cases before with
      | nil =>
        obtain ⟨rfl, -⟩ := List.cons_eq_cons.mp heq
        refine Classical.byContradiction fun hodd => hfirst hodd hd
      | cons b before =>
        obtain ⟨rfl, htail⟩ := List.cons_eq_cons.mp heq
        rw [List.reverse_cons, List.append_assoc]
        exact hlater before u' after htail hd
    · intro hall
      refine ⟨fun hodd hd => hodd (hall [] u us rfl hd), fun before u' after heq hd => ?_⟩
      have heven := hall (u :: before) u' after (by rw [heq]; rfl) hd
      rwa [List.reverse_cons, List.append_assoc] at heven

end Naming

namespace Identifier

open Naming

/-- None of the words is `https`, and before each that begins with a `d` stands an even number of `ui`
in a row, mostly none. -/
structure KeepsWords (i : Identifier) : Prop where
  https : ['h', 't', 't', 'p', 's'] ∉ i.words
  ui : ∀ before w after, i.words = before ++ w :: after → w.head? = some 'd' →
    run ['u', 'i'] before.reverse % 2 = 0

theorem unambiguous_parts_iff (i : Identifier) : Unambiguous i.parts ↔ i.KeepsWords := by
  have hhttps : (['h', 't', 't', 'p', 's'] : List Char) ∈ initialismWords := by decide
  have hui : (['u', 'i'] : List Char) ∈ initialismWords := by decide
  have hmem : (⟨['h', 't', 't', 'p', 's'], true⟩ : Part) ∈ i.parts
      ↔ ['h', 't', 't', 'p', 's'] ∈ i.words := mem_marks_iff hhttps rfl
  obtain ⟨v, vs, hwords⟩ := List.exists_cons_of_ne_nil i.words_ne_nil
  have hchain := isChain_marks_iff hui v [] vs
  rw [← hwords] at hchain
  constructor
  · rintro ⟨hnot, hparts⟩
    refine ⟨fun h => hnot (hmem.mpr h), fun before w after heq hd => ?_⟩
    cases before with
    | nil => rfl
    | cons b before =>
      rw [hwords] at heq
      obtain ⟨rfl, htail⟩ := List.cons_eq_cons.mp heq
      rw [List.reverse_cons]
      exact hchain.mp hparts before w after htail hd
  · rintro ⟨hnot, hall⟩
    refine ⟨fun h => hnot (hmem.mp h), hchain.mpr fun before w after heq hd => ?_⟩
    have heven := hall (v :: before) w after (by rw [hwords, heq]; rfl) hd
    rwa [List.reverse_cons] at heven

/-- A column has the words of the identifier exactly if they are kept. -/
theorem columnWords_eq_iff (i : Identifier) : i.columnWords = i.words ↔ i.KeepsWords := by
  rw [← i.unambiguous_parts_iff, ← map_word_respelled_iff, i.map_word_parts, columnWords]

theorem column_eq_text_iff (i : Identifier) : i.column = i.text ↔ i.columnWords = i.words := by
  constructor
  · intro h
    rw [← i.splitChars_column, h, i.splitChars_text]
  · intro h
    rw [column_eq, h, text]

/-- Two fields share a column exactly if their columns have the same words. -/
theorem column_eq_column_iff (i j : Identifier) : i.column = j.column ↔ i.columnWords = j.columnWords := by
  constructor
  · intro h
    rw [← i.splitChars_column, h, j.splitChars_column]
  · intro h
    rw [column_eq, h, column_eq]

/-- The column of a field is its identifier again exactly if `https` is not among the words and before
each with a `d` an even number of `ui` stands. In general it has the words that are left when each
initialism is read back as the first in the list that fits. Two fields share a column exactly if
these are the same, and so they never do if their identifiers come back. -/
theorem column_is_identifier_iff (i : Identifier) :
    (i.column = i.text ↔ i.KeepsWords) ∧ i.column = String.ofList (joined i.columnWords)
      ∧ (∀ f : Field, f.name = typeName i.text → f.dbName = "" → f.dataType.isSome = true →
        (Layout.columned {} f).dbName = i.column)
      ∧ ∀ j : Identifier, (i.column = j.column ↔ i.columnWords = j.columnWords)
        ∧ (i.KeepsWords → j.KeepsWords → i.text ≠ j.text → i.column ≠ j.column) := by
  refine ⟨i.column_eq_text_iff.trans i.columnWords_eq_iff, i.column_eq,
    fun f hname hcolumn hstored => ?_,
    fun j => ⟨i.column_eq_column_iff j, fun hi hj hne hcolumn => hne ?_⟩⟩
  · rw [Layout.columned_dbName hcolumn, if_pos hstored, hname, column]
  · have hitext : i.column = i.text := i.column_eq_text_iff.mpr (i.columnWords_eq_iff.mpr hi)
    have hjtext : j.column = j.text := j.column_eq_text_iff.mpr (j.columnWords_eq_iff.mpr hj)
    rw [← hitext, ← hjtext, hcolumn]

/-- `https`, whose initialism is read back as `HTTP` with an `S` behind it. -/
def https : Identifier := ⟨[['h', 't', 't', 'p', 's']], by decide, by decide⟩

/-- `ui_dog`, whose first initialism is read back as `UID`. -/
def uiDog : Identifier := ⟨[['u', 'i'], ['d', 'o', 'g']], by decide, by decide⟩

/-- `uidog`, one word. -/
def uidog : Identifier := ⟨[['u', 'i', 'd', 'o', 'g']], by decide, by decide⟩

/-- A record with the fields `ui_dog` and `uidog`. -/
def kennels : Catalog :=
  ⟨[ ( "Kennel",
      { name := "Kennel"
        fields :=
          [ { name := typeName uiDog.text, kind := .string }
          , { name := typeName uidog.text, kind := .string } ] } ) ]⟩

/-- The column of `https` is `http_s`, and the fields `ui_dog` and `uidog` of one record share theirs. -/
theorem column_is_identifier_iff_kennels :
    https.column = "http_s" ∧ uiDog.text = "ui_dog" ∧ uidog.text = "uidog" ∧ ¬ uiDog.KeepsWords
      ∧ uiDog.column = uidog.column
      ∧ ∃ s, Schema.parse kennels {} ⟨"Kennel", "Kennel"⟩ none = .ok s ∧ s.dbNames = ["uidog"] := by
  obtain ⟨-, hhttps, -⟩ := column_is_identifier_iff https
  obtain ⟨hkeeps, hdog, -, hshared⟩ := column_is_identifier_iff uiDog
  have hwords : uiDog.columnWords = uidog.columnWords := by decide +kernel
  have hparsed : ((Schema.parse kennels {} ⟨"Kennel", "Kennel"⟩ none).toOption.map fun s =>
      s.dbNames) = some ["uidog"] := by decide +kernel
  obtain ⟨s, hs, hnames⟩ := Option.map_eq_some_iff.mp hparsed
  refine ⟨?_, by decide +kernel, by decide +kernel, fun h => ?_, ((hshared uidog).1).mpr hwords,
    s, ok_of_toOption hs, hnames⟩
  · rw [hhttps]
    decide +kernel
  · have htext := hkeeps.mpr h
    rw [hdog] at htext
    revert htext
    decide +kernel

end Identifier

end RecordSql
