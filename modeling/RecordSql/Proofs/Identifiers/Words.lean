/-
  RecordSql.Proofs.Identifiers.Words

  Identifiers made of words.  An identifier is one or more words of two or more
  lower-case letters, joined by underscores (`Identifier`).  The name of a field
  is written from the same words, each as a part of its own: with a capital, or
  in capitals throughout if it is an initialism (`Part`, `written`).
-/

import RecordSql.Proofs.Letters

namespace RecordSql

open RecordSql.Text

/-! ## Letters -/

/-- Lower-case letters throughout. -/
def AreLetters (w : List Char) : Prop := ∀ c ∈ w, c.isLower = true

instance (w : List Char) : Decidable (AreLetters w) :=
  decidable_of_iff (w.all Char.isLower = true) List.all_eq_true

theorem areLetters_cons {c : Char} {w : List Char} :
    AreLetters (c :: w) ↔ c.isLower = true ∧ AreLetters w := List.forall_mem_cons

/-- Two or more lower-case letters. -/
structure IsWord (w : List Char) : Prop where
  letters : AreLetters w
  two_le : 2 ≤ w.length

instance (w : List Char) : Decidable (IsWord w) :=
  decidable_of_iff (AreLetters w ∧ 2 ≤ w.length)
    ⟨fun ⟨letters, two_le⟩ => ⟨letters, two_le⟩, fun h => ⟨h.letters, h.two_le⟩⟩

theorem IsWord.exists_cons {w : List Char} (h : IsWord w) :
    ∃ c d s, w = c :: d :: s ∧ c.isLower = true ∧ d.isLower = true ∧ AreLetters s := by
  match w, h with
  | c :: d :: s, h =>
    have hletters := h.letters
    rw [areLetters_cons, areLetters_cons] at hletters
    exact ⟨c, d, s, rfl, hletters.1, hletters.2.1, hletters.2.2⟩

/-! ## Words joined by underscores -/

/-- Words joined by underscores. -/
def joined : List (List Char) → List Char
  | [] => []
  | w :: ws => w ++ ws.flatMap ('_' :: ·)

theorem splitChars_append {w rest : List Char} (hw : '_' ∉ w) :
    splitChars '_' (w ++ '_' :: rest) = w :: splitChars '_' rest := by
  induction w with
  | nil => simp [splitChars]
  | cons c w ih =>
    rw [List.mem_cons, not_or] at hw
    have hc : (c == '_') = false := beq_false_of_ne fun heq => hw.1 heq.symm
    rw [List.cons_append, splitChars, hc, ih hw.2]
    rfl

theorem splitChars_of_notMem {w : List Char} (hw : '_' ∉ w) : splitChars '_' w = [w] := by
  induction w with
  | nil => rfl
  | cons c w ih =>
    rw [List.mem_cons, not_or] at hw
    have hc : (c == '_') = false := beq_false_of_ne fun heq => hw.1 heq.symm
    rw [splitChars, hc, ih hw.2]
    rfl

/-- The words are found again between the underscores. -/
theorem splitChars_joined {ws : List (List Char)} (hne : ws ≠ []) (hws : ∀ w ∈ ws, '_' ∉ w) :
    splitChars '_' (joined ws) = ws := by
  induction ws with
  | nil => exact absurd rfl hne
  | cons w ws ih =>
    obtain ⟨hw, hrest⟩ := List.forall_mem_cons.mp hws
    cases ws with
    | nil =>
      rw [joined, List.flatMap_nil, List.append_nil]
      exact splitChars_of_notMem hw
    | cons v vs =>
      have hjoined : joined (w :: v :: vs) = w ++ '_' :: joined (v :: vs) := rfl
      rw [hjoined, splitChars_append hw, ih (List.cons_ne_nil _ _) hrest]

theorem AreLetters.underscore_notMem {w : List Char} (h : AreLetters w) : '_' ∉ w :=
  fun hmem => ne_underscore_of_isLower (h '_' hmem) rfl

/-- An identifier of a field: words of two or more lower-case letters, joined by underscores. -/
structure Identifier where
  words : List (List Char)
  words_ne_nil : words ≠ []
  isWord : ∀ w ∈ words, IsWord w

namespace Identifier

/-- The identifier as it is written. -/
def text (i : Identifier) : String := String.ofList (joined i.words)

theorem splitChars_text (i : Identifier) : splitChars '_' i.text.toList = i.words := by
  rw [text, String.toList_ofList]
  exact splitChars_joined i.words_ne_nil fun w hw => (i.isWord w hw).letters.underscore_notMem

end Identifier

/-! ## Words written with capitals -/

/-- A part of a name: a word, written with a capital or in capitals. -/
structure Part where
  word : List Char
  capitals : Bool
  deriving DecidableEq

/-- The part as it is written. -/
def Part.text (p : Part) : List Char :=
  if p.capitals then p.word.map Char.toUpper else Naming.capitalized p.word

/-- Parts written one after the other. -/
def written (ps : List Part) : List Char := ps.flatMap Part.text

theorem written_cons (p : Part) (ps : List Part) : written (p :: ps) = p.text ++ written ps := rfl

/-- The rest of a part behind its first letter. -/
def Part.rest (p : Part) : List Char :=
  if p.capitals then p.word.tail.map Char.toUpper else p.word.tail

theorem Part.text_eq {p : Part} {c : Char} {w : List Char} (h : p.word = c :: w) :
    p.text = c.toUpper :: p.rest := by
  rw [text, rest, h]
  split <;> rfl

/-- A text is at its end, or goes on with a capital. -/
def CapitalNext (text : List Char) : Prop := ∀ x ∈ text.head?, Naming.isUpper x = true

theorem capitalNext_nil : CapitalNext [] := fun _ h => nomatch h

theorem capitalNext_cons {c : Char} {text : List Char} :
    CapitalNext (c :: text) ↔ Naming.isUpper c = true := by
  simp [CapitalNext]

theorem capitalNext_append {s text : List Char} (hs : AreLetters s) (h : CapitalNext text) :
    CapitalNext (s.map Char.toUpper ++ text) := by
  cases s with
  | nil => exact h
  | cons c s => exact capitalNext_cons.mpr (isUpper_toUpper (areLetters_cons.mp hs).1)

/-- A part begins with a capital. -/
theorem capitalNext_written {ps : List Part} (h : ∀ p ∈ ps, p.word ≠ [] ∧ AreLetters p.word) :
    CapitalNext (written ps) := by
  cases ps with
  | nil => exact capitalNext_nil
  | cons p ps =>
    obtain ⟨hne, hletters⟩ := h p List.mem_cons_self
    obtain ⟨c, w, hw⟩ := List.exists_cons_of_ne_nil hne
    have hc : c.isLower = true := hletters c (by rw [hw]; exact List.mem_cons_self)
    rw [written_cons, p.text_eq hw, List.cons_append, capitalNext_cons]
    exact isUpper_toUpper hc

theorem IsWord.part {p : Part} (h : IsWord p.word) : p.word ≠ [] ∧ AreLetters p.word := by
  refine ⟨fun hnil => ?_, h.letters⟩
  have hlength := h.two_le
  rw [hnil, List.length_nil] at hlength
  omega

/-! ## Initialisms as words -/

namespace Naming

/-- An initialism in lower case: `api`. -/
def lowered (initialism : String) : List Char := initialism.toList.map Char.toLower

/-- The words that are initialisms. -/
def initialismWords : List (List Char) := initialisms.map lowered

theorem toUpper_lowered : ∀ i ∈ initialisms, i.toList = (lowered i).map Char.toUpper := by
  decide

theorem initialismWords_nodup : initialismWords.Nodup := by decide +kernel

/-- A word that can be restored begins with a letter, and has more behind it that is no capital. -/
def Restorable (w : List Char) : Prop :=
  ∃ c s, w = c :: s ∧ c.isLower = true ∧ s ≠ [] ∧ ∀ x ∈ s, isUpper x = false

theorem restorable_lowered : ∀ i ∈ initialisms, Restorable (lowered i) := by
  intro i hi
  have hshape : ∀ i ∈ initialisms, ((lowered i).head?.any Char.isLower
      && !(lowered i).tail.isEmpty && (lowered i).tail.all fun x => !isUpper x) = true := by decide
  have h := hshape i hi
  cases hw : lowered i with
  | nil =>
    rw [hw] at h
    cases h
  | cons c s =>
    rw [hw] at h
    simp only [List.head?_cons, Option.any_some, List.tail_cons, Bool.and_eq_true,
      Bool.not_eq_true', List.all_eq_true, List.isEmpty_eq_false_iff] at h
    exact ⟨c, s, rfl, h.1.1, h.1.2, h.2⟩

end Naming

end RecordSql
