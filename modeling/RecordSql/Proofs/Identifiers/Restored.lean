/-
  RecordSql.Proofs.Identifiers.Restored

  The name that an identifier gives.  Its words are written with capitals, and
  then the initialisms are restored, one after the other.  Restoring one finds
  it only where a word of its own stands, and takes the capital behind it along,
  so of several in a row every other one is restored (`restoredBy`).  Which words
  are restored in the end does not depend on the order (`marks`).
-/

import RecordSql.Proofs.Identifiers.Words

namespace RecordSql

open RecordSql.Text

theorem dropStart?_eq_some {start text rest : List Char} :
    dropStart? start text = some rest ↔ text = start ++ rest := by
  induction start generalizing text with
  | nil => simp [dropStart?, eq_comm]
  | cons p start ih =>
    cases text with
    | nil => simp [dropStart?]
    | cons c text =>
      rw [dropStart?]
      by_cases h : p = c
      · simp [h, ih]
      · simp [h, Ne.symm h]

namespace Naming

/-! ## Where an initialism is found -/

/-- The word stands at the start of the text, and a capital, an underscore or the end follows. -/
def StandsIn (word text : List Char) : Prop :=
  ∃ rest, text = word ++ rest ∧ ∀ x ∈ rest.head?, isUpper x = true ∨ x = '_'

section Restore

variable {word initialism text rest s : List Char} {c : Char}

/-- Where the word does not stand, nothing is changed. -/
theorem restoreInitialism_cons (h : ¬ StandsIn word (c :: text)) :
    restoreInitialism word initialism 0 (c :: text)
      = c :: restoreInitialism word initialism 0 text := by
  rw [restoreInitialism]
  split
  · next hdrop =>
    exact absurd ⟨[], dropStart?_eq_some.mp hdrop, fun x hx => nomatch hx⟩ h
  · next x rest hdrop =>
    have hboundary : (isUpper x || x == '_') = false := by
      refine Bool.eq_false_iff.mpr fun hx => h ⟨x :: rest, dropStart?_eq_some.mp hdrop, ?_⟩
      intro y hy
      obtain rfl : x = y := Option.some.inj hy
      simpa using hx
    rw [hboundary]
    rfl
  · rfl

/-- Nor is it in the middle of a text in which the word stands nowhere. -/
theorem restoreInitialism_append
    (h : ∀ before c after, s = before ++ c :: after → ¬ StandsIn word (c :: after ++ rest)) :
    restoreInitialism word initialism 0 (s ++ rest)
      = s ++ restoreInitialism word initialism 0 rest := by
  induction s with
  | nil => rfl
  | cons c s ih =>
    have hrest : restoreInitialism word initialism 0 (s ++ rest)
        = s ++ restoreInitialism word initialism 0 rest :=
      ih fun before d after heq => h (c :: before) d after (by rw [heq, List.cons_append])
    have hhead : ¬ StandsIn word (c :: (s ++ rest)) := h [] c s rfl
    rw [List.cons_append, restoreInitialism_cons hhead, hrest, List.cons_append]

theorem restoreInitialism_skip (word initialism s rest : List Char) :
    restoreInitialism word initialism s.length (s ++ rest)
      = restoreInitialism word initialism 0 rest := by
  induction s with
  | nil => rfl
  | cons c s ih =>
    rw [List.length_cons, List.cons_append, restoreInitialism]
    exact ih

/-- A word at the end of the text is replaced. -/
theorem restoreInitialism_self (hne : word ≠ []) :
    restoreInitialism word initialism 0 word = initialism := by
  obtain ⟨c, s, rfl⟩ := List.exists_cons_of_ne_nil hne
  have hdrop : dropStart? (c :: s) (c :: s) = some [] :=
    dropStart?_eq_some.mpr (List.append_nil _).symm
  rw [restoreInitialism, hdrop]

/-- A word with a capital behind it is replaced, and the capital is passed over. -/
theorem restoreInitialism_self_append (hne : word ≠ []) {x : Char} (hx : isUpper x = true) :
    restoreInitialism word initialism 0 (word ++ x :: text)
      = initialism ++ x :: restoreInitialism word initialism 0 text := by
  obtain ⟨c, s, rfl⟩ := List.exists_cons_of_ne_nil hne
  have hdrop : dropStart? (c :: s) (c :: s ++ x :: text) = some (x :: text) :=
    dropStart?_eq_some.mpr rfl
  have hskip := restoreInitialism_skip (c :: s) initialism (s ++ [x]) text
  rw [List.length_append, List.append_assoc] at hskip
  rw [List.cons_append, restoreInitialism, ← List.cons_append, hdrop]
  dsimp only
  rw [hx, Bool.true_or, if_pos rfl]
  exact congrArg (fun text => initialism ++ x :: text) hskip

end Restore

/-! ## Restoring one initialism among parts -/

section Parts

variable {w initialism : List Char} {p : Part} {ps : List Part}

/-- The word does not stand where there is no capital. -/
theorem not_standsIn_of_not_isUpper (hw : Restorable w) {x : Char} {text : List Char}
    (hx : isUpper x = false) : ¬ StandsIn (capitalized w) (x :: text) := by
  obtain ⟨c, s, rfl, hc, -, -⟩ := hw
  rintro ⟨rest, heq, -⟩
  obtain ⟨rfl, -⟩ := List.cons_eq_cons.mp heq
  rw [isUpper_toUpper hc] at hx
  cases hx

/-- Nor does it stand where a second capital follows. -/
theorem not_standsIn_of_capitalNext (hw : Restorable w) {x : Char} {text : List Char}
    (hnext : CapitalNext text) : ¬ StandsIn (capitalized w) (x :: text) := by
  obtain ⟨c, s, rfl, -, hne, hs⟩ := hw
  obtain ⟨d, s, rfl⟩ := List.exists_cons_of_ne_nil hne
  rintro ⟨rest, heq, -⟩
  obtain ⟨-, rfl⟩ := List.cons_eq_cons.mp heq
  have hd : isUpper d = true := capitalNext_cons.mp hnext
  rw [hs d List.mem_cons_self] at hd
  cases hd

/-- Behind the first letter of a part no word stands. -/
theorem not_standsIn_rest (hw : Restorable w) (hp : IsWord p.word) (hps : ∀ p ∈ ps, IsWord p.word)
    {before after : List Char} {x : Char} (h : p.rest = before ++ x :: after) :
    ¬ StandsIn (capitalized w) (x :: after ++ written ps) := by
  have hletters : ∀ y ∈ p.word.tail, y.isLower = true := fun y hy =>
    hp.letters y (List.mem_of_mem_tail hy)
  rw [Part.rest] at h
  split at h
  · refine not_standsIn_of_capitalNext hw ?_
    cases after with
    | nil => exact capitalNext_written fun q hq => (hps q hq).part
    | cons y after =>
      have hy : y ∈ p.word.tail.map Char.toUpper := by
        rw [h]
        simp
      obtain ⟨z, hz, rfl⟩ := List.mem_map.mp hy
      exact capitalNext_cons.mpr (isUpper_toUpper (hletters z hz))
  · have hx : x ∈ p.word.tail := by
      rw [h]
      simp
    exact not_standsIn_of_not_isUpper hw (isUpper_of_isLower (hletters x hx))

theorem restoreInitialism_rest (hw : Restorable w) (hp : IsWord p.word)
    (hps : ∀ p ∈ ps, IsWord p.word) :
    restoreInitialism (capitalized w) initialism 0 (p.rest ++ written ps)
      = p.rest ++ restoreInitialism (capitalized w) initialism 0 (written ps) :=
  restoreInitialism_append fun _ _ _ heq => not_standsIn_rest hw hp hps heq

/-- Where a word ends is seen from what follows: neither of two is longer than the other, since what is
left over would have to be a capital, or none. -/
theorem eq_of_append_eq_append {s s' rest rest' : List Char} (hs : AreLetters s)
    (hs' : ∀ x ∈ s', isUpper x = false) (hnext : CapitalNext rest)
    (hboundary : ∀ x ∈ rest'.head?, isUpper x = true ∨ x = '_') (heq : s ++ rest = s' ++ rest') :
    s = s' := by
  obtain ⟨more, hmore, hrest⟩ | ⟨more, hmore, hrest⟩ := List.append_eq_append_iff.mp heq
  · cases more with
    | nil => rw [hmore, List.append_nil]
    | cons y more =>
      have hy : isUpper y = true := by
        rw [hrest] at hnext
        exact capitalNext_cons.mp hnext
      have hnot : isUpper y = false := hs' y (by rw [hmore]; simp)
      rw [hy] at hnot
      cases hnot
  · cases more with
    | nil => rw [hmore, List.append_nil]
    | cons y more =>
      have hlower : y.isLower = true := hs y (by rw [hmore]; simp)
      have hy := hboundary y (by rw [hrest]; rfl)
      rw [isUpper_of_isLower hlower] at hy
      exact absurd (hy.resolve_left Bool.false_ne_true) (ne_underscore_of_isLower hlower)

/-- At the start of a part the word stands exactly if it is that part. -/
theorem standsIn_text_iff (hw : Restorable w) (hp : IsWord p.word) (hps : ∀ p ∈ ps, IsWord p.word) :
    StandsIn (capitalized w) (p.text ++ written ps) ↔ p = ⟨w, false⟩ := by
  have hnext : CapitalNext (written ps) := capitalNext_written fun q hq => (hps q hq).part
  obtain ⟨v, up⟩ := p
  obtain ⟨c, d, s, rfl, hc, hd, hs⟩ := hp.exists_cons
  constructor
  · intro h
    cases up with
    | true =>
      have htext : (⟨c :: d :: s, true⟩ : Part).text ++ written ps
          = c.toUpper :: (d.toUpper :: (s.map Char.toUpper ++ written ps)) := rfl
      rw [htext] at h
      exact absurd h (not_standsIn_of_capitalNext hw (capitalNext_cons.mpr (isUpper_toUpper hd)))
    | false =>
      obtain ⟨c', s', rfl, hc', -, hs'⟩ := hw
      obtain ⟨rest, heq, hboundary⟩ := h
      have htext : (⟨c :: d :: s, false⟩ : Part).text ++ written ps
          = c.toUpper :: (d :: s ++ written ps) := rfl
      rw [htext] at heq
      obtain ⟨hcapital, htail⟩ := List.cons_eq_cons.mp heq
      have hfirst : c = c' := by
        rw [← toLower_toUpper_of_isLower hc, hcapital, toLower_toUpper_of_isLower hc']
      have hlater : d :: s = s' :=
        eq_of_append_eq_append (areLetters_cons.mpr ⟨hd, hs⟩) hs' hnext hboundary htail
      rw [hfirst, hlater]
  · rintro ⟨rfl, rfl⟩
    exact ⟨written ps, rfl, fun x hx => .inl (hnext x hx)⟩

/-- What restoring a word makes of parts: the word is put in capitals, unless it was just behind one that
was, whose capital has been passed over. -/
def restoredBy (w : List Char) (passed : Bool) : List Part → List Part
  | [] => []
  | p :: ps =>
    if p = ⟨w, false⟩ ∧ passed = false then ⟨w, true⟩ :: restoredBy w true ps
    else p :: restoredBy w false ps

theorem written_restoredBy_passed (p : Part) (ps : List Part) :
    written (restoredBy w true (p :: ps)) = p.text ++ written (restoredBy w false ps) := by
  rw [restoredBy, if_neg (fun h => Bool.noConfusion h.2)]
  rfl

/-- The word itself is restored, and restoring goes on behind the first letter of the next part. -/
theorem restoreInitialism_word (hw : Restorable w) (hps : ∀ p ∈ ps, IsWord p.word)
    (hpassed : restoreInitialism (capitalized w) initialism 0 (written ps).tail
      = (written (restoredBy w true ps)).tail) :
    restoreInitialism (capitalized w) initialism 0 (capitalized w ++ written ps)
      = initialism ++ written (restoredBy w true ps) := by
  have hne : capitalized w ≠ [] := by
    obtain ⟨c, s, rfl, -⟩ := hw
    exact List.cons_ne_nil _ _
  cases ps with
  | nil =>
    show restoreInitialism (capitalized w) _ 0 (capitalized w ++ []) = initialism ++ []
    rw [List.append_nil, List.append_nil]
    exact restoreInitialism_self hne
  | cons q qs =>
    have hq : IsWord q.word := hps q List.mem_cons_self
    obtain ⟨d, e, u, hu, hd, -⟩ := hq.exists_cons
    rw [written_restoredBy_passed, written_cons, Part.text_eq hu, List.cons_append] at hpassed
    rw [written_restoredBy_passed, written_cons, Part.text_eq hu, List.cons_append,
      List.cons_append, restoreInitialism_self_append hne (isUpper_toUpper hd)]
    exact congrArg (fun text => initialism ++ d.toUpper :: text) hpassed

/-- Restoring an initialism in a text of parts restores it among the parts; and so in a text whose first
letter has been passed over. -/
theorem restoreInitialism_written (hw : Restorable w) (hps : ∀ p ∈ ps, IsWord p.word) :
    restoreInitialism (capitalized w) (w.map Char.toUpper) 0 (written ps)
        = written (restoredBy w false ps)
      ∧ restoreInitialism (capitalized w) (w.map Char.toUpper) 0 (written ps).tail
        = (written (restoredBy w true ps)).tail := by
  induction ps with
  | nil => exact ⟨rfl, rfl⟩
  | cons p ps ih =>
    obtain ⟨hp, hrest⟩ := List.forall_mem_cons.mp hps
    obtain ⟨ihstart, ihpassed⟩ := ih hrest
    obtain ⟨c, v, hv⟩ := List.exists_cons_of_ne_nil hp.part.1
    have hinside : restoreInitialism (capitalized w) (w.map Char.toUpper) 0 (p.rest ++ written ps)
        = p.rest ++ written (restoredBy w false ps) := by
      rw [restoreInitialism_rest hw hp hrest, ihstart]
    constructor
    · rw [written_cons]
      by_cases hmatch : p = ⟨w, false⟩
      · subst hmatch
        rw [restoredBy, if_pos ⟨rfl, rfl⟩]
        exact restoreInitialism_word hw hrest ihpassed
      · have hnot : ¬ StandsIn (capitalized w) (p.text ++ written ps) := by
          rw [standsIn_text_iff hw hp hrest]
          exact hmatch
        rw [restoredBy, if_neg fun h => hmatch h.1, written_cons]
        rw [Part.text_eq hv, List.cons_append] at hnot ⊢
        rw [restoreInitialism_cons hnot, hinside, List.cons_append]
    · rw [written_restoredBy_passed, written_cons, Part.text_eq hv, List.cons_append, List.cons_append,
        List.tail_cons, List.tail_cons]
      exact hinside

end Parts

/-! ## Restoring all initialisms -/

/-- How often the word stands in a row at the start of a list of words. -/
def run (w : List Char) (words : List (List Char)) : Nat := (words.takeWhile (· == w)).length

theorem run_cons (w v : List Char) (words : List (List Char)) :
    run w (v :: words) = if v = w then run w words + 1 else 0 := by
  rw [run, List.takeWhile_cons]
  by_cases h : v = w
  · rw [if_pos (by simpa using h), if_pos h, List.length_cons, run]
  · rw [if_neg (by simpa using h), if_neg h, List.length_nil]

/-- The words as parts. One of those to be restored is in capitals if an even number of the same stands
directly before it. `seen` are the words before, the last first. -/
def marks (restored seen : List (List Char)) : List (List Char) → List Part
  | [] => []
  | w :: ws => ⟨w, restored.contains w && run w seen % 2 == 0⟩ :: marks restored (w :: seen) ws

theorem map_word_marks (restored seen words : List (List Char)) :
    (marks restored seen words).map (·.word) = words := by
  induction words generalizing seen with
  | nil => rfl
  | cons w ws ih => rw [marks, List.map_cons, ih]

theorem word_mem_of_capitals {restored seen words : List (List Char)} :
    ∀ p ∈ marks restored seen words, p.capitals = true → p.word ∈ restored := by
  induction words generalizing seen with
  | nil => exact List.forall_mem_nil _
  | cons w ws ih =>
    refine List.forall_mem_cons.mpr ⟨fun hcapitals => ?_, ih⟩
    have hboth : restored.contains w = true ∧ (run w seen % 2 == 0) = true := by
      rw [← Bool.and_eq_true]
      exact hcapitals
    simpa using hboth.1

theorem written_marks_nil (seen words : List (List Char)) :
    written (marks [] seen words) = words.flatMap capitalized := by
  induction words generalizing seen with
  | nil => rfl
  | cons w ws ih =>
    rw [marks, written_cons, List.flatMap_cons, ih]
    rfl

/-- Restoring one more word. -/
theorem restoredBy_marks {restored : List (List Char)} {w : List Char} (hw : w ∉ restored)
    (seen words : List (List Char)) :
    restoredBy w (run w seen % 2 == 1) (marks restored seen words)
      = marks (restored ++ [w]) seen words := by
  induction words generalizing seen with
  | nil => rfl
  | cons v vs ih =>
    have hrest := ih (v :: seen)
    rw [run_cons] at hrest
    rw [marks, marks, restoredBy]
    by_cases hv : v = w
    · subst hv
      have hnone : restored.contains v = false := by simpa using hw
      have hsome : (restored ++ [v]).contains v = true := by simp
      rw [if_pos rfl] at hrest
      rw [hnone, hsome, Bool.false_and, Bool.true_and]
      obtain heven | hodd := Nat.mod_two_eq_zero_or_one (run v seen)
      · have hnext : (run v seen + 1) % 2 = 1 := by omega
        rw [hnext] at hrest
        rw [heven, if_pos ⟨rfl, rfl⟩]
        exact congrArg _ hrest
      · have hnext : (run v seen + 1) % 2 = 0 := by omega
        rw [hnext] at hrest
        rw [hodd, if_neg fun h => Bool.noConfusion h.2]
        exact congrArg _ hrest
    · have hsame : (restored ++ [w]).contains v = restored.contains v := by simp [hv]
      rw [if_neg hv] at hrest
      rw [hsame, if_neg fun h => hv (congrArg Part.word h.1)]
      exact congrArg _ hrest

/-- Restoring one word after the other. -/
theorem foldl_restoreInitialism {words : List (List Char)} (hwords : ∀ w ∈ words, IsWord w)
    (is : List String) (restored : List (List Char))
    (his : ∀ i ∈ is, Restorable (lowered i) ∧ i.toList = (lowered i).map Char.toUpper)
    (hnodup : (restored ++ is.map lowered).Nodup) :
    is.foldl (fun text i => restoreInitialism (asWord i) i.toList 0 text)
        (written (marks restored [] words))
      = written (marks (restored ++ is.map lowered) [] words) := by
  induction is generalizing restored with
  | nil => rw [List.map_nil, List.append_nil, List.foldl_nil]
  | cons i is ih =>
    obtain ⟨hi, hrest⟩ := List.forall_mem_cons.mp his
    have hassoc : restored ++ (i :: is).map lowered
        = (restored ++ [lowered i]) ++ is.map lowered := by
      rw [List.map_cons, List.append_assoc]
      rfl
    rw [hassoc] at hnodup
    have hnew : lowered i ∉ restored := by
      have hfirst := (List.nodup_append.mp hnodup).1
      intro hmem
      exact (List.nodup_append.mp hfirst).2.2 _ hmem _ List.mem_cons_self rfl
    have hparts : ∀ p ∈ marks restored [] words, IsWord p.word := by
      intro p hp
      have hword : p.word ∈ (marks restored [] words).map (·.word) := List.mem_map_of_mem hp
      rw [map_word_marks] at hword
      exact hwords _ hword
    have hstep : restoreInitialism (asWord i) i.toList 0 (written (marks restored [] words))
        = written (marks (restored ++ [lowered i]) [] words) := by
      rw [hi.2, ← restoredBy_marks hnew]
      exact (restoreInitialism_written hi.1 hparts).1
    rw [List.foldl_cons, hstep, hassoc]
    exact ih _ hrest hnodup

end Naming

namespace Identifier

open Naming

/-- The words of the identifier as the parts of a name. -/
def parts (i : Identifier) : List Part := marks initialismWords [] i.words

theorem map_word_parts (i : Identifier) : i.parts.map (·.word) = i.words := map_word_marks _ _ _

theorem isWord_parts (i : Identifier) : ∀ p ∈ i.parts, IsWord p.word := by
  intro p hp
  have hword : p.word ∈ i.parts.map (·.word) := List.mem_map_of_mem hp
  rw [map_word_parts] at hword
  exact i.isWord _ hword

/-- The name of a field has the words of its identifier as parts, every other one of the same initialism
in a row in capitals. -/
theorem typeName_text (i : Identifier) : typeName i.text = String.ofList (written i.parts) := by
  have hrestored := foldl_restoreInitialism i.isWord initialisms []
    (fun j hj => ⟨restorable_lowered j hj, toUpper_lowered j hj⟩) initialismWords_nodup
  rw [typeName, i.splitChars_text, ← written_marks_nil [] i.words]
  exact congrArg String.ofList hrestored

end Identifier

end RecordSql
