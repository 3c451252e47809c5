/-
  RecordSql.Proofs.Identifiers.Respelled

  The way back from a name to words.  First every initialism is written as a word
  (`replaced`); of those that fit, the first in the list is taken, not the
  longest.  `HTTP` stands before `HTTPS` and leaves its `S` behind, and `UID`
  stands before `UI` and takes the `D` of the next part along (`respelled`).
  Everything else is written with a capital again, and then each part begins
  where the case changes.
-/

import RecordSql.Proofs.Identifiers.Restored

namespace RecordSql

open RecordSql.Text

theorem replacePairs_skip (pairs : List (List Char × List Char)) (s rest : List Char) :
    replacePairs pairs s.length (s ++ rest) = replacePairs pairs 0 rest := by
  induction s with
  | nil => rfl
  | cons c s ih =>
    rw [List.length_cons, List.cons_append, replacePairs]
    exact ih

theorem replacePairs_nil (text : List Char) : replacePairs [] 0 text = text := by
  induction text with
  | nil => rfl
  | cons c text ih => rw [replacePairs, List.find?_nil, ih]

namespace Naming

/-! ## The first initialism -/

/-- The initialism that a text begins with; of several the first in the list. -/
def first? (text : List Char) : Option String :=
  initialisms.find? fun i => !i.toList.isEmpty && i.toList.isPrefixOf text

/-- Every initialism written as a word. -/
def replaced (text : List Char) : List Char :=
  replacePairs (initialisms.map fun i => (i.toList, asWord i)) 0 text

section First

variable {text rest : List Char} {c : Char} {i : String}

theorem replaced_cons_of_none (h : first? (c :: text) = none) :
    replaced (c :: text) = c :: replaced text := by
  rw [replaced, replacePairs, List.find?_map]
  have hfind : initialisms.find? ((fun p : List Char × List Char =>
      !p.1.isEmpty && p.1.isPrefixOf (c :: text)) ∘ fun i => (i.toList, asWord i)) = none := h
  rw [hfind]
  rfl

theorem replaced_append_of_first? (hne : i.toList ≠ [])
    (h : first? (i.toList ++ rest) = some i) :
    replaced (i.toList ++ rest) = asWord i ++ replaced rest := by
  obtain ⟨c, s, hi⟩ := List.exists_cons_of_ne_nil hne
  have hfind : initialisms.find? ((fun p : List Char × List Char =>
      !p.1.isEmpty && p.1.isPrefixOf (c :: (s ++ rest))) ∘ fun i => (i.toList, asWord i)) = some i := by
    rw [hi] at h
    exact h
  rw [hi, List.cons_append, replaced, replacePairs, List.find?_map, hfind]
  show asWord i ++ replacePairs _ (i.toList.length - 1) (s ++ rest) = _
  rw [hi, List.length_cons, Nat.add_sub_cancel, replacePairs_skip, replaced]

theorem first?_eq_none (h : ∀ i ∈ initialisms, ¬ i.toList <+: text) : first? text = none := by
  rw [first?, List.find?_eq_none]
  intro i hi hfits
  rw [Bool.and_eq_true, List.isPrefixOf_iff_prefix] at hfits
  exact h i hi hfits.2

/-- An initialism begins with two capitals. -/
theorem two_capitals : ∀ i ∈ initialisms, ∃ c d s, i.toList = c :: d :: s ∧ isUpper c = true
    ∧ isUpper d = true := by
  intro i hi
  have hshape : ∀ i ∈ initialisms, (i.toList.head?.any isUpper
      && i.toList.tail.head?.any isUpper) = true := by decide
  have h := hshape i hi
  match hlist : i.toList with
  | [] => rw [hlist] at h; cases h
  | [c] => rw [hlist] at h; simp at h
  | c :: d :: s =>
    rw [hlist] at h
    simp only [List.head?_cons, List.tail_cons, Option.any_some, Bool.and_eq_true] at h
    exact ⟨c, d, s, rfl, h.1, h.2⟩

theorem first?_of_not_isUpper (hc : isUpper c = false) : first? (c :: text) = none := by
  refine first?_eq_none fun i hi hfits => ?_
  obtain ⟨c', d, s, heq, hc', -⟩ := two_capitals i hi
  rw [heq, List.cons_prefix_cons] at hfits
  rw [← hfits.1, hc'] at hc
  cases hc

theorem first?_of_next_not_isUpper (hnext : ∀ x ∈ text.head?, isUpper x = false) :
    first? (c :: text) = none := by
  refine first?_eq_none fun i hi hfits => ?_
  obtain ⟨c', d, s, heq, -, hd⟩ := two_capitals i hi
  rw [heq, List.cons_prefix_cons] at hfits
  obtain ⟨more, rfl⟩ := hfits.2
  have hlower := hnext d rfl
  rw [hd] at hlower
  cases hlower

/-- Which of two initialisms stands in the list before another, and is the beginning of the other or the
other way round. -/
theorem overlaps : ∀ i ∈ initialisms, ∀ j ∈ initialisms.takeWhile (· != i),
    (j.toList.isPrefixOf i.toList = true → i = "HTTPS")
      ∧ (i.toList.isPrefixOf j.toList = true → i = "UI" ∧ j = "UID") := by
  decide +kernel

/-- An initialism is found at the start of a text, unless another before it in the list fits too. -/
theorem first?_self (hi : i ∈ initialisms) (hhttps : i ≠ "HTTPS")
    (hui : i = "UI" → rest.head? ≠ some 'D') :
    first? (i.toList ++ rest) = some i := by
  obtain ⟨c, d, s, hlist, -, -⟩ := two_capitals i hi
  have hne : i.toList.isEmpty = false := by rw [hlist]; rfl
  obtain ⟨before, after, hsplit, hbefore⟩ := List.eq_append_cons_of_mem hi
  have htake : initialisms.takeWhile (· != i) = before := by
    rw [hsplit, List.takeWhile_append_of_pos fun j hj => ?_, List.takeWhile_cons, if_neg (by simp),
      List.append_nil]
    rw [bne_iff_ne]
    rintro rfl
    exact hbefore hj
  rw [first?, List.find?_eq_some_iff_append]
  refine ⟨?_, before, after, hsplit, fun j hj => ?_⟩
  · rw [hne, Bool.not_false, Bool.true_and, List.isPrefixOf_iff_prefix]
    exact List.prefix_append _ _
  · obtain ⟨hshorter, hlonger⟩ := overlaps i hi j (htake ▸ hj)
    rw [Bool.not_eq_true', Bool.and_eq_false_imp]
    refine fun _ => Bool.eq_false_iff.mpr fun hfits => ?_
    rw [List.isPrefixOf_iff_prefix] at hfits hshorter hlonger
    obtain hprefix | hprefix := List.prefix_or_prefix_of_prefix hfits (List.prefix_append _ rest)
    · exact hhttps (hshorter hprefix)
    · obtain ⟨rfl, rfl⟩ := hlonger hprefix
      obtain ⟨more, hmore⟩ := hfits
      have hletters : "UI".toList ++ 'D' :: more = "UI".toList ++ rest := hmore
      have hrest : rest = 'D' :: more := (List.append_cancel_left hletters).symm
      exact hui rfl (by rw [hrest]; rfl)

end First

/-! ## Parts -/

section Parts

variable {w rest : List Char} {ps : List Part}

/-- Parts of words, with initialisms only in capitals. -/
def Marked (ps : List Part) : Prop :=
  ∀ p ∈ ps, IsWord p.word ∧ (p.capitals = true → p.word ∈ initialismWords)

theorem replaced_letters {s : List Char} (hs : AreLetters s) (rest : List Char) :
    replaced (s ++ rest) = s ++ replaced rest := by
  induction s with
  | nil => rfl
  | cons c s ih =>
    rw [areLetters_cons] at hs
    have hnone : first? (c :: (s ++ rest)) = none :=
      first?_of_not_isUpper (isUpper_of_isLower hs.1)
    rw [List.cons_append, replaced_cons_of_none hnone, ih hs.2, List.cons_append]

/-- A word with a capital is left as it is. -/
theorem replaced_capitalized (hw : IsWord w) (rest : List Char) :
    replaced (capitalized w ++ rest) = capitalized w ++ replaced rest := by
  obtain ⟨c, d, s, rfl, hc, hd, hs⟩ := hw.exists_cons
  have hnone : first? (c.toUpper :: (d :: s ++ rest)) = none := by
    refine first?_of_next_not_isUpper fun x hx => ?_
    obtain rfl : d = x := Option.some.inj hx
    exact isUpper_of_isLower hd
  show replaced (c.toUpper :: (d :: s ++ rest)) = c.toUpper :: (d :: s ++ replaced rest)
  rw [replaced_cons_of_none hnone, replaced_letters (areLetters_cons.mpr ⟨hd, hs⟩)]

theorem exists_initialism (hw : w ∈ initialismWords) :
    ∃ i ∈ initialisms, lowered i = w ∧ i.toList = w.map Char.toUpper ∧ asWord i = capitalized w := by
  obtain ⟨i, hi, rfl⟩ := List.mem_map.mp hw
  exact ⟨i, hi, rfl, toUpper_lowered i hi, rfl⟩

/-- No initialism begins with an `S` and then as another does, nor the other way round. -/
theorem behind_s : ∀ i ∈ initialisms, i.toList.head? = some 'S' → ∀ j ∈ initialisms,
    i.toList.tail.isPrefixOf j.toList = false ∧ j.toList.isPrefixOf i.toList.tail = false := by
  decide +kernel

/-- Those that begin with an `S` have three capitals. -/
theorem three_capitals : ∀ i ∈ initialisms, i.toList.head? = some 'S' →
    ∃ d e s, i.toList = 'S' :: d :: e :: s ∧ isUpper e = true := by
  intro i hi hhead
  have hshape : ∀ i ∈ initialisms, i.toList.head? = some 'S' →
      (i.toList.tail.tail.head?.any isUpper) = true := by decide
  have h := hshape i hi hhead
  match hlist : i.toList with
  | [] => rw [hlist] at h; cases h
  | [c] => rw [hlist] at h; cases h
  | [c, d] => rw [hlist] at h; cases h
  | c :: d :: e :: s =>
    rw [hlist] at h hhead
    obtain rfl : c = 'S' := Option.some.inj hhead
    exact ⟨d, e, s, rfl, by simpa using h⟩

/-- An `S` that is left behind before parts belongs to no initialism. -/
theorem replaced_s (hps : Marked ps) :
    replaced ('S' :: written ps) = 'S' :: replaced (written ps) := by
  refine replaced_cons_of_none (first?_eq_none fun i hi hfits => ?_)
  have hhead : i.toList.head? = some 'S' := by
    obtain ⟨c, d, s, hlist, -, -⟩ := two_capitals i hi
    rw [hlist, List.cons_prefix_cons] at hfits
    rw [hlist, hfits.1]
    rfl
  obtain ⟨d, e, s, hlist, he⟩ := three_capitals i hi hhead
  cases ps with
  | nil =>
    rw [hlist, List.cons_prefix_cons] at hfits
    exact absurd (List.prefix_nil.mp hfits.2) (List.cons_ne_nil _ _)
  | cons p ps =>
    obtain ⟨hword, hcapitals⟩ := hps p List.mem_cons_self
    obtain ⟨v, up⟩ := p
    cases up with
    | false =>
      obtain ⟨c', d', s', rfl, -, hd', -⟩ := hword.exists_cons
      rw [hlist, List.cons_prefix_cons] at hfits
      have htext : d :: e :: s <+: c'.toUpper :: d' :: (s' ++ written ps) := hfits.2
      rw [List.cons_prefix_cons, List.cons_prefix_cons] at htext
      rw [htext.2.1, isUpper_of_isLower hd'] at he
      cases he
    | true =>
      obtain ⟨j, hj, -, hjlist, -⟩ := exists_initialism (hcapitals rfl)
      obtain ⟨hshorter, hlonger⟩ := behind_s i hi hhead j hj
      have htail : i.toList.tail <+: j.toList ++ written ps := by
        rw [hlist, List.cons_prefix_cons] at hfits
        rw [hlist, hjlist]
        exact hfits.2
      obtain hprefix | hprefix :=
        List.prefix_or_prefix_of_prefix htail (List.prefix_append j.toList (written ps))
      · rw [← List.isPrefixOf_iff_prefix, hshorter] at hprefix
        cases hprefix
      · rw [← List.isPrefixOf_iff_prefix, hlonger] at hprefix
        cases hprefix

/-- An initialism in capitals, where it does not take from the next part: with a capital, or in two parts
if a shorter one is taken for it. -/
def spelled (w : List Char) : List Part :=
  if w = ['h', 't', 't', 'p', 's'] then [⟨['h', 't', 't', 'p'], false⟩, ⟨['s'], true⟩] else [⟨w, false⟩]

/-- The parts that are left when every initialism is written as a word. -/
def respelled : List Part → List Part
  | [] => []
  | ⟨w, false⟩ :: ps => ⟨w, false⟩ :: respelled ps
  | [⟨w, true⟩] => spelled w
  | ⟨w, true⟩ :: ⟨v, up⟩ :: ps =>
    if w = ['u', 'i'] ∧ v.head? = some 'd' then
      (if up then [⟨['u', 'i', 'd'], false⟩, ⟨v.tail, true⟩]
        else [⟨['u', 'i', 'd'] ++ v.tail, false⟩]) ++ respelled ps
    else spelled w ++ respelled (⟨v, up⟩ :: ps)

theorem spelled_ne_nil (w : List Char) : spelled w ≠ [] := by
  rw [spelled]
  split <;> exact List.cons_ne_nil _ _

theorem respelled_ne_nil (h : ps ≠ []) : respelled ps ≠ [] := by
  cases ps using respelled.fun_cases with
  | case1 => exact absurd rfl h
  | case2 w ps => exact List.cons_ne_nil _ _
  | case3 w => exact spelled_ne_nil w
  | case4 w v up ps htakes =>
    rw [respelled, if_pos htakes]
    split <;> exact List.cons_ne_nil _ _
  | case5 w v up ps htakes =>
    rw [respelled, if_neg htakes]
    exact List.append_ne_nil_of_left_ne_nil (spelled_ne_nil w) _

theorem written_append (ps qs : List Part) : written (ps ++ qs) = written ps ++ written qs :=
  List.flatMap_append

/-- An initialism in capitals before parts, where `UI` has no `D` to take. -/
theorem replaced_initialism (hw : w ∈ initialismWords) (hps : Marked ps)
    (hui : w = ['u', 'i'] → (written ps).head? ≠ some 'D') :
    replaced (w.map Char.toUpper ++ written ps) = written (spelled w) ++ replaced (written ps) := by
  obtain ⟨i, hi, rfl, hlist, hasWord⟩ := exists_initialism hw
  have hne : i.toList ≠ [] := by
    obtain ⟨c, d, s, hlist, -, -⟩ := two_capitals i hi
    rw [hlist]
    exact List.cons_ne_nil _ _
  rw [← hlist, spelled]
  by_cases hhttps : i = "HTTPS"
  · -- The shorter one stands first in the list.
    subst hhttps
    have hfirst : first? ("HTTP".toList ++ 'S' :: written ps) = some "HTTP" :=
      first?_self (by decide) (by decide) (fun h => absurd h (by decide))
    have hreplaced := replaced_append_of_first? (by decide) hfirst
    rw [replaced_s hps] at hreplaced
    rw [if_pos (by decide)]
    exact hreplaced
  · have hnot : lowered i ≠ ['h', 't', 't', 'p', 's'] := by
      intro heq
      have honly : ∀ i ∈ initialisms, lowered i = ['h', 't', 't', 'p', 's'] → i = "HTTPS" := by decide
      exact hhttps (honly i hi heq)
    have hfirst : first? (i.toList ++ written ps) = some i :=
      first?_self hi hhttps fun h => hui (by rw [h]; decide)
    rw [replaced_append_of_first? hne hfirst, if_neg hnot, hasWord]
    show _ = (capitalized (lowered i) ++ []) ++ _
    rw [List.append_nil]

/-- `UI` takes the `D` of the next part along. -/
theorem replaced_uid (rest : List Char) :
    replaced ("UI".toList ++ 'D' :: rest) = ['U', 'i', 'd'] ++ replaced rest := by
  have hfirst : first? ("UID".toList ++ rest) = some "UID" :=
    first?_self (by decide) (by decide) (fun h => absurd h (by decide))
  exact replaced_append_of_first? (by decide) hfirst

/-- Only one initialism begins with a `D`, and what is left of it belongs to no other. -/
theorem replaced_ns (hw : w ∈ initialismWords) (hd : w.head? = some 'd') (hps : Marked ps) :
    replaced (w.tail.map Char.toUpper ++ written ps)
      = w.tail.map Char.toUpper ++ replaced (written ps) := by
  have honly : ∀ w ∈ initialismWords, w.head? = some 'd' → w = ['d', 'n', 's'] := by decide
  obtain rfl := honly w hw hd
  have hnone : first? ('N' :: 'S' :: written ps) = none := by
    refine first?_eq_none fun i hi hfits => ?_
    have hn : ∀ i ∈ initialisms, i.toList.head? ≠ some 'N' := by decide
    obtain ⟨c, d, s, hlist, -, -⟩ := two_capitals i hi
    rw [hlist, List.cons_prefix_cons] at hfits
    exact hn i hi (by rw [hlist, hfits.1]; rfl)
  show replaced ('N' :: 'S' :: written ps) = 'N' :: 'S' :: replaced (written ps)
  rw [replaced_cons_of_none hnone, replaced_s hps]

/-- Writing every initialism as a word changes the parts. -/
theorem replaced_written (hps : Marked ps) : replaced (written ps) = written (respelled ps) := by
  induction ps using respelled.induct with
  | case1 => rfl
  | case2 w ps ih =>
    obtain ⟨⟨hw, -⟩, hrest⟩ := List.forall_mem_cons.mp hps
    rw [respelled, written_cons, written_cons, ← ih hrest]
    exact replaced_capitalized hw (written ps)
  | case3 w =>
    obtain ⟨⟨-, hw⟩, -⟩ := List.forall_mem_cons.mp hps
    have h : replaced (w.map Char.toUpper ++ written []) = written (spelled w) ++ replaced [] :=
      replaced_initialism (hw rfl) (List.forall_mem_nil _) fun _ h => nomatch h
    have hnil : replaced [] = [] := rfl
    rw [hnil, List.append_nil] at h
    exact h
  | case4 w v up ps h ih =>
    obtain ⟨hmarked, hrest⟩ := List.forall_mem_cons.mp (List.forall_mem_cons.mp hps).2
    obtain ⟨rfl, hd⟩ := h
    rw [respelled, if_pos ⟨rfl, hd⟩, written_append, ← ih hrest]
    cases v with
    | nil => cases hd
    | cons c t =>
      obtain rfl : c = 'd' := Option.some.inj hd
      cases up with
      | false =>
        have hletters : AreLetters t := (areLetters_cons.mp hmarked.1.letters).2
        have huid := replaced_uid (t ++ written ps)
        rw [replaced_letters hletters] at huid
        refine huid.trans ?_
        show _ = (('U' :: 'i' :: 'd' :: t) ++ []) ++ replaced (written ps)
        rw [List.append_nil]
        rfl
      | true =>
        have huid := replaced_uid (t.map Char.toUpper ++ written ps)
        have hns : replaced (t.map Char.toUpper ++ written ps)
            = t.map Char.toUpper ++ replaced (written ps) := replaced_ns (hmarked.2 rfl) hd hrest
        rw [hns] at huid
        refine huid.trans ?_
        show _ = (['U', 'i', 'd'] ++ (t.map Char.toUpper ++ [])) ++ replaced (written ps)
        rw [List.append_nil, List.append_assoc]
  | case5 w v up ps h ih =>
    obtain ⟨⟨-, hw⟩, hrest⟩ := List.forall_mem_cons.mp hps
    have hui : w = ['u', 'i'] → (written (⟨v, up⟩ :: ps)).head? ≠ some 'D' := by
      intro hw hD
      obtain ⟨c, d, s, rfl, hc, -, -⟩ := (hrest ⟨v, up⟩ List.mem_cons_self).1.exists_cons
      rw [written_cons, Part.text_eq rfl] at hD
      have hcapital : c.toUpper = 'D' := Option.some.inj hD
      have hletter : c = 'd' := by
        rw [← toLower_toUpper_of_isLower hc, hcapital]
        decide
      exact h ⟨hw, by rw [hletter]; rfl⟩
    rw [respelled, if_neg h, written_append, ← ih hrest]
    exact replaced_initialism (hw rfl) hrest hui

/-! ## Where a part begins -/

/-- In capitals are only parts with a word in lower case before them and none in capitals behind them;
`afterCapitals` says what stands before. -/
inductive Spaced : Bool → List Part → Prop where
  | nil (afterCapitals : Bool) : Spaced afterCapitals []
  | word {w : List Char} {ps : List Part} (afterCapitals : Bool) (hw : IsWord w) (h : Spaced false ps) :
    Spaced afterCapitals (⟨w, false⟩ :: ps)
  | capitals {w : List Char} {ps : List Part} (hne : w ≠ []) (hw : AreLetters w) (h : Spaced true ps) :
    Spaced false (⟨w, true⟩ :: ps)

namespace Spaced

variable {b : Bool}

theorem part (h : Spaced b ps) : ∀ p ∈ ps, p.word ≠ [] ∧ AreLetters p.word := by
  induction h with
  | nil => exact List.forall_mem_nil _
  | word _ hw _ ih => exact List.forall_mem_cons.mpr ⟨IsWord.part (p := ⟨_, false⟩) hw, ih⟩
  | capitals hne hw _ ih => exact List.forall_mem_cons.mpr ⟨⟨hne, hw⟩, ih⟩

/-- What may follow capitals may follow anything. -/
theorem weaken (h : Spaced true ps) : Spaced b ps := by
  cases h with
  | nil => exact .nil b
  | word _ hw h => exact .word b hw h

end Spaced

theorem spaced_spelled (hw : IsWord w) (h : Spaced true ps) : Spaced true (spelled w ++ ps) := by
  rw [spelled]
  split
  · exact .word true ⟨by decide, by decide⟩ (.capitals (by decide) (by decide) h)
  · exact .word true hw h.weaken

theorem spaced_respelled (hps : Marked ps) : Spaced true (respelled ps) := by
  induction ps using respelled.induct with
  | case1 => exact .nil true
  | case2 w ps ih =>
    obtain ⟨⟨hw, -⟩, hrest⟩ := List.forall_mem_cons.mp hps
    rw [respelled]
    exact .word true hw (ih hrest).weaken
  | case3 w =>
    obtain ⟨⟨hw, -⟩, -⟩ := List.forall_mem_cons.mp hps
    have h := spaced_spelled hw (.nil true)
    rwa [List.append_nil] at h
  | case4 w v up ps h ih =>
    obtain ⟨hmarked, hrest⟩ := List.forall_mem_cons.mp (List.forall_mem_cons.mp hps).2
    obtain ⟨c, d, s, hv, -, hd, hs⟩ := hmarked.1.exists_cons
    have hv : v = c :: d :: s := hv
    have htail : AreLetters (d :: s) := areLetters_cons.mpr ⟨hd, hs⟩
    rw [respelled, if_pos h, hv]
    cases up with
    | false =>
      have huid : AreLetters ['u', 'i', 'd'] := by decide
      have hletters : AreLetters (['u', 'i', 'd'] ++ d :: s) :=
        List.forall_mem_append.mpr ⟨huid, htail⟩
      have hlength : 2 ≤ (['u', 'i', 'd'] ++ d :: s).length := by
        rw [List.length_append]
        exact Nat.le_trans (by decide) (Nat.le_add_right _ _)
      exact .word true ⟨hletters, hlength⟩ (ih hrest).weaken
    | true =>
      exact .word true ⟨by decide, by decide⟩ (.capitals (List.cons_ne_nil _ _) htail (ih hrest))
  | case5 w v up ps h ih =>
    obtain ⟨⟨hw, -⟩, hrest⟩ := List.forall_mem_cons.mp hps
    rw [respelled, if_neg h]
    exact spaced_spelled hw (ih hrest)

/-- Before a capital that a lower-case letter follows an underscore is written. -/
theorem breaksBefore_isLower {p d : Char} (hp : p ≠ '_') (hd : d.isLower = true) :
    breaksBefore (some p) (some d) = true := by
  have hd' : d ≠ '_' := ne_underscore_of_isLower hd
  simp [breaksBefore, isUpper_of_isLower hd, isDigit_of_isLower hd, hp, hd']

/-- So it is before capitals behind a lower-case letter. -/
theorem breaksBefore_of_not_isUpper {p : Char} (hp : isUpper p = false) (hne : p ≠ '_')
    {text : List Char} (hnext : CapitalNext text) : breaksBefore (some p) text.head? = true := by
  cases text with
  | nil => simp [breaksBefore, hp]
  | cons x text =>
    have hx : x ≠ '_' := ne_underscore_of_isUpper (capitalNext_cons.mp hnext)
    simp [breaksBefore, hp, hne, hx]

/-- It is not written within capitals. -/
theorem breaksBefore_of_isUpper {p : Char} (hp : isUpper p = true) {text : List Char}
    (hnext : CapitalNext text) : breaksBefore (some p) text.head? = false := by
  cases text with
  | nil => simp [breaksBefore, hp]
  | cons x text =>
    have hx : isUpper x = true := capitalNext_cons.mp hnext
    simp [breaksBefore, hp, hx]

/-- Lower-case letters are written as they are. -/
theorem snakeFrom_letters {p : Char} {s : List Char} (hp : isUpper p = false ∧ p ≠ '_')
    (hs : AreLetters s) :
    ∃ q, (isUpper q = false ∧ q ≠ '_')
      ∧ ∀ rest, snakeFrom (some p) (s ++ rest) = s ++ snakeFrom (some q) rest := by
  induction s generalizing p with
  | nil => exact ⟨p, hp, fun _ => rfl⟩
  | cons c s ih =>
    obtain ⟨hc, hrest⟩ := areLetters_cons.mp hs
    have hlower : isUpper c = false := isUpper_of_isLower hc
    obtain ⟨q, hq, hlater⟩ := ih ⟨hlower, ne_underscore_of_isLower hc⟩ hrest
    refine ⟨q, hq, fun rest => ?_⟩
    rw [List.cons_append, snakeFrom, hlower, hlater]
    rfl

/-- A word with a capital, with an underscore before it where one is written. -/
theorem snakeFrom_capitalized (hw : IsWord w) :
    ∃ q, (isUpper q = false ∧ q ≠ '_') ∧ ∀ previous rest, snakeFrom previous (capitalized w ++ rest)
      = (if breaksBefore previous w.tail.head? then '_' :: w else w) ++ snakeFrom (some q) rest := by
  obtain ⟨c, d, s, rfl, hc, hd, hs⟩ := hw.exists_cons
  have hlower : isUpper d = false := isUpper_of_isLower hd
  obtain ⟨q, hq, hlater⟩ := snakeFrom_letters ⟨hlower, ne_underscore_of_isLower hd⟩ hs
  refine ⟨q, hq, fun previous rest => ?_⟩
  show snakeFrom previous (c.toUpper :: d :: (s ++ rest)) = _
  rw [snakeFrom, snakeFrom, isUpper_toUpper hc, hlower, toLower_toUpper_of_isLower hc, hlater]
  show (if breaksBefore previous (some d) then ['_', c] else [c]) ++ (d :: (s ++ _))
    = (if breaksBefore previous (some d) then '_' :: c :: d :: s else c :: d :: s) ++ _
  split <;> rfl

/-- Capitals in a row are one word. -/
theorem snakeFrom_capitals {p : Char} {s : List Char} (hp : isUpper p = true) (hs : AreLetters s) :
    ∃ q, isUpper q = true ∧ ∀ rest, CapitalNext rest →
      snakeFrom (some p) (s.map Char.toUpper ++ rest) = s ++ snakeFrom (some q) rest := by
  induction s generalizing p with
  | nil => exact ⟨p, hp, fun _ _ => rfl⟩
  | cons c s ih =>
    obtain ⟨hc, hrest⟩ := areLetters_cons.mp hs
    have hcapital : isUpper c.toUpper = true := isUpper_toUpper hc
    obtain ⟨q, hq, hlater⟩ := ih hcapital hrest
    refine ⟨q, hq, fun rest hnext => ?_⟩
    have hjoined : breaksBefore (some p) (s.map Char.toUpper ++ rest).head? = false :=
      breaksBefore_of_isUpper hp (capitalNext_append hrest hnext)
    rw [List.map_cons, List.cons_append, snakeFrom, hcapital, if_pos rfl, hjoined, hlater rest hnext,
      toLower_toUpper_of_isLower hc]
    rfl

/-- Where a part begins an underscore is written. -/
theorem snakeFrom_written {b : Bool} (h : Spaced b ps) {p : Char} (hp : isUpper p = b)
    (hne : p ≠ '_') :
    snakeFrom (some p) (written ps) = ps.flatMap fun part => '_' :: part.word := by
  induction h generalizing p with
  | nil => rfl
  | @word w ps _ hw _ ih =>
    obtain ⟨q, hq, hword⟩ := snakeFrom_capitalized hw
    obtain ⟨c, d, s, rfl, -, hd, -⟩ := hw.exists_cons
    have hbreak : breaksBefore (some p) (some d) = true := breaksBefore_isLower hne hd
    show snakeFrom (some p) (capitalized (c :: d :: s) ++ written ps) = _
    rw [hword, ih hq.1 hq.2, List.flatMap_cons]
    show (if breaksBefore (some p) (some d) then _ else _) ++ _ = _
    rw [hbreak]
    rfl
  | @capitals w ps hwne hw h ih =>
    obtain ⟨c, t, rfl⟩ := List.exists_cons_of_ne_nil hwne
    obtain ⟨hc, ht⟩ := areLetters_cons.mp hw
    have hcapital : isUpper c.toUpper = true := isUpper_toUpper hc
    have hnext : CapitalNext (written ps) := capitalNext_written h.part
    obtain ⟨q, hq, hlater⟩ := snakeFrom_capitals hcapital ht
    have hbreak : breaksBefore (some p) (t.map Char.toUpper ++ written ps).head? = true :=
      breaksBefore_of_not_isUpper hp hne (capitalNext_append ht hnext)
    show snakeFrom (some p) (c.toUpper :: (t.map Char.toUpper ++ written ps)) = _
    rw [snakeFrom, hcapital, if_pos rfl, hbreak, hlater _ hnext, ih hq (ne_underscore_of_isUpper hq),
      toLower_toUpper_of_isLower hc]
    rfl

/-- The words of the parts, joined by underscores. -/
theorem snakeFrom_none_written (h : Spaced true ps) :
    snakeFrom none (written ps) = joined (ps.map (·.word)) := by
  cases h with
  | nil => rfl
  | @word w ps _ hw hrest =>
    obtain ⟨q, hq, hword⟩ := snakeFrom_capitalized hw
    show snakeFrom none (capitalized w ++ written ps) = _
    rw [hword, snakeFrom_written hrest hq.1 hq.2, List.map_cons, joined, List.flatMap_map]
    rfl

end Parts

end Naming

namespace Identifier

open Naming

theorem marked_parts (i : Identifier) : Marked i.parts := fun p hp =>
  ⟨i.isWord_parts p hp, word_mem_of_capitals p hp⟩

/-- The words of the column that the name of a field with this identifier gives it. -/
def columnWords (i : Identifier) : List (List Char) := (respelled i.parts).map (·.word)

/-- The column that the name of a field with this identifier gives it, where nothing else is set. -/
def column (i : Identifier) : String := ({} : Naming).columnName (typeName i.text)

theorem parts_ne_nil (i : Identifier) : i.parts ≠ [] := by
  intro hnil
  have hwords := i.map_word_parts
  rw [hnil] at hwords
  exact i.words_ne_nil hwords.symm

theorem written_parts_ne_nil (i : Identifier) : written i.parts ≠ [] := by
  obtain ⟨p, ps, hparts⟩ := List.exists_cons_of_ne_nil i.parts_ne_nil
  have hp : IsWord p.word := i.isWord_parts p (by rw [hparts]; exact List.mem_cons_self)
  obtain ⟨c, w, hw⟩ := List.exists_cons_of_ne_nil hp.part.1
  rw [hparts, written_cons, Part.text_eq hw]
  exact List.cons_ne_nil _ _

theorem column_eq (i : Identifier) : i.column = String.ofList (joined i.columnWords) := by
  have hne : (String.ofList (written i.parts)).isEmpty = false := by
    rw [String.isEmpty_eq_false_iff, Ne, ← String.toList_eq_nil_iff, String.toList_ofList]
    exact i.written_parts_ne_nil
  have hlist : (written i.parts).isEmpty = false :=
    List.isEmpty_eq_false_iff.mpr i.written_parts_ne_nil
  have hsnake : snakeCase (written i.parts) = joined i.columnWords := by
    show snakeFrom none (replaced (written i.parts)) = _
    rw [replaced_written i.marked_parts, snakeFrom_none_written (spaced_respelled i.marked_parts)]
    rfl
  rw [column, columnName, i.typeName_text, dbName, hne]
  simp only [List.map_nil, replacePairs_nil, String.toList_ofList, hlist, hsnake]
  rfl

/-- The words are letters, and so they are found again in the column. -/
theorem splitChars_column (i : Identifier) : splitChars '_' i.column.toList = i.columnWords := by
  rw [column_eq, String.toList_ofList]
  have hspaced := spaced_respelled i.marked_parts
  refine splitChars_joined ?_ ?_
  · intro hnil
    exact respelled_ne_nil i.parts_ne_nil (List.map_eq_nil_iff.mp hnil)
  · intro w hw
    obtain ⟨p, hp, rfl⟩ := List.mem_map.mp hw
    exact (hspaced.part p hp).2.underscore_notMem

end Identifier

end RecordSql
