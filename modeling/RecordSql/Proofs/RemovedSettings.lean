/-
  RecordSql.Proofs.RemovedSettings

  Settings that are removed from a tag are gone.  The items that stay are
  written back with their separators escaped, and reading them again gives the
  same items (`items_remove`), so a tag without its column setting gives no
  column (`get?_remove_column`).
-/

import RecordSql.Tag
import RecordSql.Proofs.Letters
import Mathlib.Data.List.Basic

namespace RecordSql.Tag

open RecordSql.Text

/-! ## Items and their separators -/

section Items

variable {sep c : Char} {current cs : List Char}

/-- An item with its separators escaped. -/
def escaped (sep : Char) (item : List Char) : List Char :=
  item.flatMap fun c => if c == sep then ['\\', sep] else [c]

theorem itemsFrom_sep (hsep : sep ≠ '\\') :
    itemsFrom sep current (sep :: cs) = current.reverse :: itemsFrom sep [] cs := by
  cases cs with
  | nil => simp [itemsFrom]
  | cons d cs => simp [itemsFrom, hsep]

theorem itemsFrom_escapedSep :
    itemsFrom sep current ('\\' :: sep :: cs) = itemsFrom sep (sep :: current) cs := by
  simp [itemsFrom]

/-- Any other character is part of the item, unless it escapes a separator. -/
theorem itemsFrom_push (hc : c ≠ sep) (hcs : c = '\\' → cs.head? ≠ some sep) :
    itemsFrom sep current (c :: cs) = itemsFrom sep (c :: current) cs := by
  cases cs with
  | nil => simp [itemsFrom, hc]
  | cons d cs =>
    have hpair : (c == '\\' && d == sep) = false := by
      rw [← Bool.not_eq_true, Bool.and_eq_true, beq_iff_eq, beq_iff_eq]
      rintro ⟨hbackslash, rfl⟩
      exact hcs hbackslash rfl
    rw [itemsFrom, hpair, if_neg Bool.false_ne_true, if_neg (by simpa using hc)]

theorem head?_escaped_append (hsep : sep ≠ '\\') {item : List Char} (hne : item ≠ []) :
    (escaped sep item ++ cs).head? ≠ some sep := by
  cases item with
  | nil => exact absurd rfl hne
  | cons c item =>
    rw [escaped, List.flatMap_cons]
    by_cases hc : c = sep
    · rw [if_pos (by simpa using hc)]
      exact fun h => hsep (Option.some.inj h).symm
    · rw [if_neg (by simpa using hc)]
      exact fun h => hc (Option.some.inj h)

/-- An escaped item is read as a whole, unless what it ends with escapes a separator behind it. -/
theorem itemsFrom_escaped (hsep : sep ≠ '\\') {item : List Char}
    (hend : item.getLast? = some '\\' → cs.head? ≠ some sep) :
    itemsFrom sep current (escaped sep item ++ cs) = itemsFrom sep (item.reverse ++ current) cs := by
  induction item generalizing current with
  | nil => rfl
  | cons c item ih =>
    have hrest : item.getLast? = some '\\' → cs.head? ≠ some sep := by
      intro hlast
      cases item with
      | nil => cases hlast
      | cons d item => exact hend (by rw [List.getLast?_cons_cons, hlast])
    rw [List.reverse_cons, List.append_assoc, List.singleton_append, ← ih hrest, escaped,
      List.flatMap_cons, List.append_assoc]
    by_cases hc : c = sep
    · rw [if_pos (by simpa using hc), hc]
      exact itemsFrom_escapedSep
    · rw [if_neg (by simpa using hc)]
      refine itemsFrom_push hc fun hbackslash => ?_
      cases item with
      | nil => exact hend (by rw [hbackslash]; rfl)
      | cons d item => exact head?_escaped_append hsep (List.cons_ne_nil _ _)

/-- Escaped items between separators are read back, unless one before the last ends with a
backslash. -/
theorem itemsFrom_intercalate (hsep : sep ≠ '\\') {items : List (List Char)} (hne : items ≠ [])
    (hend : ∀ item ∈ items.dropLast, item.getLast? ≠ some '\\') :
    itemsFrom sep [] ([sep].intercalate (items.map (escaped sep))) = items := by
  induction items with
  | nil => exact absurd rfl hne
  | cons item items ih =>
    cases items with
    | nil =>
      have h : itemsFrom sep [] (escaped sep item ++ []) = itemsFrom sep (item.reverse ++ []) [] :=
        itemsFrom_escaped hsep fun _ h => nomatch h
      rw [List.append_nil, List.append_nil] at h
      rw [List.map_singleton, List.intercalate_singleton, h, itemsFrom, List.reverse_reverse]
    | cons next items =>
      have hfirst : item.getLast? ≠ some '\\' := hend item (List.mem_cons_self ..)
      have hrest : ∀ item ∈ (next :: items).dropLast, item.getLast? ≠ some '\\' :=
        fun later hlater => hend later (List.mem_cons_of_mem _ hlater)
      have hlater : itemsFrom sep [] ([sep].intercalate ((next :: items).map (escaped sep)))
          = next :: items := ih (List.cons_ne_nil _ _) hrest
      rw [List.map_cons, List.map_cons, List.intercalate_cons_cons, List.append_assoc,
        itemsFrom_escaped hsep fun hlast => absurd hlast hfirst, List.singleton_append,
        itemsFrom_sep hsep, List.append_nil, List.reverse_reverse, ← List.map_cons, hlater]

theorem itemsFrom_ne_nil (sep : Char) (current cs : List Char) : itemsFrom sep current cs ≠ [] := by
  induction current, cs using itemsFrom.induct sep with
  | case1 current => exact List.cons_ne_nil _ _
  | case2 current c hsep => simp [itemsFrom, hsep]
  | case3 current c hsep => simp [itemsFrom, hsep]
  | case4 current c d rest hescaped ih => rwa [itemsFrom, if_pos hescaped]
  | case5 current c d rest hescaped hsep ih =>
    rw [itemsFrom, if_neg hescaped, if_pos hsep]
    exact List.cons_ne_nil _ _
  | case6 current c d rest hescaped hsep ih => rwa [itemsFrom, if_neg hescaped, if_neg hsep]

/-- Only the last item can end with a backslash: before a separator that would escape it. -/
theorem itemsFrom_dropLast (hsep : sep ≠ '\\')
    (hcurrent : current.head? = some '\\' → cs.head? ≠ some sep) :
    ∀ item ∈ (itemsFrom sep current cs).dropLast, item.getLast? ≠ some '\\' := by
  induction current, cs using itemsFrom.induct sep with
  | case1 current => exact List.forall_mem_nil _
  | case2 current c hc =>
    rw [itemsFrom, if_pos hc]
    refine List.forall_mem_singleton.mpr fun hlast => hcurrent ?_ (congrArg some (eq_of_beq hc))
    rwa [List.getLast?_reverse] at hlast
  | case3 current c hc =>
    rw [itemsFrom, if_neg hc]
    exact List.forall_mem_nil _
  | case4 current c d rest hescaped ih =>
    rw [itemsFrom, if_pos hescaped]
    exact ih fun hhead => absurd (Option.some.inj hhead) hsep
  | case5 current c d rest hescaped hc ih =>
    rw [itemsFrom, if_neg hescaped, if_pos hc, List.dropLast_cons_of_ne_nil (itemsFrom_ne_nil _ _ _)]
    refine List.forall_mem_cons.mpr ⟨fun hlast => hcurrent ?_ (congrArg some (eq_of_beq hc)),
      ih fun h => nomatch h⟩
    rwa [List.getLast?_reverse] at hlast
  | case6 current c d rest hescaped hc ih =>
    rw [itemsFrom, if_neg hescaped, if_neg hc]
    refine ih fun hhead hd => hescaped ?_
    rw [Option.some.inj hhead, Option.some.inj hd, beq_self_eq_true, beq_self_eq_true]
    rfl

end Items

/-! ## Removing settings -/

theorem dropLast_sublist {α : Type} {l₁ l₂ : List α} (h : l₁.Sublist l₂) :
    l₁.dropLast.Sublist l₂.dropLast := by
  have htail := h.reverse.tail
  rwa [List.tail_reverse, List.tail_reverse, List.reverse_sublist] at htail

/-- The items as they are read. -/
theorem map_toList_items (sep : Char) (tag : String) :
    (items sep tag).map String.toList = (itemsFrom sep [] tag.toList).filter (!·.isEmpty) := by
  have hsame : String.toList ∘ String.ofList = id := funext fun _ => String.toList_ofList
  rw [items, List.map_map, hsame, List.map_id]

theorem toList_replaceChar (item : String) :
    (replaceChar ';' "\\;" item).toList = escaped ';' item.toList := by
  rw [replaceChar, String.toList_ofList]
  rfl

/-- Reading what is left of a tag gives the items that were not removed. -/
theorem items_remove (tag : String) (keys : List String) :
    items ';' (remove tag keys)
      = (items ';' tag).filter fun item => !keys.any fun k => sameLetters k (rawKey item) := by
  rw [remove]
  generalize hkept :
    (items ';' tag).filter (fun item => !keys.any fun k => sameLetters k (rawKey item)) = kept
  have hsublist : (kept.map String.toList).Sublist
      ((itemsFrom ';' [] tag.toList).filter (!·.isEmpty)) := by
    rw [← map_toList_items, ← hkept]
    exact List.filter_sublist.map _
  have hnonempty : ∀ item ∈ kept.map String.toList, (!item.isEmpty) = true :=
    fun item hitem => (List.mem_filter.mp (hsublist.mem hitem)).2
  have hend : ∀ item ∈ (kept.map String.toList).dropLast, item.getLast? ≠ some '\\' := by
    intro item hitem
    have hread := (dropLast_sublist (hsublist.trans List.filter_sublist)).mem hitem
    exact itemsFrom_dropLast (by decide) (by simp) item hread
  have hwritten : (";".intercalate (kept.map (replaceChar ';' "\\;"))).toList
      = [';'].intercalate ((kept.map String.toList).map (escaped ';')) := by
    rw [String.toList_intercalate, List.map_map, List.map_map]
    exact congrArg _ (List.map_congr_left fun item _ => toList_replaceChar item)
  by_cases hempty : kept = []
  · rw [hempty]
    rfl
  · have hread : itemsFrom ';' [] (";".intercalate (kept.map (replaceChar ';' "\\;"))).toList
        = kept.map String.toList := by
      rw [hwritten]
      exact itemsFrom_intercalate (by decide) (fun hnil => hempty (List.map_eq_nil_iff.mp hnil)) hend
    have hsame : String.ofList ∘ String.toList = id := funext fun _ => String.ofList_toList
    rw [items, hread, List.filter_eq_self.mpr hnonempty, List.map_map, hsame, List.map_id]

/-! ## The column setting -/

/-- The letters of the key of the column setting. -/
def columnLetters : List Char := "COLUMN".toList

/-- No character outside ASCII has an upper-case form of these letters only. -/
theorem upperRuns_beyond : upperRuns.all (fun run =>
    0x80 ≤ run.first + run.shift || (run.first == run.last
      && ((run.first + run.shift).toNat == 'I'.toNat || (run.first + run.shift).toNat == 'S'.toNat)))
      = true := by decide +kernel

theorem upperExpansions_beyond : upperExpansions.all (fun expansion =>
    expansion.2.any fun code => !columnLetters.contains (Char.ofNat code)) = true := by
  decide +kernel

theorem toNat_ofNat_or (code : Nat) :
    (Char.ofNat code).toNat = code ∨ (Char.ofNat code).toNat = 0 := by
  by_cases hvalid : code.isValidChar
  · left
    rw [Char.ofNat, dif_pos hvalid]
    rfl
  · right
    rw [Char.ofNat, dif_neg hvalid]
    rfl

theorem letters_within {x : Char} (h : x ∈ columnLetters) : 0 < x.toNat ∧ x.toNat < 0x80 := by
  have hall : columnLetters.all (fun x => decide (0 < x.toNat ∧ x.toNat < 0x80)) = true := by
    decide +kernel
  exact of_decide_eq_true (List.all_eq_true.mp hall x h)

theorem find?_upperRuns_beyond {code found : Nat} (h : CaseRun.find? upperRuns code = some found) :
    0x80 ≤ found ∨ found = 'I'.toNat ∨ found = 'S'.toNat := by
  obtain ⟨run, hrun, rfl⟩ := Option.map_eq_some_iff.mp h
  have hholds := List.find?_some hrun
  simp only [Bool.and_eq_true, decide_eq_true_eq] at hholds
  have hbeyond := List.all_eq_true.mp upperRuns_beyond run (List.mem_of_find?_eq_some hrun)
  simp only [Bool.or_eq_true, Bool.and_eq_true, decide_eq_true_eq, beq_iff_eq] at hbeyond
  obtain hbeyond | ⟨hlone, hbeyond⟩ := hbeyond
  · exact .inl (by omega)
  · have hcode : code = run.first := by omega
    rw [hcode]
    exact .inr hbeyond

/-- A character whose upper-case form is of these letters is an ASCII one. -/
theorem ascii_of_upperChar {c : Char} (h : ∀ x ∈ upperChar c, x ∈ columnLetters) :
    c.toNat < 0x80 := by
  rw [upperChar] at h
  split at h
  · assumption
  · next hascii =>
    exfalso
    split at h
    · next codes hlookup =>
      obtain ⟨before, after, hmem, -⟩ := List.lookup_eq_some_iff.mp hlookup
      have hbeyond := List.all_eq_true.mp upperExpansions_beyond (c.toNat, codes) (by
        rw [hmem]
        exact List.mem_append_right _ (List.mem_cons_self ..))
      obtain ⟨code, hcode, hnot⟩ := List.any_eq_true.mp hbeyond
      have hletter := h _ (List.mem_map_of_mem hcode)
      simp [hletter] at hnot
    · have hletter := h _ (List.mem_singleton_self _)
      cases hfound : CaseRun.find? upperRuns c.toNat with
      | none =>
        rw [hfound] at hletter
        exact hascii (letters_within hletter).2
      | some found =>
        rw [hfound] at hletter
        have hletter : Char.ofNat found ∈ columnLetters := hletter
        obtain hbeyond | rfl | rfl := find?_upperRuns_beyond hfound
        · have hwithin := letters_within hletter
          have hcode := toNat_ofNat_or found
          omega
        · exact absurd hletter (by decide)
        · exact absurd hletter (by decide)

/-- Only the letters of the key, in either case, are the key in upper case. -/
theorem sameLetters_column {key : String} (h : upper key = "COLUMN") :
    sameLetters "column" key = true := by
  have hletters : key.toList.flatMap upperChar = columnLetters := by
    rw [← String.toList_ofList (l := key.toList.flatMap upperChar)]
    exact congrArg String.toList h
  have hascii : ∀ c ∈ key.toList, c.toNat < 0x80 := by
    refine fun c hc => ascii_of_upperChar fun x hx => ?_
    rw [← hletters]
    exact List.mem_flatMap.mpr ⟨c, hc, hx⟩
  have hupper : key.toList.flatMap upperChar = key.toList.flatMap fun c => [c.toUpper] :=
    List.flatMap_congr fun c hc => by rw [upperChar, if_pos (hascii c hc)]
  have hlower : key.toList.map Char.toLower = columnLetters.map Char.toLower := by
    rw [← hletters, hupper, ← List.map_eq_flatMap, List.map_map]
    exact List.map_congr_left fun c _ => (toLower_toUpper c).symm
  rw [sameLetters, hlower]
  rfl

/-- A setting's key is that of its item in upper case. -/
theorem key_of_setting? {item key value : String} (h : setting? item = some (key, value)) :
    key = upper (rawKey item) := by
  rw [setting?] at h
  rw [rawKey]
  split at h
  · next written text hcut =>
    rw [Option.some.injEq, Prod.mk.injEq] at h
    rw [hcut, ← h.1]
    rfl
  · next hcut =>
    dsimp only at h
    split at h
    · exact nomatch h
    · rw [Option.some.injEq, Prod.mk.injEq] at h
      rw [hcut, ← h.1]
      rfl

theorem entries_parse (sep : Char) (tag : String) :
    (Settings.parse sep tag).entries = (items sep tag).filterMap setting? := rfl

/-- A tag without its column setting gives no column. -/
theorem get?_remove_column (tag : String) {keys : List String} (h : "column" ∈ keys) :
    (Settings.parse ';' (remove tag keys)).get? "COLUMN" = none := by
  rw [Settings.get?, entries_parse, items_remove, List.lookup_eq_none_iff]
  rintro ⟨key, value⟩ hentry
  obtain ⟨item, hitem, hsetting⟩ := List.mem_filterMap.mp (List.mem_reverse.mp hentry)
  have hkept := (List.mem_filter.mp hitem).2
  rw [Bool.not_eq_true', List.any_eq_false] at hkept
  rw [bne_iff_ne]
  rintro rfl
  exact hkept "column" h (sameLetters_column (key_of_setting? hsetting).symm)

end RecordSql.Tag
