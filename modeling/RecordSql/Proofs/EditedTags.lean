/-
  RecordSql.Proofs.EditedTags

  What is read from a tag that was edited.

  Removing keys is filtering: the settings with these keys are gone, and all
  others are read as before, in their order (`settings_without_removed`).  Tags
  are read in upper case and keys are removed by their letters, so that keys
  of ASCII characters only are told apart alike (`named_iff`).

  A setting that is put behind a tag is read behind the settings of the tag,
  unless the end of the tag escapes the separator that is written in between
  (`settings_of_appended_iff`).  Then its start is part of the last item
  (`exists_items_of_open`), which shows unless that start is blank.
-/

import RecordSql.Proofs.AppendedSettings

namespace RecordSql.Tag

open RecordSql.Text

/-! ## Settings that are removed -/

/-- A key of ASCII characters is removed exactly if the key that is read is among those named. -/
theorem named_iff {keys : List String} (hkeys : ∀ k ∈ keys, isAscii k = true) {key : String}
    (hkey : isAscii key = true) :
    (keys.any fun k => sameLetters k key) = true ↔ upper key ∈ keys.map upper := by
  rw [List.any_eq_true, List.mem_map]
  constructor
  · rintro ⟨k, hk, hsame⟩
    exact ⟨k, hk, ((sameLetters_iff (hkeys k hk)).mp hsame).1.symm⟩
  · rintro ⟨k, hk, hupper⟩
    exact ⟨k, hk, (sameLetters_iff (hkeys k hk)).mpr ⟨hupper.symm, hkey⟩⟩

/-- Removing keys takes their settings out of a tag and leaves all others, in their order and with
their values. -/
theorem settings_without_removed {tag : String} {keys : List String}
    (htag : ∀ item ∈ items ';' tag, isAscii (rawKey item) = true)
    (hkeys : ∀ k ∈ keys, isAscii k = true) :
    (Settings.parse ';' (remove tag keys)).entries
      = (Settings.parse ';' tag).entries.filter fun entry => entry.1 ∉ keys.map upper := by
  rw [parse_remove, settingsWhere, settingsOf, entries_parse, List.filterMap_filter,
    List.filter_filterMap]
  refine List.filterMap_congr fun item hitem => ?_
  have hnamed := named_iff hkeys (htag item hitem)
  cases hsetting : setting? item with
  | none =>
    rw [Option.filter_none]
    exact ite_self none
  | some entry =>
    obtain ⟨key, value⟩ := entry
    rw [← key_of_setting? hsetting] at hnamed
    by_cases hremoved : key ∈ keys.map upper
    · rw [hnamed.mpr hremoved, Option.filter_some, Bool.not_true, if_neg Bool.false_ne_true,
        if_neg (by simpa using hremoved)]
    · have hkept : (keys.any fun k => sameLetters k (rawKey item)) = false := by
        rw [← Bool.not_eq_true, hnamed]
        exact hremoved
      rw [hkept, Option.filter_some, Bool.not_false, if_pos rfl, if_pos (by simpa using hremoved)]

/-- A default with separators and quotes, written as a tag has it, beside settings that are removed. -/
def describedTag : String :=
  "default:a\\;b\\\\\\;c; Column : x;;size:3;comment:say \\\"12:00\\\"\\;;COLUMN;check:\\\\"

/-- The column is removed in both spellings; what is escaped elsewhere is read as before, also the
backslash at the end. -/
theorem settings_without_removed_column :
    (∀ item ∈ items ';' describedTag, isAscii (rawKey item) = true)
      ∧ (∀ k ∈ ["column", "sIZE"], isAscii k = true)
      ∧ (Settings.parse ';' (remove describedTag ["column", "sIZE"])).entries
        = [("DEFAULT", "a;b\\\\;c"), ("COMMENT", "say \"12:00\";"), ("CHECK", "\\\\")] := by
  have htag : ∀ item ∈ items ';' describedTag, isAscii (rawKey item) = true := by decide +kernel
  have hkeys : ∀ k ∈ ["column", "sIZE"], isAscii k = true := by decide
  refine ⟨htag, hkeys, ?_⟩
  rw [settings_without_removed htag hkeys]
  decide +kernel

/-! ## Items without a setting -/

theorem upperChar_ne_nil (c : Char) : upperChar c ≠ [] := by
  rw [upperChar]
  split
  · exact List.cons_ne_nil _ _
  · split
    · next codes hlookup =>
      obtain ⟨before, after, hmem, -⟩ := List.lookup_eq_some_iff.mp hlookup
      have hany := List.all_eq_true.mp upperExpansions_beyond (c.toNat, codes) (by
        rw [hmem]
        exact List.mem_append_right _ (List.mem_cons_self ..))
      rintro hnil
      rw [List.map_eq_nil_iff.mp hnil] at hany
      cases hany
    · exact List.cons_ne_nil _ _

theorem upper_isEmpty (s : String) : (upper s).isEmpty = s.isEmpty := by
  rw [Bool.eq_iff_iff, String.isEmpty_iff, String.isEmpty_iff, ← String.toList_eq_nil_iff,
    ← String.toList_eq_nil_iff, upper, String.toList_ofList, List.flatMap_eq_nil_iff]
  constructor
  · intro hall
    exact List.eq_nil_iff_forall_not_mem.mpr fun c hc => upperChar_ne_nil c (hall c hc)
  · intro hnil
    rw [hnil]
    exact List.forall_mem_nil _

theorem cutChars_eq_none_iff {sep : Char} {cs : List Char} : cutChars sep cs = none ↔ sep ∉ cs := by
  refine ⟨fun hcut hsep => ?_, cutChars_of_notMem⟩
  induction cs with
  | nil => cases hsep
  | cons c cs ih =>
    rw [cutChars] at hcut
    split at hcut
    · cases hcut
    · next hc =>
      rw [Option.map_eq_none_iff] at hcut
      exact ih hcut ((List.mem_cons.mp hsep).resolve_left fun heq => hc (by rw [heq, beq_self_eq_true]))

/-- Only what is blank is no setting. -/
theorem setting?_eq_none_iff {item : String} :
    setting? item = none ↔ ∀ c ∈ item.toList, isBlank c = true := by
  have hcolon : (∀ c ∈ item.toList, isBlank c = true) → ':' ∉ item.toList := fun hblank hmem =>
    absurd (hblank _ hmem) (by decide)
  rw [setting?]
  cases hcut : cut ':' item with
  | some parts =>
    have hmem : ':' ∈ item.toList := by
      by_contra hnot
      rw [cut, cutChars_of_notMem hnot] at hcut
      cases hcut
    exact iff_of_false (Option.some_ne_none _) fun hblank => hcolon hblank hmem
  | none =>
    rw [← trim_isEmpty_iff, ← upper_isEmpty]
    dsimp only
    split
    · next hempty => exact iff_of_true rfl hempty
    · next hempty => exact iff_of_false (Option.some_ne_none _) hempty

theorem exists_setting? {item : String} {c : Char} (hmem : c ∈ item.toList) (hc : isBlank c = false) :
    ∃ entry, setting? item = some entry := by
  refine Option.ne_none_iff_exists'.mp fun hnone => ?_
  have hblank := setting?_eq_none_iff.mp hnone c hmem
  rw [hc] at hblank
  cases hblank

/-! ## The last item of an open tag -/

section LastItem

variable {w blanks : List Char} {c : Char}

theorem dropWhile_append_cons {p : Char → Bool} (hc : p c = false) (w rest : List Char) :
    (w ++ c :: rest).dropWhile p = w.dropWhile p ++ c :: rest := by
  rw [List.dropWhile_append]
  split
  · next hempty =>
    rw [List.isEmpty_iff.mp hempty, List.nil_append]
    exact List.dropWhile_cons_of_neg (by simp [hc])
  · rfl

/-- Blanks at the end of a text are dropped up to its last character that is none. -/
theorem dropEnds_append_blanks {p : Char → Bool} (hc : p c = false)
    (hblanks : ∀ b ∈ blanks, p b = true) :
    dropEnds p (w ++ c :: blanks) = w.dropWhile p ++ [c] := by
  have hreverse : (w.dropWhile p ++ c :: blanks).reverse
      = blanks.reverse ++ c :: (w.dropWhile p).reverse := by simp
  have hdropped : blanks.reverse.dropWhile p = [] :=
    List.dropWhile_eq_nil_iff.mpr fun b hb => hblanks b (List.mem_reverse.mp hb)
  rw [dropEnds, dropWhile_append_cons hc, dropEnd, hreverse, dropWhile_append_cons hc, hdropped,
    List.nil_append, List.reverse_cons, List.reverse_reverse]

/-- Behind a colon the end of an item is the end of a value. -/
theorem setting?_value {key value : List Char} (hw : cutChars ':' w = some (key, value))
    (hc : c ≠ '"') (hcolon : ':' ∉ c :: blanks) (hread : quotesRead (c :: blanks) = c :: blanks) :
    setting? (String.ofList (w ++ c :: blanks))
      = some (upper (trim (String.ofList key)), String.ofList (quotesRead value ++ c :: blanks)) := by
  rw [setting?, cut_append hcolon, hw]
  dsimp only [Option.map_some]
  rw [String.toList_ofList, ← hread, ← quotesRead_append hc, hread]
  rfl

/-- Without a colon it is the end of a key, which blanks are no part of. -/
theorem setting?_key (hw : cutChars ':' w = none) (hcolon : ':' ∉ c :: blanks)
    (hc : isBlank c = false) (hblanks : ∀ b ∈ blanks, isBlank b = true) :
    setting? (String.ofList (w ++ c :: blanks))
      = some (upper (String.ofList (w.dropWhile isBlank ++ [c])),
        upper (String.ofList (w.dropWhile isBlank ++ [c]))) := by
  have hne : (String.ofList (w.dropWhile isBlank ++ [c])).isEmpty = false := by
    rw [← Bool.not_eq_true, String.isEmpty_iff, ← String.toList_eq_nil_iff, String.toList_ofList]
    simp
  rw [setting?, cut_append hcolon, hw]
  dsimp only [Option.map_none]
  rw [trim, trimBy, String.toList_ofList, dropEnds_append_blanks hc hblanks, upper_isEmpty, hne,
    if_neg Bool.false_ne_true]

/-- The last item of a tag that ends with a backslash, or with a separator that is escaped, is read as
before with a separator and blanks in the place of that end: only if the end was a separator, and no
blank comes behind a value. -/
theorem setting?_blanks_iff {last : Char} (hlast : last = '\\' ∨ last = ';')
    (hblanks : ∀ b ∈ blanks, isBlank b = true) :
    setting? (String.ofList (w ++ ';' :: blanks)) = setting? (String.ofList (w ++ [last]))
      ↔ last = ';' ∧ (blanks = [] ∨ ':' ∉ w) := by
  have hnot : ∀ c : Char, isBlank c = false → c ∉ blanks := fun c hc hmem => by
    rw [hblanks c hmem] at hc
    cases hc
  have hcolon : ':' ∉ ';' :: blanks := by
    rw [List.mem_cons, not_or]
    exact ⟨by decide, hnot ':' (by decide)⟩
  have hcolon' : ':' ∉ [last] := by
    obtain rfl | rfl := hlast <;> decide
  -- In front of the end there is a key with a value that goes on, or a key alone.
  cases hw : cutChars ':' w with
  | some parts =>
    obtain ⟨key, value⟩ := parts
    have hmem : ¬ ':' ∉ w := fun hnot => by rw [cutChars_of_notMem hnot] at hw; cases hw
    have hread : quotesRead (';' :: blanks) = ';' :: blanks := by
      refine quotesRead_of_notMem ?_
      rw [List.mem_cons, not_or]
      exact ⟨by decide, hnot '\\' (by decide)⟩
    have hread' : quotesRead [last] = [last] := quotesRead_cons fun _ => by simp
    have hquote : last ≠ '"' := by obtain rfl | rfl := hlast <;> decide
    rw [setting?_value hw (by decide) hcolon hread, setting?_value hw hquote hcolon' hread',
      or_iff_left hmem, Option.some.injEq, Prod.mk.injEq, String.ofList_inj, List.append_cancel_left_eq,
      List.cons.injEq, eq_comm (a := ';'), and_iff_right rfl]
  | none =>
    have hplain : ':' ∉ w := cutChars_eq_none_iff.mp hw
    have hlastBlank : isBlank last = false := by obtain rfl | rfl := hlast <;> decide
    rw [setting?_key hw hcolon (by decide) hblanks,
      setting?_key hw hcolon' hlastBlank (List.forall_mem_nil _), and_iff_left (Or.inr hplain)]
    constructor
    · intro hsame
      have hkeys := (Prod.mk.inj (Option.some.inj hsame)).1
      rw [upper, upper, String.ofList_inj, String.toList_ofList, String.toList_ofList,
        List.flatMap_append, List.flatMap_append, List.append_cancel_left_eq] at hkeys
      obtain rfl | rfl := hlast
      · exact absurd hkeys (by decide)
      · rfl
    · rintro rfl
      rfl

end LastItem

/-! ## Settings that are put behind a tag -/

/-- What a setting starts with is lost in the last item of a tag without a trace: a separator ends that
item, and blanks behind it, if there are any, are no part of a value. -/
structure LeavesNoTrace (tag setting : String) : Prop where
  separator : tag.toList.getLast? = some ';'
  blank : ∀ c ∈ lead setting, isBlank c = true
  outside : lead setting = [] ∨ ∀ item ∈ (items ';' tag).getLast?, ':' ∉ item.toList

/-- What a text starts with is its first item, if that is one. -/
theorem entries_parse_eq_lead (text : String) :
    (Settings.parse ';' text).entries
      = (setting? (String.ofList (lead text))).toList ++ (laterItems text).filterMap setting? := by
  have hread := itemsFrom_eq_lead [] text
  rw [List.reverse_nil, List.nil_append] at hread
  rw [entries_parse, items, hread]
  by_cases hlead : lead text = []
  · rw [hlead]
    rfl
  · rw [List.filter_cons_of_pos (p := fun x : List Char => !x.isEmpty) (by simp [hlead]), List.map_cons,
      List.filterMap_cons]
    cases setting? (String.ofList (lead text)) with
    | none => rfl
    | some entry => rfl

/-- Behind a tag that does not end with a backslash a setting is read on its own. -/
theorem settings_of_closed {tag : String} (hclosed : isOpen tag = false) (setting : String) :
    (Settings.parse ';' (append tag setting)).entries
      = (Settings.parse ';' tag).entries ++ (Settings.parse ';' setting).entries := by
  by_cases hblank : (trim tag).isEmpty = true
  · have hnone : (items ';' tag).filterMap setting? = [] :=
      List.filterMap_eq_nil_iff.mpr fun item hitem => (items_of_blank hblank item hitem).1
    rw [entries_parse ';' tag, hnone, List.nil_append, append, if_pos hblank]
  · rw [Bool.not_eq_true] at hblank
    rw [entries_parse, entries_parse, entries_parse, items_append_of_closed hblank hclosed,
      List.filterMap_append]

/-- Behind any other tag it starts in the last item, and shows there. -/
theorem settings_of_open_iff {tag : String} (hopen : isOpen tag = true) (setting : String) :
    (Settings.parse ';' (append tag setting)).entries
        = (Settings.parse ';' tag).entries ++ (Settings.parse ';' setting).entries
      ↔ LeavesNoTrace tag setting := by
  obtain ⟨front, w, last, htag, hend, hlast, happended⟩ := exists_items_of_open hopen
  -- Both last items are settings, since their ends are not blank.
  have hset : ∀ (c : Char) (rest : List Char), isBlank c = false →
      ∃ entry, setting? (String.ofList (w ++ c :: rest)) = some entry := by
    intro c rest hc
    refine exists_setting? (c := c) ?_ hc
    rw [String.toList_ofList]
    simp
  obtain ⟨glued, hglued⟩ := hset ';' (lead setting) (by decide)
  obtain ⟨before, hbefore⟩ := hset last [] (by obtain rfl | rfl := hlast <;> decide)
  have hread : (Settings.parse ';' (append tag setting)).entries
      = front.filterMap setting? ++ glued :: (laterItems setting).filterMap setting? := by
    rw [entries_parse, happended, List.filterMap_append, List.filterMap_cons_some hglued]
  have hreadTag : (Settings.parse ';' tag).entries = front.filterMap setting? ++ [before] := by
    rw [entries_parse, htag, List.filterMap_append, List.filterMap_cons_some hbefore,
      List.filterMap_nil]
  have hnone : (setting? (String.ofList (lead setting))).toList = []
      ↔ ∀ c ∈ lead setting, isBlank c = true := by
    rw [Option.toList_eq_nil_iff, setting?_eq_none_iff, String.toList_ofList]
  have hlastItem : (items ';' tag).getLast? = some (String.ofList (w ++ [last])) := by
    rw [htag, List.getLast?_concat]
  have hmem : ':' ∈ (String.ofList (w ++ [last])).toList ↔ ':' ∈ w := by
    rw [String.toList_ofList]
    obtain rfl | rfl := hlast <;> simp
  -- The last item is the same, and nothing of what the setting starts with is read behind it.
  rw [hread, hreadTag, entries_parse_eq_lead, List.append_assoc, List.append_cancel_left_eq,
    List.singleton_append, List.cons.injEq, List.self_eq_append_left, hnone]
  constructor
  · rintro ⟨hsame, hblank⟩
    rw [← Option.some.injEq, ← hglued, ← hbefore, setting?_blanks_iff hlast hblank] at hsame
    obtain ⟨rfl, hplace⟩ := hsame
    refine ⟨hend, hblank, hplace.imp_right fun hcolon item hitem => ?_⟩
    rw [hlastItem, Option.mem_some_iff] at hitem
    rw [← hitem, hmem]
    exact hcolon
  · rintro ⟨hseparator, hblank, hplace⟩
    refine ⟨?_, hblank⟩
    obtain rfl : last = ';' := Option.some.inj (hend.symm.trans hseparator)
    rw [← Option.some.injEq, ← hglued, ← hbefore, setting?_blanks_iff hlast hblank]
    exact ⟨rfl, hplace.imp_right fun hcolon hw => hcolon _ hlastItem (hmem.mpr hw)⟩

/-- A setting that is put behind a tag is read behind the settings of the tag exactly if the tag does
not end, but for separators, with a backslash, or the setting leaves no trace in the last item. -/
theorem settings_of_appended_iff (tag setting : String) :
    (Settings.parse ';' (append tag setting)).entries
        = (Settings.parse ';' tag).entries ++ (Settings.parse ';' setting).entries
      ↔ isOpen tag = false ∨ LeavesNoTrace tag setting := by
  cases hopen : isOpen tag with
  | false => exact iff_of_true (settings_of_closed hopen setting) (.inl rfl)
  | true =>
    rw [settings_of_open_iff hopen]
    exact (or_iff_right fun h => nomatch h).symm

end RecordSql.Tag
