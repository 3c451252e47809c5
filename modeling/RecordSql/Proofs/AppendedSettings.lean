/-
  RecordSql.Proofs.AppendedSettings

  A setting that is put behind a tag.  Trailing separators are taken off the tag
  first, and one is written in between (`items_append_of_closed`).  Nothing
  escapes the end of the tag, though: where it is a backslash, also one that
  escaped a trailing separator, the new separator is escaped in turn, and the
  setting becomes the rest of the last item (`exists_items_of_open`).

  So a flag that is put behind a tag is set unless the tag ends like that, and
  all other flags are what they were (`flag_settingsWhere_append`).  A key that
  is removed is removed in ASCII letters only, of either case (`sameLetters_iff`).
-/

import Mathlib.Data.List.Induction
import Mathlib.Data.List.TakeWhile
import RecordSql.Proofs.RemovedSettings

namespace RecordSql.Tag

open RecordSql.Text

/-! ## Reading two texts in a row -/

section Items

variable {sep c : Char} {current cs rest : List Char}

/-- Reading goes on behind a character that is no separator, whatever comes behind it. -/
theorem exists_itemsFrom_append (hc : c ≠ sep) (current cs : List Char) :
    ∃ done last, ∀ rest,
      itemsFrom sep current (cs ++ c :: rest) = done ++ itemsFrom sep last (c :: rest) := by
  have hlone (x : Char) : (x == '\\' && c == sep) = false := by
    rw [beq_false_of_ne hc, Bool.and_false]
  induction current, cs using itemsFrom.induct sep with
  | case1 current => exact ⟨[], current, fun _ => rfl⟩
  | case2 current x hx =>
    refine ⟨[current.reverse], [], fun rest => ?_⟩
    rw [List.singleton_append, itemsFrom, hlone, if_neg Bool.false_ne_true, if_pos hx]
    rfl
  | case3 current x hx =>
    refine ⟨[], x :: current, fun rest => ?_⟩
    rw [List.singleton_append, itemsFrom, hlone, if_neg Bool.false_ne_true, if_neg hx]
    rfl
  | case4 current x d cs hescaped ih =>
    obtain ⟨done, last, h⟩ := ih
    refine ⟨done, last, fun rest => ?_⟩
    rw [List.cons_append, List.cons_append, itemsFrom, if_pos hescaped]
    exact h rest
  | case5 current x d cs hescaped hx ih =>
    obtain ⟨done, last, h⟩ := ih
    refine ⟨current.reverse :: done, last, fun rest => ?_⟩
    rw [List.cons_append, List.cons_append, itemsFrom, if_neg hescaped, if_pos hx]
    exact congrArg _ (h rest)
  | case6 current x d cs hescaped hx ih =>
    obtain ⟨done, last, h⟩ := ih
    refine ⟨done, last, fun rest => ?_⟩
    rw [List.cons_append, List.cons_append, itemsFrom, if_neg hescaped, if_neg hx]
    exact h rest

/-- A separator ends what stands before it, unless that ends with a backslash. -/
theorem itemsFrom_append_sep (hsep : sep ≠ '\\') (hend : cs.getLast? ≠ some '\\') :
    itemsFrom sep current (cs ++ sep :: rest)
      = itemsFrom sep current cs ++ itemsFrom sep [] rest := by
  induction current, cs using itemsFrom.induct sep with
  | case1 current => exact itemsFrom_sep hsep
  | case2 current x hx =>
    obtain rfl : x = sep := eq_of_beq hx
    rw [List.singleton_append, itemsFrom_sep hsep, itemsFrom_sep hsep, itemsFrom, if_pos hx]
    rfl
  | case3 current x hx =>
    have hplain : x = '\\' → (sep :: rest).head? ≠ some sep := by
      rintro rfl
      exact absurd rfl hend
    rw [List.singleton_append, itemsFrom_push (fun heq => hx (beq_iff_eq.mpr heq)) hplain,
      itemsFrom_sep hsep, itemsFrom, if_neg hx]
    rfl
  | case4 current x d cs hescaped ih =>
    have hrest : cs.getLast? ≠ some '\\' := by
      intro hlast
      cases cs with
      | nil => cases hlast
      | cons y cs => exact hend (by rw [List.getLast?_cons_cons, List.getLast?_cons_cons, hlast])
    rw [List.cons_append, List.cons_append, itemsFrom, if_pos hescaped, ih hrest, itemsFrom,
      if_pos hescaped]
  | case5 current x d cs hescaped hx ih =>
    rw [List.getLast?_cons_cons] at hend
    have hrest := ih hend
    rw [List.cons_append] at hrest
    rw [List.cons_append, List.cons_append, itemsFrom, if_neg hescaped, if_pos hx, hrest, itemsFrom,
      if_neg hescaped, if_pos hx, List.cons_append]
  | case6 current x d cs hescaped hx ih =>
    rw [List.getLast?_cons_cons] at hend
    have hrest := ih hend
    rw [List.cons_append] at hrest
    rw [List.cons_append, List.cons_append, itemsFrom, if_neg hescaped, if_neg hx, hrest, itemsFrom,
      if_neg hescaped, if_neg hx]

/-- Nothing but separators: whatever item was under way, and empty ones. -/
theorem itemsFrom_seps (hsep : sep ≠ '\\') (current : List Char) (hcs : ∀ c ∈ cs, c = sep) :
    ∃ empties, itemsFrom sep current cs = current.reverse :: empties ∧ ∀ item ∈ empties, item = [] := by
  induction cs generalizing current with
  | nil => exact ⟨[], by rw [itemsFrom], List.forall_mem_nil _⟩
  | cons c cs ih =>
    obtain ⟨rfl, hrest⟩ := List.forall_mem_cons.mp hcs
    obtain ⟨empties, heq, hempty⟩ := ih [] hrest
    refine ⟨[] :: empties, ?_, List.forall_mem_cons.mpr ⟨rfl, hempty⟩⟩
    rw [itemsFrom_sep hsep, heq]
    rfl

theorem filter_empties {empties : List (List Char)} (h : ∀ item ∈ empties, item = []) :
    empties.filter (!·.isEmpty) = [] := by
  refine List.filter_eq_nil_iff.mpr fun item hitem => ?_
  rw [h item hitem]
  exact Bool.false_ne_true

/-- An item without separators is read as it is. -/
theorem itemsFrom_of_notMem (hcs : sep ∉ cs) :
    itemsFrom sep current cs = [current.reverse ++ cs] := by
  induction cs generalizing current with
  | nil => rw [itemsFrom, List.append_nil]
  | cons c cs ih =>
    rw [List.mem_cons, not_or] at hcs
    have hplain : cs.head? ≠ some sep := fun hhead => hcs.2 (List.mem_of_head? hhead)
    rw [itemsFrom_push (Ne.symm hcs.1) fun _ => hplain, ih hcs.2, List.reverse_cons,
      List.append_assoc, List.singleton_append]

/-- What was read of an item earlier stands in front of the first item. -/
theorem itemsFrom_append_current (current earlier cs : List Char) :
    itemsFrom sep (current ++ earlier) cs
      = (itemsFrom sep current cs).modifyHead (earlier.reverse ++ ·) := by
  induction current, cs using itemsFrom.induct sep with
  | case1 current => rw [itemsFrom, itemsFrom, List.reverse_append, List.modifyHead_cons]
  | case2 current c hc =>
    rw [itemsFrom, itemsFrom, if_pos hc, if_pos hc, List.reverse_append, List.modifyHead_cons]
  | case3 current c hc =>
    rw [itemsFrom, itemsFrom, if_neg hc, if_neg hc, ← List.cons_append, List.reverse_append,
      List.modifyHead_cons]
  | case4 current c d cs hescaped ih =>
    rw [itemsFrom, if_pos hescaped, itemsFrom, if_pos hescaped]
    exact ih
  | case5 current c d cs hescaped hc ih =>
    rw [itemsFrom, if_neg hescaped, if_pos hc, itemsFrom, if_neg hescaped, if_pos hc,
      List.reverse_append, List.modifyHead_cons]
  | case6 current c d cs hescaped hc ih =>
    rw [itemsFrom, if_neg hescaped, if_neg hc, itemsFrom, if_neg hescaped, if_neg hc]
    exact ih

end Items

/-! ## The items of a tag with a setting behind it -/

/-- The tag ends, but for separators, with a backslash. -/
def isOpen (tag : String) : Bool := (dropEnd (· == ';') tag.toList).getLast? == some '\\'

theorem exists_dropEnd_append (p : Char → Bool) (cs : List Char) :
    ∃ ends, cs = dropEnd p cs ++ ends ∧ ∀ c ∈ ends, p c = true := by
  refine ⟨(cs.reverse.takeWhile p).reverse, ?_, fun c hc => ?_⟩
  · rw [dropEnd, ← List.reverse_append, List.takeWhile_append_dropWhile, List.reverse_reverse]
  · exact List.mem_takeWhile_imp (List.mem_reverse.mp hc)

theorem mem_dropEnds {p : Char → Bool} {c : Char} {cs : List Char} (hc : c ∈ cs) (hp : p c = false) :
    c ∈ dropEnds p cs := by
  have hwhile : ∀ {cs : List Char}, c ∈ cs → c ∈ cs.dropWhile p := by
    intro cs hmem
    rw [← List.takeWhile_append_dropWhile (p := p) (l := cs)] at hmem
    refine (List.mem_append.mp hmem).resolve_left fun htaken => ?_
    rw [List.mem_takeWhile_imp htaken] at hp
    cases hp
  rw [dropEnds, dropEnd, List.mem_reverse]
  exact hwhile (List.mem_reverse.mpr (hwhile hc))

theorem mem_trim {c : Char} {s : String} (hc : c ∈ s.toList) (hblank : isBlank c = false) :
    c ∈ (trim s).toList := by
  rw [trim, trimBy, String.toList_ofList]
  exact mem_dropEnds hc hblank

/-- A text is blank if all its characters are. -/
theorem trim_isEmpty_iff {s : String} :
    (trim s).isEmpty = true ↔ ∀ c ∈ s.toList, isBlank c = true := by
  rw [String.isEmpty_iff]
  constructor
  · intro hempty c hc
    by_contra hnot
    have hmem := mem_trim hc (Bool.not_eq_true _ ▸ hnot)
    rw [hempty] at hmem
    cases hmem
  · intro hall
    rw [trim, trimBy, dropEnds, List.dropWhile_eq_nil_iff.mpr hall]
    rfl

theorem toList_append {tag : String} (hblank : (trim tag).isEmpty = false) (setting : String) :
    (append tag setting).toList = dropEnd (· == ';') tag.toList ++ ';' :: setting.toList := by
  rw [append, hblank, if_neg Bool.false_ne_true, String.toList_append, String.toList_append,
    String.toList_ofList, List.append_assoc]
  rfl

/-- Behind a tag that ends with no backslash the setting is an item of its own. -/
theorem items_append_of_closed {tag : String} (hblank : (trim tag).isEmpty = false)
    (hclosed : isOpen tag = false) (setting : String) :
    items ';' (append tag setting) = items ';' tag ++ items ';' setting := by
  obtain ⟨ends, htag, hends⟩ := exists_dropEnd_append (· == ';') tag.toList
  have hwritten := toList_append hblank setting
  have hlast : (dropEnd (· == ';') tag.toList).getLast? ≠ some '\\' := by
    intro heq
    rw [isOpen, heq] at hclosed
    cases hclosed
  generalize dropEnd (· == ';') tag.toList = start at htag hwritten hlast
  have hread : (itemsFrom ';' [] tag.toList).filter (!·.isEmpty)
      = (itemsFrom ';' [] start).filter (!·.isEmpty) := by
    rw [htag]
    cases ends with
    | nil => rw [List.append_nil]
    | cons c ends =>
      obtain ⟨hc, hends⟩ := List.forall_mem_cons.mp hends
      obtain ⟨empties, heq, hempty⟩ := itemsFrom_seps (by decide : ';' ≠ '\\') []
        fun c hc => beq_iff_eq.mp (hends c hc)
      have hnone : (itemsFrom ';' [] ends).filter (!·.isEmpty) = [] := by
        rw [heq]
        exact filter_empties (List.forall_mem_cons.mpr ⟨rfl, hempty⟩)
      rw [beq_iff_eq.mp hc, itemsFrom_append_sep (by decide) hlast, List.filter_append, hnone,
        List.append_nil]
  rw [items, items, items, hwritten, itemsFrom_append_sep (by decide) hlast, List.filter_append,
    List.map_append, hread]

/-- What a text starts with, up to the first separator. -/
def lead (text : String) : List Char := (itemsFrom ';' [] text.toList).headD []

/-- The items of a text behind its first separator. -/
def laterItems (text : String) : List String :=
  ((itemsFrom ';' [] text.toList).tail.filter (!·.isEmpty)).map String.ofList

theorem itemsFrom_eq_lead (current : List Char) (text : String) :
    itemsFrom ';' current text.toList
      = (current.reverse ++ lead text) :: (itemsFrom ';' [] text.toList).tail := by
  have hbehind : itemsFrom ';' ([] ++ current) text.toList
      = (itemsFrom ';' [] text.toList).modifyHead (current.reverse ++ ·) :=
    itemsFrom_append_current [] current text.toList
  rw [List.nil_append] at hbehind
  rw [hbehind, lead]
  cases hread : itemsFrom ';' [] text.toList with
  | nil => exact absurd hread (itemsFrom_ne_nil ';' [] text.toList)
  | cons first later => rfl

theorem filter_append_cons_of_ne_nil {before later : List (List Char)} {item : List Char}
    (hne : item ≠ []) :
    (before ++ item :: later).filter (!·.isEmpty)
      = before.filter (!·.isEmpty) ++ item :: later.filter (!·.isEmpty) := by
  have hkept : (!item.isEmpty) = true := by simp [hne]
  rw [List.filter_append, List.filter_cons_of_pos (p := fun x : List Char => !x.isEmpty) hkept]

/-- Behind a tag that ends with a backslash the setting starts in the last item. -/
theorem exists_items_of_open {tag : String} (hopen : isOpen tag = true) :
    ∃ front item last, items ';' tag = front ++ [String.ofList (item ++ [last])]
      ∧ tag.toList.getLast? = some last ∧ (last = '\\' ∨ last = ';')
      ∧ ∀ setting, items ';' (append tag setting)
        = front ++ String.ofList (item ++ ';' :: lead setting) :: laterItems setting := by
  obtain ⟨ends, htag, hends⟩ := exists_dropEnd_append (· == ';') tag.toList
  have hlast : (dropEnd (· == ';') tag.toList).getLast? = some '\\' := eq_of_beq hopen
  obtain ⟨start, hstart⟩ := List.getLast?_eq_some_iff.mp hlast
  have hblank : (trim tag).isEmpty = false := by
    have hmem : '\\' ∈ (trim tag).toList := by
      refine mem_trim ?_ (by decide)
      rw [htag, hstart]
      simp
    rw [← Bool.not_eq_true]
    intro hempty
    rw [String.isEmpty_iff.mp hempty] at hmem
    cases hmem
  have hwritten := toList_append hblank
  rw [hstart] at htag hwritten
  obtain ⟨done, current, hread⟩ := exists_itemsFrom_append (by decide : '\\' ≠ ';') [] start
  -- The backslash is part of the last item, unless it escapes a separator, which is that then.
  have hends' : ∃ last empties, tag.toList.getLast? = some last ∧ (last = '\\' ∨ last = ';')
      ∧ itemsFrom ';' current ('\\' :: ends) = (current.reverse ++ [last]) :: empties
      ∧ ∀ item ∈ empties, item = [] := by
    cases ends with
    | nil =>
      rw [List.append_nil] at htag
      refine ⟨'\\', [], ?_, .inl rfl, by simp [itemsFrom], List.forall_mem_nil _⟩
      rw [htag, List.getLast?_concat]
    | cons c ends =>
      have hlastSep : (start ++ ['\\'] ++ c :: ends).getLast? = some ';' := by
        rw [List.getLast?_append_cons, List.getLast?_eq_some_getLast (List.cons_ne_nil c ends)]
        exact congrArg some (eq_of_beq (hends _ (List.getLast_mem _)))
      obtain ⟨hc, hends⟩ := List.forall_mem_cons.mp hends
      obtain ⟨empties, heq, hempty⟩ := itemsFrom_seps (by decide : ';' ≠ '\\') (';' :: current)
        fun c hc => beq_iff_eq.mp (hends c hc)
      refine ⟨';', empties, htag ▸ hlastSep, .inr rfl, ?_, hempty⟩
      rw [beq_iff_eq.mp hc, itemsFrom_escapedSep, heq, List.reverse_cons]
  obtain ⟨last, empties, hlast, hcases, heq, hempty⟩ := hends'
  refine ⟨(done.filter (!·.isEmpty)).map String.ofList, current.reverse, last, ?_, hlast, hcases,
    fun setting => ?_⟩
  · rw [items, htag, List.append_assoc, List.singleton_append, hread, heq,
      filter_append_cons_of_ne_nil (by simp), filter_empties hempty, List.map_append]
    rfl
  · have hlead : itemsFrom ';' (';' :: current) setting.toList
        = (current.reverse ++ ';' :: lead setting) :: (itemsFrom ';' [] setting.toList).tail := by
      rw [itemsFrom_eq_lead, List.reverse_cons, List.append_assoc, List.singleton_append]
    rw [items, hwritten, List.append_assoc, List.singleton_append, hread, itemsFrom_escapedSep, hlead,
      filter_append_cons_of_ne_nil (by simp), List.map_append]
    rfl

/-! ## Keys and values at the end of a tag -/

section Ends

variable {w tail tail' : List Char}

/-- A text that an open tag may end with, or may end with when a setting is put behind it: it belongs to
no key that is known, and is part of no value that is false. -/
def isTail (tail : List Char) : Bool :=
  !tail.contains ':' && (tail.contains ';' || tail.contains '\\')
    && tail.getLast?.any fun c => c != '"' && !isBlank c && !"false".toList.contains c.toLower

theorem cutChars_of_notMem {sep : Char} (htail : sep ∉ tail) : cutChars sep tail = none := by
  induction tail with
  | nil => rfl
  | cons c tail ih =>
    rw [List.mem_cons, not_or] at htail
    rw [cutChars, beq_false_of_ne (Ne.symm htail.1), if_neg Bool.false_ne_true, ih htail.2]
    rfl

theorem cutChars_append {sep : Char} (htail : sep ∉ tail) :
    cutChars sep (w ++ tail) = (cutChars sep w).map fun (before, after) => (before, after ++ tail) := by
  induction w with
  | nil => exact cutChars_of_notMem htail
  | cons c w ih =>
    rw [List.cons_append, cutChars, cutChars, ih]
    split
    · rfl
    · rw [Option.map_map, Option.map_map]
      rfl

/-- A value with its escaped quotes read. -/
def quotesRead (value : List Char) : List Char := replacePairs [(['\\', '"'], ['"'])] 0 value

theorem quotesRead_escaped (value : List Char) :
    quotesRead ('\\' :: '"' :: value) = '"' :: quotesRead value := rfl

/-- Any other character stays, unless it escapes a quote. -/
theorem quotesRead_cons {c : Char} (h : c = '\\' → w.head? ≠ some '"') :
    quotesRead (c :: w) = c :: quotesRead w := by
  have hpair : ['\\', '"'].isPrefixOf (c :: w) = false := by
    rw [← Bool.not_eq_true, List.isPrefixOf_iff_prefix, List.cons_prefix_cons]
    rintro ⟨rfl, rest, hrest⟩
    exact h rfl (by rw [← hrest]; rfl)
  rw [quotesRead, replacePairs]
  simp only [List.find?_cons, List.find?_nil, hpair, Bool.and_false]
  rfl

/-- Without a backslash there is nothing to read. -/
theorem quotesRead_of_notMem {value : List Char} (h : '\\' ∉ value) : quotesRead value = value := by
  induction value with
  | nil => rfl
  | cons c value ih =>
    rw [List.mem_cons, not_or] at h
    rw [quotesRead_cons fun hc => absurd hc.symm h.1, ih h.2]

/-- Quotes are read up to a character that is none, and from there on. -/
theorem quotesRead_append {c : Char} (hc : c ≠ '"') :
    ∀ value, quotesRead (value ++ c :: w) = quotesRead value ++ quotesRead (c :: w)
  | [] => rfl
  | x :: value => by
    by_cases hescaped : x = '\\' ∧ value.head? = some '"'
    · obtain ⟨rfl, hquote⟩ := hescaped
      obtain ⟨rest, rfl⟩ : ∃ rest, value = '"' :: rest := by
        cases value with
        | nil => cases hquote
        | cons y rest => exact ⟨rest, by rw [Option.some.inj hquote]⟩
      rw [List.cons_append, List.cons_append, quotesRead_escaped, quotesRead_escaped,
        quotesRead_append hc rest, List.cons_append]
    · have hlone : x = '\\' → value.head? ≠ some '"' := fun hx hquote => hescaped ⟨hx, hquote⟩
      have hlonger : x = '\\' → (value ++ c :: w).head? ≠ some '"' := by
        intro hx
        cases value with
        | nil => exact fun hquote => hc (Option.some.inj hquote)
        | cons y rest => exact hlone hx
      rw [List.cons_append, quotesRead_cons hlonger, quotesRead_cons hlone,
        quotesRead_append hc value, List.cons_append]

/-- The last character of a value stays, for quotes are all that is taken out. -/
theorem mem_quotesRead_concat {c : Char} (hc : c ≠ '"') (value : List Char) :
    c ∈ quotesRead (value ++ [c]) := by
  have hlast : quotesRead [c] = [c] := quotesRead_cons fun _ => by simp
  rw [quotesRead_append hc, hlast]
  exact List.mem_append_right _ (List.mem_singleton_self c)

theorem isTrue_of_mem {value : String} {c : Char} (hc : c ∈ value.toList) (hblank : isBlank c = false)
    (hletter : c.toLower ∉ "false".toList) : isTrue value = true := by
  rw [isTrue, Bool.not_eq_true', ← Bool.not_eq_true]
  intro hsame
  have hlower : (trim value).toList.map Char.toLower = "false".toList.map Char.toLower :=
    eq_of_beq hsame
  have hmem : c.toLower ∈ (trim value).toList.map Char.toLower :=
    List.mem_map_of_mem (mem_trim hc hblank)
  rw [hlower] at hmem
  exact hletter (by simpa using hmem)

/-- A value with such a text behind it is not empty, and is not false. -/
theorem isTrue_of_isTail (htail : isTail tail = true) (value : List Char) :
    let v := String.ofList (quotesRead (value ++ tail))
    v.isEmpty = false ∧ isTrue v = true := by
  intro v
  rw [isTail, Bool.and_eq_true, Option.any_eq_true] at htail
  obtain ⟨-, c, hlast, hc⟩ := htail
  simp only [Bool.and_eq_true, bne_iff_ne, Bool.not_eq_true', List.contains_eq_mem,
    decide_eq_false_iff_not] at hc
  obtain ⟨⟨hquote, hblank⟩, hletter⟩ := hc
  obtain ⟨start, rfl⟩ := List.getLast?_eq_some_iff.mp hlast
  have hmem : c ∈ v.toList := by
    rw [String.toList_ofList, ← List.append_assoc]
    exact mem_quotesRead_concat hquote _
  refine ⟨?_, isTrue_of_mem hmem hblank hletter⟩
  rw [← Bool.not_eq_true]
  intro hempty
  rw [String.isEmpty_iff.mp hempty] at hmem
  cases hmem

/-- A character that no known key has. -/
def IsOdd (c : Char) : Prop := c = ';' ∨ c = '\\'

/-- A key without such characters. -/
def IsPlain (key : String) : Prop := ∀ c ∈ key.toList, ¬IsOdd c

instance (c : Char) : Decidable (IsOdd c) := inferInstanceAs (Decidable (_ ∨ _))

instance (key : String) : Decidable (IsPlain key) := List.decidableBAll _ key.toList

theorem exists_odd_of_isTail (htail : isTail tail = true) : ∃ c ∈ tail, IsOdd c := by
  simp only [isTail, Bool.and_eq_true, Bool.or_eq_true, List.contains_eq_mem, decide_eq_true_eq] at htail
  obtain ⟨⟨-, hsemicolon | hbackslash⟩, -⟩ := htail
  · exact ⟨';', hsemicolon, .inl rfl⟩
  · exact ⟨'\\', hbackslash, .inr rfl⟩

theorem IsOdd.isBlank {c : Char} (h : IsOdd c) : Text.isBlank c = false := by
  obtain rfl | rfl := h <;> decide

theorem IsOdd.mem_upper {c : Char} (h : IsOdd c) {key : String} (hc : c ∈ key.toList) :
    c ∈ (upper key).toList := by
  rw [upper, String.toList_ofList]
  refine List.mem_flatMap.mpr ⟨c, hc, ?_⟩
  obtain rfl | rfl := h <;> decide

theorem cut_append (htail : ':' ∉ tail) (w : List Char) :
    cut ':' (String.ofList (w ++ tail))
      = (cutChars ':' w).map fun (key, value) =>
        (String.ofList key, String.ofList (value ++ tail)) := by
  rw [cut, String.toList_ofList, cutChars_append htail, Option.map_map]
  rfl

/-- The item of an open tag: the text at its end is part of the value if there is a colon before it, and
of the key otherwise. -/
theorem item_cases (htail : isTail tail = true) (w : List Char) :
    (∃ key value, cutChars ':' w = some (key, value)
      ∧ rawKey (String.ofList (w ++ tail)) = trim (String.ofList key)
      ∧ ∃ v, setting? (String.ofList (w ++ tail)) = some (upper (trim (String.ofList key)), v)
        ∧ v.isEmpty = false ∧ isTrue v = true)
    ∨ cutChars ':' w = none ∧ ∃ c ∈ (rawKey (String.ofList (w ++ tail))).toList, IsOdd c := by
  have hcolon : ':' ∉ tail := by
    simp only [isTail, Bool.and_eq_true, Bool.not_eq_true', List.contains_eq_mem,
      decide_eq_false_iff_not] at htail
    exact htail.1.1
  have hcut := cut_append hcolon w
  cases hw : cutChars ':' w with
  | some parts =>
    obtain ⟨key, value⟩ := parts
    rw [hw, Option.map_some] at hcut
    obtain ⟨hempty, htrue⟩ := isTrue_of_isTail htail value
    refine .inl ⟨key, value, rfl, ?_, _, ?_, hempty, htrue⟩
    · rw [rawKey, hcut]
      rfl
    · rw [setting?, hcut]
      dsimp only
      rw [String.toList_ofList, quotesRead]
  | none =>
    rw [hw, Option.map_none] at hcut
    obtain ⟨c, hc, hodd⟩ := exists_odd_of_isTail htail
    refine .inr ⟨rfl, c, ?_, hodd⟩
    rw [rawKey, hcut]
    refine mem_trim ?_ hodd.isBlank
    rw [Option.map_none, Option.getD_none, String.toList_ofList]
    exact List.mem_append_right w hc

end Ends

/-! ## Flags -/

section Flags

variable {K : String} {p q : String → Bool} {front : List String} {tag : String}

theorem filter_concat {α : Type} (f : α → Bool) (front : List α) (a : α) :
    (front ++ [a]).filter f = if f a then front.filter f ++ [a] else front.filter f := by
  rw [List.filter_append, List.filter_cons, List.filter_nil]
  split
  · rfl
  · rw [List.append_nil]

/-- The settings that items make. -/
def settingsOf (items : List String) : Settings := ⟨items.filterMap setting?⟩

/-- The settings of a tag whose keys, as they are written, have a property. -/
def settingsWhere (p : String → Bool) (tag : String) : Settings :=
  settingsOf ((items ';' tag).filter fun item => p (rawKey item))

theorem parse_remove (tag : String) (keys : List String) :
    Settings.parse ';' (remove tag keys)
      = settingsWhere (fun key => !keys.any fun k => sameLetters k key) tag := by
  rw [Settings.parse, items_remove]
  rfl

theorem Settings.get?_concat (entries : List (String × String)) (k v : String) :
    Settings.get? ⟨entries ++ [(k, v)]⟩ K = if K = k then some v else Settings.get? ⟨entries⟩ K := by
  rw [Settings.get?, List.reverse_append, List.reverse_singleton, List.singleton_append,
    List.lookup_cons]
  by_cases hkey : K = k
  · rw [if_pos hkey, hkey, beq_self_eq_true]
  · rw [if_neg hkey, beq_false_of_ne hkey]
    rfl

theorem flag_settingsOf_concat_of_ne {item : String} (h : ∀ v, setting? item ≠ some (K, v)) :
    (settingsOf (front ++ [item])).flag K = (settingsOf front).flag K := by
  rw [settingsOf, List.filterMap_append]
  cases hsetting : setting? item with
  | none =>
    rw [List.filterMap_cons_none hsetting, List.filterMap_nil, List.append_nil]
    rfl
  | some entry =>
    obtain ⟨k, v⟩ := entry
    have hne : K ≠ k := fun heq => h v (by rw [hsetting, heq])
    rw [List.filterMap_cons_some hsetting, List.filterMap_nil, Settings.flag, Settings.value?,
      Settings.get?_concat, if_neg hne]
    rfl

theorem flag_settingsOf_concat_congr {front' : List String}
    (h : (settingsOf front).flag K = (settingsOf front').flag K) (item : String) :
    (settingsOf (front ++ [item])).flag K = (settingsOf (front' ++ [item])).flag K := by
  by_cases hsets : ∃ v, setting? item = some (K, v)
  · obtain ⟨v, hsetting⟩ := hsets
    rw [settingsOf, settingsOf, List.filterMap_append, List.filterMap_append,
      List.filterMap_cons_some hsetting, List.filterMap_nil, Settings.flag, Settings.flag,
      Settings.value?, Settings.value?, Settings.get?_concat, Settings.get?_concat, if_pos rfl,
      if_pos rfl]
  · have hne : ∀ v, setting? item ≠ some (K, v) := fun v hsetting => hsets ⟨v, hsetting⟩
    rw [flag_settingsOf_concat_of_ne hne, flag_settingsOf_concat_of_ne hne, h]

theorem flag_settingsOf_concat_of_set {item k v : String} (h : setting? item = some (k, v))
    (hempty : v.isEmpty = false) (htrue : isTrue v = true) :
    (settingsOf (front ++ [item])).flag K = (decide (K = k) || (settingsOf front).flag K) := by
  by_cases hkey : K = k
  · have hfilter : Option.filter (fun text : String => !text.isEmpty) (some v) = some v := by
      rw [Option.filter_some, hempty]
      rfl
    rw [decide_eq_true hkey, Bool.true_or, settingsOf, List.filterMap_append,
      List.filterMap_cons_some h, List.filterMap_nil, Settings.flag, Settings.value?,
      Settings.get?_concat, if_pos hkey, hfilter, Option.any_some, htrue]
  · rw [decide_eq_false hkey, Bool.false_or]
    refine flag_settingsOf_concat_of_ne fun v' heq => hkey ?_
    rw [h] at heq
    exact (congrArg Prod.fst (Option.some.inj heq)).symm

/-- The item at the end of an open tag sets a flag or leaves it alone, whatever is made of that end. -/
theorem flag_settingsOf_tail {tail tail' : List Char} (htail : isTail tail = true)
    (htail' : isTail tail' = true) (hK : IsPlain K) (p : String → Bool)
    (front : List String) (w : List Char) :
    (settingsOf ((front ++ [String.ofList (w ++ tail)]).filter fun item => p (rawKey item))).flag K
      = (settingsOf ((front ++ [String.ofList (w ++ tail')]).filter fun item => p (rawKey item))).flag
        K := by
  have hother : ∀ {item : String}, (∃ c ∈ (rawKey item).toList, IsOdd c) →
      (settingsOf ((front ++ [item]).filter fun item => p (rawKey item))).flag K
        = (settingsOf (front.filter fun item => p (rawKey item))).flag K := by
    rintro item ⟨c, hc, hodd⟩
    have hne : ∀ v, setting? item ≠ some (K, v) := fun v hsetting =>
      hK c (key_of_setting? hsetting ▸ hodd.mem_upper hc) hodd
    rw [filter_concat]
    split
    · exact flag_settingsOf_concat_of_ne hne
    · rfl
  obtain ⟨key, _, hw, hraw, v, hsetting, hempty, htrue⟩ | ⟨hw, hodd⟩ := item_cases htail w
  · obtain ⟨_, _, hw', hraw', v', hsetting', hempty', htrue'⟩ | ⟨hw', -⟩ := item_cases htail' w
    · obtain ⟨rfl, -⟩ := Prod.mk.inj (Option.some.inj (hw.symm.trans hw'))
      rw [filter_concat, filter_concat, hraw, hraw']
      split
      · rw [flag_settingsOf_concat_of_set hsetting hempty htrue,
          flag_settingsOf_concat_of_set hsetting' hempty' htrue']
      · rfl
    · rw [hw] at hw'
      cases hw'
  · obtain ⟨_, _, hw', -⟩ | ⟨-, hodd'⟩ := item_cases htail' w
    · rw [hw] at hw'
      cases hw'
    · rw [hother hodd, hother hodd']

/-- Whether a flag is set depends on the items with its key only. -/
theorem flag_settingsWhere_congr (h : ∀ key, upper key = K → p key = q key) (tag : String) :
    (settingsWhere p tag).flag K = (settingsWhere q tag).flag K := by
  rw [settingsWhere, settingsWhere]
  induction items ';' tag using List.reverseRecOn with
  | nil => rfl
  | append_singleton front item ih =>
    rw [filter_concat, filter_concat]
    by_cases hkey : upper (rawKey item) = K
    · rw [h _ hkey]
      split
      · exact flag_settingsOf_concat_congr ih item
      · exact ih
    · have hne : ∀ v, setting? item ≠ some (K, v) := fun v hsetting =>
        hkey (key_of_setting? hsetting).symm
      have hskip : ∀ (kept : List String) (taken : Bool),
          (settingsOf (if taken then kept ++ [item] else kept)).flag K = (settingsOf kept).flag K := by
        intro kept taken
        split
        · exact flag_settingsOf_concat_of_ne hne
        · rfl
      rw [hskip, hskip, ih]

/-- A tag of blanks has at most one item, and that makes no setting. -/
theorem items_of_blank (hblank : (trim tag).isEmpty = true) :
    ∀ item ∈ items ';' tag, setting? item = none ∧ rawKey item = "" := by
  have hall := trim_isEmpty_iff.mp hblank
  have hsep : ';' ∉ tag.toList := fun hmem => absurd (hall _ hmem) (by decide)
  have hcut : cut ':' tag = none := by
    rw [cut, cutChars_of_notMem fun hmem => absurd (hall _ hmem) (by decide)]
    rfl
  intro item hitem
  rw [items, itemsFrom_of_notMem hsep] at hitem
  obtain ⟨read, hread, rfl⟩ := List.mem_map.mp hitem
  obtain rfl := List.mem_singleton.mp (List.mem_filter.mp hread).1
  rw [List.reverse_nil, List.nil_append, String.ofList_toList, setting?, rawKey, hcut]
  have hempty := String.isEmpty_iff.mp hblank
  rw [Option.map_none, Option.getD_none, hempty]
  exact ⟨rfl, rfl⟩

/-- The item that a setting makes on its own. -/
theorem items_primaryKey : items ';' "primaryKey" = ["primaryKey"] := by decide +kernel

theorem setting?_primaryKey : setting? "primaryKey" = some ("PRIMARYKEY", "PRIMARYKEY") := by
  decide +kernel

/-- What becomes of the items of a tag when the setting of a key is put behind it. -/
inductive KeyAppended (tag : String) : Prop where
  /-- The tag is as good as empty. -/
  | blank (hitems : items ';' (append tag "primaryKey") = ["primaryKey"])
      (hblank : ∀ item ∈ items ';' tag, setting? item = none ∧ rawKey item = "")
      (hclosed : isOpen tag = false)
  /-- The setting is an item of its own. -/
  | apart (hitems : items ';' (append tag "primaryKey") = items ';' tag ++ ["primaryKey"])
      (hclosed : isOpen tag = false)
  /-- The setting is the rest of the last item. -/
  | glued (front : List String) (w : List Char) (last : Char)
      (hitems : items ';' (append tag "primaryKey")
        = front ++ [String.ofList (w ++ ';' :: "primaryKey".toList)])
      (hbefore : items ';' tag = front ++ [String.ofList (w ++ [last])])
      (hlast : isTail [last] = true) (hopen : isOpen tag = true)

theorem keyAppended (tag : String) : KeyAppended tag := by
  cases hopen : isOpen tag with
  | true =>
    obtain ⟨front, w, last, hbefore, -, hlast, hitems⟩ := exists_items_of_open hopen
    have hlead : lead "primaryKey" = "primaryKey".toList := by decide +kernel
    have hlater : laterItems "primaryKey" = [] := by decide +kernel
    have hglued := hitems "primaryKey"
    rw [hlead, hlater] at hglued
    refine .glued front w last hglued hbefore ?_ hopen
    obtain rfl | rfl := hlast <;> decide
  | false =>
    cases hblank : (trim tag).isEmpty with
    | true =>
      refine .blank ?_ (items_of_blank hblank) hopen
      rw [append, hblank, if_pos rfl]
      exact items_primaryKey
    | false =>
      refine .apart ?_ hopen
      rw [items_append_of_closed hblank hopen, items_primaryKey]

theorem isTail_primaryKey : isTail (';' :: "primaryKey".toList) = true := by decide

/-- A flag that is put behind a tag sets that flag, unless the tag is open; the others are as they
were. -/
theorem flag_settingsWhere_append (hK : IsPlain K) (p : String → Bool) (tag : String) :
    (settingsWhere p (append tag "primaryKey")).flag K
      = (decide (K = "PRIMARYKEY") && p "primaryKey" && !isOpen tag
        || (settingsWhere p tag).flag K) := by
  have hraw : rawKey "primaryKey" = "primaryKey" := by decide +kernel
  have hbehind : ∀ front : List String,
      (settingsOf ((front ++ ["primaryKey"]).filter fun item => p (rawKey item))).flag K
        = (decide (K = "PRIMARYKEY") && p "primaryKey"
          || (settingsOf (front.filter fun item => p (rawKey item))).flag K) := by
    intro front
    rw [filter_concat, hraw]
    cases p "primaryKey" with
    | true =>
      rw [if_pos rfl, Bool.and_true]
      exact flag_settingsOf_concat_of_set setting?_primaryKey (by decide) (by decide)
    | false => rw [if_neg Bool.false_ne_true, Bool.and_false, Bool.false_or]
  rw [settingsWhere, settingsWhere]
  cases keyAppended tag with
  | blank hitems hblank hclosed =>
    have hnone : settingsOf ((items ';' tag).filter fun item => p (rawKey item)) = ⟨[]⟩ := by
      rw [settingsOf, List.filterMap_eq_nil_iff.mpr fun item hitem =>
        (hblank item (List.mem_filter.mp hitem).1).1]
    have hself := hbehind []
    rw [List.nil_append] at hself
    rw [hitems, hself, hclosed, hnone, Bool.not_false, Bool.and_true]
    rfl
  | apart hitems hclosed => rw [hitems, hbehind, hclosed, Bool.not_false, Bool.and_true]
  | glued front w last hitems hbefore hlast hopen =>
    rw [hitems, hbefore, hopen, Bool.not_true, Bool.and_false, Bool.false_or]
    exact flag_settingsOf_tail isTail_primaryKey hlast hK p front w

end Flags

/-! ## Keys that are known -/

/-- Which of the known keys a tag has is the same with a setting behind it. -/
theorem exists_item_append_iff {P : String → Prop} (hP : ∀ key, P key → key ≠ "" ∧ IsPlain key)
    (hself : ¬P "primaryKey") (tag : String) :
    (∃ item ∈ items ';' (append tag "primaryKey"), P (rawKey item))
      ↔ ∃ item ∈ items ';' tag, P (rawKey item) := by
  have hraw : rawKey "primaryKey" = "primaryKey" := by decide +kernel
  have hconcat : ∀ (front : List String) (item : String),
      (∃ i ∈ front ++ [item], P (rawKey i)) ↔ (∃ i ∈ front, P (rawKey i)) ∨ P (rawKey item) := by
    intro front item
    simp only [List.mem_append, List.mem_singleton, or_and_right, exists_or, exists_eq_left]
  cases keyAppended tag with
  | blank hitems hblank _ =>
    rw [hitems]
    constructor
    · rintro ⟨item, hitem, hkey⟩
      rw [List.mem_singleton.mp hitem, hraw] at hkey
      exact absurd hkey hself
    · rintro ⟨item, hitem, hkey⟩
      exact absurd (hblank item hitem).2 (hP _ hkey).1
  | apart hitems _ => rw [hitems, hconcat, hraw, or_iff_left hself]
  | glued front w last hitems hbefore hlast _ =>
    rw [hitems, hbefore, hconcat, hconcat]
    refine or_congr_right ?_
    have hodd : ∀ {key : String}, (∃ c ∈ key.toList, IsOdd c) → ¬P key :=
      fun ⟨c, hc, hodd⟩ hkey => (hP _ hkey).2 c hc hodd
    obtain ⟨key, _, hw, hraw, -⟩ | ⟨hw, hkey⟩ := item_cases isTail_primaryKey w
    · obtain ⟨_, _, hw', hraw', -⟩ | ⟨hw', -⟩ := item_cases hlast w
      · obtain ⟨rfl, -⟩ := Prod.mk.inj (Option.some.inj (hw.symm.trans hw'))
        rw [hraw, hraw']
      · rw [hw] at hw'
        cases hw'
    · obtain ⟨_, _, hw', -⟩ | ⟨-, hkey'⟩ := item_cases hlast w
      · rw [hw] at hw'
        cases hw'
      · exact iff_of_false (hodd hkey) (hodd hkey')

/-! ## Keys that are removed -/

/-- The text is of ASCII characters only. -/
def isAscii (text : String) : Bool := text.toList.all fun c => decide (c.toNat < 0x80)

theorem toList_upper_of_isAscii {key : String} (h : isAscii key = true) :
    (upper key).toList = key.toList.map Char.toUpper := by
  rw [upper, String.toList_ofList, List.map_eq_flatMap]
  exact List.flatMap_congr fun c hc => by
    rw [upperChar, if_pos (of_decide_eq_true (List.all_eq_true.mp h c hc))]

theorem ascii_of_toLower {c : Char} (h : c.toLower.toNat < 0x80) : c.toNat < 0x80 := by
  by_cases hupper : c.isUpper = true
  · have hle : c.val ≤ 'Z'.val := (of_decide_eq_true hupper).2
    have hnat : c.toNat ≤ 'Z'.toNat := hle
    exact Nat.lt_of_le_of_lt hnat (by decide)
  · rwa [toLower_of_not_isUpper (Bool.eq_false_iff.mpr hupper)] at h

/-- A key that is removed is the one that is named, in ASCII letters of either case. -/
theorem sameLetters_iff {label key : String} (hlabel : isAscii label = true) :
    sameLetters label key = true ↔ upper key = upper label ∧ isAscii key = true := by
  have hupper : ∀ cs : List Char, cs.map Char.toUpper = (cs.map Char.toLower).map Char.toUpper := by
    intro cs
    rw [List.map_map]
    exact List.map_congr_left fun c _ => (toUpper_toLower c).symm
  have hlower : ∀ cs : List Char, cs.map Char.toLower = (cs.map Char.toUpper).map Char.toLower := by
    intro cs
    rw [List.map_map]
    exact List.map_congr_left fun c _ => (toLower_toUpper c).symm
  rw [sameLetters, beq_iff_eq]
  constructor
  · intro hsame
    have hascii : isAscii key = true := by
      refine List.all_eq_true.mpr fun c hc => decide_eq_true (ascii_of_toLower ?_)
      have hmem : c.toLower ∈ key.toList.map Char.toLower := List.mem_map_of_mem hc
      rw [← hsame] at hmem
      obtain ⟨l, hl, hcl⟩ := List.mem_map.mp hmem
      have hascii : l.toNat < 0x80 := of_decide_eq_true (List.all_eq_true.mp hlabel l hl)
      have hall : ∀ code < 0x80, (Char.ofNat code).toLower.toNat < 0x80 := by decide +kernel
      have hl := hall l.toNat hascii
      rwa [Char.ofNat_toNat, hcl] at hl
    refine ⟨String.toList_inj.mp ?_, hascii⟩
    rw [toList_upper_of_isAscii hascii, toList_upper_of_isAscii hlabel, hupper key.toList, ← hsame,
      ← hupper label.toList]
  · rintro ⟨hsame, hascii⟩
    have hmap := congrArg String.toList hsame
    rw [toList_upper_of_isAscii hascii, toList_upper_of_isAscii hlabel] at hmap
    rw [hlower label.toList, ← hmap, ← hlower key.toList]

end RecordSql.Tag
