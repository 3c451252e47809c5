/-
  RecordSql.Proofs.Identifiers.DatabaseNames

  The database form of a name.  Nothing of a name is lost on the way to it:
  writing initialisms as words changes the case of letters and nothing else
  (`map_toLower_replaced`), and after that each character is written small, with
  an underscore before it or without one (`snakeFrom_cons`).

  So there are no capitals in the result, and a name without capitals is in
  database form already (`snakeCase_eq_self_iff`): there is no initialism in it
  and no place for an underscore.  This is why a name can be converted again,
  as that of an index is when it is made from a column.
-/

import RecordSql.Proofs.Identifiers.Respelled

namespace RecordSql

open RecordSql.Text

/-- Replacing parts of a text by others that are the same under `f` leaves what `f` makes of the text. -/
theorem map_replacePairs {β : Type} {f : Char → β} {pairs : List (List Char × List Char)}
    (hpairs : ∀ p ∈ pairs, p.2.map f = p.1.map f) (skip : Nat) (text : List Char) :
    (replacePairs pairs skip text).map f = (text.drop skip).map f := by
  induction text generalizing skip with
  | nil => rw [replacePairs, List.drop_nil]
  | cons c text ih =>
    cases skip with
    | succ skip =>
      rw [replacePairs, List.drop_succ_cons]
      exact ih skip
    | zero =>
      rw [replacePairs, List.drop_zero]
      split
      · next p hfind =>
        -- The rest of the part that fits has been dealt with.
        have hfits := List.find?_some hfind
        rw [Bool.and_eq_true, Bool.not_eq_true', List.isEmpty_eq_false_iff,
          List.isPrefixOf_iff_prefix] at hfits
        obtain ⟨hne, rest, hrest⟩ := hfits
        obtain ⟨d, part, hpart⟩ := List.exists_cons_of_ne_nil hne
        rw [hpart, List.cons_append, List.cons.injEq] at hrest
        obtain ⟨rfl, rfl⟩ := hrest
        have hlater : (part ++ rest).drop (p.1.length - 1) = rest := by
          rw [hpart, List.length_cons, Nat.add_sub_cancel, List.drop_left]
        rw [List.map_append, ih, hlater, hpairs p (List.mem_of_find?_eq_some hfind), hpart,
          List.map_cons, List.map_cons, List.map_append, List.cons_append]
      · rw [List.map_cons, List.map_cons, ih, List.drop_zero]

namespace Naming

/-! ## Characters -/

/-- No character of the text is an ASCII capital. -/
def NoCapitals (text : List Char) : Prop := ∀ c ∈ text, c.isUpper = false

theorem noCapitals_cons {c : Char} {text : List Char} :
    NoCapitals (c :: text) ↔ c.isUpper = false ∧ NoCapitals text := List.forall_mem_cons

/-- A text without its underscores. -/
def withoutUnderscores (text : List Char) : List Char := text.filter (· ≠ '_')

theorem withoutUnderscores_append (text rest : List Char) :
    withoutUnderscores (text ++ rest) = withoutUnderscores text ++ withoutUnderscores rest :=
  List.filter_append text rest

theorem withoutUnderscores_cons (c : Char) (text : List Char) :
    withoutUnderscores (c :: text) = (if c = '_' then [] else [c]) ++ withoutUnderscores text := by
  by_cases h : c = '_' <;> simp [withoutUnderscores, h]

theorem withoutUnderscores_map_toLower (text : List Char) :
    withoutUnderscores (text.map Char.toLower) = (withoutUnderscores text).map Char.toLower := by
  rw [withoutUnderscores, withoutUnderscores, List.filter_map]
  refine congrArg _ (List.filter_congr fun c _ => ?_)
  rw [Function.comp_apply, decide_eq_decide, Ne, toLower_eq_underscore_iff]

/-! ## Initialisms as words -/

theorem map_toLower_asWord : ∀ i ∈ initialisms, (asWord i).map Char.toLower = i.toList.map Char.toLower := by
  decide

/-- Writing initialisms as words changes nothing but the case of letters. -/
theorem map_toLower_replaced (text : List Char) :
    (replaced text).map Char.toLower = text.map Char.toLower := by
  refine map_replacePairs (fun p hp => ?_) 0 text
  obtain ⟨i, hi, rfl⟩ := List.mem_map.mp hp
  exact map_toLower_asWord i hi

/-- There is no initialism in a text without capitals. -/
theorem replaced_of_noCapitals {text : List Char} (h : NoCapitals text) : replaced text = text := by
  induction text with
  | nil => rfl
  | cons c text ih =>
    obtain ⟨hc, hrest⟩ := noCapitals_cons.mp h
    rw [replaced_cons_of_none (first?_of_not_isUpper ((isUpper_eq c).trans hc)), ih hrest]

/-! ## Words joined by underscores -/

/-- What stands before a character: an underscore, if it is a capital that begins a word. -/
def gap (previous : Option Char) (c : Char) (text : List Char) : List Char :=
  if isUpper c && breaksBefore previous text.head? then ['_'] else []

theorem gap_of_not_isUpper {c : Char} (h : c.isUpper = false) (previous : Option Char)
    (text : List Char) : gap previous c text = [] := by
  rw [gap, isUpper_eq, h, Bool.false_and]
  rfl

theorem withoutUnderscores_gap (previous : Option Char) (c : Char) (text : List Char) :
    withoutUnderscores (gap previous c text) = [] := by
  rw [gap]
  split <;> rfl

theorem noCapitals_gap (previous : Option Char) (c : Char) (text : List Char) :
    NoCapitals (gap previous c text) := by
  rw [gap, NoCapitals]
  split
  · exact List.forall_mem_singleton.mpr rfl
  · exact List.forall_mem_nil _

/-- Each character is written small, behind its gap. -/
theorem snakeFrom_cons (previous : Option Char) (c : Char) (text : List Char) :
    snakeFrom previous (c :: text)
      = gap previous c text ++ c.toLower :: snakeFrom (some c) text := by
  rw [snakeFrom, gap]
  cases hc : isUpper c with
  | false =>
    rw [isUpper_eq] at hc
    rw [toLower_of_not_isUpper hc]
    rfl
  | true =>
    rw [Bool.true_and, if_pos rfl]
    split <;> rfl

section SnakeFrom

variable (previous : Option Char) (text : List Char)

theorem noCapitals_snakeFrom : NoCapitals (snakeFrom previous text) := by
  induction text generalizing previous with
  | nil => exact List.forall_mem_nil _
  | cons c text ih =>
    rw [snakeFrom_cons, NoCapitals, List.forall_mem_append]
    exact ⟨noCapitals_gap previous c text,
      noCapitals_cons.mpr ⟨isUpper_toLower c, ih (some c)⟩⟩

/-- But for underscores the text is the same in lower case. -/
theorem withoutUnderscores_snakeFrom :
    withoutUnderscores (snakeFrom previous text) = withoutUnderscores (text.map Char.toLower) := by
  induction text generalizing previous with
  | nil => rfl
  | cons c text ih =>
    -- The gap is gone, and the character goes if it is an underscore itself.
    rw [snakeFrom_cons, withoutUnderscores_append, withoutUnderscores_gap, List.nil_append,
      withoutUnderscores_cons, ih, List.map_cons, withoutUnderscores_cons]

/-- The text stays in it as it is in lower case, with its own underscores. -/
theorem map_toLower_sublist_snakeFrom :
    (text.map Char.toLower).Sublist (snakeFrom previous text) := by
  induction text generalizing previous with
  | nil => exact List.nil_sublist _
  | cons c text ih =>
    rw [snakeFrom_cons, List.map_cons]
    exact ((ih (some c)).cons_cons c.toLower).trans (List.sublist_append_right _ _)

end SnakeFrom

theorem snakeFrom_of_noCapitals {text : List Char} (h : NoCapitals text) (previous : Option Char) :
    snakeFrom previous text = text := by
  induction text generalizing previous with
  | nil => rfl
  | cons c text ih =>
    obtain ⟨hc, hrest⟩ := noCapitals_cons.mp h
    rw [snakeFrom_cons, gap_of_not_isUpper hc, List.nil_append,
      toLower_of_not_isUpper hc, ih hrest]

theorem snakeCase_eq (name : List Char) : snakeCase name = snakeFrom none (replaced name) := rfl

/-- The names that stay as they are written are those without capitals. -/
theorem snakeCase_eq_self_iff {name : List Char} : snakeCase name = name ↔ NoCapitals name := by
  constructor
  · intro h
    rw [← h]
    exact noCapitals_snakeFrom none (replaced name)
  · intro h
    rw [snakeCase_eq, replaced_of_noCapitals h, snakeFrom_of_noCapitals h]

/-- A name loses and gains nothing but underscores, and its capitals become small. -/
theorem withoutUnderscores_snakeCase (name : List Char) :
    withoutUnderscores (snakeCase name) = (withoutUnderscores name).map Char.toLower :=
  calc withoutUnderscores (snakeCase name)
      = withoutUnderscores ((replaced name).map Char.toLower) := withoutUnderscores_snakeFrom none _
    _ = withoutUnderscores (name.map Char.toLower) := by rw [map_toLower_replaced]
    _ = (withoutUnderscores name).map Char.toLower := withoutUnderscores_map_toLower name

theorem map_toLower_sublist_snakeCase (name : List Char) :
    (name.map Char.toLower).Sublist (snakeCase name) := by
  rw [← map_toLower_replaced]
  exact map_toLower_sublist_snakeFrom none (replaced name)

/-! ## Names -/

section Names

variable {ns : Naming} (hplain : ns.replacements = [])

include hplain

/-- Where no parts are replaced, a name is kept or written as words in lower case. -/
theorem dbName_eq (name : String) :
    ns.dbName name = if ns.keepCase then name else String.ofList (snakeCase name.toList) := by
  rw [dbName]
  cases hempty : name.isEmpty with
  | true =>
    obtain rfl := String.isEmpty_iff.mp hempty
    cases ns.keepCase <;> rfl
  | false =>
    -- Nothing is replaced, so the name does not become empty either.
    have hlist : name.toList.isEmpty = false := by
      rw [List.isEmpty_eq_false_iff, Ne, String.toList_eq_nil_iff]
      exact String.isEmpty_eq_false_iff.mp hempty
    simp only [hplain, List.map_nil, replacePairs_nil, hlist, String.ofList_toList,
      Bool.false_eq_true, if_false]

/-- A name in database form is its own. -/
theorem dbName_dbName (name : String) : ns.dbName (ns.dbName name) = ns.dbName name := by
  rw [dbName_eq hplain, dbName_eq hplain]
  cases ns.keepCase with
  | true => rfl
  | false =>
    have hsettled := snakeCase_eq_self_iff.mpr (noCapitals_snakeFrom none (replaced name.toList))
    rw [← snakeCase_eq] at hsettled
    rw [if_neg Bool.false_ne_true, if_neg Bool.false_ne_true, String.toList_ofList, hsettled]

end Names

/-- Converting a name again changes nothing, where no parts of names are replaced. A name that is not
kept as it is written has no capitals then, and is the same in lower case but for underscores, of
which it has more and none fewer. -/
theorem column_naming_idempotent (ns : Naming) (hplain : ns.replacements = []) (name : String) :
    ns.dbName (ns.dbName name) = ns.dbName name
      ∧ (ns.keepCase = true → ns.dbName name = name)
      ∧ (ns.keepCase = false →
        (∀ c ∈ (ns.dbName name).toList, c.isUpper = false)
          ∧ withoutUnderscores (ns.dbName name).toList
            = (withoutUnderscores name.toList).map Char.toLower
          ∧ (name.toList.map Char.toLower).Sublist (ns.dbName name).toList) := by
  refine ⟨dbName_dbName hplain name, fun hkeep => ?_, fun hkeep => ?_⟩
  · rw [dbName_eq hplain, hkeep, if_pos rfl]
  · rw [dbName_eq hplain, hkeep, if_neg Bool.false_ne_true, String.toList_ofList]
    exact ⟨noCapitals_snakeFrom none _, withoutUnderscores_snakeCase _, map_toLower_sublist_snakeCase _⟩

/-- Initialisms that run into each other, an underscore before the last letter, and a capital that is
none in ASCII. -/
theorem column_naming_idempotent_overlapping :
    ({} : Naming).dbName "HTTPSForUIDogÜ_X" = "http_s_for_uidogÜ__x"
      ∧ ({} : Naming).dbName "http_s_for_uidogÜ__x" = "http_s_for_uidogÜ__x"
      ∧ withoutUnderscores "http_s_for_uidogÜ__x".toList
        = (withoutUnderscores "HTTPSForUIDogÜ_X".toList).map Char.toLower := by
  have hname : ({} : Naming).dbName "HTTPSForUIDogÜ_X" = "http_s_for_uidogÜ__x" := by decide +kernel
  obtain ⟨hagain, -, hletters⟩ := column_naming_idempotent {} rfl "HTTPSForUIDogÜ_X"
  rw [hname] at hagain hletters
  exact ⟨hname, hagain, (hletters rfl).2.1⟩

end Naming

end RecordSql
