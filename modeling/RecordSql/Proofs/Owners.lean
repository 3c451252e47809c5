/-
  RecordSql.Proofs.Owners

  Who owns a column and who owns a name.  Fields of embedded records stand among
  those of the record itself, and several may have one column or one name.  A
  column goes to the first field with the shortest path (`OwnerOf`); a name goes
  to the first field that is not ignored (`FirstOf`).  The columns stand in the
  order in which they appear, whoever owns them in the end.
-/

import RecordSql.Proofs.Names

namespace RecordSql

/-- A column has one owner. -/
theorem OwnerOf.unique {fields : List Field} {column : String} {position position' : Nat} {f f' : Field}
    (h : OwnerOf fields column position f) (h' : OwnerOf fields column position' f') :
    position = position' ∧ f = f' := by
  have hposition : position = position' := by
    have hle := (h.shortest position' f' h'.contends).1
    have hle' := (h'.shortest position f h.contends).1
    -- Neither stands before the other, as their paths have the same length.
    rcases Nat.lt_trichotomy position position' with hlt | heq | hgt
    · have hshorter := (h'.shortest position f h.contends).2 hlt
      omega
    · exact heq
    · have hshorter := (h.shortest position' f' h'.contends).2 hgt
      omega
  subst hposition
  exact ⟨rfl, Option.some.inj (h.contends.field.symm.trans h'.contends.field)⟩

namespace Layout.Assembled

variable {l : Layout} {column name : String}

/-- Looking a column up finds its owner. -/
theorem exists_owner (h : l.Assembled) (hcolumn : column ∈ l.dbNames) :
    ∃ position f, l.byDbName.lookup column = some position ∧ l.fieldByDbName column = some f
      ∧ OwnerOf l.fields column position f := by
  obtain ⟨position, hposition⟩ := (h.consistent.columns column).mp hcolumn
  obtain ⟨f, hf⟩ := h.owner_of_lookup hposition
  have hfound : l.fieldByDbName column = some f := by
    rw [fieldByDbName, hposition]
    exact hf.contends.field
  exact ⟨position, f, hposition, hfound, hf⟩

/-- Nothing is found under what is no column. -/
theorem fieldByDbName_eq_none (h : l.Assembled) (hcolumn : column ∉ l.dbNames) :
    l.fieldByDbName column = none := by
  cases hlookup : l.byDbName.lookup column with
  | none =>
    rw [fieldByDbName, hlookup]
    rfl
  | some position => exact absurd ((h.consistent.columns column).mpr ⟨position, hlookup⟩) hcolumn

/-- The columns with a property are those whose owner has it. -/
theorem mem_columnsWhere_iff (h : l.Assembled) {p : Field → Bool} :
    column ∈ l.columnsWhere p
      ↔ column ∈ l.dbNames ∧ ∃ position f, OwnerOf l.fields column position f ∧ p f = true := by
  rw [columnsWhere, List.mem_filter]
  refine and_congr_right fun hcolumn => ?_
  obtain ⟨position, f, hposition, -, hf⟩ := h.exists_owner hcolumn
  have hfound : l.lookupField column = some f := by
    rw [lookupField, lookup, hposition]
    exact hf.contends.field
  rw [hfound, Option.any_some]
  constructor
  · intro hp
    exact ⟨position, f, hf, hp⟩
  · rintro ⟨position', f', hf', hp⟩
    obtain ⟨-, rfl⟩ := hf.unique hf'
    exact hp

/-- Looking a name up finds the first field that has it. -/
theorem exists_first (h : l.Assembled) (hname : ∃ f ∈ l.fields, f.name = name) :
    ∃ position f, l.byName.lookup name = some position ∧ l.fieldByName name = some f
      ∧ FirstOf l.fields name position f := by
  obtain ⟨g, hg, rfl⟩ := hname
  obtain ⟨position, hposition⟩ := h.leadsByName.covered g hg
  obtain ⟨f, hf⟩ := h.leadsByName.held _ _ hposition
  have hfound : l.fieldByName g.name = some f := by
    rw [fieldByName, hposition]
    exact hf.field
  exact ⟨position, f, hposition, hfound, hf⟩

/-- Nothing is found under a name that no field has. -/
theorem fieldByName_eq_none (h : l.Assembled) (hname : ∀ f ∈ l.fields, f.name ≠ name) :
    l.fieldByName name = none := by
  cases hlookup : l.byName.lookup name with
  | none =>
    rw [fieldByName, hlookup]
    rfl
  | some position =>
    obtain ⟨f, hf⟩ := h.leadsByName.held name position hlookup
    exact absurd hf.name_eq (hname f (List.mem_of_getElem? hf.field))

end Layout.Assembled

namespace Schema

/-- The columns of a schema are those of its fields, each once and in the order in which they appear
first. A column leads to the one of its fields that owns it: of the first field with the column and
the later ones that are read or written, the first with the shortest path. A name leads to its first
field that is not ignored, or to the last if all are. No other columns and names lead anywhere. -/
theorem columns_and_names_lead_to_owners {catalog : Catalog} {ns : Naming} {ref : ModelRef}
    {table : Option String} {s : Schema} (h : parse catalog ns ref table = .ok s) :
    s.dbNames.Nodup ∧ s.dbNames = Layout.columnsOf s.fields
      ∧ (∀ column ∈ s.dbNames, ∃ position f, s.byDbName.lookup column = some position
        ∧ s.fieldByDbName column = some f ∧ OwnerOf s.fields column position f)
      ∧ (∀ column, column ∉ s.dbNames → s.fieldByDbName column = none)
      ∧ (∀ name, (∃ f ∈ s.fields, f.name = name) → ∃ position f,
        s.byName.lookup name = some position ∧ s.fieldByName name = some f
          ∧ FirstOf s.fields name position f)
      ∧ ∀ name, (∀ f ∈ s.fields, f.name ≠ name) → s.fieldByName name = none := by
  have hassembled : s.toLayout.Assembled := (assembled_of_parse h).1
  refine ⟨hassembled.consistent.nodup, hassembled.dbNames_eq, ?_, ?_, ?_, ?_⟩
  · intro column hcolumn
    exact hassembled.exists_owner hcolumn
  · intro column hcolumn
    exact hassembled.fieldByDbName_eq_none hcolumn
  · intro name hname
    exact hassembled.exists_first hname
  · intro name hname
    exact hassembled.fieldByName_eq_none hname

/-- An article embeds a draft, which embeds a note, and each of them has a title. The column of titles
is also that of a heading, which is neither read nor written. The state of the draft is ignored. -/
def articles : Catalog :=
  ⟨[ ( "Article",
      { name := "Article"
        fields :=
          [ { name := "Draft", kind := .record ⟨"Draft", "Draft"⟩, anonymous := true }
          , { name := "Heading", kind := .string, tag := "column:title;->:false" }
          , { name := "Title", kind := .string }
          , { name := "State", kind := .string } ] } )
    , ( "Draft",
      { name := "Draft"
        fields :=
          [ { name := "Note", kind := .record ⟨"Note", "Note"⟩, anonymous := true }
          , { name := "Title", kind := .string }
          , { name := "State", kind := .string, tag := "-" } ] } )
    , ("Note", { name := "Note", fields := [{ name := "Title", kind := .string }] }) ]⟩

/-- The title of the note comes first and has the name. The column goes to the title of the draft, and
then past the heading to that of the article. The state of the article has name and column. -/
theorem columns_and_names_lead_to_owners_articles :
    ∃ s, parse articles {} ⟨"Article", "Article"⟩ none = .ok s
      ∧ s.dbNames = ["title", "state"]
      ∧ (∃ f, OwnerOf s.fields "title" 4 f) ∧ (∃ f, FirstOf s.fields "Title" 0 f)
      ∧ (∃ f, FirstOf s.fields "State" 5 f) ∧ s.fieldByDbName "Title" = none := by
  have hparsed : ((parse articles {} ⟨"Article", "Article"⟩ none).toOption.map fun s =>
      decide (s.dbNames = ["title", "state"] ∧ s.byDbName.lookup "title" = some 4
        ∧ s.byName.lookup "Title" = some 0 ∧ s.byName.lookup "State" = some 5
        ∧ (∃ f ∈ s.fields, f.name = "Title") ∧ ∃ f ∈ s.fields, f.name = "State"))
      = some true := by decide +kernel
  obtain ⟨s, hs, hfacts⟩ := Option.map_eq_some_iff.mp hparsed
  obtain ⟨hnames, htitle, hTitle, hState, hhasTitle, hhasState⟩ := of_decide_eq_true hfacts
  have hok : parse articles {} ⟨"Article", "Article"⟩ none = .ok s := ok_of_toOption hs
  obtain ⟨-, -, howner, hnobody, hfirst, -⟩ := columns_and_names_lead_to_owners hok
  refine ⟨s, hok, hnames, ?_, ?_, ?_, hnobody "Title" (by rw [hnames]; decide)⟩
  · obtain ⟨position, f, hposition, -, hf⟩ := howner "title" (by rw [hnames]; decide)
    obtain rfl : position = 4 := Option.some.inj (hposition.symm.trans htitle)
    exact ⟨f, hf⟩
  · obtain ⟨position, f, hposition, -, hf⟩ := hfirst "Title" hhasTitle
    obtain rfl : position = 0 := Option.some.inj (hposition.symm.trans hTitle)
    exact ⟨f, hf⟩
  · obtain ⟨position, f, hposition, -, hf⟩ := hfirst "State" hhasState
    obtain rfl : position = 5 := Option.some.inj (hposition.symm.trans hState)
    exact ⟨f, hf⟩

end Schema

end RecordSql
