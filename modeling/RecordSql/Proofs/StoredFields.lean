/-
  RecordSql.Proofs.StoredFields

  Which fields of a schema are stored, and which are relationships.  Both follow
  from the data type that a field is left with: a field that names no column has
  one exactly if it has a type (`Field.Settled`), whether or not it may be read or
  written, and a field that has none, but a permission, is a relationship.  The
  fields of embedded records are no exception, so the proof goes through the
  records that are embedded, and shows for each field that its own tag decided.
-/

import Mathlib.Data.List.Nodup
import RecordSql.Proofs.Cache.Pairings
import RecordSql.Proofs.DeclaredFields

namespace RecordSql

/-! ## The columns of fields -/

namespace Field

variable {model : String} {f : Field} {ns : Naming}

/-- The field has its type and its column as its tag says. -/
structure Settled (ns : Naming) (f : Field) : Prop extends f.TypedByTag where
  column : f.dbName ≠ "" ↔ f.NamesColumn ∨ f.dataType.isSome = true ∧ ns.columnName f.name ≠ ""

/-- A field is as its tag says once it has its column, if it has the one that the tag names and takes
no other. -/
theorem settled_columned (htypes : f.TypedByTag) (hnamed : f.NamesColumn → f.dbName ≠ "")
    (hcolumn : f.dbName ≠ "" →
      f.NamesColumn ∨ f.dataType.isSome = true ∧ ns.columnName f.name ≠ "") :
    (Layout.columned ns f).Settled ns := by
  have hstored : (Layout.columned ns f).dbName ≠ ""
      ↔ f.NamesColumn ∨ f.dataType.isSome = true ∧ ns.columnName f.name ≠ "" := by
    by_cases hempty : f.dbName = ""
    · rw [Layout.columned_dbName hempty, or_iff_right fun hnames => hnamed hnames hempty]
      split
      · next hsome => simp [hsome]
      · next hnot => simp [hnot]
    · rw [Layout.columned_eq_self hempty]
      exact ⟨hcolumn, fun _ => hempty⟩
  -- Nothing else of the field changes, so what its tag says of type and permissions still holds.
  obtain ⟨dbName, heq⟩ := Layout.columned_eq ns f
  rw [heq] at hstored ⊢
  exact ⟨⟨htypes.untyped, htypes.leftOut, htypes.typed⟩, hstored⟩

theorem settled_of_parse {d : DeclaredField} {inner : Option ModelRef}
    (h : parse model d = .ok (f, inner)) : (Layout.columned ns f).Settled ns := by
  have htag : f.tag = d.tag := congrArg Heading.tag (parse_heading h)
  have hcolumn : f.dbName = (f.ownSettings.value? "COLUMN").getD "" := by
    rw [ownSettings, htag]
    exact congrArg Heading.column (parse_heading h)
  refine settled_columned (typedByTag_of_parse h) (fun hnames hempty => ?_) fun hne => .inl ?_
  · -- A column that is named is no empty text.
    obtain ⟨column, hvalue⟩ := Option.isSome_iff_exists.mp hnames
    have hnonempty := (Option.filter_eq_some_iff.mp hvalue).2
    rw [hcolumn, hvalue, Option.getD_some] at hempty
    rw [hempty] at hnonempty
    exact absurd hnonempty (by decide)
  · rw [hcolumn] at hne
    cases hvalue : f.ownSettings.value? "COLUMN" with
    | none =>
      rw [hvalue] at hne
      exact absurd rfl hne
    | some column => rw [NamesColumn, hvalue]; rfl

theorem Settled.adopted (h : f.Settled ns) (container : Field) (owner : Nat) :
    (Layout.columned ns (Field.adopted container owner f)).Settled ns := by
  refine settled_columned (f := Field.adopted container owner f)
    ⟨h.untyped, h.leftOut, h.typed⟩ (fun hnames => ?_) fun hne => ?_
  · have hinner : f.dbName ≠ "" := h.column.mpr (.inl hnames)
    rw [adopted_dbName _ _ hinner]
    exact fun hempty => hinner (String.append_eq_empty_iff.mp hempty).2
  · exact h.column.mp fun hempty => hne (dbName_adopted_eq_empty hempty)

end Field

/-! ## The fields of a schema -/

namespace Schema

variable {catalog : Catalog} {ns : Naming} {s : Schema}

/-- Every field is as its own tag says, however deep the record is embedded that it comes from. -/
theorem settled_of_ofModel {table : String} {depth : Nat} {model : Model}
    (h : ofModel catalog ns table depth model = .ok s) : ∀ f ∈ s.fields, f.Settled ns := by
  -- By induction on how deep records are embedded: the embedded ones are schemas themselves.
  induction depth generalizing model s with
  | zero => cases h
  | succ below ih =>
    obtain ⟨fields, hfields, hlayout⟩ := ofModel_succ_ok h
    refine Layout.forall_fields_of_assemble hlayout
      (fun f _ _ _ hf => ⟨⟨hf.untyped, hf.leftOut, hf.typed⟩, hf.column⟩) ?_
    refine (flattened_of_ok hfields).forall_fields (P := fun f => f.Settled ns)
      (fun _ _ _ => Field.settled_of_parse) (fun inner layout hembed => ?_)
      fun container owner f hf => hf.adopted container owner
    obtain ⟨embedded, hinner, rfl⟩ := exists_ok_of_map hembed
    exact ih hinner

theorem settled_of_parse {ref : ModelRef} {table : Option String}
    (h : parse catalog ns ref table = .ok s) : ∀ f ∈ s.fields, f.Settled ns := settled_of_ofModel h

end Schema

/-! ## The fields that are relationships -/

namespace Layout

variable {l : Layout}

/-- The fields that can only be relationships, by their positions. -/
theorem candidates_of_assemble {name table : String} {declared : List Field} {ns : Naming}
    (h : assemble name table declared ns = .ok l) :
    l.candidates = (l.fields.zipIdx.filter fun entry => entry.1.isRelationshipCandidate).map
      Prod.snd := by
  have hpositions : ∀ entries : List (Field × Nat), (entries.filterMap fun entry =>
      if entry.1.isRelationshipCandidate then some entry.2 else none)
        = (entries.filter fun entry => entry.1.isRelationshipCandidate).map Prod.snd := by
    intro entries
    induction entries with
    | nil => rfl
    | cons entry entries ih =>
      rw [List.filterMap_cons, List.filter_cons, ih]
      cases entry.1.isRelationshipCandidate <;> rfl
  simp only [assemble, bind, Except.bind] at h
  split at h
  · cases h
  · cases h
    exact hpositions _

namespace Assembled

theorem mem_candidates_iff (h : l.Assembled) {position : Nat} : position ∈ l.candidates
    ↔ ∃ f, l.field? position = some f ∧ f.isRelationshipCandidate = true := by
  obtain ⟨_, _, _, _, h⟩ := h
  rw [candidates_of_assemble h, List.mem_map]
  constructor
  · rintro ⟨⟨f, i⟩, hmem, rfl⟩
    obtain ⟨hmem, hcandidate⟩ := List.mem_filter.mp hmem
    exact ⟨f, List.mem_zipIdx_iff_getElem?.mp hmem, hcandidate⟩
  · rintro ⟨f, hf, hcandidate⟩
    exact ⟨(f, position), List.mem_filter.mpr ⟨List.mem_zipIdx_iff_getElem?.mpr hf, hcandidate⟩, rfl⟩

theorem candidates_nodup (h : l.Assembled) : l.candidates.Nodup := by
  obtain ⟨_, _, _, _, h⟩ := h
  have hpositions : (l.fields.zipIdx.map Prod.snd).Nodup := by
    rw [List.zipIdx_map_snd]
    exact List.nodup_range'
  rw [candidates_of_assemble h]
  exact hpositions.sublist (List.filter_sublist.map Prod.snd)

theorem exists_field_of_candidate (h : l.Assembled) :
    ∀ i ∈ l.candidates, ∃ f, l.field? i = some f := by
  intro i hi
  obtain ⟨f, hf, -⟩ := h.mem_candidates_iff.mp hi
  exact ⟨f, hf⟩

end Assembled

/-- Positions that there are lead to their fields, one by one. -/
theorem getElem?_fieldsAt {positions : List Nat} (h : ∀ i ∈ positions, ∃ f, l.field? i = some f)
    (place : Nat) : (l.fieldsAt positions)[place]? = positions[place]?.bind l.field? := by
  induction positions generalizing place with
  | nil => rfl
  | cons i positions ih =>
    obtain ⟨⟨f, hf⟩, hrest⟩ := List.forall_mem_cons.mp h
    rw [fieldsAt, List.filterMap_cons_some hf]
    cases place with
    | zero => exact hf.symm
    | succ place => exact ih hrest place

end Layout

/-- The relationship at the place is that of the field at the position. -/
def Schema.Declares (s : Schema) (rs : List Relationship) (position place : Nat) : Prop :=
  s.candidates[place]? = some position
    ∧ ∃ r, rs[place]? = some r ∧ s.field? position = some r.field

/-- How a field of a schema is stored and related to others. -/
structure Schema.Accounts (s : Schema) (rs : List Relationship) (position : Nat) (f : Field) :
    Prop where
  /-- Its column is listed if its tag names one, or if it has a type and its name makes one. -/
  stored : f.dbName ∈ s.dbNames
    ↔ f.NamesColumn ∨ f.dataType.isSome = true ∧ s.naming.columnName f.name ≠ ""
  untyped : f.isRevoked = true → f.dataType = none
  leftOut : f.IsLeftOut → f.hasPermission = false
  /-- It is a relationship if it has a permission and no type, and none that its tag took back. -/
  related : (∃ place, s.Declares rs position place)
    ↔ f.hasPermission = true ∧ f.dataType = none ∧ (f.isRevoked = true → f.semanticType = none)
  once : ∀ place other, s.Declares rs position place → s.Declares rs position other → place = other

/-- The field has a column only if it has a type and some permission; without any permission it is no
relationship, and with one but without a type it is exactly one. -/
structure Schema.OmitsIgnored (s : Schema) (rs : List Relationship) (position : Nat) (f : Field) :
    Prop where
  listed : f.dbName ∈ s.dbNames → f.dataType.isSome = true ∧ f.hasPermission = true
  barred : f.hasPermission = false →
    f.dbName ∉ s.dbNames ∧ ∀ place, ¬s.Declares rs position place
  unstored : f.hasPermission = true → f.dataType = none →
    f.dbName ∉ s.dbNames ∧ ∃! place, s.Declares rs position place

namespace Schema

variable {s : Schema} {rs : List Relationship}

/-- If the relationships are those of the fields that can only be relationships, each is that of one of
them. -/
theorem declares_iff (h : s.toLayout.Assembled)
    (hfields : rs.map (·.field) = s.fieldsAt s.candidates) {position place : Nat} :
    s.Declares rs position place ↔ s.candidates[place]? = some position := by
  refine and_iff_left_of_imp fun hplace => ?_
  have hvalid := h.exists_field_of_candidate
  obtain ⟨f, hf⟩ := hvalid position (List.mem_of_getElem? hplace)
  have hfield : (rs.map (·.field))[place]? = some f := by
    rw [hfields, Layout.getElem?_fieldsAt hvalid, hplace]
    exact hf
  rw [List.getElem?_map] at hfield
  obtain ⟨r, hr, rfl⟩ := Option.map_eq_some_iff.mp hfield
  exact ⟨r, hr, hf⟩

/-- No relationship is without a field. -/
theorem exists_declares (h : s.toLayout.Assembled)
    (hfields : rs.map (·.field) = s.fieldsAt s.candidates) {place : Nat} {r : Relationship}
    (hr : rs[place]? = some r) : ∃ position, s.Declares rs position place := by
  have hfield : (s.fieldsAt s.candidates)[place]? = some r.field := by
    rw [← hfields, List.getElem?_map, hr]
    rfl
  rw [Layout.getElem?_fieldsAt h.exists_field_of_candidate] at hfield
  obtain ⟨position, hplace, hf⟩ := Option.bind_eq_some_iff.mp hfield
  exact ⟨position, hplace, r, hr, hf⟩

/-- A field that can only be a relationship is exactly one, and any other field is none. -/
theorem declares_of_candidate (h : s.toLayout.Assembled)
    (hfields : rs.map (·.field) = s.fieldsAt s.candidates) {position : Nat} {f : Field}
    (hf : s.field? position = some f) :
    (f.isRelationshipCandidate = true → ∃! place, s.Declares rs position place)
      ∧ (f.isRelationshipCandidate = false → ∀ place, ¬s.Declares rs position place) := by
  constructor
  · intro hcandidate
    obtain ⟨place, hplace⟩ := List.getElem?_of_mem (h.mem_candidates_iff.mpr ⟨f, hf, hcandidate⟩)
    refine ⟨place, (declares_iff h hfields).mpr hplace, fun other hother => ?_⟩
    -- Two places of one position are one, as no position is listed twice.
    have hlt : place < s.candidates.length := (List.getElem?_eq_some_iff.mp hplace).1
    have hsame := hplace.trans ((declares_iff h hfields).mp hother).symm
    exact ((List.getElem?_inj hlt h.candidates_nodup).mp hsame).symm
  · intro hnot place hdeclares
    obtain ⟨g, hg, hcandidate⟩ := h.mem_candidates_iff.mp (List.mem_of_getElem? hdeclares.1)
    obtain rfl : f = g := Option.some.inj (hf.symm.trans hg)
    cases hnot.symm.trans hcandidate

theorem accounts {catalog : Catalog} {ns : Naming} {ref : ModelRef} {table : Option String}
    (hparse : parse catalog ns ref table = .ok s)
    (hfields : rs.map (·.field) = s.fieldsAt s.candidates) {position : Nat} {f : Field}
    (hf : s.field? position = some f) : s.Accounts rs position f := by
  have hsettled : f.Settled ns := settled_of_parse hparse f (List.mem_of_getElem? hf)
  have hassembled : s.toLayout.Assembled := (assembled_of_parse hparse).1
  obtain ⟨hrelated, hunrelated⟩ := declares_of_candidate hassembled hfields hf
  have hcandidate : f.isRelationshipCandidate = true
      ↔ f.dataType = none ∧ f.semanticType = none ∧ f.hasPermission = true := by
    rw [Field.isRelationshipCandidate, Bool.and_eq_true, Bool.and_eq_true, Option.isNone_iff_eq_none,
      Option.isNone_iff_eq_none, and_assoc]
  refine ⟨?_, hsettled.untyped, hsettled.leftOut, ⟨?_, ?_⟩, ?_⟩
  · -- Every column that a field has is listed.
    obtain ⟨below, fields, -, hlayout⟩ := ofModel_ok hparse
    obtain ⟨-, -, -, -, hnaming, -⟩ := Layout.assemble_ok hlayout
    rw [hassembled.consistent.mem_dbNames, hnaming, ← hsettled.column]
    exact and_iff_left_of_imp fun _ => ⟨f, List.mem_of_getElem? hf, rfl⟩
  · -- A field that is declared at some place can only be a relationship.
    rintro ⟨place, hplace⟩
    have hf : f.isRelationshipCandidate = true := by
      by_contra hnot
      exact hunrelated (Bool.eq_false_iff.mpr hnot) place hplace
    obtain ⟨htype, hsemantic, hpermission⟩ := hcandidate.mp hf
    exact ⟨hpermission, htype, fun _ => hsemantic⟩
  · rintro ⟨hpermission, htype, hrevoked⟩
    have hsemantic : f.semanticType = none := by
      cases hkept : f.isRevoked with
      | true => exact hrevoked hkept
      | false => exact hsettled.typed hkept htype
    exact (hrelated (hcandidate.mpr ⟨htype, hsemantic, hpermission⟩)).exists
  · intro place other hplace hother
    by_cases hf : f.isRelationshipCandidate = true
    · exact (hrelated hf).unique hplace hother
    · exact absurd hplace (hunrelated (Bool.eq_false_iff.mpr hf) place)

/-- The exceptions: a tag that names a column for a field without type or permission, a field with a
type that no permission is left of, and one whose type is taken back but not all permissions. -/
theorem Accounts.omitsIgnored_iff {position : Nat} {f : Field} (h : s.Accounts rs position f) :
    s.OmitsIgnored rs position f
      ↔ (f.NamesColumn → f.dataType.isSome = true ∧ f.hasPermission = true)
        ∧ (f.dataType.isSome = true → s.naming.columnName f.name ≠ "" → f.hasPermission = true)
        ∧ (f.hasPermission = true → f.isRevoked = true → f.semanticType = none) := by
  constructor
  · -- Each exception is a column that is listed after all, or a relationship that there is not.
    intro homits
    refine ⟨fun hnames => homits.listed (h.stored.mpr (.inl hnames)), fun htype hname => ?_,
      fun hpermission hrevoked => ?_⟩
    · exact (homits.listed (h.stored.mpr (.inr ⟨htype, hname⟩))).2
    · obtain ⟨-, hunique⟩ := homits.unstored hpermission (h.untyped hrevoked)
      exact (h.related.mp hunique.exists).2.2 hrevoked
  · rintro ⟨hnames, hbarred, hrevoked⟩
    have hlisted : f.dbName ∈ s.dbNames → f.dataType.isSome = true ∧ f.hasPermission = true := by
      intro hmem
      rcases h.stored.mp hmem with hnamed | ⟨htype, hname⟩
      · exact hnames hnamed
      · exact ⟨htype, hbarred htype hname⟩
    refine ⟨hlisted, fun hnone => ⟨fun hmem => ?_, fun place hplace => ?_⟩,
      fun hpermission htype => ⟨fun hmem => ?_, ?_⟩⟩
    · exact absurd ((hlisted hmem).2.symm.trans hnone) (by decide)
    · have hpermission := (h.related.mp ⟨place, hplace⟩).1
      exact absurd (hpermission.symm.trans hnone) (by decide)
    · have hsome := (hlisted hmem).1
      rw [htype] at hsome
      cases hsome
    · obtain ⟨place, hplace⟩ := h.related.mpr ⟨hpermission, htype, hrevoked hpermission⟩
      exact ⟨place, hplace, fun other hother => h.once other place hother hplace⟩

end Schema

namespace SchemaCache

/-- The relationships are those of the fields that make them. -/
theorem MakesAll.map_field {c : SchemaCache} {key : SchemaKey} {owner : NumberedSchema}
    {position : Nat} {fields : List Field} {rs : List Relationship}
    (h : c.MakesAll key owner position fields rs) : rs.map (·.field) = fields := by
  have hfields : rs.map (·.field) = (fields.zipIdx position).map Prod.fst := by
    rw [← h.entries, List.map_map]
    rfl
  rw [hfields, List.zipIdx_map_fst]

/-- After any calls, a column is found in a schema exactly if it is listed, and leads to a field that
has it. Each field of the schema is stored and related to others as its type, its tag and its
permissions say, and every relationship is that of a field. So the columns of ignored fields are left
out except where a tag names a column for a field without type or permission, where a field keeps its
type but no permission, and where a tag takes a type back but not all permissions. -/
theorem fields_accounted_for (catalog : Catalog) (naming : Naming) (calls : List ParseCall)
    {key : SchemaKey} {n : Nat} {schema : Schema} {rs : List Relationship}
    (hn : ((empty catalog naming).parseAll calls).find? key = some n)
    (he : ((empty catalog naming).parseAll calls).get? n = some ⟨schema, .resolved rs⟩) :
    (∀ column, (schema.fieldByDbName column).isSome = true ↔ column ∈ schema.dbNames)
    ∧ (∀ column f, schema.fieldByDbName column = some f →
      f ∈ schema.fields ∧ f.dbName = column
        ∧ (f.NamesColumn ∨ f.dataType.isSome = true ∧ schema.naming.columnName f.name ≠ ""))
    ∧ (∀ position f, schema.field? position = some f → schema.Accounts rs position f
      ∧ (schema.OmitsIgnored rs position f
        ↔ (f.NamesColumn → f.dataType.isSome = true ∧ f.hasPermission = true)
          ∧ (f.dataType.isSome = true → schema.naming.columnName f.name ≠ "" →
            f.hasPermission = true)
          ∧ (f.hasPermission = true → f.isRevoked = true → f.semanticType = none)))
    ∧ ∀ place r, rs[place]? = some r → ∃ position, schema.Declares rs position place := by
  obtain ⟨_, he', hparse, hmakes⟩ := ((keyed_empty catalog naming).parseAll calls).schema key n hn
  cases he'.symm.trans he
  have hfields := (hmakes rs rfl).map_field
  have hassembled : schema.toLayout.Assembled := (Schema.assembled_of_parse hparse).1
  have hconsistent := hassembled.consistent
  have haccounts : ∀ position f, schema.field? position = some f →
      schema.Accounts rs position f := fun position f hf => Schema.accounts hparse hfields hf
  refine ⟨fun column => ?_, fun column f hf => ?_, fun position f hf =>
    ⟨haccounts position f hf, (haccounts position f hf).omitsIgnored_iff⟩,
    fun _ _ => Schema.exists_declares hassembled hfields⟩
  · -- A column leads to a position, and no position is out of range.
    rw [hconsistent.columns, Option.isSome_iff_exists]
    constructor
    · rintro ⟨f, hf⟩
      obtain ⟨position, hposition, -⟩ := Option.bind_eq_some_iff.mp hf
      exact ⟨position, hposition⟩
    · rintro ⟨position, hposition⟩
      obtain ⟨-, f, hf, -⟩ := hconsistent.held _ _ hposition
      exact ⟨f, Option.bind_eq_some_iff.mpr ⟨position, hposition, hf⟩⟩
  · obtain ⟨position, hposition, hfield⟩ := Option.bind_eq_some_iff.mp hf
    obtain ⟨-, g, hg, hcolumn⟩ := hconsistent.held _ _ hposition
    obtain rfl : f = g := Option.some.inj (hfield.symm.trans hg)
    have hmem : column ∈ schema.dbNames :=
      (hconsistent.columns column).mpr ⟨position, hposition⟩
    rw [← hcolumn] at hmem
    exact ⟨List.mem_of_getElem? hfield, hcolumn, (haccounts position f hfield).stored.mp hmem⟩

/-! ## Vaults -/

/-- Vaults have a note and a memo that are left out, of which the note names a column, and an owner. -/
def vaults : Catalog :=
  ⟨[ ( "Vault",
      { name := "Vault"
        fields :=
          [ { name := "ID", kind := .uint 64 }
          , { name := "Note", kind := .string, tag := "-;column:note" }
          , { name := "Memo", kind := .string, tag := "-" }
          , { name := "OwnerID", kind := .uint 64 }
          , { name := "Owner", kind := .ptr (.record ⟨"Person", "Person"⟩) } ] } )
    , ("Person", { name := "Person", fields := [{ name := "ID", kind := .uint 64 }] }) ]⟩

/-- The call for vaults. -/
def vaultCall : ParseCall := ⟨⟨"Vault", "Vault"⟩, none⟩

theorem vaults_schema :
    let c := (empty vaults {}).parseAll [vaultCall]
    c.find? ⟨"Vault", none⟩ = some 0
      ∧ ∃ schema owner, c.get? 0 = some ⟨schema, .resolved [owner]⟩
        ∧ (∃ note ∈ schema.field? 1, note.IsLeftOut ∧ note.NamesColumn)
        ∧ (∃ memo ∈ schema.field? 2, memo.IsLeftOut ∧ ¬memo.NamesColumn)
        ∧ ∃ ownerField ∈ schema.field? 4, ¬ownerField.NamesColumn ∧ ownerField.hasPermission = true
          ∧ ownerField.dataType = none ∧ ownerField.isRevoked = false := by
  intro c
  exact ⟨by decide +kernel, exists_only (by decide +kernel)⟩

/-- The memo has no column, and the owner is the one relationship. But the note, which has no type and
no permission either, keeps the column that its tag names. -/
theorem fields_accounted_for_vaults :
    let c := (empty vaults {}).parseAll [vaultCall]
    ∃ schema owner note memo, c.get? 0 = some ⟨schema, .resolved [owner]⟩
      ∧ schema.field? 1 = some note ∧ note.dataType = none ∧ note.hasPermission = false
      ∧ note.dbName ∈ schema.dbNames ∧ ¬schema.OmitsIgnored [owner] 1 note
      ∧ schema.field? 2 = some memo ∧ schema.OmitsIgnored [owner] 2 memo
      ∧ ∃! place, schema.Declares [owner] 4 place := by
  intro c
  obtain ⟨hfound, schema, owner, he, ⟨note, hnote, hnoteLeft, hnamed⟩,
    ⟨memo, hmemo, hmemoLeft, hunnamed⟩, ownerField, howner, hownerUnnamed, hpermission, huntyped,
    hkept⟩ := vaults_schema
  obtain ⟨-, -, hfields, -⟩ := fields_accounted_for vaults {} [vaultCall] hfound he
  obtain ⟨hnoteAccounts, hnoteOmits⟩ := hfields 1 note hnote
  obtain ⟨hmemoAccounts, hmemoOmits⟩ := hfields 2 memo hmemo
  obtain ⟨hownerAccounts, hownerOmits⟩ := hfields 4 ownerField howner
  have hnoteType := hnoteAccounts.untyped hnoteLeft.1
  have hmemoType := hmemoAccounts.untyped hmemoLeft.1
  have hmemoBarred := hmemoAccounts.leftOut hmemoLeft
  refine ⟨schema, owner, note, memo, he, hnote, hnoteType, hnoteAccounts.leftOut hnoteLeft,
    hnoteAccounts.stored.mpr (.inl hnamed), fun homits => ?_, hmemo, hmemoOmits.mpr ⟨?_, ?_, ?_⟩, ?_⟩
  · have htype := ((hnoteOmits.mp homits).1 hnamed).1
    rw [hnoteType] at htype
    cases htype
  · exact fun hnames => absurd hnames hunnamed
  · intro htype
    rw [hmemoType] at htype
    cases htype
  · intro hmemoPermission
    exact absurd (hmemoPermission.symm.trans hmemoBarred) (by decide)
  · have homits : schema.OmitsIgnored [owner] 4 ownerField := by
      refine hownerOmits.mpr ⟨fun hnames => absurd hnames hownerUnnamed, fun htype => ?_,
        fun _ hrevoked => ?_⟩
      · rw [huntyped] at htype
        cases htype
      · exact absurd (hrevoked.symm.trans hkept) (by decide)
    exact (homits.unstored hpermission huntyped).2

end SchemaCache

end RecordSql
