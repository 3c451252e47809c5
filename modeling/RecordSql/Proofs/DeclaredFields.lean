/-
  RecordSql.Proofs.DeclaredFields

  What a declaration is read as.  Each stage of the reading settles some parts of
  the field and leaves the others alone; together they make the field what its
  type and its own tag say (`Field.ReadFrom`), and nothing else decides whether
  it embeds a record (`Field.readFrom_of_parse`).  Permissions are settled last,
  so that only a tag that takes all of them back takes the type away
  (`Field.typedByTag_of_parse`).
-/

import RecordSql.Proofs.Columns

namespace RecordSql

/-! ## Settings -/

namespace Tag.Settings

theorem contains_eq_isSome (s : Settings) (key : String) :
    s.contains key = (s.get? key).isSome := by
  cases hget : s.get? key with
  | none =>
    rw [get?, List.lookup_eq_none_iff] at hget
    rw [contains, Option.isSome_none, List.any_eq_false]
    intro entry hentry heq
    have hne := hget entry (List.mem_reverse.mpr hentry)
    rw [bne_iff_ne] at hne
    exact hne (beq_iff_eq.mp heq).symm
  | some value =>
    rw [get?] at hget
    obtain ⟨before, after, heq, -⟩ := List.lookup_eq_some_iff.mp hget
    rw [contains, Option.isSome_some, List.any_eq_true]
    refine ⟨(key, value), List.mem_reverse.mp ?_, beq_self_eq_true key⟩
    rw [heq]
    exact List.mem_append_right before List.mem_cons_self

theorem flag_eq_false {s : Settings} {key : String} (h : s.contains key = false) :
    s.flag key = false := by
  rw [contains_eq_isSome, Option.isSome_eq_false_iff, Option.isNone_iff_eq_none] at h
  rw [flag, value?, h]
  rfl

theorem contains_of_text_ne {s : Settings} {key : String} (h : s.text key ≠ "") :
    s.contains key = true := by
  rw [contains_eq_isSome, Option.isSome_iff_ne_none]
  intro hnone
  rw [text, hnone] at h
  exact h rfl

end Tag.Settings

/-! ## What a declaration says -/

namespace Tag.Settings

/-- The settings take all permissions back, and the data type with them. -/
def revokes (s : Settings) : Bool :=
  match (s.get? "-").map fun value => Text.lower (Text.trim value) with
  | some "-" => true
  | some "all" => true
  | _ => false

/-- The settings let the field be read. -/
def readable (s : Settings) : Bool :=
  match s.get? "->" with
  | some value => !Text.sameLetters value "false"
  | none => !s.revokes

/-- The settings let the field be written on an occasion: on creation, or on an update. -/
def writable (s : Settings) (occasion : String) : Bool :=
  match s.get? "<-" with
  | some value => value == "<-" || Text.contains value occasion
  | none => !s.revokes && (s.get? "->").isNone

end Tag.Settings

namespace DeclaredField

/-- The settings of the tag. -/
def settings (d : DeclaredField) : Tag.Settings := Tag.Settings.parse ';' d.tag

/-- The field is stored as a text that a serializer makes. -/
def isSerialized (d : DeclaredField) : Bool :=
  (d.settings.value? "SERIALIZER").isSome || d.settings.contains "JSON"

/-- What the field's own type is stored as. -/
def storedType? (d : DeclaredField) : Option DataType :=
  if d.isSerialized then some .string else DataType.ofKind? (Field.storage d.kind).1

/-- What the column holds: the type that the tag names, or else that of the field. -/
def columnType? (d : DeclaredField) : Option DataType :=
  if d.settings.revokes then none
  else match d.settings.value? "TYPE" with
    | some name => some (DataType.ofName name)
    | none => d.storedType?

/-- The field may be read or written. -/
def isPermitted (d : DeclaredField) : Bool :=
  d.settings.writable "create" || d.settings.writable "update" || d.settings.readable

/-- The record type whose fields stand in the place of the field, if it embeds one. -/
def embedded? (d : DeclaredField) : Option ModelRef :=
  match (Field.storage d.kind).1 with
  | .record inner =>
    if d.settings.contains "EMBEDDED" || d.anonymous && !(Field.storage d.kind).2 && d.isPermitted
    then some inner else none
  | _ => none

end DeclaredField

/-- The field is what the type and the tag of a declaration say. -/
structure Field.ReadFrom (d : DeclaredField) (f : Field) : Prop where
  name : f.name = d.name
  bindNames : f.bindNames = [d.name]
  kind : f.kind = d.kind
  tag : f.tag = d.tag
  settings : f.settings = d.settings
  owner : f.owner = none
  dbName : f.dbName = (d.settings.value? "COLUMN").getD ""
  dataType : f.dataType = d.columnType?
  semanticType : f.semanticType = d.storedType?
  creatable : f.creatable = d.settings.writable "create"
  updatable : f.updatable = d.settings.writable "update"
  readable : f.readable = d.settings.readable
  primaryKey : f.primaryKey = Field.isExplicitKey d.settings
  autoIncrement : f.autoIncrement = d.settings.flag "AUTOINCREMENT"
  hasDefault : f.hasDefault = (d.settings.flag "AUTOINCREMENT" || d.settings.contains "DEFAULT")
  defaultText : f.defaultText = d.settings.text "DEFAULT"
  unique : f.unique = d.settings.flag "UNIQUE"

/-! ## The stages of reading -/

namespace Field

variable {model : String} {f g : Field}

theorem serialized_ok (h : serialized model f = .ok g) :
    ∃ serializer, g = { f with
      serializer
      dataType :=
        if (f.settings.value? "SERIALIZER").isSome || f.settings.contains "JSON" then some .string
        else f.dataType } := by
  unfold serialized at h
  dsimp only at h
  cases hnamed : f.settings.value? "SERIALIZER" with
  | some name =>
    rw [hnamed] at h
    dsimp only [Option.orElse_some] at h
    split at h
    · cases h
    · cases h
      exact ⟨_, rfl⟩
  | none =>
    rw [hnamed] at h
    cases hjson : f.settings.contains "JSON" with
    | true =>
      rw [hjson] at h
      dsimp only [Option.orElse_none] at h
      split at h
      · next heq => cases heq
      · split at h
        · cases h
        · cases h
          exact ⟨_, rfl⟩
    | false =>
      rw [hjson] at h
      cases h
      exact ⟨f.serializer, rfl⟩

theorem withColumnSettings_ok (h : withColumnSettings model f = .ok g) :
    ∃ incrementStep size precision scale notNull comment, g = { f with
      incrementStep, size, precision, scale, notNull, comment
      primaryKey := isExplicitKey f.settings
      autoIncrement := f.settings.flag "AUTOINCREMENT"
      hasDefault := f.settings.flag "AUTOINCREMENT" || f.settings.contains "DEFAULT"
      defaultText := f.settings.text "DEFAULT"
      unique := f.settings.flag "UNIQUE" } := by
  rw [withColumnSettings] at h
  obtain ⟨step, -, h⟩ := exists_ok_of_bind h
  obtain ⟨precision, -, h⟩ := exists_ok_of_bind h
  obtain ⟨scale, -, h⟩ := exists_ok_of_bind h
  cases h
  exact ⟨_, _, _, _, _, _, rfl⟩

theorem withDefault_ok (h : withDefault model f = .ok g) :
    ∃ defaultValue, g = { f with defaultValue } := by
  rw [withDefault] at h
  split at h
  · cases h
    exact ⟨_, rfl⟩
  · cases h

theorem withIgnore_of_revokes (h : f.settings.revokes = true) :
    ∃ ignoreMigration, f.withIgnore = { f.ignored with ignoreMigration } := by
  rw [Tag.Settings.revokes] at h
  rw [withIgnore]
  split at h
  · next hvalue =>
    rw [hvalue]
    exact ⟨f.ignoreMigration, rfl⟩
  · next hvalue =>
    rw [hvalue]
    exact ⟨true, rfl⟩
  · cases h

theorem withIgnore_of_keeps (h : f.settings.revokes = false) :
    ∃ ignoreMigration, f.withIgnore = { f with ignoreMigration } := by
  rw [Tag.Settings.revokes] at h
  rw [withIgnore]
  split
  · next hvalue => rw [hvalue] at h; cases h
  · next hvalue => rw [hvalue] at h; cases h
  · exact ⟨true, rfl⟩
  · exact ⟨f.ignoreMigration, rfl⟩

theorem withIgnore_eq (f : Field) : ∃ ignoreMigration, f.withIgnore = { f with
    ignoreMigration
    creatable := f.creatable && !f.settings.revokes
    updatable := f.updatable && !f.settings.revokes
    readable := f.readable && !f.settings.revokes
    dataType := if f.settings.revokes then none else f.dataType } := by
  cases hrevokes : f.settings.revokes with
  | true =>
    obtain ⟨ignoreMigration, heq⟩ := withIgnore_of_revokes hrevokes
    refine ⟨ignoreMigration, heq.trans ?_⟩
    simp only [ignored, Bool.not_true, Bool.and_false, if_true]
  | false =>
    obtain ⟨ignoreMigration, heq⟩ := withIgnore_of_keeps hrevokes
    refine ⟨ignoreMigration, heq.trans ?_⟩
    simp only [Bool.not_false, Bool.and_true, Bool.false_eq_true, if_false]

theorem withReadPermission_eq (f : Field) : f.withReadPermission = { f with
    creatable := f.creatable && (f.settings.get? "->").isNone
    updatable := f.updatable && (f.settings.get? "->").isNone
    readable := match f.settings.get? "->" with
      | some value => !Text.sameLetters value "false"
      | none => f.readable } := by
  rw [withReadPermission]
  cases f.settings.get? "->" with
  | some value => simp only [Option.isNone_some, Bool.and_false]
  | none => simp only [Option.isNone_none, Bool.and_true]

theorem withWritePermission_eq (f : Field) : f.withWritePermission = { f with
    creatable := match f.settings.get? "<-" with
      | some value => value == "<-" || Text.contains value "create"
      | none => f.creatable
    updatable := match f.settings.get? "<-" with
      | some value => value == "<-" || Text.contains value "update"
      | none => f.updatable } := by
  unfold withWritePermission
  cases hvalue : f.settings.get? "<-" with
  | none => rfl
  | some value =>
    by_cases hboth : value = "<-"
    · subst hboth
      rfl
    · have hne : (value == "<-") = false := beq_false_of_ne hboth
      simp only [hne, Bool.false_or]

/-- What the last stages make of a field: times and types, and then permissions. -/
theorem exists_finished (f : Field) : ∃ autoCreateTime autoUpdateTime ignoreMigration,
    f.withTimesAndType.withIgnore.withReadPermission.withWritePermission = { f with
      autoCreateTime, autoUpdateTime, ignoreMigration
      semanticType := f.dataType
      dataType :=
        if f.settings.revokes then none
        else match f.settings.value? "TYPE" with
          | some name => some (DataType.ofName name)
          | none => f.dataType
      creatable := match f.settings.get? "<-" with
        | some value => value == "<-" || Text.contains value "create"
        | none => f.creatable && !f.settings.revokes && (f.settings.get? "->").isNone
      updatable := match f.settings.get? "<-" with
        | some value => value == "<-" || Text.contains value "update"
        | none => f.updatable && !f.settings.revokes && (f.settings.get? "->").isNone
      readable := match f.settings.get? "->" with
        | some value => !Text.sameLetters value "false"
        | none => f.readable && !f.settings.revokes } := by
  obtain ⟨ignoreMigration, hignore⟩ := withIgnore_eq f.withTimesAndType
  refine ⟨f.withTimesAndType.autoCreateTime, f.withTimesAndType.autoUpdateTime, ignoreMigration, ?_⟩
  rw [withWritePermission_eq, withReadPermission_eq, hignore]
  rfl

/-- The stages of a declaration that is read. -/
theorem exists_stages_of_parse {d : DeclaredField} {inner : Option ModelRef}
    (h : parse model d = .ok (f, inner)) :
    ∃ f₁ f₂ f₃, serialized model (ofDeclared d).stored = .ok f₁
      ∧ withColumnSettings model f₁ = .ok f₂ ∧ withDefault model f₂ = .ok f₃
      ∧ f = f₃.withTimesAndType.withIgnore.withReadPermission.withWritePermission
      ∧ inner = match (storage f.kind).1 with
        | .record record => if f.embeds d.anonymous then some record else none
        | _ => none := by
  rw [parse] at h
  obtain ⟨f₁, h₁, h⟩ := exists_ok_of_bind h
  obtain ⟨f₂, h₂, h⟩ := exists_ok_of_bind h
  obtain ⟨f₃, h₃, h⟩ := exists_ok_of_bind h
  dsimp only at h
  generalize hlast : f₃.withTimesAndType.withIgnore.withReadPermission.withWritePermission = last at h
  have hfields : f = last ∧ inner = match (storage last.kind).1 with
      | .record record => if last.embeds d.anonymous then some record else none
      | _ => none := by
    generalize (storage last.kind).1 = kind at h ⊢
    by_cases hembeds : last.embeds d.anonymous = true
    · rw [if_pos hembeds] at h
      cases kind with
      | record record =>
        cases h
        exact ⟨rfl, (if_pos hembeds).symm⟩
      | _ =>
        dsimp only at h
        split at h
        · cases h
        · cases h
          exact ⟨rfl, rfl⟩
    · rw [if_neg hembeds] at h
      cases h
      refine ⟨rfl, ?_⟩
      cases kind with
      | record record => exact (if_neg hembeds).symm
      | _ => rfl
  obtain ⟨rfl, hinner⟩ := hfields
  exact ⟨f₁, f₂, f₃, h₁, h₂, h₃, hlast.symm, hinner⟩

/-- A field that is read may be read or written as its declaration says. -/
theorem ReadFrom.hasPermission {d : DeclaredField} (h : f.ReadFrom d) :
    f.hasPermission = d.isPermitted := by
  rw [Field.hasPermission, h.creatable, h.updatable, h.readable]
  rfl

/-- A record is embedded as the declaration says: it is stored neither as a time nor as bytes. -/
theorem ReadFrom.embeds {d : DeclaredField} {record : ModelRef} (h : f.ReadFrom d)
    (hrecord : (storage d.kind).1 = .record record) :
    f.embeds d.anonymous
      = (d.settings.contains "EMBEDDED" || d.anonymous && !(storage d.kind).2 && d.isPermitted) := by
  have hstored : d.storedType? = some .string ∨ d.storedType? = none := by
    rw [DeclaredField.storedType?, hrecord]
    cases d.isSerialized with
    | true => exact .inl rfl
    | false => exact .inr rfl
  have htime : (d.storedType? != some .time) = true := by
    obtain heq | heq := hstored <;> rw [heq] <;> rfl
  have hbytes : (d.storedType? != some .bytes) = true := by
    obtain heq | heq := hstored <;> rw [heq] <;> rfl
  rw [Field.embeds, h.settings, h.kind, h.semanticType, h.hasPermission, htime, hbytes, Bool.and_true,
    Bool.and_true]

/-- A declaration is read as what it says. -/
theorem readFrom_of_parse {d : DeclaredField} {inner : Option ModelRef}
    (h : parse model d = .ok (f, inner)) : f.ReadFrom d ∧ inner = d.embedded? := by
  obtain ⟨f₁, f₂, f₃, h₁, h₂, h₃, hf, hinner⟩ := exists_stages_of_parse h
  obtain ⟨_, rfl⟩ := serialized_ok h₁
  obtain ⟨_, _, _, _, _, _, rfl⟩ := withColumnSettings_ok h₂
  obtain ⟨_, rfl⟩ := withDefault_ok h₃
  obtain ⟨_, _, _, hfinished⟩ := exists_finished _
  rw [hfinished] at hf
  have hread : f.ReadFrom d := by
    subst hf
    constructor <;> rfl
  refine ⟨hread, hinner.trans ?_⟩
  rw [hread.kind, DeclaredField.embedded?]
  split
  · next record hrecord => rw [hread.embeds hrecord]
  · rfl

/-! ## Headings -/

/-- The name, the column and the tag of a field. -/
structure Heading where
  name : String
  column : String
  tag : String
  settings : Tag.Settings

/-- What most settings leave alone. -/
def heading (f : Field) : Heading := ⟨f.name, f.dbName, f.tag, f.settings⟩

/-- A declaration that is read leaves its name and its tag as they are, and has the column that its tag
gives. -/
theorem parse_heading {d : DeclaredField} {inner : Option ModelRef}
    (h : parse model d = .ok (f, inner)) :
    f.heading = ⟨d.name, ((Tag.Settings.parse ';' d.tag).value? "COLUMN").getD "", d.tag,
      Tag.Settings.parse ';' d.tag⟩ := by
  have hread : f.ReadFrom d := (readFrom_of_parse h).1
  rw [heading, hread.name, hread.dbName, hread.tag, hread.settings]
  rfl

/-! ## What the tag of a field says -/

/-- The settings of the field's own tag, without those of the fields that embed it. -/
def ownSettings (f : Field) : Tag.Settings := Tag.Settings.parse ';' f.tag

theorem ownSettings_of_tag (h : f.tag = g.tag) : f.ownSettings = g.ownSettings := by
  rw [ownSettings, ownSettings, h]

/-- The tag takes all permissions back. -/
def isRevoked (f : Field) : Bool := f.ownSettings.revokes

/-- The tag takes all permissions back, and gives none again. -/
def IsLeftOut (f : Field) : Prop :=
  f.isRevoked = true ∧ f.ownSettings.get? "->" = none ∧ f.ownSettings.get? "<-" = none

/-- The tag names a column. -/
def NamesColumn (f : Field) : Prop := (f.ownSettings.value? "COLUMN").isSome = true

instance (f : Field) : Decidable f.IsLeftOut := inferInstanceAs (Decidable (_ ∧ _ ∧ _))

instance (f : Field) : Decidable f.NamesColumn := inferInstanceAs (Decidable (_ = _))

/-- The field has type and permissions as its tag says. -/
structure TypedByTag (f : Field) : Prop where
  untyped : f.isRevoked = true → f.dataType = none
  leftOut : f.IsLeftOut → f.hasPermission = false
  typed : f.isRevoked = false → f.dataType = none → f.semanticType = none

theorem ReadFrom.ownSettings {d : DeclaredField} (h : f.ReadFrom d) : f.ownSettings = d.settings := by
  rw [Field.ownSettings, h.tag]
  rfl

/-- A field that is declared has type and permissions as its own tag says. -/
theorem typedByTag_of_parse {d : DeclaredField} {inner : Option ModelRef}
    (h : parse model d = .ok (f, inner)) : f.TypedByTag := by
  have hread : f.ReadFrom d := (readFrom_of_parse h).1
  constructor
  · intro hrevoked
    rw [isRevoked, hread.ownSettings] at hrevoked
    rw [hread.dataType, DeclaredField.columnType?, hrevoked]
    rfl
  · rintro ⟨hrevoked, hreadable, hwritable⟩
    rw [isRevoked, hread.ownSettings] at hrevoked
    rw [hread.ownSettings] at hreadable hwritable
    simp only [hread.hasPermission, DeclaredField.isPermitted, Tag.Settings.writable,
      Tag.Settings.readable, hreadable, hwritable, hrevoked, Bool.not_true, Bool.false_and,
      Bool.or_self]
  · intro hkept hnone
    rw [isRevoked, hread.ownSettings] at hkept
    rw [hread.dataType, DeclaredField.columnType?, hkept, if_neg Bool.false_ne_true] at hnone
    rw [hread.semanticType]
    cases hname : d.settings.value? "TYPE" with
    | some name => rw [hname] at hnone; cases hnone
    | none => rw [hname] at hnone; exact hnone

end Field

end RecordSql
