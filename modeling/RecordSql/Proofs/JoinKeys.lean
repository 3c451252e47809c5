/-
  RecordSql.Proofs.JoinKeys

  What the fields of a join table have from the keys that they are copies of.  A
  copy is declared by the tag of its key, with the setting of a key behind it and
  without the settings that would count the copy up, or make it unique or part of
  an index.  The keys of those settings are compared as they are written, whereas
  a tag is read in upper case; and there is one spelling of a unique index that
  is not removed at all (`JoinField.keepsIndex`).

  So a copy is a plain part of the primary key exactly if its key has none of what
  stays, its tag does not swallow the setting behind it, and the join table does
  not elect the copy to be counted up (`SchemaCache.join_copies_are_plain_iff`).
-/

import RecordSql.Proofs.AppendedSettings
import RecordSql.Proofs.Coalescing
import RecordSql.Proofs.Increments
import RecordSql.Proofs.JoinTables
import RecordSql.Proofs.PrimaryKeys
import RecordSql.Proofs.UniqueColumns

namespace RecordSql

/-! ## The tag of a copy -/

namespace JoinField

variable {j : JoinField} {key K : String}

/-- The tag that the copy is declared by. -/
def copiedTag (j : JoinField) : String :=
  Tag.remove (Tag.append j.source.field.tag "primaryKey") droppedSettings

/-- The copy says that it is a key: the setting is there unless the tag of the key swallows it, and
may have been there before. -/
def saysKey (j : JoinField) : Bool :=
  !Tag.isOpen j.source.field.tag || Field.isExplicitKey j.source.field.ownSettings

/-- The settings that no removal finds: their keys are not written in ASCII letters, though their
upper-case forms may be. -/
def foreignSettings (j : JoinField) : Tag.Settings :=
  Tag.settingsWhere (fun key => !Tag.isAscii key) j.source.field.tag

/-- Whether an item with the key declares an index and is not removed. -/
def keepsIndex (key : String) : Bool :=
  Text.upper key == "UNIQUE_INDEX"
    || (Index.declarationKinds.lookup (Text.upper key)).isSome && !Tag.isAscii key

/-- Whether a setting with the key is removed. -/
def isDropped (key : String) : Bool := droppedSettings.any fun k => Text.sameLetters k key

theorem upper_droppedSettings : droppedSettings.map Text.upper
    = ["COLUMN", "AUTOINCREMENT", "INDEX", "UNIQUE", "UNIQUEINDEX"] := by decide +kernel

theorem isDropped_iff :
    isDropped key = true ↔ Text.upper key ∈ droppedSettings.map Text.upper ∧ Tag.isAscii key = true := by
  have hascii : ∀ label ∈ droppedSettings, Tag.isAscii label = true := by decide +kernel
  rw [isDropped, List.any_eq_true, List.mem_map]
  constructor
  · rintro ⟨label, hlabel, hsame⟩
    obtain ⟨hupper, hkey⟩ := (Tag.sameLetters_iff (hascii label hlabel)).mp hsame
    exact ⟨⟨label, hlabel, hupper.symm⟩, hkey⟩
  · rintro ⟨⟨label, hlabel, hupper⟩, hkey⟩
    exact ⟨label, hlabel, (Tag.sameLetters_iff (hascii label hlabel)).mpr ⟨hupper.symm, hkey⟩⟩

theorem parse_copiedTag (j : JoinField) : Tag.Settings.parse ';' j.copiedTag
    = Tag.settingsWhere (fun key => !isDropped key) (Tag.append j.source.field.tag "primaryKey") :=
  Tag.parse_remove _ _

/-- A flag that is not removed is that of the key, but for the setting behind its tag. -/
theorem flag_of_kept (hK : K ∉ droppedSettings.map Text.upper) (hplain : Tag.IsPlain K) :
    (Tag.Settings.parse ';' j.copiedTag).flag K
      = (decide (K = "PRIMARYKEY") && !Tag.isOpen j.source.field.tag
        || j.source.field.ownSettings.flag K) := by
  have hkept : ∀ key, Text.upper key = K → (!isDropped key) = true := by
    rintro key rfl
    rw [Bool.not_eq_true', ← Bool.not_eq_true]
    exact fun hdropped => hK (isDropped_iff.mp hdropped).1
  have hall : Tag.settingsWhere (fun _ => true) j.source.field.tag = j.source.field.ownSettings := by
    rw [Tag.settingsWhere, List.filter_true]
    rfl
  rw [parse_copiedTag, Tag.flag_settingsWhere_congr (q := fun _ => true) hkept,
    Tag.flag_settingsWhere_append hplain, hall, Bool.and_true]

/-- Of a flag that is removed, what is not written in ASCII letters is left. -/
theorem flag_of_dropped (hK : K ∈ droppedSettings.map Text.upper) :
    (Tag.Settings.parse ';' j.copiedTag).flag K = j.foreignSettings.flag K := by
  have hleft : ∀ key, Text.upper key = K → (!isDropped key) = !Tag.isAscii key := by
    rintro key rfl
    congr 1
    exact Bool.eq_iff_iff.mpr (isDropped_iff.trans (and_iff_right hK))
  have hnames : ∀ K ∈ droppedSettings.map Text.upper, Tag.IsPlain K ∧ K ≠ "PRIMARYKEY" := by
    rw [upper_droppedSettings]
    decide +kernel
  obtain ⟨hplain, hother⟩ := hnames K hK
  rw [parse_copiedTag, Tag.flag_settingsWhere_congr (q := fun key => !Tag.isAscii key) hleft,
    Tag.flag_settingsWhere_append hplain, decide_eq_false hother, Bool.false_and, Bool.false_and,
    Bool.false_or]
  rfl

theorem isExplicitKey_copiedTag (j : JoinField) :
    Field.isExplicitKey (Tag.Settings.parse ';' j.copiedTag) = j.saysKey := by
  have hkept : "PRIMARYKEY" ∉ droppedSettings.map Text.upper
      ∧ "PRIMARY_KEY" ∉ droppedSettings.map Text.upper := by
    rw [upper_droppedSettings]
    decide +kernel
  have hplain : Tag.IsPlain "PRIMARYKEY" ∧ Tag.IsPlain "PRIMARY_KEY" := by decide +kernel
  rw [Field.isExplicitKey, flag_of_kept hkept.1 hplain.1, flag_of_kept hkept.2 hplain.2, saysKey,
    Field.isExplicitKey, decide_eq_true rfl, Bool.true_and, decide_eq_false (by decide),
    Bool.false_and, Bool.false_or, Bool.or_assoc]

theorem keepsIndex_iff : keepsIndex key = true
    ↔ (Index.declarationKinds.lookup (Text.upper key)).isSome = true ∧ isDropped key = false := by
  have hkinds : ∀ K, (Index.declarationKinds.lookup K).isSome = true ↔
      K = "INDEX" ∨ K = "UNIQUEINDEX" ∨ K = "UNIQUE_INDEX" := by
    intro K
    simp only [Index.declarationKinds, List.lookup_cons, List.lookup_nil]
    by_cases h₁ : K = "INDEX"
    · simp [h₁]
    · by_cases h₂ : K = "UNIQUEINDEX"
      · simp [h₂]
      · by_cases h₃ : K = "UNIQUE_INDEX"
        · simp [h₃]
        · simp [beq_false_of_ne, h₁, h₂, h₃]
  have hdropped : isDropped key = false
      ↔ ¬(Text.upper key ∈ droppedSettings.map Text.upper ∧ Tag.isAscii key = true) := by
    rw [← isDropped_iff, Bool.not_eq_true]
  rw [keepsIndex, Bool.or_eq_true, Bool.and_eq_true, hkinds, hdropped, upper_droppedSettings,
    beq_iff_eq, Bool.not_eq_true']
  constructor
  · rintro (hupper | ⟨hkind, hforeign⟩)
    · rw [hupper]
      exact ⟨.inr (.inr rfl), fun h => absurd h.1 (by decide)⟩
    · exact ⟨hkind, fun h => Bool.false_ne_true (hforeign.symm.trans h.2)⟩
  · rintro ⟨hkind | hkind | hkind, hleft⟩
    · rw [hkind] at hleft ⊢
      exact .inr ⟨.inl rfl, Bool.not_eq_true _ ▸ fun hascii => hleft ⟨by decide, hascii⟩⟩
    · rw [hkind] at hleft ⊢
      exact .inr ⟨.inr (.inl rfl), Bool.not_eq_true _ ▸ fun hascii => hleft ⟨by decide, hascii⟩⟩
    · exact .inl hkind

/-- The copy declares an index exactly if its key has an item that is not removed. -/
theorem exists_index_item_iff (j : JoinField) :
    (∃ item ∈ Tag.items ';' j.copiedTag, (Index.declaredKind? item).isSome = true)
      ↔ ∃ item ∈ Tag.items ';' j.source.field.tag, keepsIndex (Tag.rawKey item) = true := by
  have hkind : ∀ item, Index.declaredKind? item
      = Index.declarationKinds.lookup (Text.upper (Tag.rawKey item)) := by
    intro item
    rw [Index.declaredKind?, Index.headAndRest, Tag.rawKey]
    cases Text.cut ':' item <;> rfl
  have hknown : ∀ key, keepsIndex key = true → key ≠ "" ∧ Tag.IsPlain key := by
    intro key hkey
    have hkinds : ∀ kind ∈ Index.declarationKinds, kind.1 ≠ "" ∧ Tag.IsPlain kind.1 := by
      decide +kernel
    obtain ⟨unique, hunique⟩ := Option.isSome_iff_exists.mp (keepsIndex_iff.mp hkey).1
    obtain ⟨before, after, heq, -⟩ := List.lookup_eq_some_iff.mp hunique
    obtain ⟨hne, hplain⟩ := hkinds (Text.upper key, unique) (by rw [heq]; simp)
    refine ⟨?_, fun c hc hodd => hplain c (hodd.mem_upper hc) hodd⟩
    rintro rfl
    exact hne rfl
  rw [← Tag.exists_item_append_iff hknown (by decide +kernel), copiedTag, Tag.items_remove]
  simp only [List.mem_filter, Bool.not_eq_true', and_assoc, hkind, keepsIndex_iff, isDropped]
  exact exists_congr fun item => and_congr_right fun _ => and_comm

end JoinField

/-- The flags of a field that is read are those of its tag. -/
theorem Field.flags_of_parse {model : String} {d : DeclaredField} {f : Field} {inner : Option ModelRef}
    (h : parse model d = .ok (f, inner)) :
    f.tag = d.tag ∧ f.primaryKey = isExplicitKey (Tag.Settings.parse ';' d.tag)
      ∧ f.autoIncrement = (Tag.Settings.parse ';' d.tag).flag "AUTOINCREMENT"
      ∧ f.unique = (Tag.Settings.parse ';' d.tag).flag "UNIQUE" := by
  have hread : f.ReadFrom d := (readFrom_of_parse h).1
  exact ⟨hread.tag, hread.primaryKey, hread.autoIncrement, hread.unique⟩

namespace JoinField

/-- What the copy of a key is read as. -/
structure ReadAs (j : JoinField) (f : Field) : Prop where
  tag : f.tag = j.copiedTag
  primaryKey : f.primaryKey = j.saysKey
  autoIncrement : f.autoIncrement = j.foreignSettings.flag "AUTOINCREMENT"
  unique : f.unique = j.foreignSettings.flag "UNIQUE"

theorem readAs_of_declared {j : JoinField} {model : String} {f : Field}
    (h : j.declared model = .ok f) : j.ReadAs f := by
  rw [declared] at h
  obtain ⟨⟨copy, inner⟩, hparse, h⟩ := exists_ok_of_bind h
  cases h
  rw [← copiedTag] at hparse
  obtain ⟨htag, hkey, hcounted, hunique⟩ := Field.flags_of_parse hparse
  dsimp only at htag hkey hcounted hunique
  have hdropped : "AUTOINCREMENT" ∈ droppedSettings.map Text.upper
      ∧ "UNIQUE" ∈ droppedSettings.map Text.upper := by
    rw [upper_droppedSettings]
    decide +kernel
  constructor
  · exact htag
  · rw [← isExplicitKey_copiedTag]
    exact hkey
  · rw [← flag_of_dropped hdropped.1]
    exact hcounted
  · rw [← flag_of_dropped hdropped.2]
    exact hunique

end JoinField

/-! ## The layout of copies -/

namespace Layout

variable {l : Layout} {name table : String} {declared : List Field} {ns : Naming} {i : Nat} {f : Field}

/-- A field says that it is a key whatever column it is given. -/
theorem declaresKey_map_columned (ns : Naming) (declared : List Field) (i : Nat) :
    declaresKey (declared.map (columned ns)) i = declaresKey declared i := by
  rw [declaresKey, declaresKey, List.getElem?_map, Option.any_map]
  congr 1
  funext d
  obtain ⟨_, heq⟩ := columned_eq ns d
  rw [heq]

/-- The primary key of a layout: the fields that say that they are keys and own their columns, or, if
there is none, the one that the names of a key lead to. -/
theorem mem_primary_of_assemble (h : assemble name table declared ns = .ok l) :
    i ∈ l.primary ↔ declaresKey declared i = true ∧ l.OwnsColumn i
      ∨ (∀ k, declaresKey declared k = true → ¬l.OwnsColumn k)
        ∧ declaresKey declared i = false ∧ l.namedKey? = some i := by
  have hconsistent := consistent_of_assemble h
  obtain ⟨lookups, hlookups, -, -, -, hmarked, helected, -, hbyDbName, hbyName⟩ := assemble_ok h
  have hkeys : lookups.ListsKeys (declared.map (columned ns)) := hlookups ▸ Lookups.listsKeys_all _
  have hlisted : ∀ k, k ∈ lookups.primary ↔ declaresKey declared k = true ∧ l.OwnsColumn k := by
    intro k
    rw [hkeys.mem, ← hbyDbName, keyAt_iff_of_marked hmarked hconsistent, declaresKey_map_columned]
  have hnobody : lookups.primary = []
      ↔ ∀ k, declaresKey declared k = true → ¬l.OwnsColumn k := by
    rw [List.eq_nil_iff_forall_not_mem]
    simp only [hlisted, not_and]
  have hnamed : l.namedKey? = keyNames.findSome? fun name =>
      (lookups.byDbName.lookup name).orElse fun _ => lookups.byName.lookup name := by
    rw [namedKey?, ← hbyDbName, ← hbyName]
    rfl
  rw [← hlisted, ← hnobody, ← declaresKey_map_columned ns declared,
    show l.primary = _ from congrArg Prod.snd helected, electPrimary, hnamed]
  -- The cases are those of the election.
  generalize (keyNames.findSome? fun name =>
    (lookups.byDbName.lookup name).orElse fun _ => lookups.byName.lookup name) = named
  cases named with
  | none => simp
  | some id =>
    dsimp only
    cases hid : declaresKey (declared.map (columned ns)) id with
    | true =>
      rw [declaresKey] at hid
      rw [if_pos hid]
      refine (or_iff_left ?_).symm
      rintro ⟨-, hnot, heq⟩
      obtain rfl := Option.some.inj heq
      rw [declaresKey, hid] at hnot
      cases hnot
    | false =>
      have hnot := hid
      rw [declaresKey] at hid
      rw [if_neg (by rw [hid]; exact Bool.false_ne_true)]
      cases hprimary : lookups.primary with
      | nil =>
        rw [List.isEmpty_nil, if_pos rfl]
        constructor
        · intro hi
          obtain rfl := List.mem_singleton.mp hi
          exact .inr ⟨rfl, hnot, rfl⟩
        · rintro (hi | ⟨-, -, heq⟩)
          · cases hi
          · exact List.mem_singleton.mpr (Option.some.inj heq).symm
      | cons first rest =>
        rw [List.isEmpty_cons, if_neg Bool.false_ne_true]
        exact (or_iff_left fun hempty => List.cons_ne_nil first rest hempty.1).symm

/-- A field takes part in an index exactly if an item of its tag declares one. -/
theorem Assembled.exists_index_iff (h : l.Assembled) (hf : l.field? i = some f) :
    (∃ x ∈ l.indexes, ∃ m ∈ x.members, m.position = i)
      ↔ ∃ item ∈ Tag.items ';' f.tag, (Index.declaredKind? item).isSome = true := by
  obtain ⟨declared, hdeclared, hindexes⟩ := Index.Declaration.exists_declared h.indexes_uniques.1
  have hmembers : (l.indexes.flatMap (·.members)).Perm
      ((Index.Declaration.inTags l.fields).map (·.member)) := by
    rw [hindexes, ← Index.Declaration.flatMap_members hdeclared]
    exact Index.members_gathered declared
  have htaken : (∃ x ∈ l.indexes, ∃ m ∈ x.members, m.position = i)
      ↔ ∃ d ∈ Index.Declaration.inTags l.fields, d.position = i := by
    constructor
    · rintro ⟨x, hx, m, hm, hposition⟩
      have hmem := hmembers.mem_iff.mp (List.mem_flatMap.mpr ⟨x, hx, hm⟩)
      obtain ⟨d, hd, rfl⟩ := List.mem_map.mp hmem
      exact ⟨d, hd, hposition⟩
    · rintro ⟨d, hd, hposition⟩
      have hmem := hmembers.mem_iff.mpr (List.mem_map_of_mem (f := (·.member)) hd)
      obtain ⟨x, hx, hm⟩ := List.mem_flatMap.mp hmem
      exact ⟨x, hx, d.member, hm, hposition⟩
  rw [htaken]
  constructor
  · rintro ⟨d, hd, hposition⟩
    obtain ⟨⟨g, k⟩, hentry, hd⟩ := List.mem_flatMap.mp hd
    obtain ⟨item, hitem, hd⟩ := List.mem_filterMap.mp hd
    obtain ⟨unique, hunique, rfl⟩ := Option.map_eq_some_iff.mp hd
    obtain rfl : k = i := hposition
    obtain rfl : g = f := Option.some.inj ((List.mem_zipIdx_iff_getElem?.mp hentry).symm.trans hf)
    exact ⟨item, hitem, by rw [hunique]; rfl⟩
  · rintro ⟨item, hitem, hkind⟩
    obtain ⟨unique, hunique⟩ := Option.isSome_iff_exists.mp hkind
    have hd : Index.Declaration.ofItem? i f item = some ⟨i, f, unique, (Index.givenName item).1,
        Tag.Settings.parse ',' (Index.givenName item).2⟩ :=
      Option.map_eq_some_iff.mpr ⟨unique, hunique, rfl⟩
    exact ⟨_, List.mem_flatMap.mpr ⟨(f, i), List.mem_zipIdx_iff_getElem?.mpr hf,
      List.mem_filterMap.mpr ⟨item, hitem, hd⟩⟩, rfl⟩

/-- The field at the position is part of the primary key and nothing else: it is not counted up, takes
part in no index and has no constraint. -/
structure IsPlainKey (l : Layout) (i : Nat) (f : Field) : Prop where
  primary : i ∈ l.primary
  counted : f.autoIncrement = false
  indexed : ¬∃ x ∈ l.indexes, ∃ m ∈ x.members, m.position = i
  constrained : ¬l.HasConstraint f

end Layout

namespace JoinField

/-- What a field of a join table is, by the key that it is a copy of and by the layout of the table.
`sources` are the fields of the table with their keys. -/
structure CopiedAs (sources : List JoinField) (join : Layout) (i : Nat) (j : JoinField) (f : Field) :
    Prop where
  name : f.name = j.name
  /-- The field is part of the primary key: it says that it is a key and owns its column, or nobody does
  and it has the name of a key. -/
  primary : i ∈ join.primary ↔ j.saysKey = true ∧ join.OwnsColumn i
    ∨ (∀ k, (sources[k]?).any (·.saysKey) = true → ¬join.OwnsColumn k)
      ∧ j.saysKey = false ∧ join.namedKey? = some i
  /-- The field is counted up: by a setting that is not removed, or because it is elected. -/
  counted : f.autoIncrement
    = (j.foreignSettings.flag "AUTOINCREMENT" || Layout.electsIncrement join.prioritized f i)
  /-- The field takes part in an index: by an item that is not removed. -/
  indexed : (∃ x ∈ join.indexes, ∃ m ∈ x.members, m.position = i)
    ↔ ∃ item ∈ Tag.items ';' j.source.field.tag, keepsIndex (Tag.rawKey item) = true
  /-- The field is unique by a constraint: by a setting that is not removed. -/
  constrained : join.HasConstraint f
    ↔ f.dbName ≠ "" ∧ j.foreignSettings.flag "UNIQUE" = true ∧ ¬join.HasSoleIndex i

variable {sources : List JoinField} {join : Layout} {i : Nat} {j : JoinField} {f : Field}

/-- A field without a column has no constraint. -/
theorem dbName_ne_of_hasConstraint (h : join.Assembled) (hf : join.HasConstraint f) : f.dbName ≠ "" := by
  have hmem : f ∈ join.uniques.map (·.field) := List.mem_map.mpr hf
  rw [h.indexes_uniques.2, UniqueConstraint.map_field_ofFields] at hmem
  simp only [List.mem_map, List.mem_filter, Bool.and_eq_true, Bool.not_eq_true'] at hmem
  obtain ⟨entry, ⟨⟨-, -, hcolumn⟩, -⟩, rfl⟩ := hmem
  rintro hempty
  rw [hempty] at hcolumn
  cases hcolumn

theorem copiedAs_of_assemble {given name table : String} {fields : List Field} {ns : Naming}
    (hfields : sources.mapM (declared given) = .ok fields)
    (hlayout : Layout.assemble name table fields ns = .ok join) (hj : sources[i]? = some j)
    (hf : join.field? i = some f) : j.CopiedAs sources join i f := by
  have hassembled : join.Assembled := ⟨name, table, fields, ns, hlayout⟩
  have hread : ∀ k, Option.Rel (fun j d => declared given j = .ok d) sources[k]? fields[k]? :=
    rel_getElem? (forall₂_of_mapM_except hfields)
  have hkeys : ∀ k, Layout.declaresKey fields k = (sources[k]?).any (·.saysKey) := by
    intro k
    rw [Layout.declaresKey]
    have hrel := hread k
    generalize sources[k]? = source at hrel ⊢
    generalize fields[k]? = copied at hrel ⊢
    cases hrel with
    | none => rfl
    | some hok => exact (readAs_of_declared hok).primaryKey
  have hdeclared : ∃ d, fields[i]? = some d ∧ declared given j = .ok d := by
    have hrel := hread i
    generalize fields[i]? = copied at hrel ⊢
    rw [hj] at hrel
    cases hrel with
    | some hok => exact ⟨_, rfl, hok⟩
  -- The field is its declaration with a column, marked.
  obtain ⟨d, hd, hok⟩ := hdeclared
  have hcopy : j.ReadAs d := readAs_of_declared hok
  have hfield : f = Layout.marked join.prioritized join.primary (Layout.columned ns d) i := by
    rw [Layout.field?, Layout.getElem?_fields_of_assemble hlayout, hd] at hf
    exact (Option.some.inj hf).symm
  have hcounts : Layout.CountsAs join.prioritized d i f := hfield ▸ Layout.countsAs_marked _ _ _ _ _
  have hsame : f.name = d.name ∧ f.unique = d.unique := by
    obtain ⟨_, hcolumned⟩ := Layout.columned_eq ns d
    obtain ⟨_, _, _, hmarked⟩ := Layout.marked_eq join.prioritized join.primary (Layout.columned ns d) i
    rw [hfield, hmarked, hcolumned]
    exact ⟨rfl, rfl⟩
  constructor
  · exact hsame.1.trans (congrArg Prod.fst (declared_column hok))
  · rw [Layout.mem_primary_of_assemble hlayout, hkeys i, hj, Option.any_some]
    simp only [hkeys]
  · rw [hcounts.autoIncrement, hcopy.autoIncrement]
  · rw [hassembled.exists_index_iff hf, hcounts.tag, hcopy.tag]
    exact j.exists_index_item_iff
  · rw [← hcopy.unique, ← hsame.2]
    constructor
    · intro hconstraint
      have hcolumn := dbName_ne_of_hasConstraint hassembled hconstraint
      exact ⟨hcolumn, (hassembled.hasConstraint_iff hf hcolumn).mp hconstraint⟩
    · rintro ⟨hcolumn, hunique⟩
      exact (hassembled.hasConstraint_iff hf hcolumn).mpr hunique

/-- The field is a plain part of the primary key exactly if it is part of it, no setting is left that
counts it up, indexes it or makes it unique, and it is not elected. -/
theorem CopiedAs.isPlainKey_iff (h : j.CopiedAs sources join i f) :
    join.IsPlainKey i f ↔ i ∈ join.primary
      ∧ Layout.electsIncrement join.prioritized f i = false
      ∧ j.foreignSettings.flag "AUTOINCREMENT" = false
      ∧ (∀ item ∈ Tag.items ';' j.source.field.tag, keepsIndex (Tag.rawKey item) = false)
      ∧ (f.dbName = "" ∨ j.foreignSettings.flag "UNIQUE" = false) := by
  have hcounted : f.autoIncrement = false ↔ j.foreignSettings.flag "AUTOINCREMENT" = false
      ∧ Layout.electsIncrement join.prioritized f i = false := by
    rw [h.counted, Bool.or_eq_false_iff]
  have hindexed : (¬∃ x ∈ join.indexes, ∃ m ∈ x.members, m.position = i)
      ↔ ∀ item ∈ Tag.items ';' j.source.field.tag, keepsIndex (Tag.rawKey item) = false := by
    rw [h.indexed]
    simp only [not_exists, not_and, Bool.not_eq_true]
  -- A field in no index has none of its own.
  have hsole : (¬∃ x ∈ join.indexes, ∃ m ∈ x.members, m.position = i) → ¬join.HasSoleIndex i := by
    rintro hnone ⟨x, hx, -, hposition⟩
    have hmem : i ∈ x.members.map (·.position) := by
      rw [hposition]
      exact List.mem_singleton_self i
    obtain ⟨m, hm, hi⟩ := List.mem_map.mp hmem
    exact hnone ⟨x, hx, m, hm, hi⟩
  constructor
  · rintro ⟨hprimary, hsilent, hnone, hfree⟩
    obtain ⟨hforeign, hunelected⟩ := hcounted.mp hsilent
    refine ⟨hprimary, hunelected, hforeign, hindexed.mp hnone, ?_⟩
    rw [h.constrained] at hfree
    by_cases hcolumn : f.dbName = ""
    · exact .inl hcolumn
    · refine .inr ?_
      rw [← Bool.not_eq_true]
      exact fun hunique => hfree ⟨hcolumn, hunique, hsole hnone⟩
  · rintro ⟨hprimary, hunelected, hforeign, hnone, hfree⟩
    refine ⟨hprimary, hcounted.mpr ⟨hforeign, hunelected⟩, hindexed.mpr hnone, ?_⟩
    rw [h.constrained]
    rintro ⟨hcolumn, hunique, -⟩
    obtain hempty | hsilent := hfree
    · exact hcolumn hempty
    · rw [hunique] at hsilent
      cases hsilent

/-- Where all keys of the tag are written in ASCII letters, nothing is left but the spelling of a unique
index that is not removed. -/
theorem CopiedAs.isPlainKey_iff_of_ascii (h : j.CopiedAs sources join i f)
    (hascii : ∀ item ∈ Tag.items ';' j.source.field.tag, Tag.isAscii (Tag.rawKey item) = true) :
    join.IsPlainKey i f ↔ i ∈ join.primary
      ∧ Layout.electsIncrement join.prioritized f i = false
      ∧ ∀ item ∈ Tag.items ';' j.source.field.tag, Text.upper (Tag.rawKey item) ≠ "UNIQUE_INDEX" := by
  have hforeign : j.foreignSettings = ⟨[]⟩ := by
    have hnone : (Tag.items ';' j.source.field.tag).filter
        (fun item => !Tag.isAscii (Tag.rawKey item)) = [] :=
      List.filter_eq_nil_iff.mpr fun item hitem => by
        rw [hascii item hitem]
        exact Bool.false_ne_true
    rw [foreignSettings, Tag.settingsWhere, hnone]
    rfl
  have hkeeps : ∀ item ∈ Tag.items ';' j.source.field.tag,
      (keepsIndex (Tag.rawKey item) = false ↔ Text.upper (Tag.rawKey item) ≠ "UNIQUE_INDEX") := by
    intro item hitem
    rw [keepsIndex, hascii item hitem, Bool.not_true, Bool.and_false, Bool.or_false,
      beq_eq_false_iff_ne]
  have hindexed : (∀ item ∈ Tag.items ';' j.source.field.tag, keepsIndex (Tag.rawKey item) = false)
      ↔ ∀ item ∈ Tag.items ';' j.source.field.tag,
        Text.upper (Tag.rawKey item) ≠ "UNIQUE_INDEX" := forall₂_congr hkeeps
  rw [h.isPlainKey_iff, hindexed, hforeign]
  refine and_congr_right fun _ => and_congr_right fun _ => ?_
  exact ⟨fun hall => hall.2.1, fun hnone => ⟨rfl, hnone, .inr rfl⟩⟩

end JoinField

namespace SchemaCache

/-- A many-to-many relationship has a join table in the cache, which is that of a pairing. -/
theorem Traced.exists_joinTable {c : SchemaCache} (hc : c.Traced) {n : Nat} {schema : Schema}
    {rs : List Relationship} {r : Relationship} (hn : c.get? n = some ⟨schema, .resolved rs⟩)
    (hr : r ∈ rs) (hkind : r.kind = .manyToMany) :
    ∃ related next given table, c.HasSchema related ∧ r.related = related.ref
      ∧ (Pairing.ofField ⟨n, schema⟩ related r.field).joinTable next given = .ok table
      ∧ c.get? next = some ⟨table.schema, .resolved table.links⟩
      ∧ r.joinTable = some (NumberedSchema.mk next table.schema).ref := by
  cases hc n _ hn with
  | join _ _ hjoin =>
    -- The relationships of a join table lead to one record each.
    obtain ⟨_, _, _, _, _, _, _, -, -, -, -, -, -, -, -, hlinks⟩ := Pairing.joinTable_ok hjoin
    rw [hlinks] at hr
    obtain rfl | hr := List.mem_cons.mp hr
    · cases hkind
    · obtain rfl := List.mem_singleton.mp hr
      cases hkind
  | read _ hmakes =>
    obtain ⟨related, field, position, next, join, hrelated, hrelationship, hget⟩ := hmakes rs rfl r hr
    obtain ⟨table, rfl⟩ := Pairing.exists_joinTable hrelationship hkind
    obtain ⟨hfield, href, -⟩ := Pairing.relationship_ok hrelationship
    obtain ⟨given, hjoin, -, -, hjoinRef⟩ := Pairing.joinTable_of_relationship hrelationship
    obtain rfl : r.field = field := hfield
    exact ⟨related, next, given, table, hrelated, href, hjoin, hget table rfl, hjoinRef⟩

/-- After any calls, every field of the join table of a many-to-many relationship is a copy of the key
that it is named for, and a part of the primary key, counted up, indexed and unique for the reasons that
are listed there (`JoinField.CopiedAs`).  So it is a plain part of the primary key exactly if its tag and
its column make it part of it, the table does not elect it to be counted up, and the tag of its key has
no setting that is left: none in other than ASCII letters, and no unique index by its third name. -/
theorem join_copies_are_plain_iff (catalog : Catalog) (naming : Naming) (calls : List ParseCall)
    {n : Nat} {schema : Schema} {rs : List Relationship} {r : Relationship}
    (hn : ((empty catalog naming).parseAll calls).get? n = some ⟨schema, .resolved rs⟩)
    (hr : r ∈ rs) (hkind : r.kind = .manyToMany) :
    let c := (empty catalog naming).parseAll calls
    ∃ (related join : NumberedSchema) (links : List Relationship) (ownKeys relatedKeys : List KeyField),
      let p := Pairing.ofField ⟨n, schema⟩ related r.field
      let own := p.ownJoinFields ownKeys
      let sources := Pairing.joinFields own (p.relatedJoinFields own relatedKeys)
      c.HasSchema related ∧ r.related = related.ref
      ∧ c.get? join.number = some ⟨join.schema, .resolved links⟩ ∧ r.joinTable = some join.ref
      ∧ p.contributed p.owner.side p.foreignKeys = .ok ownKeys
      ∧ p.contributed p.related.side p.primaryKeys = .ok relatedKeys
      ∧ join.schema.fields.length = sources.length
      ∧ ∀ (i : Nat) (j : JoinField) (f : Field), sources[i]? = some j → join.schema.field? i = some f →
        j.CopiedAs sources join.schema.toLayout i f
        ∧ (join.schema.IsPlainKey i f ↔ i ∈ join.schema.primary
          ∧ Layout.electsIncrement join.schema.prioritized f i = false
          ∧ j.foreignSettings.flag "AUTOINCREMENT" = false
          ∧ (∀ item ∈ Tag.items ';' j.source.field.tag,
            JoinField.keepsIndex (Tag.rawKey item) = false)
          ∧ (f.dbName = "" ∨ j.foreignSettings.flag "UNIQUE" = false))
        ∧ ((∀ item ∈ Tag.items ';' j.source.field.tag, Tag.isAscii (Tag.rawKey item) = true) →
          (join.schema.IsPlainKey i f ↔ i ∈ join.schema.primary
            ∧ Layout.electsIncrement join.schema.prioritized f i = false
            ∧ ∀ item ∈ Tag.items ';' j.source.field.tag,
              Text.upper (Tag.rawKey item) ≠ "UNIQUE_INDEX")) := by
  intro c
  have hc : c.Traced := (traced_empty catalog naming).parseAll calls
  obtain ⟨related, next, given, table, hrelated, href, hjoin, hget, hjoinRef⟩ :=
    hc.exists_joinTable hn hr hkind
  obtain ⟨ownKeys, relatedKeys, _, _, fields, _, _, hownKeys, hrelatedKeys, rfl, rfl, hfields,
    hlayout, -⟩ := Pairing.joinTable_ok hjoin
  refine ⟨related, ⟨next, table.schema⟩, table.links, ownKeys, relatedKeys, hrelated, href, hget,
    hjoinRef, hownKeys, hrelatedKeys, ?_, fun i j f hj hf => ?_⟩
  · have hlength := congrArg List.length
      (Layout.map_fields_of_assemble (g := (·.name)) hlayout fun _ _ _ _ => rfl)
    rw [List.length_map, List.length_map] at hlength
    exact hlength.trans (forall₂_of_mapM_except hfields).length_eq.symm
  · have hcopied := JoinField.copiedAs_of_assemble hfields hlayout hj hf
    exact ⟨hcopied, hcopied.isPlainKey_iff, hcopied.isPlainKey_iff_of_ascii⟩

/-! ## Speakers -/

/-- Users speak languages; the numbers of users are unique, as an index says. -/
def speakers : Catalog :=
  ⟨[ ( "User",
      { name := "User"
        fields :=
          [ { name := "ID", kind := .uint 64, tag := "unique_index" }
          , { name := "Languages", kind := .slice (.record ⟨"Language", "Language"⟩)
              tag := "many2many:user_speak" } ] } )
    , ( "Language",
      { name := "Language"
        fields := [{ name := "Code", kind := .string, tag := "primaryKey" }] } ) ]⟩

theorem speakers_relationship :
    let c := (empty speakers {}).parseAll [userCall]
    ∃ schema languages language join ownKeys relatedKeys userID code,
      c.get? 0 = some ⟨schema, .resolved [languages]⟩ ∧ (c.get? 1).map (·.schema) = some language
      ∧ c.get? 2 = some join
      ∧ (languages.kind = .manyToMany ∧ languages.related.number = 1
        ∧ languages.joinTable.map (·.number) = some 2)
      ∧ (let p := Pairing.ofField ⟨0, schema⟩ ⟨1, language⟩ languages.field
        let own := p.ownJoinFields ownKeys
        p.contributed p.owner.side p.foreignKeys = .ok ownKeys
          ∧ p.contributed p.related.side p.primaryKeys = .ok relatedKeys
          ∧ (Pairing.joinFields own (p.relatedJoinFields own relatedKeys)).map
              (fun j => (j.name, j.source.field.tag))
            = [("UserID", "unique_index"), ("LanguageCode", "primaryKey")])
      ∧ (join.schema.field? 0 = some userID ∧ join.schema.field? 1 = some code)
      ∧ join.schema.primary = [0, 1] ∧ join.schema.prioritized = none := by
  intro c
  have h : ((c.get? 0).bind fun e => (c.get? 1).bind fun other => (c.get? 2).bind fun join =>
      (e.relationships[0]?).bind fun languages =>
        let p := Pairing.ofField ⟨0, e.schema⟩ ⟨1, other.schema⟩ languages.field
        (p.contributed p.owner.side p.foreignKeys).toOption.bind fun ownKeys =>
          (p.contributed p.related.side p.primaryKeys).toOption.bind fun relatedKeys =>
            (join.schema.field? 0).bind fun userID => (join.schema.field? 1).map fun code =>
              let own := p.ownJoinFields ownKeys
              decide (e.relationships.length = 1
                ∧ (languages.kind = .manyToMany ∧ languages.related.number = 1
                  ∧ languages.joinTable.map (·.number) = some 2)
                ∧ (Pairing.joinFields own (p.relatedJoinFields own relatedKeys)).map
                    (fun j => (j.name, j.source.field.tag))
                  = [("UserID", "unique_index"), ("LanguageCode", "primaryKey")]
                ∧ join.schema.primary = [0, 1] ∧ join.schema.prioritized = none))
      = some true := by decide +kernel
  obtain ⟨e, he, h⟩ := Option.bind_eq_some_iff.mp h
  obtain ⟨other, hother, h⟩ := Option.bind_eq_some_iff.mp h
  obtain ⟨join, hjoin, h⟩ := Option.bind_eq_some_iff.mp h
  obtain ⟨languages, hfirst, h⟩ := Option.bind_eq_some_iff.mp h
  obtain ⟨ownKeys, hown, h⟩ := Option.bind_eq_some_iff.mp h
  obtain ⟨relatedKeys, hrelated, h⟩ := Option.bind_eq_some_iff.mp h
  obtain ⟨userID, huser, h⟩ := Option.bind_eq_some_iff.mp h
  obtain ⟨code, hcode, h⟩ := Option.map_eq_some_iff.mp h
  obtain ⟨hlength, hlanguages, hsources, hprimary, hprioritized⟩ := of_decide_eq_true h
  have hrelationships := eq_singleton_of_getElem? hlength hfirst
  exact ⟨e.schema, languages, other.schema, join, ownKeys, relatedKeys, userID, code,
    he.trans (congrArg some (eq_resolved hrelationships)), congrArg (Option.map (·.schema)) hother,
    hjoin, hlanguages, ⟨ok_of_toOption hown, ok_of_toOption hrelated, hsources⟩, ⟨huser, hcode⟩,
    hprimary, hprioritized⟩

/-- The copy of the user's number is unique in the table of links, so that a user can speak one language
only; that of the language's code is a plain part of the key. -/
theorem join_copies_are_plain_iff_speakers :
    let c := (empty speakers {}).parseAll [userCall]
    ∃ (schema : Schema) (languages : Relationship) (join : NumberedSchema) (userID code : Field),
      c.get? 0 = some ⟨schema, .resolved [languages]⟩
      ∧ languages.kind = .manyToMany ∧ languages.joinTable = some join.ref
      ∧ join.schema.field? 0 = some userID ∧ join.schema.field? 1 = some code
      ∧ userID.name = "UserID" ∧ code.name = "LanguageCode"
      ∧ (∃ x ∈ join.schema.indexes, ∃ m ∈ x.members, m.position = 0)
      ∧ ¬join.schema.IsPlainKey 0 userID ∧ join.schema.IsPlainKey 1 code := by
  intro c
  obtain ⟨schema, languages, language, e, ownKeys', relatedKeys', userID, code, he, hlanguage, hjoin,
    ⟨hkind, hnumber, hjoinNumber⟩, ⟨hownKeys', hrelatedKeys', hsources⟩, ⟨huser, hcode⟩, hprimary,
    hprioritized⟩ := speakers_relationship
  obtain ⟨related, join, links, ownKeys, relatedKeys, hrelated, href, hget, hjoinRef, hownKeys,
    hrelatedKeys, -, hcopies⟩ := join_copies_are_plain_iff speakers {} [userCall] he
      (List.mem_singleton_self languages) hkind
  obtain ⟨number, relatedSchema⟩ := related
  obtain ⟨joinNumber, joinSchema⟩ := join
  obtain rfl : number = 1 := (congrArg SchemaRef.number href).symm.trans hnumber
  obtain rfl : joinNumber = 2 := by
    rw [hjoinRef] at hjoinNumber
    exact Option.some.inj hjoinNumber
  obtain rfl : language = relatedSchema := Option.some.inj (hlanguage.symm.trans hrelated)
  obtain rfl : ownKeys' = ownKeys := Except.ok.inj (hownKeys'.symm.trans hownKeys)
  obtain rfl : relatedKeys' = relatedKeys := Except.ok.inj (hrelatedKeys'.symm.trans hrelatedKeys)
  obtain rfl : e = ⟨joinSchema, .resolved links⟩ := Option.some.inj (hjoin.symm.trans hget)
  dsimp only at hcopies hsources huser hcode hprimary hprioritized
  generalize Pairing.joinFields _ _ = sources at hcopies hsources
  have htwo := congrArg List.length hsources
  rw [List.length_map] at htwo
  obtain ⟨own, other, rfl⟩ := List.length_eq_two.mp htwo
  simp only [List.map_cons, List.map_nil, List.cons.injEq, Prod.mk.injEq, and_true] at hsources
  obtain ⟨⟨hownName, hownTag⟩, hotherName, hotherTag⟩ := hsources
  obtain ⟨hownCopy, -, hplain⟩ := hcopies 0 own userID rfl huser
  obtain ⟨hotherCopy, -, hplain'⟩ := hcopies 1 other code rfl hcode
  refine ⟨schema, languages, ⟨2, joinSchema⟩, userID, code, he, hkind, hjoinRef, huser, hcode,
    hownCopy.name.trans hownName, hotherCopy.name.trans hotherName, ?_, ?_, ?_⟩
  · rw [hownCopy.indexed, hownTag]
    decide +kernel
  · rw [hownTag] at hplain
    rw [hplain (by decide +kernel)]
    rintro ⟨-, -, hnone⟩
    exact absurd hnone (by decide +kernel)
  · rw [hotherTag] at hplain'
    rw [hplain' (by decide +kernel), hprimary]
    refine ⟨by decide, ?_, by decide +kernel⟩
    rw [Layout.electsIncrement, hprioritized]
    rfl

end SchemaCache

end RecordSql
