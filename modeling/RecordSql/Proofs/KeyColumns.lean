/-
  RecordSql.Proofs.KeyColumns

  Which columns the conditions and constraints of a relationship name, and
  whether their tables have them.  A column is written with the table of the
  schema that owns its field, so the table has it if the field is stored, unless
  the field is one of an embedded record: the schema has that under the name
  which the embedding field begins (`SchemaCache.columns_of_relationships`).
-/

import RecordSql.Proofs.Columns
import RecordSql.Proofs.KeyFields
import RecordSql.Proofs.Cache.Origins

namespace RecordSql

/-! ## The columns that are named -/

mutual
/-- The columns that an argument names. -/
def Arg.namedColumns : Arg → List Column
  | .value _ => []
  | .list items => Arg.allNamedColumns items
  | .column c => [c]
  | .table _ => []
  | .expr e => Expression.namedColumns e
  | .named _ arg => Arg.namedColumns arg
  | .map entries => Arg.entryColumns entries

/-- The columns that several arguments name. -/
def Arg.allNamedColumns : List Arg → List Column
  | [] => []
  | arg :: args => Arg.namedColumns arg ++ Arg.allNamedColumns args

/-- The columns that arguments by name name. -/
def Arg.entryColumns : List (String × Arg) → List Column
  | [] => []
  | (_, arg) :: entries => Arg.namedColumns arg ++ Arg.entryColumns entries

/-- The columns that the branches of a case distinction name. -/
def Branch.allNamedColumns : List Branch → List Column
  | [] => []
  | .mk _ _ args :: branches => Arg.allNamedColumns args ++ Branch.allNamedColumns branches

/-- The columns that an expression names, apart from what its texts say. -/
def Expression.namedColumns : Expression → List Column
  | .compare _ column arg => column :: Arg.namedColumns arg
  | .member column args => column :: Arg.allNamedColumns args
  | .raw _ args _ => Arg.allNamedColumns args
  | .named _ args => Arg.allNamedColumns args
  | .and es => Expression.allNamedColumns es
  | .or es => Expression.allNamedColumns es
  | .not es => Expression.allNamedColumns es
  | .case branches none => Branch.allNamedColumns branches
  | .case branches (some (_, args)) =>
    Branch.allNamedColumns branches ++ Arg.allNamedColumns args
  | .comma es => Expression.allNamedColumns es

/-- The columns that several expressions name. -/
def Expression.allNamedColumns : List Expression → List Column
  | [] => []
  | e :: es => Expression.namedColumns e ++ Expression.allNamedColumns es
end

theorem Arg.allNamedColumns_values (vs : List Value) :
    Arg.allNamedColumns (vs.map .value) = [] := by
  induction vs with
  | nil => rfl
  | cons v vs ih => rw [List.map_cons, allNamedColumns, ih]; rfl

namespace Expression

theorem allNamedColumns_eq (es : List Expression) :
    allNamedColumns es = es.flatMap namedColumns := by
  induction es with
  | nil => rfl
  | cons e es ih => rw [allNamedColumns, ih]; rfl

theorem namedColumns_conjunction (es : List Expression) :
    (conjunction es).namedColumns = allNamedColumns es := by
  unfold conjunction
  split
  · rfl
  · rw [allNamedColumns, allNamedColumns, List.append_nil]
  · rfl

end Expression

namespace Relationship

variable {r : Relationship} {column : Column}

/-- A field as it is written. -/
def written (use : SchemaRef × KeyField) : Column := .qualified use.1.table use.2.field.dbName

/-- The comparison with one of several rows names the columns that are compared. -/
theorem mem_of_mem_rowsCondition {columns : List Column} {rows : List (List Value)}
    (h : column ∈ Expression.allNamedColumns (rowsCondition columns rows)) : column ∈ columns := by
  unfold rowsCondition at h
  split at h
  · exact absurd h List.not_mem_nil
  · rw [Expression.allNamedColumns, Expression.namedColumns, Arg.allNamedColumns_values] at h
    exact h
  · rw [Expression.allNamedColumns, Expression.namedColumns, Expression.allNamedColumns_eq,
      Expression.allNamedColumns, List.append_nil, List.flatMap_map] at h
    obtain ⟨row, -, h⟩ := List.mem_flatMap.mp h
    rw [Expression.namedColumns_conjunction, Expression.allNamedColumns_eq, List.flatMap_map] at h
    obtain ⟨⟨c, v⟩, hpair, h⟩ := List.mem_flatMap.mp h
    obtain rfl := List.mem_singleton.mp h
    exact (List.of_mem_zip hpair).1

theorem foreign_mem_uses {ref : Reference} (href : ref ∈ r.references) :
    (r.holder ref, ref.foreignKey) ∈ r.uses := mem_uses.mpr ⟨ref, href, .inl rfl⟩

theorem key_mem_uses {ref : Reference} (href : ref ∈ r.references) {key : KeyField}
    (hkey : ref.primaryKey = some key) : (r.keyOwner ref, key) ∈ r.uses :=
  mem_uses.mpr ⟨ref, href, .inr ⟨key, hkey, rfl⟩⟩

/-- The first table of a join is that of the holder, unless the owner holds the key. -/
theorem targetTable_eq {ref : Reference}
    (h : r.joinTable.isSome || ref.ownPrimaryKey || ref.primaryKey.isNone
      || !ref.primaryValue.isEmpty) : r.targetTable = (r.holder ref).table := by
  rw [targetTable, holder]
  cases hjoin : r.joinTable with
  | some join => rfl
  | none =>
    rw [hjoin] at h
    dsimp only
    rw [if_pos (by simpa using h)]
    rfl

theorem mem_sameColumn {table name otherTable otherName : String}
    (h : column ∈ (sameColumn table name otherTable otherName).namedColumns) :
    column = .qualified table name ∨ column = .qualified otherTable otherName := by
  obtain h | h := List.mem_cons.mp h
  · exact .inl h
  · exact .inr (List.mem_singleton.mp h)

/-- The condition on a join names the fields of the reference. -/
theorem mem_uses_of_joinCondition {ref : Reference} (href : ref ∈ r.references)
    (h : column ∈ (r.joinCondition ref).namedColumns) : ∃ use ∈ r.uses, column = written use := by
  have hforeign : ∀ table, table = (r.holder ref).table →
      column = .qualified table ref.foreignKey.field.dbName → ∃ use ∈ r.uses, column = written use := by
    rintro _ rfl rfl
    exact ⟨_, foreign_mem_uses href, rfl⟩
  have hkey : ∀ key table, ref.primaryKey = some key → table = (r.keyOwner ref).table →
      column = .qualified table key.field.dbName → ∃ use ∈ r.uses, column = written use := by
    rintro key _ hprimary rfl rfl
    exact ⟨_, key_mem_uses href hprimary, rfl⟩
  -- Which table stands first depends on whose key it is, and on whether there is a join table.
  unfold joinCondition at h
  dsimp only at h
  split at h
  · next hvalue =>
    exact hforeign _ (targetTable_eq (by rw [hvalue]; simp)) (List.mem_singleton.mp h)
  · next hvalue =>
    split at h
    · next hnone =>
      exact hforeign _ (targetTable_eq (by rw [hnone]; simp)) (List.mem_singleton.mp h)
    · next key hprimary =>
      split at h
      · next hown =>
        obtain h | h := mem_sameColumn h
        · exact hforeign _ (targetTable_eq (by rw [hown]; simp)) h
        · exact hkey key _ hprimary (by rw [keyOwner, if_pos hown]) h
      · next hown =>
        have howner : r.related.table = (r.keyOwner ref).table := by rw [keyOwner, if_neg hown]
        split at h
        · next hjoin =>
          obtain h | h := mem_sameColumn h
          · exact hforeign _ (targetTable_eq (by rw [hjoin]; simp)) h
          · exact hkey key _ hprimary howner h
        · next hjoin =>
          obtain h | h := mem_sameColumn h
          · refine hforeign _ ?_ h
            rw [holder, Option.not_isSome_iff_eq_none.mp hjoin, hprimary]
            dsimp only
            rw [if_neg (by simp_all)]
          · exact hkey key _ hprimary howner h

/-- What a reference asks of related rows names its fields. -/
theorem mem_uses_of_queryPart {ref : Reference} (href : ref ∈ r.references)
    {part : Expression ⊕ Column} (hpart : r.queryPart ref = some part)
    (h : column ∈ part.elim Expression.namedColumns (fun c => [c])) :
    ∃ use ∈ r.uses, column = written use := by
  have hforeign : r.targetTable = (r.holder ref).table →
      column = .qualified r.targetTable ref.foreignKey.field.dbName →
      ∃ use ∈ r.uses, column = written use := by
    rintro htable rfl
    exact ⟨_, foreign_mem_uses href, by rw [written, htable]⟩
  unfold queryPart at hpart
  dsimp only at hpart
  split at hpart
  · next hown =>
    cases hpart
    exact hforeign (targetTable_eq (by rw [hown]; simp)) (List.mem_singleton.mp h)
  · next hown =>
    split at hpart
    · next hvalue =>
      cases hpart
      exact hforeign (targetTable_eq (by rw [hvalue]; simp)) (List.mem_singleton.mp h)
    · obtain ⟨key, hprimary, rfl⟩ := Option.map_eq_some_iff.mp hpart
      have hkey : column = .qualified r.related.table key.field.dbName →
          ∃ use ∈ r.uses, column = written use := by
        rintro rfl
        exact ⟨_, key_mem_uses href hprimary, by rw [written, keyOwner, if_neg hown]⟩
      split at h
      · next hjoin =>
        obtain h | h := mem_sameColumn h
        · exact hforeign (targetTable_eq (by rw [hjoin]; simp)) h
        · exact hkey h
      · exact hkey (List.mem_singleton.mp h)

/-- The conditions of a join and those on related rows name the fields of the references, each in
the table of the schema it is looked for in. -/
theorem mem_uses_of_condition {rows : List (List Value)}
    (h : column ∈ (r.joinOn ++ r.queryConditions rows).flatMap Expression.namedColumns) :
    ∃ use ∈ r.uses, column = written use := by
  obtain ⟨e, he, h⟩ := List.mem_flatMap.mp h
  obtain he | he := List.mem_append.mp he
  · obtain ⟨ref, href, rfl⟩ := List.mem_map.mp he
    exact mem_uses_of_joinCondition href h
  · rw [queryConditions] at he
    obtain he | he := List.mem_append.mp he
    · obtain ⟨part, hpart, he⟩ := List.mem_filterMap.mp he
      obtain ⟨ref, href, hpart⟩ := List.mem_filterMap.mp hpart
      cases part with
      | inl e' =>
        cases he
        exact mem_uses_of_queryPart href hpart h
      | inr c => cases he
    · have hcolumn : column ∈ _ := mem_of_mem_rowsCondition (by
        rw [Expression.allNamedColumns_eq]
        exact List.mem_flatMap.mpr ⟨e, he, h⟩)
      obtain ⟨part, hpart, hc⟩ := List.mem_filterMap.mp hcolumn
      obtain ⟨ref, href, hpart⟩ := List.mem_filterMap.mp hpart
      cases part with
      | inl e' => cases hc
      | inr c =>
        cases hc
        exact mem_uses_of_queryPart href hpart (List.mem_singleton_self _)

/-- The references that a foreign key constraint is about, with their keys. -/
def constrained (r : Relationship) : List (Reference × KeyField) :=
  r.references.filterMap fun ref =>
    if r.joinTable.isSome && !ref.ownPrimaryKey then none
    else ref.primaryKey.map fun primary => (ref, primary)

theorem mem_constrained {ref : Reference} {key : KeyField} (h : (ref, key) ∈ r.constrained) :
    ref ∈ r.references ∧ ref.primaryKey = some key
      ∧ (r.joinTable.isSome = true → ref.ownPrimaryKey = true) := by
  obtain ⟨ref', href, h⟩ := List.mem_filterMap.mp h
  split at h
  · cases h
  · next hside =>
    obtain ⟨key', hkey, heq⟩ := Option.map_eq_some_iff.mp h
    cases heq
    refine ⟨href, hkey, fun hjoin => ?_⟩
    rw [hjoin, Bool.true_and, Bool.not_eq_true'] at hside
    exact Bool.not_eq_false _ ▸ hside

/-- They all have the key on one side. -/
theorem last_constrained {schemas : List NumberedSchema} (hr : r.Placed schemas) {ref : Reference}
    {key : KeyField} (h : (ref, key) ∈ r.constrained) :
    (r.constrained.getLast?).any (fun (ref, _) => ref.ownPrimaryKey) = ref.ownPrimaryKey := by
  cases hlast : r.constrained.getLast? with
  | none =>
    rw [List.getLast?_eq_none_iff.mp hlast] at h
    exact absurd h List.not_mem_nil
  | some last =>
    obtain ⟨ref', key'⟩ := last
    obtain ⟨href, hkey, hjoin⟩ := mem_constrained h
    obtain ⟨href', hkey', hjoin'⟩ := mem_constrained (List.mem_of_getLast? hlast)
    show ref'.ownPrimaryKey = ref.ownPrimaryKey
    -- What is left of a join table are the owner's keys; without one all are on one side anyway.
    cases hsome : r.joinTable with
    | some join => rw [hjoin (by rw [hsome]; rfl), hjoin' (by rw [hsome]; rfl)]
    | none =>
      obtain ⟨isOwn, hown⟩ := hr.oneSided hsome
      rw [hown ref href (by rw [hkey]; rfl), hown ref' href' (by rw [hkey']; rfl)]

/-- The fields of a foreign key constraint are those of the references, each in the table that the
constraint gives. -/
theorem mem_uses_of_foreignKey {schemas : List NumberedSchema} (hr : r.Placed schemas) {ns : Naming}
    {inverse : List Relationship} {constraint : ForeignKey}
    (h : r.foreignKey? ns inverse = some constraint) :
    (∀ f ∈ constraint.foreignKeys, ∃ use ∈ r.uses, use.1.table = constraint.table ∧ use.2.field = f)
      ∧ ∀ f ∈ constraint.references, ∃ use ∈ r.uses,
        use.1.table = constraint.referenceTable ∧ use.2.field = f := by
  let fromRelated := (r.constrained.getLast?).any fun (ref, _) => ref.ownPrimaryKey
  have hfields : constraint.foreignKeys = r.constrained.map (·.1.foreignKey.field)
      ∧ constraint.references = r.constrained.map (·.2.field)
      ∧ constraint.table = (if fromRelated then r.targetTable else r.owner.table)
      ∧ constraint.referenceTable = (if fromRelated then r.owner.table else r.related.table) := by
    unfold foreignKey? at h
    dsimp only at h
    split at h
    · cases h
    · cases h
      exact ⟨rfl, rfl, rfl, rfl⟩
  obtain ⟨hforeign, hreferences, htable, hreferenceTable⟩ := hfields
  rw [hforeign, hreferences, htable, hreferenceTable, List.forall_mem_map, List.forall_mem_map]
  constructor
  · rintro ⟨ref, key⟩ hpair
    obtain ⟨href, hkey, hjoin⟩ := mem_constrained hpair
    refine ⟨_, foreign_mem_uses href, ?_, rfl⟩
    show (r.holder ref).table = if fromRelated then _ else _
    rw [show fromRelated = ref.ownPrimaryKey from last_constrained hr hpair]
    cases hown : ref.ownPrimaryKey with
    | true => exact (targetTable_eq (by rw [hown]; simp)).symm
    | false =>
      -- With a join table only the owner's keys are left, so here there is none.
      have hnone : r.joinTable = none := by
        rw [← Option.not_isSome_iff_eq_none]
        intro hsome
        rw [hjoin hsome] at hown
        cases hown
      rw [holder, hnone, hown, hkey, (hr.key ref href key hkey).1]
      rfl
  · rintro ⟨ref, key⟩ hpair
    obtain ⟨href, hkey, -⟩ := mem_constrained hpair
    refine ⟨_, key_mem_uses href hkey, ?_, rfl⟩
    show (r.keyOwner ref).table = if fromRelated then _ else _
    rw [show fromRelated = ref.ownPrimaryKey from last_constrained hr hpair, keyOwner]
    cases ref.ownPrimaryKey <;> rfl

end Relationship

/-! ## Whether the tables have the columns -/

namespace SchemaCache

variable {c : SchemaCache} {s : NumberedSchema}

/-- Looking the column up in the schema finds a field with that column. -/
def Holds (c : SchemaCache) (ref : SchemaRef) (column : String) : Prop :=
  ∃ e f, c.get? ref.number = some e ∧ e.schema.name = ref.name ∧ e.schema.table = ref.table
    ∧ e.schema.fieldByDbName column = some f ∧ f.dbName = column

theorem holds_ref (hs : c.HasSchema s) (hconsistent : s.schema.toLayout.Consistent)
    (column : String) :
    c.Holds s.ref column ↔ column ≠ "" ∧ ∃ f ∈ s.schema.fields, f.dbName = column := by
  rw [← hconsistent.fieldByDbName_eq_some]
  obtain ⟨e, he, hschema⟩ := Option.map_eq_some_iff.mp hs
  constructor
  · rintro ⟨e', f, he', -, -, hf, hcolumn⟩
    obtain rfl : e = e' := Option.some.inj (he.symm.trans he')
    exact ⟨f, hschema ▸ hf, hcolumn⟩
  · rintro ⟨f, hf, hcolumn⟩
    exact ⟨e, f, he, by rw [hschema]; rfl, by rw [hschema]; rfl, hschema ▸ hf, hcolumn⟩

theorem Traced.consistent (hc : c.Traced) (hs : c.HasSchema s) :
    s.schema.toLayout.Consistent := by
  obtain ⟨e, he, hschema⟩ := Option.map_eq_some_iff.mp hs
  rw [← hschema]
  cases hc _ _ he with
  | read hparse => exact (Schema.parse_ok hparse).1
  | join _ _ hjoin =>
    obtain ⟨-, -, -, -, _, -, -, -, -, -, -, -, hlayout, -⟩ := Pairing.joinTable_ok hjoin
    exact Layout.consistent_of_assemble hlayout

/-- A schema that embeds a record was read for a record type, which embeds it by some field. -/
theorem Traced.exists_container (hc : c.Traced) (hs : c.HasSchema s) {index : Nat} {side : Side}
    (hside : s.embeddedSide? index = some side) :
    ∃ model table container, Schema.parse c.catalog c.naming model table = .ok s.schema
      ∧ (c.catalog.describe model).containers[index]? = some container
      ∧ ∀ f ∈ side.layout.fields, f.dbName ≠ "" →
        ∃ f' ∈ s.schema.fields, f'.dbName = container.columnStart ++ f.dbName := by
  obtain ⟨e, he, hschema⟩ := Option.map_eq_some_iff.mp hs
  obtain ⟨layout, hlayout, rfl⟩ := Option.map_eq_some_iff.mp hside
  rw [← hschema] at hlayout ⊢
  cases hc _ _ he with
  | @read model table _ _ hparse =>
    obtain ⟨-, container, hcontainer, hfields⟩ := (Schema.parse_ok hparse).2 _ _ hlayout
    refine ⟨model, table, container, hparse, hcontainer, fun f hf hne => ?_⟩
    obtain ⟨f', hf', -, -, hcolumn⟩ := hfields f hf hne
    exact ⟨f', hf', hcolumn⟩
  | join _ _ hjoin =>
    obtain ⟨_, _, _, _, _, _, _, -, -, -, -, -, -, hembedded, -⟩ := Pairing.joinTable_ok hjoin
    rw [hembedded] at hlayout
    cases hlayout

/-- The table of a schema has the column of each of its own fields that is stored. -/
theorem Traced.holds_own (hc : c.Traced) (hs : c.HasSchema s) {k : KeyField} (hk : s.Owns k)
    (hhome : k.home.embedded = none) :
    c.Holds s.ref k.field.dbName ↔ k.field.dbName ≠ "" := by
  rw [holds_ref hs (hc.consistent hs)]
  refine and_iff_left_of_imp fun _ => ?_
  obtain ⟨-, hfield⟩ | ⟨index, side, hside, hsideHome, -⟩ := hk
  · exact ⟨k.field, List.mem_of_getElem? hfield, rfl⟩
  · obtain ⟨layout, -, rfl⟩ := Option.map_eq_some_iff.mp hside
    rw [hsideHome] at hhome
    cases hhome

/-- It has that of a field of an embedded record under the name that the embedding field begins. -/
theorem Traced.holds_embedded (hc : c.Traced) (hs : c.HasSchema s) {k : KeyField} (hk : s.Owns k)
    {index : Nat} (hhome : k.home.embedded = some index) :
    ∃ model table container, Schema.parse c.catalog c.naming model table = .ok s.schema
      ∧ (c.catalog.describe model).containers[index]? = some container
      ∧ (k.field.dbName ≠ "" → c.Holds s.ref (container.columnStart ++ k.field.dbName))
      ∧ (c.Holds s.ref k.field.dbName ↔ k.field.dbName ≠ ""
        ∧ (container.columnStart = "" ∨ ∃ f ∈ s.schema.fields, f.dbName = k.field.dbName)) := by
  obtain ⟨hsideHome, -⟩ | ⟨index', side, hside, hsideHome, hfield⟩ := hk
  · rw [hsideHome] at hhome
    cases hhome
  · obtain rfl : index' = index := by
      obtain ⟨layout, -, rfl⟩ := Option.map_eq_some_iff.mp hside
      rw [hsideHome] at hhome
      exact Option.some.inj hhome
    obtain ⟨model, table, container, hparse, hcontainer, hfields⟩ := hc.exists_container hs hside
    have hadopted := hfields k.field (List.mem_of_getElem? hfield)
    refine ⟨model, table, container, hparse, hcontainer, fun hne => ?_, ?_⟩
    · refine (holds_ref hs (hc.consistent hs) _).mpr ⟨fun hempty => ?_, hadopted hne⟩
      exact hne (String.append_eq_empty_iff.mp hempty).2
    · rw [holds_ref hs (hc.consistent hs)]
      refine and_congr_right fun hne => (or_iff_right_of_imp fun hstart => ?_).symm
      obtain ⟨f, hf, hcolumn⟩ := hadopted hne
      rw [hstart, String.empty_append] at hcolumn
      exact ⟨f, hf, hcolumn⟩

/-- The relationships of a schema are between schemas of the cache. -/
theorem Traced.placed (hc : c.Traced) {n : Nat} {schema : Schema} {rs : List Relationship}
    (hn : c.get? n = some ⟨schema, .resolved rs⟩) {r : Relationship} (hr : r ∈ rs) :
    ∃ schemas, r.Placed schemas ∧ ∀ s ∈ schemas, c.HasSchema s := by
  have hself : c.HasSchema ⟨n, schema⟩ := by rw [HasSchema, hn]; rfl
  cases hc n _ hn with
  | read _ hmakes =>
    obtain ⟨related, field, position, next, join, hrelated, hrelationship, hjoin⟩ :=
      hmakes rs rfl r hr
    refine ⟨_, Pairing.relationship_placed hrelationship, fun s hs => ?_⟩
    obtain rfl | hs := List.mem_cons.mp hs
    · exact hself
    · obtain rfl | hs := List.mem_cons.mp hs
      · exact hrelated
      · obtain ⟨table, htable, rfl⟩ := List.mem_map.mp hs
        rw [HasSchema, hjoin table (Option.mem_toList.mp htable)]
        rfl
  | join howner hrelated hjoin =>
    refine ⟨_, Pairing.links_placed hjoin hr, fun s hs => ?_⟩
    obtain rfl | hs := List.mem_cons.mp hs
    · exact howner
    · obtain rfl | hs := List.mem_cons.mp hs
      · exact hrelated
      · obtain rfl := List.mem_singleton.mp hs
        exact hself

/-- After any calls, for every relationship of a schema that was read, and of a join table: the
conditions of a join and those on related rows name only fields of its references, each in the table
of one of the schemas, and so do foreign key constraints. The table has the column of such a field
exactly if the field is stored, unless the field is one of a record that is embedded under another
name: that has its column under the name with its beginning. -/
theorem columns_of_relationships (catalog : Catalog) (naming : Naming) (calls : List ParseCall)
    {n : Nat} {schema : Schema} {rs : List Relationship} {r : Relationship}
    (hn : ((empty catalog naming).parseAll calls).get? n = some ⟨schema, .resolved rs⟩)
    (hr : r ∈ rs) :
    let c := (empty catalog naming).parseAll calls
    (∀ rows, ∀ column ∈ (r.joinOn ++ r.queryConditions rows).flatMap Expression.namedColumns,
      ∃ use ∈ r.uses, column = Relationship.written use)
    ∧ (∀ constraint, c.foreignKey? r = some constraint →
      (∀ f ∈ constraint.foreignKeys, ∃ use ∈ r.uses,
        use.1.table = constraint.table ∧ use.2.field = f)
      ∧ ∀ f ∈ constraint.references, ∃ use ∈ r.uses,
        use.1.table = constraint.referenceTable ∧ use.2.field = f)
    ∧ ∀ use ∈ r.uses,
      (use.2.home.embedded = none →
        (c.Holds use.1 use.2.field.dbName ↔ use.2.field.dbName ≠ ""))
      ∧ ∀ index, use.2.home.embedded = some index →
        ∃ model table owner container, Schema.parse catalog naming model table = .ok owner
          ∧ (c.get? use.1.number).map (·.schema) = some owner
          ∧ (catalog.describe model).containers[index]? = some container
          ∧ (use.2.field.dbName ≠ "" →
            c.Holds use.1 (container.columnStart ++ use.2.field.dbName))
          ∧ (c.Holds use.1 use.2.field.dbName ↔ use.2.field.dbName ≠ ""
            ∧ (container.columnStart = "" ∨ ∃ f ∈ owner.fields, f.dbName = use.2.field.dbName)) := by
  intro c
  have hc : c.Traced := (traced_empty catalog naming).parseAll calls
  have hgrows := parseAll_grows (empty catalog naming) calls
  obtain ⟨schemas, hplaced, hschemas⟩ := hc.placed hn hr
  refine ⟨fun rows column hcolumn => Relationship.mem_uses_of_condition hcolumn, ?_, ?_⟩
  · intro constraint hconstraint
    obtain ⟨e, -, hconstraint⟩ := Option.bind_eq_some_iff.mp hconstraint
    exact Relationship.mem_uses_of_foreignKey hplaced hconstraint
  · intro use huse
    obtain ⟨s, hs, href, howns⟩ := hplaced.owns huse
    have hs := hschemas s hs
    rw [href]
    refine ⟨hc.holds_own hs howns, fun index hhome => ?_⟩
    obtain ⟨model, table, container, hparse, hcontainer, hholds⟩ := hc.holds_embedded hs howns hhome
    have hcatalog : c.catalog = catalog := hgrows.catalog
    have hnaming : c.naming = naming := hgrows.naming
    rw [hcatalog, hnaming] at hparse
    rw [hcatalog] at hcontainer
    exact ⟨model, table, s.schema, container, hparse, hs, hcontainer, hholds⟩

/-! ## Staff -/

/-- Employees embed their job, whose columns begin with its name. A job is with a company, which its
field calls by another name. -/
def staff : Catalog :=
  ⟨[ ( "Employee",
      { name := "Employee"
        fields :=
          [ { name := "ID", kind := .uint 64 }
          , { name := "Job", kind := .record ⟨"Job", "Job"⟩
              tag := "embedded;embeddedPrefix:job_" } ] } )
    , ( "Job",
      { name := "Job"
        fields :=
          [ { name := "CompanyID", kind := .uint 64 }
          , { name := "Org", kind := .record ⟨"Company", "Company"⟩ } ] } )
    , ("Company", { name := "Company", fields := [{ name := "ID", kind := .uint 64 }] }) ]⟩

/-- The call for employees. -/
def employeeCall : ParseCall := ⟨⟨"Employee", "Employee"⟩, none⟩

theorem staff_relationship :
    let c := (empty staff plainNames).parseAll [employeeCall]
    (∃ schema org, c.get? 0 = some ⟨schema, .resolved [org]⟩
      ∧ ∃ company key, org.uses = [company, key] ∧ company.2.home.embedded = some 0
        ∧ key.2.home.embedded = none ∧ company.1.number = 0 ∧ company.2.field.dbName = "CompanyID"
        ∧ key.2.field.dbName = "ID")
      ∧ ((c.get? 0).bind fun e => e.schema.fieldByDbName "CompanyID").isNone = true := by
  intro c
  constructor
  · have h : (c.get? 0).map (fun e => e.relationships.map fun org => org.uses.map fun use =>
        (use.2.home.embedded, use.1.number, use.2.field.dbName))
      = some [[(some 0, 0, "CompanyID"), (none, 1, "ID")]] := by decide +kernel
    obtain ⟨e, he, h⟩ := Option.map_eq_some_iff.mp h
    obtain ⟨org, hrelationships, h⟩ := List.map_eq_singleton_iff.mp h
    obtain ⟨company, uses, huses, hcompany, h⟩ := List.map_eq_cons_iff.mp h
    obtain ⟨key, rfl, hkey⟩ := List.map_eq_singleton_iff.mp h
    simp only [Prod.mk.injEq] at hcompany hkey
    exact ⟨e.schema, org, he.trans (congrArg some (eq_resolved hrelationships)), company, key, huses,
      hcompany.1, hkey.1, hcompany.2.1, hcompany.2.2, hkey.2.2⟩
  · decide +kernel

/-- The key of the company is a column of companies, but employees have no column for the key that
their job holds: theirs has another name. -/
theorem columns_of_relationships_staff :
    let c := (empty staff plainNames).parseAll [employeeCall]
    ∃ schema org company key, c.get? 0 = some ⟨schema, .resolved [org]⟩
      ∧ org.uses = [company, key]
      ∧ c.Holds key.1 key.2.field.dbName ∧ ¬c.Holds company.1 company.2.field.dbName
      ∧ ∃ start, start ≠ "" ∧ c.Holds company.1 (start ++ company.2.field.dbName) := by
  intro c
  obtain ⟨⟨schema, org, he, company, key, huses, hcompany, hkey, hnumber, hcolumn, hid⟩, hnone⟩ :=
    staff_relationship
  obtain ⟨-, -, hholds⟩ := columns_of_relationships staff plainNames [employeeCall] he
    (List.mem_singleton_self org)
  have hmissing : ¬c.Holds company.1 company.2.field.dbName := by
    rintro ⟨e, f, he', -, -, hf, -⟩
    rw [hnumber] at he'
    rw [he', Option.bind_some, ← hcolumn, hf] at hnone
    cases hnone
  have hkeyHolds := (hholds key (by rw [huses]; simp)).1 hkey
  obtain ⟨_, _, _, container, -, -, -, hstart, hiff⟩ :=
    (hholds company (by rw [huses]; simp)).2 0 hcompany
  have hne : company.2.field.dbName ≠ "" := by rw [hcolumn]; decide
  refine ⟨schema, org, company, key, he, huses, hkeyHolds.mpr (by rw [hid]; decide), hmissing,
    container.columnStart, fun hempty => ?_, hstart hne⟩
  exact hmissing (hiff.mpr ⟨hne, .inl hempty⟩)

end SchemaCache

end RecordSql
