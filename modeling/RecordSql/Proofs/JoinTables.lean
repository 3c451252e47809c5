/-
  RecordSql.Proofs.JoinTables

  The two sides of a join table.  Each key of either side is given a name, by
  the tag or by a rule, and the fields of the table are copies of the keys, one
  for each name (`joinFields_eq`), with the column of the name whatever column
  the key has.  A name that is given twice is one field for both keys, so the
  sides are kept apart exactly if the names are different and make different
  columns, and every copy is stored and can be read or written
  (`Relationship.JoinedBy.keepsApart_iff`).
-/

import RecordSql.Proofs.DeclaredFields
import RecordSql.Proofs.KeyFields
import RecordSql.Proofs.Cache.Origins
import RecordSql.Proofs.RemovedSettings
import Mathlib.Data.List.Nodup

namespace RecordSql

/-! ## The fields of a join table -/

/-- A copy has its own name, and no column yet, whatever column the key has. -/
theorem JoinField.declared_column {model : String} {j : JoinField} {f : Field}
    (h : j.declared model = .ok f) : (f.name, f.dbName) = (j.name, "") := by
  rw [declared] at h
  obtain ⟨⟨copy, inner⟩, hparse, h⟩ := exists_ok_of_bind h
  cases h
  have hdropped : "column" ∈ droppedSettings := by decide
  have hheading := Field.parse_heading hparse
  dsimp only at hheading
  rw [Tag.Settings.value?, Tag.get?_remove_column _ hdropped] at hheading
  exact congrArg (fun heading => (heading.name, heading.column)) hheading

namespace Pairing

variable {p : Pairing} {own related : List JoinField}

/-- The fields are the owner's, and those of the related schema whose name is still free. -/
theorem joinFields_eq (own related : List JoinField) :
    ∃ fresh, joinFields own related = own ++ fresh ∧ fresh.Sublist related
      ∧ (fresh.map (·.name)).Nodup ∧ (∀ j ∈ fresh, j.name ∉ own.map (·.name))
      ∧ ∀ j ∈ related, j.name ∈ (own ++ fresh).map (·.name) := by
  rw [joinFields]
  induction related generalizing own with
  | nil =>
    exact ⟨[], (List.append_nil own).symm, .slnil, List.nodup_nil, List.forall_mem_nil _,
      List.forall_mem_nil _⟩
  | cons j related ih =>
    rw [List.foldl_cons]
    split
    · next htaken =>
      obtain ⟨fresh, heq, hsublist, hnodup, hfree, hall⟩ := ih own
      refine ⟨fresh, heq, .cons j hsublist, hnodup, hfree, List.forall_mem_cons.mpr ⟨?_, hall⟩⟩
      obtain ⟨j', hj', hname⟩ := List.any_eq_true.mp htaken
      rw [List.map_append]
      exact List.mem_append_left _ (List.mem_map.mpr ⟨j', hj', by simpa using hname⟩)
    · next hfreeName =>
      -- The field is added, so whatever comes later has another name than it and the owner's.
      obtain ⟨fresh, heq, hsublist, hnodup, hfree, hall⟩ := ih (own ++ [j])
      have hown : j.name ∉ own.map (·.name) := by
        intro hmem
        obtain ⟨j', hj', hname⟩ := List.mem_map.mp hmem
        exact hfreeName (List.any_eq_true.mpr ⟨j', hj', by simpa using hname⟩)
      have hlater : ∀ j' ∈ fresh, j'.name ∉ own.map (·.name) ∧ j'.name ≠ j.name := by
        intro j' hj'
        have hnot := hfree j' hj'
        rw [List.map_append, List.mem_append, not_or] at hnot
        exact ⟨hnot.1, fun hname => hnot.2 (List.mem_singleton.mpr hname)⟩
      rw [List.append_assoc] at heq hall
      refine ⟨j :: fresh, heq, .cons_cons j hsublist, ?_, ?_, ?_⟩
      · rw [List.map_cons, List.nodup_cons]
        refine ⟨fun hmem => ?_, hnodup⟩
        obtain ⟨j', hj', hname⟩ := List.mem_map.mp hmem
        exact (hlater j' hj').2 hname
      · exact List.forall_mem_cons.mpr ⟨hown, fun j' hj' => (hlater j' hj').1⟩
      · refine List.forall_mem_cons.mpr ⟨?_, hall⟩
        exact List.mem_map.mpr ⟨j, by simp, rfl⟩

/-- If all names are different then no key is left without a field. -/
theorem joinFields_of_nodup (h : ((own ++ related).map (·.name)).Nodup) :
    joinFields own related = own ++ related := by
  rw [List.map_append, List.nodup_append] at h
  obtain ⟨-, hnodup, hdisjoint⟩ := h
  obtain ⟨fresh, heq, hsublist, -, -, hall⟩ := joinFields_eq own related
  have hsubset : related.map (·.name) ⊆ fresh.map (·.name) := by
    intro name hname
    obtain ⟨j, hj, rfl⟩ := List.mem_map.mp hname
    have hmem := hall j hj
    rw [List.map_append] at hmem
    exact (List.mem_append.mp hmem).resolve_left fun hown => hdisjoint _ hown _ hname rfl
  have hle : related.length ≤ fresh.length := by
    simpa using (List.subperm_of_subset hnodup hsubset).length_le
  rw [heq, hsublist.eq_of_length_le hle]

/-! ## Which keys the copies are paired with -/

theorem sourceOf_eq_none {fields : List JoinField} {name : String}
    (h : name ∉ fields.map (·.name)) : sourceOf fields name = none := by
  rw [sourceOf, Option.map_eq_none_iff, List.find?_eq_none]
  intro j hj hname
  exact h (List.mem_map.mpr ⟨j, hj, by simpa using hname⟩)

theorem exists_sourceOf {fields : List JoinField} {name : String}
    (h : name ∈ fields.map (·.name)) : ∃ source, sourceOf fields name = some source := by
  obtain ⟨j, hj, rfl⟩ := List.mem_map.mp h
  refine Option.isSome_iff_exists.mp ?_
  rw [sourceOf, Option.isSome_map, List.find?_isSome]
  exact ⟨j, hj, beq_self_eq_true _⟩

theorem sourceOf_of_mem {fields : List JoinField} (hnodup : (fields.map (·.name)).Nodup)
    {j : JoinField} (hj : j ∈ fields) : sourceOf fields j.name = some j.source := by
  obtain ⟨source, hsource⟩ := exists_sourceOf (List.mem_map_of_mem (f := (·.name)) hj)
  obtain ⟨j', hj', hname, rfl⟩ := exists_of_sourceOf hsource
  rw [hsource, List.inj_on_of_nodup_map hnodup hj' hj hname]

/-- The keys of one side that are named, in the order of the names. -/
def sourcesOf (fields : List JoinField) (names : List String) : List KeyField :=
  names.flatMap fun name => (sourceOf fields name).toList

theorem sourcesOf_self {fields : List JoinField} (hnodup : (fields.map (·.name)).Nodup) :
    sourcesOf fields (fields.map (·.name)) = fields.map (·.source) := by
  have hall : ∀ some' ⊆ fields, sourcesOf fields (some'.map (·.name)) = some'.map (·.source) := by
    intro some' hsome
    induction some' with
    | nil => rfl
    | cons j rest ih =>
      rw [List.map_cons, sourcesOf, List.flatMap_cons, sourceOf_of_mem hnodup (hsome (by simp))]
      exact congrArg (j.source :: ·) (ih fun j' hj' => hsome (List.mem_cons_of_mem j hj'))
  exact hall fields fun _ h => h

theorem sourcesOf_eq_nil {fields : List JoinField} {names : List String}
    (h : ∀ name ∈ names, name ∉ fields.map (·.name)) : sourcesOf fields names = [] := by
  rw [sourcesOf, List.flatMap_eq_nil_iff]
  intro name hname
  rw [sourceOf_eq_none (h name hname)]
  rfl

theorem sourcesOf_append (fields : List JoinField) (names more : List String) :
    sourcesOf fields (names ++ more) = sourcesOf fields names ++ sourcesOf fields more :=
  List.flatMap_append

/-- The references of one side. -/
theorem filter_paired {keys : List KeyField} (isOwn : Bool) :
    (keys.flatMap fun key => paired own true key ++ paired related false key).filter
        (fun ref => ref.ownPrimaryKey == isOwn)
      = keys.flatMap (paired (if isOwn then own else related) isOwn) := by
  have hside : ∀ fields side key, (paired fields side key).filter (·.ownPrimaryKey == isOwn)
      = if side = isOwn then paired fields side key else [] := by
    intro fields side key
    -- All references of a side have its flag, so the filter takes or leaves the whole side.
    have hflag : ∀ ref ∈ paired fields side key, ref.ownPrimaryKey = side := by
      intro ref href
      obtain ⟨source, -, rfl⟩ := List.mem_map.mp href
      rfl
    split
    · next heq =>
      refine List.filter_eq_self.mpr fun ref href => ?_
      rw [hflag ref href, heq, beq_self_eq_true]
    · next hne =>
      refine List.filter_eq_nil_iff.mpr fun ref href => ?_
      rw [hflag ref href, beq_iff_eq]
      exact hne
  rw [List.filter_flatMap]
  refine congrArg (List.flatMap · keys) (funext fun key => ?_)
  rw [List.filter_append, hside, hside]
  cases isOwn with
  | true => exact List.append_nil _
  | false => rfl

theorem foreignKey_of_paired {fields : List JoinField} {isOwn : Bool} {copy : KeyField}
    {ref : Reference} (h : ref ∈ paired fields isOwn copy) : ref.foreignKey = copy := by
  obtain ⟨source, -, rfl⟩ := List.mem_map.mp h
  rfl

theorem map_primaryKey_paired {fields : List JoinField} {keys : List KeyField} (isOwn : Bool) :
    (keys.flatMap (paired fields isOwn)).map (·.primaryKey)
      = (sourcesOf fields (keys.map (·.field.name))).map some := by
  rw [sourcesOf, List.map_flatMap, List.map_flatMap, List.flatMap_map]
  refine congrArg (List.flatMap · keys) (funext fun key => ?_)
  rw [paired, List.map_map]
  rfl

end Pairing

/-! ## The references of a join table -/

/-- All fields of a schema, in order. -/
def NumberedSchema.keys (s : NumberedSchema) : List KeyField :=
  (List.range s.schema.fields.length).filterMap s.side.key?

theorem NumberedSchema.map_field_keys (s : NumberedSchema) :
    s.keys.map (·.field) = s.schema.fields := by
  have hkey (position : Nat) : (s.side.key? position).map (·.field) = s.schema.fields[position]? := by
    rw [Side.key?, Option.map_map]
    exact Option.map_id_apply
  have htake : ∀ count ≤ s.schema.fields.length,
      (List.range count).filterMap (s.schema.fields[·]?) = s.schema.fields.take count := by
    intro count hle
    induction count with
    | zero => rfl
    | succ count ih =>
      have hlt : count < s.schema.fields.length := hle
      rw [List.range_succ, List.filterMap_append, ih (Nat.le_of_lt hlt), List.take_add_one]
      simp [hlt]
  rw [keys, List.map_filterMap, funext hkey, htake _ (Nat.le_refl _), List.take_length]

namespace Relationship

variable {r : Relationship} {join : NumberedSchema} {own related : List JoinField}

/-- The fields of the join table are named as the keys are and have the column of the name, and the
references pair each field that can be read or written with the keys that it is named for. -/
structure JoinedBy (r : Relationship) (join : NumberedSchema) (own related : List JoinField) :
    Prop where
  names : join.schema.fields.map (·.name) = (Pairing.joinFields own related).map (·.name)
  stored : ∀ f ∈ join.schema.fields,
    f.dbName = if f.dataType.isSome then join.schema.naming.columnName f.name else ""
  references : r.references = (Pairing.copies join).flatMap fun copy =>
    Pairing.paired own true copy ++ Pairing.paired related false copy
  columns : join.schema.toLayout.Consistent

/-- The join table has one field and one column for each reference, and the references list the
owner's keys and the related ones, each with a field of its own. -/
structure KeepsApart (r : Relationship) (join : NumberedSchema) (ownKeys relatedKeys : List KeyField) :
    Prop where
  /-- Every field is that of exactly one reference. -/
  fields : r.references.map (·.foreignKey) = join.keys
  names : (r.references.map (·.foreignKey.field.name)).Nodup
  /-- So is every column. -/
  columns : (r.references.map (·.foreignKey.field.dbName)).Perm join.schema.dbNames
  differ : (r.references.map (·.foreignKey.field.dbName)).Nodup
  /-- The references of a side are those for its keys. -/
  keys (isOwn : Bool) : (r.references.filter (·.ownPrimaryKey == isOwn)).map (·.primaryKey)
    = (if isOwn then ownKeys else relatedKeys).map some

theorem map_foreignKey_paired (fields : List JoinField) (isOwn : Bool) (copy : KeyField) :
    (Pairing.paired fields isOwn copy).map (·.foreignKey)
      = if copy.field.name ∈ fields.map (·.name) then [copy] else [] := by
  split
  · next hnamed =>
    obtain ⟨source, hsource⟩ := Pairing.exists_sourceOf hnamed
    rw [Pairing.paired, hsource]
    rfl
  · next hnamed =>
    rw [Pairing.paired, Pairing.sourceOf_eq_none hnamed]
    rfl

/-- The fields that a side is joined by are those that are named for a key of it. -/
theorem JoinedBy.foreignKeys (h : r.JoinedBy join own related) (isOwn : Bool) :
    (r.references.filter (·.ownPrimaryKey == isOwn)).map (·.foreignKey)
      = (Pairing.copies join).filter
        fun copy => copy.field.name ∈ (if isOwn then own else related).map (·.name) := by
  rw [h.references, Pairing.filter_paired]
  generalize (if isOwn then own else related) = fields
  induction Pairing.copies join with
  | nil => rfl
  | cons copy copies ih =>
    rw [List.flatMap_cons, List.map_append, ih, List.filter_cons, map_foreignKey_paired]
    by_cases hnamed : copy.field.name ∈ fields.map (·.name)
    · rw [if_pos hnamed, if_pos (decide_eq_true hnamed)]
      rfl
    · rw [if_neg hnamed, if_neg (by simpa using hnamed)]
      rfl

theorem JoinedBy.map_name_keys (h : r.JoinedBy join own related) :
    join.keys.map (·.field.name) = (Pairing.joinFields own related).map (·.name) := by
  rw [← h.names, ← join.map_field_keys, List.map_map]
  rfl

/-- If all names are different and every field can be read or written, each field is paired with
one key. -/
theorem JoinedBy.map_foreignKey (h : r.JoinedBy join own related)
    (hnodup : ((own ++ related).map (·.name)).Nodup) (hcopies : Pairing.copies join = join.keys) :
    r.references.map (·.foreignKey) = join.keys := by
  have hnames : join.keys.map (·.field.name) = (own ++ related).map (·.name) := by
    rw [h.map_name_keys, Pairing.joinFields_of_nodup hnodup]
  rw [List.map_append, List.nodup_append] at hnodup
  have hone : ∀ copy ∈ join.keys,
      (Pairing.paired own true copy ++ Pairing.paired related false copy).map (·.foreignKey)
        = [copy] := by
    intro copy hcopy
    have hnamed : copy.field.name ∈ own.map (·.name) ++ related.map (·.name) := by
      rw [← List.map_append, ← hnames]
      exact List.mem_map_of_mem (f := (·.field.name)) hcopy
    rw [List.map_append, map_foreignKey_paired, map_foreignKey_paired]
    obtain hown | hrelated := List.mem_append.mp hnamed
    · rw [if_pos hown, if_neg fun hrelated => hnodup.2.2 _ hown _ hrelated rfl, List.append_nil]
    · rw [if_neg fun hown => hnodup.2.2 _ hown _ hrelated rfl, if_pos hrelated, List.nil_append]
  rw [h.references, hcopies, List.map_flatMap, List.flatMap_congr hone]
  exact List.flatMap_singleton' _

/-- So the references of a side are those for its keys. -/
theorem JoinedBy.map_primaryKey (h : r.JoinedBy join own related)
    (hnodup : ((own ++ related).map (·.name)).Nodup) (hcopies : Pairing.copies join = join.keys)
    (isOwn : Bool) :
    (r.references.filter (·.ownPrimaryKey == isOwn)).map (·.primaryKey)
      = (if isOwn then own else related).map (some ·.source) := by
  have hnames : join.keys.map (·.field.name) = own.map (·.name) ++ related.map (·.name) := by
    rw [h.map_name_keys, Pairing.joinFields_of_nodup hnodup, List.map_append]
  rw [List.map_append, List.nodup_append] at hnodup
  obtain ⟨hown, hrelated, hdisjoint⟩ := hnodup
  rw [h.references, Pairing.filter_paired, hcopies, Pairing.map_primaryKey_paired, hnames,
    Pairing.sourcesOf_append]
  cases isOwn with
  | true =>
    rw [if_pos rfl, Pairing.sourcesOf_self hown, Pairing.sourcesOf_eq_nil
      fun name hname hmem => hdisjoint _ hmem _ hname rfl, List.append_nil, List.map_map]
    rfl
  | false =>
    rw [if_neg Bool.false_ne_true, Pairing.sourcesOf_self hrelated, Pairing.sourcesOf_eq_nil
      fun name hname hmem => hdisjoint _ hname _ hmem rfl, List.nil_append, List.map_map]
    rfl

/-- What the fields of the references are like if each field is that of one reference. -/
theorem map_foreignKey_field {α : Type} {g : Field → α}
    (h : r.references.map (·.foreignKey) = join.keys) :
    r.references.map (fun ref => g ref.foreignKey.field) = join.schema.fields.map g := by
  rw [← join.map_field_keys, ← h, List.map_map, List.map_map]
  rfl

/-- Sides that are kept apart call no two keys the same. -/
theorem KeepsApart.nodup_names (hapart : r.KeepsApart join (own.map (·.source))
      (related.map (·.source)))
    (h : r.JoinedBy join own related) : ((own ++ related).map (·.name)).Nodup := by
  obtain ⟨fresh, heq, hsublist, -⟩ := Pairing.joinFields_eq own related
  have hnames : r.references.map (·.foreignKey.field.name) = (own ++ fresh).map (·.name) := by
    rw [map_foreignKey_field (g := (·.name)) hapart.fields, h.names, heq]
  -- There are as many references as keys, so no related key is left without a field.
  have hfresh : fresh.length = related.length := by
    have hown := congrArg List.length (hapart.keys true)
    have hrelated := congrArg List.length (hapart.keys false)
    have hboth := List.length_eq_length_filter_add (l := r.references) (·.ownPrimaryKey)
    have hlength := congrArg List.length hnames
    simp only [List.length_map, List.length_append, beq_true, beq_false, if_true,
      Bool.false_eq_true, if_false] at hown hrelated hlength
    omega
  rw [← hsublist.eq_of_length hfresh, ← hnames]
  exact hapart.names

/-- Their fields all have a column, and can be read or written. -/
theorem KeepsApart.stored (hapart : r.KeepsApart join (own.map (·.source)) (related.map (·.source)))
    (h : r.JoinedBy join own related) {f : Field} (hf : f ∈ join.schema.fields) :
    f.dbName ≠ "" ∧ f.hasPermission = true := by
  constructor
  · have hmem : f.dbName ∈ join.schema.dbNames := by
      rw [← hapart.columns.mem_iff, map_foreignKey_field (g := (·.dbName)) hapart.fields]
      exact List.mem_map_of_mem hf
    exact ((h.columns.mem_dbNames _).mp hmem).1
  · rw [← join.map_field_keys, ← hapart.fields, List.map_map] at hf
    obtain ⟨ref, href, rfl⟩ := List.mem_map.mp hf
    rw [h.references] at href
    obtain ⟨copy, hcopy, href⟩ := List.mem_flatMap.mp href
    have hforeign : ref.foreignKey = copy :=
      (List.mem_append.mp href).elim Pairing.foreignKey_of_paired Pairing.foreignKey_of_paired
    rw [Function.comp_apply, hforeign]
    exact (List.mem_filter.mp hcopy).2

/-- If all names and columns are different, and each field has a column and can be read or written,
the sides are kept apart. -/
theorem JoinedBy.keepsApart (h : r.JoinedBy join own related)
    (hnodup : ((own ++ related).map (·.name)).Nodup)
    (hcolumns : (join.schema.fields.map (·.dbName)).Nodup)
    (hstored : ∀ f ∈ join.schema.fields, f.dbName ≠ "" ∧ f.hasPermission = true) :
    r.KeepsApart join (own.map (·.source)) (related.map (·.source)) := by
  -- Only fields that can be read or written are paired, and here all of them are.
  have hcopies : Pairing.copies join = join.keys := by
    refine List.filter_eq_self.mpr fun copy hcopy => (hstored copy.field ?_).2
    rw [← join.map_field_keys]
    exact List.mem_map_of_mem hcopy
  have hfields := h.map_foreignKey hnodup hcopies
  constructor
  · exact hfields
  · rwa [map_foreignKey_field (g := (·.name)) hfields, h.names, Pairing.joinFields_of_nodup hnodup]
  · rw [map_foreignKey_field (g := (·.dbName)) hfields,
      List.perm_ext_iff_of_nodup hcolumns h.columns.nodup]
    intro column
    rw [h.columns.mem_dbNames, List.mem_map]
    refine (and_iff_right_of_imp ?_).symm
    rintro ⟨f, hf, rfl⟩
    exact (hstored f hf).1
  · rwa [map_foreignKey_field (g := (·.dbName)) hfields]
  · intro isOwn
    rw [h.map_primaryKey hnodup hcopies]
    cases isOwn <;> simp

/-- Where all names are different, the columns are those of the names. -/
theorem JoinedBy.columns_iff (h : r.JoinedBy join own related)
    (hnodup : ((own ++ related).map (·.name)).Nodup) :
    ((join.schema.fields.map (·.dbName)).Nodup
        ∧ ∀ f ∈ join.schema.fields, f.dbName ≠ "" ∧ f.hasPermission = true)
      ↔ ((own ++ related).map fun j => join.schema.naming.columnName j.name).Nodup
        ∧ ∀ f ∈ join.schema.fields, f.dataType.isSome = true
          ∧ join.schema.naming.columnName f.name ≠ "" ∧ f.hasPermission = true := by
  have hnames : join.schema.fields.map (join.schema.naming.columnName ·.name)
      = (own ++ related).map fun j => join.schema.naming.columnName j.name := by
    have hmap := congrArg (List.map join.schema.naming.columnName) h.names
    rwa [Pairing.joinFields_of_nodup hnodup, List.map_map, List.map_map] at hmap
  have hcolumns : (∀ f ∈ join.schema.fields, f.dataType.isSome = true) →
      join.schema.fields.map (·.dbName)
        = (own ++ related).map fun j => join.schema.naming.columnName j.name := by
    intro hstored
    rw [← hnames]
    exact List.map_congr_left fun f hf => by rw [h.stored f hf, if_pos (hstored f hf)]
  -- A column is empty for want of a type, or because the name makes none.
  have hfield : ∀ f ∈ join.schema.fields, f.dbName ≠ ""
      ↔ f.dataType.isSome = true ∧ join.schema.naming.columnName f.name ≠ "" := by
    intro f hf
    rw [h.stored f hf]
    by_cases hsome : f.dataType.isSome = true
    · rw [if_pos hsome, and_iff_right hsome]
    · rw [if_neg hsome]
      exact ⟨fun hne => absurd rfl hne, fun hboth => absurd hboth.1 hsome⟩
  constructor
  · rintro ⟨hdiffer, hall⟩
    have hstored : ∀ f ∈ join.schema.fields, f.dataType.isSome = true :=
      fun f hf => ((hfield f hf).mp (hall f hf).1).1
    refine ⟨hcolumns hstored ▸ hdiffer, fun f hf => ⟨hstored f hf, ?_, (hall f hf).2⟩⟩
    exact ((hfield f hf).mp (hall f hf).1).2
  · rintro ⟨hdiffer, hall⟩
    refine ⟨hcolumns (fun f hf => (hall f hf).1) ▸ hdiffer, fun f hf => ⟨?_, (hall f hf).2.2⟩⟩
    exact (hfield f hf).mpr ⟨(hall f hf).1, (hall f hf).2.1⟩

/-- The two sides are kept apart exactly if the keys have different names, the names make different
columns, and every field is stored and can be read or written. -/
theorem JoinedBy.keepsApart_iff (h : r.JoinedBy join own related) :
    r.KeepsApart join (own.map (·.source)) (related.map (·.source))
      ↔ ((own ++ related).map (·.name)).Nodup
        ∧ ((own ++ related).map fun j => join.schema.naming.columnName j.name).Nodup
        ∧ ∀ f ∈ join.schema.fields, f.dataType.isSome = true
          ∧ join.schema.naming.columnName f.name ≠ "" ∧ f.hasPermission = true := by
  constructor
  · intro hapart
    have hnodup := hapart.nodup_names h
    refine ⟨hnodup, (h.columns_iff hnodup).mp ⟨?_, fun f hf => hapart.stored h hf⟩⟩
    rw [← map_foreignKey_field (g := (·.dbName)) hapart.fields]
    exact hapart.differ
  · rintro ⟨hnodup, hcolumns⟩
    obtain ⟨hdiffer, hstored⟩ := (h.columns_iff hnodup).mpr hcolumns
    exact h.keepsApart hnodup hdiffer hstored

/-- Sides that call their keys the same are not kept apart. -/
theorem JoinedBy.not_keepsApart (h : r.JoinedBy join own related) (hne : own ≠ [])
    (hsame : related.map (·.name) = own.map (·.name)) :
    ¬r.KeepsApart join (own.map (·.source)) (related.map (·.source)) := by
  intro hapart
  have hnodup := hapart.nodup_names h
  rw [List.map_append, hsame, List.nodup_append] at hnodup
  obtain ⟨j, hj⟩ := List.exists_mem_of_ne_nil own hne
  have hname : j.name ∈ own.map (·.name) := List.mem_map_of_mem hj
  exact hnodup.2.2 _ hname _ hname rfl

end Relationship

/-! ## The names of the keys -/

namespace Pairing

variable {p : Pairing} {own : List JoinField} {keys : List KeyField} {j : JoinField}
  {position next : Nat} {r : Relationship}

/-- The names that the tag gives to the related keys, in their order. -/
def givenNames (p : Pairing) : List String :=
  listedColumns (p.field.settings.get? "JOINREFERENCES")

/-- What a related key is called unless the owner's side has taken the name. -/
def usualName (p : Pairing) (key : KeyField) : String :=
  upperFirst p.related.schema.name ++ key.field.name

/-- What it is called then. -/
def secondName (p : Pairing) (key : KeyField) : String :=
  if p.field.name == p.related.schema.name then p.usualName key ++ "Reference"
  else p.related.schema.naming.singular p.field.name ++ key.field.name

/-- What a related key is called whose name is not given. -/
theorem name_of_relatedJoinFields
    (hj : j ∈ (p.relatedJoinFields own keys).drop p.givenNames.length) :
    j.name = if p.usualName j.source ∈ own.map (·.name) then p.secondName j.source
      else p.usualName j.source := by
  rw [relatedJoinFields, ← List.map_drop] at hj
  obtain ⟨⟨key, position⟩, hkey, rfl⟩ := List.mem_map.mp hj
  obtain ⟨i, _, hposition⟩ := List.mem_drop_iff_getElem.mp hkey
  rw [List.getElem_zipIdx, Nat.zero_add] at hposition
  obtain ⟨-, rfl⟩ := Prod.mk.inj hposition
  -- The names in the tag go by position, and there are none left at this one.
  have hgiven : (listedColumns (p.field.settings.get? "JOINREFERENCES"))[
      p.givenNames.length + i]? = none :=
    List.getElem?_eq_none (Nat.le_add_right _ _)
  have htaken : own.any (·.name == p.usualName key) = true
      ↔ p.usualName key ∈ own.map (·.name) := by
    simp
  simp only [hgiven, Option.map_none, Option.getD_none]
  show (if (!own.any (·.name == p.usualName key)) = true then p.usualName key
    else p.secondName key) = _
  by_cases hmem : p.usualName key ∈ own.map (·.name)
  · rw [if_pos hmem, htaken.mpr hmem]
    rfl
  · rw [if_neg hmem, Bool.eq_false_iff.mpr fun hany => hmem (htaken.mp hany)]
    rfl

/-- A related key whose name is not given has a name of the owner's side exactly if both of its names
are taken. -/
theorem names_taken_iff (hj : j ∈ (p.relatedJoinFields own keys).drop p.givenNames.length) :
    j.name ∈ own.map (·.name)
      ↔ p.usualName j.source ∈ own.map (·.name) ∧ p.secondName j.source ∈ own.map (·.name) := by
  rw [name_of_relatedJoinFields hj]
  by_cases husual : p.usualName j.source ∈ own.map (·.name)
  · rw [if_pos husual, and_iff_right husual]
  · rw [if_neg husual]
    exact ⟨fun htaken => absurd htaken husual, fun htaken => htaken.1⟩

/-- If a record type is linked to itself by a field with the plural of its own name, and the tag gives
no names, every related key is called like the owner's key: its second name is its usual name again. -/
theorem names_of_plural_self_reference (hself : p.owner.schema.name = p.related.schema.name)
    (hfield : p.field.name ≠ p.related.schema.name)
    (hsingular : p.related.schema.naming.singular p.field.name = upperFirst p.related.schema.name)
    (hown : listedColumns (p.field.settings.get? "JOINFOREIGNKEY") = [])
    (hgiven : p.givenNames = []) :
    (p.relatedJoinFields (p.ownJoinFields keys) keys).map (·.name)
      = (p.ownJoinFields keys).map (·.name) := by
  have hownNames : (p.ownJoinFields keys).map (·.name) = keys.map p.usualName := by
    rw [ownJoinFields, hown, hself, List.map_map]
    exact (List.map_map (g := p.usualName) (f := Prod.fst)).symm.trans
      (congrArg (List.map p.usualName) (List.zipIdx_map_fst 0 keys))
  -- The singular of the field's name is the name of the record type, which is taken already.
  have hsecond (key : KeyField) : p.secondName key = p.usualName key := by
    rw [secondName, if_neg (by simpa using hfield), hsingular, usualName]
  have hrelatedNames : ∀ j ∈ p.relatedJoinFields (p.ownJoinFields keys) keys,
      j.name = p.usualName j.source := by
    intro j hj
    rw [name_of_relatedJoinFields (by rw [hgiven]; exact hj), hsecond, ite_self]
  rw [hownNames, ← relatedJoinFields_source (p := p) (p.ownJoinFields keys) keys, List.map_map,
    relatedJoinFields_source]
  exact List.map_congr_left hrelatedNames

/-- So its join table has one field for both keys, and never keeps the sides apart. -/
theorem not_keepsApart_of_plural_self_reference {join : NumberedSchema}
    (h : r.JoinedBy join (p.ownJoinFields keys) (p.relatedJoinFields (p.ownJoinFields keys) keys))
    (hkeys : keys ≠ []) (hself : p.owner.schema.name = p.related.schema.name)
    (hfield : p.field.name ≠ p.related.schema.name)
    (hsingular : p.related.schema.naming.singular p.field.name = upperFirst p.related.schema.name)
    (hown : listedColumns (p.field.settings.get? "JOINFOREIGNKEY") = [])
    (hgiven : p.givenNames = []) : ¬r.KeepsApart join keys keys := by
  have hne : p.ownJoinFields keys ≠ [] := by
    intro hnil
    have hsource := ownJoinFields_source (p := p) keys
    rw [hnil] at hsource
    exact hkeys hsource.symm
  have hshared := h.not_keepsApart hne
    (names_of_plural_self_reference hself hfield hsingular hown hgiven)
  rw [ownJoinFields_source, relatedJoinFields_source] at hshared
  exact hshared

/-- A many-to-many relationship comes with a join table. -/
theorem exists_joinTable {join : Option JoinTable}
    (h : p.relationship position next = .ok (r, join)) (hkind : r.kind = .manyToMany) :
    ∃ table, join = some table := by
  cases madeAs_of_relationship h with
  | polymorphic => exact absurd hkind p.hasKind_ne_manyToMany
  | linked => exact ⟨_, rfl⟩
  | guessed _ hguess => exact absurd hkind (ne_manyToMany_of_guess hguess)

/-- What a join table is made of, whatever else is known of the relationship. -/
theorem joinedBy_of_joinTable {number : Nat} {given : String} {table : JoinTable}
    (h : p.joinTable number given = .ok table) (hr : r.references = table.references) :
    ∃ ownKeys relatedKeys, p.contributed p.owner.side p.foreignKeys = .ok ownKeys
      ∧ p.contributed p.related.side p.primaryKeys = .ok relatedKeys
      ∧ r.JoinedBy ⟨number, table.schema⟩ (p.ownJoinFields ownKeys)
          (p.relatedJoinFields (p.ownJoinFields ownKeys) relatedKeys) := by
  obtain ⟨ownKeys, relatedKeys, _, _, fields, _, _, hownKeys, hrelatedKeys, rfl, rfl, hfields,
    hlayout, -, hreferences, -⟩ := joinTable_ok h
  refine ⟨ownKeys, relatedKeys, hownKeys, hrelatedKeys, ?_, ?_, hr.trans hreferences,
    Layout.consistent_of_assemble hlayout⟩
  · rw [Layout.map_fields_of_assemble (g := (·.name)) hlayout fun _ _ _ _ => rfl]
    simp only [Layout.columned_name]
    exact map_eq_of_mapM_except
      (fun _ _ hj => congrArg Prod.fst (JoinField.declared_column hj)) hfields
  · -- Name, column and type are followed together, as the column depends on the other two.
    intro f hf
    obtain ⟨_, -, -, -, hnaming, -⟩ := Layout.assemble_ok hlayout
    have hmap := Layout.map_fields_of_assemble (g := fun f => (f.name, f.dbName, f.dataType)) hlayout
      fun _ _ _ _ => rfl
    have hmem := List.mem_map_of_mem (f := fun f : Field => (f.name, f.dbName, f.dataType)) hf
    rw [hmap] at hmem
    obtain ⟨d, hd, heq⟩ := List.mem_map.mp hmem
    obtain ⟨j, -, hj⟩ := exists_of_mem_mapM_except hfields hd
    have hempty : d.dbName = "" := congrArg Prod.snd (JoinField.declared_column hj)
    rw [Layout.columned_name, Layout.columned_dataType, Layout.columned_dbName hempty,
      Prod.mk.injEq, Prod.mk.injEq] at heq
    obtain ⟨hname, hcolumn, htype⟩ := heq
    rw [← hcolumn, ← hname, ← htype, hnaming]

end Pairing

namespace SchemaCache

/-- After any calls, every many-to-many relationship of a schema has a join table in the cache. A
related key that the tag gives no name is called like a key of the owner exactly if both of its names
are taken. The fields are named for the keys, one for each name, the owner's first, with the columns
of their names, and the references of a side are those to the fields that are named for a key of it.
So a name that is given to a key of either side is one field for both; the sides are kept apart
exactly if all names are different, they make different columns, and each field is stored and can be
read or written. -/
theorem joinTables_keep_sides_apart (catalog : Catalog) (naming : Naming) (calls : List ParseCall)
    {n : Nat} {schema : Schema} {rs : List Relationship} {r : Relationship}
    (hn : ((empty catalog naming).parseAll calls).get? n = some ⟨schema, .resolved rs⟩)
    (hr : r ∈ rs) (hkind : r.kind = .manyToMany) :
    let c := (empty catalog naming).parseAll calls
    ∃ (related join : NumberedSchema) (links : List Relationship)
      (ownKeys relatedKeys : List KeyField),
      let p := Pairing.ofField ⟨n, schema⟩ related r.field
      let own := p.ownJoinFields ownKeys
      let others := p.relatedJoinFields own relatedKeys
      c.HasSchema related ∧ r.related = related.ref
      ∧ c.get? join.number = some ⟨join.schema, .resolved links⟩ ∧ r.joinTable = some join.ref
      ∧ p.contributed p.owner.side p.foreignKeys = .ok ownKeys
      ∧ p.contributed p.related.side p.primaryKeys = .ok relatedKeys
      ∧ (∀ j ∈ others.drop p.givenNames.length, j.name ∈ own.map (·.name)
        ↔ p.usualName j.source ∈ own.map (·.name) ∧ p.secondName j.source ∈ own.map (·.name))
      ∧ (∃ fresh, join.schema.fields.map (·.name) = (own ++ fresh).map (·.name)
        ∧ fresh.Sublist others ∧ (fresh.map (·.name)).Nodup
        ∧ (∀ j ∈ fresh, j.name ∉ own.map (·.name))
        ∧ ∀ j ∈ others, j.name ∈ (own ++ fresh).map (·.name))
      ∧ (∀ isOwn, (r.references.filter (·.ownPrimaryKey == isOwn)).map (·.foreignKey)
        = (Pairing.copies join).filter
          fun copy => copy.field.name ∈ (if isOwn then own else others).map (·.name))
      ∧ (∀ f ∈ join.schema.fields,
        f.dbName = if f.dataType.isSome then join.schema.naming.columnName f.name else "")
      ∧ (r.KeepsApart join ownKeys relatedKeys
        ↔ ((own ++ others).map (·.name)).Nodup
          ∧ ((own ++ others).map fun j => join.schema.naming.columnName j.name).Nodup
          ∧ ∀ f ∈ join.schema.fields, f.dataType.isSome = true
            ∧ join.schema.naming.columnName f.name ≠ "" ∧ f.hasPermission = true) := by
  intro c
  have hc : c.Traced := (traced_empty catalog naming).parseAll calls
  cases hc n _ hn with
  | join _ _ hjoin =>
    -- The relationships of a join table lead to one record each.
    obtain ⟨_, _, _, _, _, _, _, -, -, -, -, -, -, -, -, hlinks⟩ := Pairing.joinTable_ok hjoin
    rw [hlinks] at hr
    obtain rfl | hr := List.mem_cons.mp hr
    · cases hkind
    · obtain rfl := List.mem_singleton.mp hr
      cases hkind
  | read _ hmakes =>
    obtain ⟨related, field, position, next, table, hrelated, hrelationship, htable⟩ :=
      hmakes rs rfl r hr
    obtain ⟨table, rfl⟩ := Pairing.exists_joinTable hrelationship hkind
    obtain ⟨hfield, href, -⟩ := Pairing.relationship_ok hrelationship
    obtain ⟨given, hjoin, -, hreferences, hjoinRef⟩ :=
      Pairing.joinTable_of_relationship hrelationship
    obtain ⟨ownKeys, relatedKeys, hownKeys, hrelatedKeys, hjoined⟩ :=
      Pairing.joinedBy_of_joinTable hjoin hreferences
    obtain rfl : r.field = field := hfield
    obtain ⟨fresh, heq, hfresh⟩ := Pairing.joinFields_eq
      ((Pairing.ofField ⟨n, schema⟩ related r.field).ownJoinFields ownKeys) _
    have hapart := hjoined.keepsApart_iff
    rw [Pairing.ownJoinFields_source, Pairing.relatedJoinFields_source] at hapart
    exact ⟨related, ⟨next, table.schema⟩, table.links, ownKeys, relatedKeys, hrelated, href,
      htable table rfl, hjoinRef, hownKeys, hrelatedKeys, fun j hj => Pairing.names_taken_iff hj,
      ⟨fresh, heq ▸ hjoined.names, hfresh⟩, hjoined.foreignKeys, hjoined.stored, hapart⟩

/-! ## Friends -/

theorem eq_singleton_of_getElem? {α : Type} {l : List α} {a : α} (hlength : l.length = 1)
    (ha : l[0]? = some a) : l = [a] := by
  obtain ⟨b, rfl⟩ := List.length_eq_one_iff.mp hlength
  cases ha
  rfl

/-- Players are friends of players. -/
def players : Catalog :=
  ⟨[ ( "Player",
      { name := "Player"
        fields :=
          [ { name := "ID", kind := .uint 64 }
          , { name := "Friends", kind := .slice (.record ⟨"Player", "Player"⟩)
              tag := "many2many:friendships" } ] } )]⟩

/-- The call for players. -/
def playerCall : ParseCall := ⟨⟨"Player", "Player"⟩, none⟩

theorem players_relationship :
    let c := (empty players {}).parseAll [playerCall]
    ∃ schema friends join ownKeys relatedKeys, c.get? 0 = some ⟨schema, .resolved [friends]⟩
      ∧ c.get? 1 = some join
      ∧ (friends.kind = .manyToMany ∧ friends.related.number = 0
        ∧ friends.joinTable.map (·.number) = some 1)
      ∧ (let p := Pairing.ofField ⟨0, schema⟩ ⟨0, schema⟩ friends.field
        let own := p.ownJoinFields ownKeys
        p.contributed p.owner.side p.foreignKeys = .ok ownKeys
          ∧ p.contributed p.related.side p.primaryKeys = .ok relatedKeys
          ∧ (own ++ p.relatedJoinFields own relatedKeys).map (·.name) = ["PlayerID", "FriendID"])
      ∧ ["PlayerID", "FriendID"].map join.schema.naming.columnName = ["player_id", "friend_id"]
      ∧ ∀ f ∈ join.schema.fields, f.dataType.isSome = true
        ∧ join.schema.naming.columnName f.name ≠ "" ∧ f.hasPermission = true := by
  intro c
  have h : ((c.get? 0).bind fun e => (c.get? 1).bind fun join =>
      (e.relationships[0]?).bind fun friends =>
        let p := Pairing.ofField ⟨0, e.schema⟩ ⟨0, e.schema⟩ friends.field
        (p.contributed p.owner.side p.foreignKeys).toOption.bind fun ownKeys =>
          (p.contributed p.related.side p.primaryKeys).toOption.map fun relatedKeys =>
            let own := p.ownJoinFields ownKeys
            decide (e.relationships.length = 1
              ∧ (friends.kind = .manyToMany ∧ friends.related.number = 0
                ∧ friends.joinTable.map (·.number) = some 1)
              ∧ (own ++ p.relatedJoinFields own relatedKeys).map (·.name) = ["PlayerID", "FriendID"]
              ∧ ["PlayerID", "FriendID"].map join.schema.naming.columnName
                = ["player_id", "friend_id"]
              ∧ ∀ f ∈ join.schema.fields, f.dataType.isSome = true
                ∧ join.schema.naming.columnName f.name ≠ "" ∧ f.hasPermission = true))
      = some true := by decide +kernel
  obtain ⟨e, he, h⟩ := Option.bind_eq_some_iff.mp h
  obtain ⟨join, hjoin, h⟩ := Option.bind_eq_some_iff.mp h
  obtain ⟨friends, hfirst, h⟩ := Option.bind_eq_some_iff.mp h
  obtain ⟨ownKeys, hown, h⟩ := Option.bind_eq_some_iff.mp h
  obtain ⟨relatedKeys, hrelated, h⟩ := Option.map_eq_some_iff.mp h
  obtain ⟨hlength, hfriends, hnames, hfields⟩ := of_decide_eq_true h
  have hrelationships := eq_singleton_of_getElem? hlength hfirst
  exact ⟨e.schema, friends, join, ownKeys, relatedKeys,
    he.trans (congrArg some (eq_resolved hrelationships)), hjoin, hfriends,
    ⟨ok_of_toOption hown, ok_of_toOption hrelated, hnames⟩, hfields⟩

/-- The friend's key has another name than the player's, and another column. -/
theorem joinTables_keep_sides_apart_friends :
    let c := (empty players {}).parseAll [playerCall]
    ∃ schema friends join ownKeys relatedKeys, c.get? 0 = some ⟨schema, .resolved [friends]⟩
      ∧ friends.kind = .manyToMany ∧ friends.joinTable = some join.ref
      ∧ friends.KeepsApart join ownKeys relatedKeys := by
  intro c
  obtain ⟨schema, friends, e, ownKeys', relatedKeys', he, hjoin, ⟨hkind, hnumber, hjoinNumber⟩,
    ⟨hownKeys', hrelatedKeys', hnames⟩, hcolumns, hfields⟩ := players_relationship
  obtain ⟨related, join, links, ownKeys, relatedKeys, hrelated, href, hget, hjoinRef, hownKeys,
    hrelatedKeys, -, -, -, -, hapart⟩ := joinTables_keep_sides_apart players {} [playerCall] he
      (List.mem_singleton_self friends) hkind
  -- What the theorem gives is what was read off the cache: the same numbers, schemas and keys.
  obtain ⟨number, relatedSchema⟩ := related
  obtain ⟨joinNumber, joinSchema⟩ := join
  obtain rfl : number = 0 := (congrArg SchemaRef.number href).symm.trans hnumber
  obtain rfl : joinNumber = 1 := by
    rw [hjoinRef] at hjoinNumber
    exact Option.some.inj hjoinNumber
  obtain rfl : schema = relatedSchema := by
    rw [HasSchema, he] at hrelated
    exact Option.some.inj hrelated
  obtain rfl : ownKeys' = ownKeys := Except.ok.inj (hownKeys'.symm.trans hownKeys)
  obtain rfl : relatedKeys' = relatedKeys := Except.ok.inj (hrelatedKeys'.symm.trans hrelatedKeys)
  obtain rfl : e = ⟨joinSchema, .resolved links⟩ := Option.some.inj (hjoin.symm.trans hget)
  rw [← hnames, List.map_map] at hcolumns
  refine ⟨schema, friends, ⟨1, joinSchema⟩, ownKeys', relatedKeys', he, hkind, hjoinRef,
    hapart.mpr ⟨?_, ?_, hfields⟩⟩
  · rw [hnames]
    decide
  · exact hcolumns ▸ by decide

/-! ## Users -/

/-- Users are linked to users by a field with the plural of their own name. -/
def users : Catalog :=
  ⟨[ ( "User",
      { name := "User"
        fields :=
          [ { name := "ID", kind := .uint 64 }
          , { name := "Users", kind := .slice (.record ⟨"User", "User"⟩)
              tag := "many2many:user_users" } ] } )]⟩

/-- The call for users. -/
def userCall : ParseCall := ⟨⟨"User", "User"⟩, none⟩

/-- The second name of the other user's key is the one that is taken: there are two references, but
one field. -/
theorem users_share_one_field :
    let c := (empty users {}).parseAll [userCall]
    ∃ schema others join links, c.get? 0 = some ⟨schema, .resolved [others]⟩
      ∧ others.kind = .manyToMany ∧ others.joinTable.map (·.number) = some 1
      ∧ c.get? 1 = some ⟨join, .resolved links⟩
      ∧ join.fields.map (·.name) = ["UserID"]
      ∧ others.references.map (fun ref => (ref.foreignKey.field.name, ref.ownPrimaryKey))
        = [("UserID", true), ("UserID", false)]
      ∧ ∀ ownKeys relatedKeys, ¬others.KeepsApart ⟨1, join⟩ ownKeys relatedKeys := by
  intro c
  have h : ((c.get? 0).bind fun e => (c.get? 1).bind fun join =>
      (e.relationships[0]?).map fun others => decide (e.relationships.length = 1
        ∧ join.relationships.length = 2
        ∧ others.kind = .manyToMany ∧ others.joinTable.map (·.number) = some 1
        ∧ join.schema.fields.map (·.name) = ["UserID"]
        ∧ others.references.map (fun ref => (ref.foreignKey.field.name, ref.ownPrimaryKey))
          = [("UserID", true), ("UserID", false)]))
      = some true := by decide +kernel
  obtain ⟨e, he, h⟩ := Option.bind_eq_some_iff.mp h
  obtain ⟨join, hjoin, h⟩ := Option.bind_eq_some_iff.mp h
  obtain ⟨others, hfirst, h⟩ := Option.map_eq_some_iff.mp h
  obtain ⟨hlength, hlinks, hkind, hnumber, hfields, hreferences⟩ := of_decide_eq_true h
  have hrelationships := eq_singleton_of_getElem? hlength hfirst
  obtain ⟨own, other, hlinks⟩ := List.length_eq_two.mp hlinks
  refine ⟨e.schema, others, join.schema, [own, other],
    he.trans (congrArg some (eq_resolved hrelationships)), hkind, hnumber,
    hjoin.trans (congrArg some (eq_resolved hlinks)), hfields, hreferences,
    fun ownKeys relatedKeys hapart => ?_⟩
  -- The one field is that of both references.
  have hnames : others.references.map (·.foreignKey.field.name) = ["UserID", "UserID"] := by
    have hfst := congrArg (List.map Prod.fst) hreferences
    rwa [List.map_map] at hfst
  exact absurd (hnames ▸ hapart.names) (by decide)

end SchemaCache

end RecordSql
