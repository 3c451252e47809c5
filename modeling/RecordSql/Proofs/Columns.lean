/-
  RecordSql.Proofs.Columns

  Which columns a layout has.  The columns are given away field by field
  (`Lookups.add`), and a later field may take a column over from an earlier one
  by a shorter path (`Lookups.AddsColumn` lists what may happen).  At every step
  the columns are those of the fields so far, and each leads to the field that
  owns it, the first with the shortest path (`Lookups.Awards`, `OwnerOf`); so it
  is with the layout in the end (`Layout.Consistent`).
-/

import RecordSql.Schema.Embedding

namespace RecordSql

theorem lookup_setPosition (name other : String) (position : Nat) (l : List (String × Nat)) :
    (setPosition name position l).lookup other
      = if other = name then some position else l.lookup other := by
  induction l with
  | nil =>
    rw [setPosition, List.lookup_cons]
    by_cases h : other = name
    · simp [h]
    · rw [beq_false_of_ne h, if_neg h]
  | cons entry rest ih =>
    obtain ⟨n, p⟩ := entry
    rw [setPosition]
    by_cases hn : n = name
    · rw [if_pos (by simpa using hn), List.lookup_cons, List.lookup_cons]
      by_cases h : other = n
      · simp [h, hn]
      · have hname : other ≠ name := hn ▸ h
        simp [beq_false_of_ne h, hname]
    · rw [if_neg (by simpa using hn), List.lookup_cons, List.lookup_cons, ih]
      by_cases h : other = n
      · have hname : other ≠ name := h ▸ hn
        simp [h, hn]
      · simp [beq_false_of_ne h]

theorem lookup_concat (name other : String) (position : Nat) (l : List (String × Nat))
    (h : l.lookup name = none) :
    (l ++ [(name, position)]).lookup other
      = if other = name then some position else l.lookup other := by
  rw [List.lookup_append]
  by_cases hother : other = name
  · simp [hother, h]
  · have hnone : [(name, position)].lookup other = none := by
      rw [List.lookup_cons, beq_false_of_ne hother]
      rfl
    rw [hnone, Option.or_none, if_neg hother]

/-- Fields that agree in something agree in it one by one. -/
theorem exists_field_of_map {α : Type} {g : Field → α} {fields fields' : List Field}
    (h : fields'.map g = fields.map g) {i : Nat} {f : Field} (hf : fields[i]? = some f) :
    ∃ f', fields'[i]? = some f' ∧ g f' = g f := by
  have hi : (fields'[i]?).map g = (fields[i]?).map g := by
    rw [← List.getElem?_map, h, List.getElem?_map]
  rw [hf] at hi
  exact Option.map_eq_some_iff.mp hi

theorem getElem?_concat_cases {fields : List Field} {f g : Field} {i : Nat}
    (h : (fields ++ [g])[i]? = some f) : fields[i]? = some f ∨ i = fields.length ∧ f = g := by
  rw [List.getElem?_append] at h
  split at h
  · exact .inl h
  · next hge =>
    obtain ⟨hlt, hf⟩ := List.getElem?_eq_some_iff.mp h
    rw [List.length_singleton] at hlt
    have hi : i = fields.length := by omega
    subst hi
    exact .inr ⟨rfl, by simpa using hf.symm⟩

theorem getElem?_of_isPrefix {fields done : List Field} (h : done <+: fields) {i : Nat} {f : Field}
    (hf : done[i]? = some f) :
    fields[i]? = some f := by
  obtain ⟨rest, rfl⟩ := h
  rw [List.getElem?_append_left (List.getElem?_eq_some_iff.mp hf).1]
  exact hf

/-! ## The field with the shortest path -/

/-- The field at the position has the column, and of all such fields that are read or written none has
a shorter path, nor as short a one before it. -/
structure ShortestOf (fields : List Field) (column : String) (position : Nat) (f : Field) : Prop where
  field : fields[position]? = some f
  column_eq : f.dbName = column
  shortest : ∀ i g, fields[i]? = some g → g.dbName = column → g.hasPermission = true →
    f.bindNames.length ≤ g.bindNames.length
      ∧ (i < position → f.bindNames.length < g.bindNames.length)

/-! ## The owner of a column -/

/-- The field at the position contends for the column: it has the column, and it is the first that has
it or is read or written. -/
structure Contends (fields : List Field) (column : String) (position : Nat) (f : Field) : Prop where
  field : fields[position]? = some f
  column_eq : f.dbName = column
  entitled : f.hasPermission = true ∨
    ∀ i g, i < position → fields[i]? = some g → g.dbName ≠ column

/-- The field at the position is, of all that contend for the column, the first with the shortest
path. -/
structure OwnerOf (fields : List Field) (column : String) (position : Nat) (f : Field) : Prop where
  contends : Contends fields column position f
  shortest : ∀ i g, Contends fields column i g →
    f.bindNames.length ≤ g.bindNames.length
      ∧ (i < position → f.bindNames.length < g.bindNames.length)

section Owner

variable {fields fields' : List Field} {column : String} {position : Nat} {f g : Field}

theorem Contends.lt_length (h : Contends fields column position f) : position < fields.length :=
  (List.getElem?_eq_some_iff.mp h.field).1

/-- Who contends goes on to, whatever fields follow. -/
theorem Contends.concat (h : Contends fields column position f) :
    Contends (fields ++ [g]) column position f where
  field := by
    rw [List.getElem?_append_left h.lt_length]
    exact h.field
  column_eq := h.column_eq
  entitled := by
    refine h.entitled.imp_right fun hfirst i g' hi hg' => ?_
    rw [List.getElem?_append_left (Nat.lt_trans hi h.lt_length)] at hg'
    exact hfirst i g' hi hg'

/-- With one more field, that one may contend too. -/
theorem Contends.of_concat {i : Nat} {g' : Field} (h : Contends (fields ++ [g]) column i g') :
    Contends fields column i g'
      ∨ i = fields.length ∧ g' = g
        ∧ (g.hasPermission = true ∨ ∀ f ∈ fields, f.dbName ≠ column) := by
  obtain hg' | ⟨rfl, rfl⟩ := getElem?_concat_cases h.field
  · have hlt : i < fields.length := (List.getElem?_eq_some_iff.mp hg').1
    refine .inl ⟨hg', h.column_eq, h.entitled.imp_right fun hfirst j f hj hf => ?_⟩
    refine hfirst j f hj ?_
    rw [List.getElem?_append_left (Nat.lt_trans hj hlt)]
    exact hf
  · refine .inr ⟨rfl, rfl, h.entitled.imp_right fun hfirst f hf => ?_⟩
    obtain ⟨j, hj⟩ := List.getElem?_of_mem hf
    have hlt : j < fields.length := (List.getElem?_eq_some_iff.mp hj).1
    refine hfirst j f hlt ?_
    rw [List.getElem?_append_left hlt]
    exact hj

namespace OwnerOf

/-- The owner is read or written, or no field with the column is. -/
theorem shortestOf (h : OwnerOf fields column position f) : ShortestOf fields column position f :=
  ⟨h.contends.field, h.contends.column_eq, fun i g hg hcolumn hpermission =>
    h.shortest i g ⟨hg, hcolumn, .inl hpermission⟩⟩

/-- A field keeps its column from those with other ones, and with paths that are not shorter. -/
theorem concat (h : OwnerOf fields column position f)
    (hg : g.dbName = column → g.hasPermission = true → f.bindNames.length ≤ g.bindNames.length) :
    OwnerOf (fields ++ [g]) column position f := by
  refine ⟨h.contends.concat, fun i g' hg' => ?_⟩
  obtain hold | ⟨rfl, rfl, hentitled⟩ := hg'.of_concat
  · exact h.shortest i g' hold
  · -- It is not the first with the column, so it must have a permission.
    have hpermission : g'.hasPermission = true := hentitled.resolve_right fun hnone =>
      hnone f (List.mem_of_getElem? h.contends.field) h.contends.column_eq
    have hle := hg hg'.column_eq hpermission
    have hlt := h.contends.lt_length
    exact ⟨hle, fun hafter => by omega⟩

/-- A field takes the column over by a shorter path. -/
theorem take (h : OwnerOf fields column position f) (hg : g.dbName = column)
    (hpermission : g.hasPermission = true) (hlt : g.bindNames.length < f.bindNames.length) :
    OwnerOf (fields ++ [g]) column fields.length g := by
  refine ⟨⟨List.getElem?_concat_length, hg, .inl hpermission⟩, fun i g' hg' => ?_⟩
  obtain hold | ⟨rfl, rfl, -⟩ := hg'.of_concat
  · have hle := (h.shortest i g' hold).1
    exact ⟨by omega, fun _ => by omega⟩
  · exact ⟨Nat.le_refl _, fun hlt => absurd hlt (Nat.lt_irrefl _)⟩

/-- A column that nobody has goes to the next field. -/
theorem self (hnone : ∀ f ∈ fields, f.dbName ≠ g.dbName) :
    OwnerOf (fields ++ [g]) g.dbName fields.length g := by
  refine ⟨⟨List.getElem?_concat_length, rfl, .inr fun i f hi hf => ?_⟩, fun i g' hg' => ?_⟩
  · rw [List.getElem?_append_left hi] at hf
    exact hnone f (List.mem_of_getElem? hf)
  · obtain hold | ⟨rfl, rfl, -⟩ := hg'.of_concat
    · exact absurd hold.column_eq (hnone g' (List.mem_of_getElem? hold.field))
    · exact ⟨Nat.le_refl _, fun hlt => absurd hlt (Nat.lt_irrefl _)⟩

end OwnerOf

/-- Contending depends on nothing but the columns and the permissions. -/
theorem Contends.congr (h : Contends fields column position f)
    (hsame : fields'.map (fun f => (f.dbName, f.bindNames, f.hasPermission))
      = fields.map fun f => (f.dbName, f.bindNames, f.hasPermission)) :
    ∃ f', Contends fields' column position f' ∧ f'.bindNames = f.bindNames := by
  obtain ⟨f', hf', heq⟩ := exists_field_of_map hsame h.field
  simp only [Prod.mk.injEq] at heq
  obtain ⟨hcolumn, hpath, hpermission⟩ := heq
  refine ⟨f', ⟨hf', hcolumn.trans h.column_eq, ?_⟩, hpath⟩
  rw [hpermission]
  refine h.entitled.imp_right fun hfirst i g hi hg => ?_
  obtain ⟨g', hg', heq'⟩ := exists_field_of_map hsame.symm hg
  simp only [Prod.mk.injEq] at heq'
  rw [← heq'.1]
  exact hfirst i g' hi hg'

/-- So does owning, apart from the paths. -/
theorem OwnerOf.congr (h : OwnerOf fields column position f)
    (hsame : fields'.map (fun f => (f.dbName, f.bindNames, f.hasPermission))
      = fields.map fun f => (f.dbName, f.bindNames, f.hasPermission)) :
    ∃ f', OwnerOf fields' column position f' := by
  obtain ⟨f', hf', hpath⟩ := h.contends.congr hsame
  refine ⟨f', hf', fun i g hg => ?_⟩
  obtain ⟨g', hg', hpath'⟩ := hg.congr hsame.symm
  rw [hpath, ← hpath']
  exact h.shortest i g' hg'

end Owner

namespace Layout

/-! ## Giving columns to fields -/

variable {fields done : List Field} {table : List (String × Nat)} {l l' : Lookups} {f : Field}

/-- The columns of the fields in the order in which they appear first. -/
def columnsOf (fields : List Field) : List String :=
  ((fields.map (·.dbName)).filter fun column => !column.isEmpty).eraseDups

theorem mem_columnsOf {column : String} :
    column ∈ columnsOf fields ↔ column ≠ "" ∧ ∃ f ∈ fields, f.dbName = column := by
  simp only [columnsOf, List.mem_eraseDups, List.mem_filter, List.mem_map, Bool.not_eq_true',
    Bool.eq_false_iff, ne_eq, String.isEmpty_iff]
  exact and_comm

theorem columnsOf_concat (fields : List Field) (f : Field) :
    columnsOf (fields ++ [f])
      = columnsOf fields ++ if f.dbName = "" ∨ f.dbName ∈ columnsOf fields then [] else [f.dbName] := by
  simp only [columnsOf, List.map_append, List.filter_append, List.eraseDups_append,
    List.mem_eraseDups]
  congr 1
  generalize ((fields.map (·.dbName)).filter fun column => !column.isEmpty) = taken
  by_cases hempty : f.dbName = ""
  · simp [hempty, List.removeAll]
  · have hkept : [f.dbName].filter (fun column => !column.isEmpty) = [f.dbName] := by simp [hempty]
    rw [List.map_singleton, hkept]
    by_cases hmem : f.dbName ∈ taken
    · simp [hmem, List.removeAll]
    · simp [hempty, hmem, List.removeAll, List.eraseDups_cons]

/-- What may come of the column of the next field, after those that are done. -/
inductive Lookups.AddsColumn (done : List Field) (f : Field) (l : Lookups) : Lookups → Prop where
  /-- The field has no column. -/
  | unstored (h : f.dbName = "") : AddsColumn done f l l
  /-- Nobody has the column. -/
  | first (hne : f.dbName ≠ "") (h : l.byDbName.lookup f.dbName = none) :
    AddsColumn done f l
      { l with
        dbNames := l.dbNames ++ [f.dbName]
        byDbName := l.byDbName ++ [(f.dbName, done.length)]
        primary := if f.primaryKey then l.primary ++ [done.length] else l.primary }
  /-- The field takes the column over. -/
  | taken (holder : Nat) (g : Field) (hne : f.dbName ≠ "")
    (h : l.byDbName.lookup f.dbName = some holder) (hg : done[holder]? = some g)
    (hpermission : f.hasPermission = true) (hlt : f.bindNames.length < g.bindNames.length) :
    AddsColumn done f l
      { l with
        byDbName := setPosition f.dbName done.length l.byDbName
        primary :=
          let others := l.primary.filter (· != holder)
          if f.primaryKey then others ++ [done.length] else others }
  /-- The field leaves the column to the one that has it. -/
  | left (holder : Nat) (g : Field) (hne : f.dbName ≠ "")
    (h : l.byDbName.lookup f.dbName = some holder) (hg : done[holder]? = some g)
    (hle : f.hasPermission = true → g.bindNames.length ≤ f.bindNames.length) :
    AddsColumn done f l l

/-- The columns are those of the fields, and the table leads from each of them to its owner. -/
structure Lookups.Awards (fields : List Field) (l : Lookups) : Prop where
  dbNames_eq : l.dbNames = columnsOf fields
  nodup : l.dbNames.Nodup
  held : ∀ column position, l.byDbName.lookup column = some position →
    ∃ f, OwnerOf fields column position f
  columns : ∀ column, column ∈ l.dbNames ↔ ∃ position, l.byDbName.lookup column = some position

theorem Lookups.awards_empty : Lookups.Awards [] {} where
  dbNames_eq := rfl
  nodup := List.nodup_nil
  held _ _ h := nomatch h
  columns _ := ⟨fun h => absurd h List.not_mem_nil, fun ⟨_, h⟩ => nomatch h⟩

namespace Lookups.Awards

/-- There is nothing else that may come of a column. -/
theorem addsColumn (h : l.Awards done) (hdone : done ++ [f] <+: fields) :
    AddsColumn done f l (l.addColumn fields done.length f) := by
  rw [Lookups.addColumn]
  split
  · next hempty => exact .unstored (String.isEmpty_iff.mp hempty)
  · next hempty =>
    have hne : f.dbName ≠ "" := fun heq => hempty (String.isEmpty_iff.mpr heq)
    split
    · next hnone => exact .first hne hnone
    · next holder hholder =>
      obtain ⟨g, hg⟩ := h.held _ _ hholder
      have hfield := hg.contends.field
      rw [getElem?_of_isPrefix ((List.prefix_append done [f]).trans hdone) hfield]
      dsimp only [Option.any_some]
      split
      · next hshorter =>
        rw [Bool.and_eq_true, decide_eq_true_eq] at hshorter
        exact .taken holder g hne hholder hfield hshorter.1 hshorter.2
      · next hshorter =>
        rw [Bool.and_eq_true, decide_eq_true_eq, not_and] at hshorter
        exact .left holder g hne hholder hfield fun hf => Nat.not_lt.mp (hshorter hf)

/-- The column of a field is held by somebody. -/
theorem exists_lookup (h : l.Awards done) {g : Field} (hg : g ∈ done) (hne : g.dbName ≠ "") :
    ∃ position, l.byDbName.lookup g.dbName = some position := by
  refine (h.columns _).mp ?_
  rw [h.dbNames_eq]
  exact mem_columnsOf.mpr ⟨hne, g, hg, rfl⟩

theorem ne_of_lookup (h : l.Awards done) {column : String} {position : Nat}
    (hposition : l.byDbName.lookup column = some position) : column ≠ "" := by
  have hmem := (h.columns column).mpr ⟨position, hposition⟩
  rw [h.dbNames_eq] at hmem
  exact (mem_columnsOf.mp hmem).1

/-- If the field leaves the columns as they are, so are they then. -/
theorem skip (h : l.Awards done) (hcolumn : f.dbName = "" ∨ f.dbName ∈ l.dbNames)
    (hle : ∀ holder g, l.byDbName.lookup f.dbName = some holder → done[holder]? = some g →
      f.hasPermission = true → g.bindNames.length ≤ f.bindNames.length) :
    l.Awards (done ++ [f]) where
  dbNames_eq := by
    rw [columnsOf_concat, ← h.dbNames_eq, if_pos hcolumn, List.append_nil]
  nodup := h.nodup
  held column position hposition := by
    obtain ⟨g, hg⟩ := h.held column position hposition
    refine ⟨g, hg.concat fun heq hpermission => ?_⟩
    rw [← heq] at hposition
    exact hle position g hposition hg.contends.field hpermission
  columns := h.columns

/-- The columns are awarded anew with each field. -/
theorem step (h : l.Awards done) (hstep : AddsColumn done f l l') : l'.Awards (done ++ [f]) := by
  cases hstep with
  | unstored hempty =>
    exact h.skip (.inl hempty) fun holder g hholder => absurd hempty (h.ne_of_lookup hholder)
  | left holder g hne hholder hg hle =>
    refine h.skip (.inr ((h.columns _).mpr ⟨holder, hholder⟩)) fun holder' g' hholder' hg' => ?_
    obtain rfl : holder' = holder := Option.some.inj (hholder'.symm.trans hholder)
    obtain rfl : g' = g := Option.some.inj (hg'.symm.trans hg)
    exact hle
  | first hne hnone =>
    have hlookup := fun column => lookup_concat f.dbName column done.length l.byDbName hnone
    have hothers : ∀ g ∈ done, g.dbName ≠ f.dbName := by
      intro g hg heq
      obtain ⟨position, hposition⟩ := h.exists_lookup hg (heq ▸ hne)
      rw [heq, hnone] at hposition
      cases hposition
    have hnew : f.dbName ∉ l.dbNames := fun hmem => by
      obtain ⟨position, hposition⟩ := (h.columns _).mp hmem
      rw [hnone] at hposition
      cases hposition
    refine ⟨?_, ?_, fun column position hposition => ?_, fun column => ?_⟩
    · rw [columnsOf_concat, ← h.dbNames_eq, if_neg (not_or.mpr ⟨hne, hnew⟩)]
    · exact List.nodup_append.mpr ⟨h.nodup, List.pairwise_singleton _ _, fun a ha b hb heq =>
        hnew (List.mem_singleton.mp hb ▸ heq ▸ ha)⟩
    · rw [hlookup] at hposition
      split at hposition
      · next heq =>
        cases hposition
        exact ⟨f, heq ▸ .self hothers⟩
      · next hother =>
        obtain ⟨g, hg⟩ := h.held column position hposition
        exact ⟨g, hg.concat fun heq => absurd heq.symm hother⟩
    · rw [hlookup, List.mem_append, List.mem_singleton, h.columns]
      split
      · next heq => exact ⟨fun _ => ⟨done.length, rfl⟩, fun _ => .inr heq⟩
      · next hother => exact or_iff_left hother
  | taken holder g hne hholder hg hpermission hlt =>
    have hlookup := fun column => lookup_setPosition f.dbName column done.length l.byDbName
    have hmem : f.dbName ∈ l.dbNames := (h.columns _).mpr ⟨holder, hholder⟩
    have hcolumns : l.dbNames = columnsOf (done ++ [f]) := by
      rw [columnsOf_concat, ← h.dbNames_eq, if_pos (.inr hmem), List.append_nil]
    refine ⟨hcolumns, h.nodup, fun column position hposition => ?_, fun column => ?_⟩
    · rw [hlookup] at hposition
      split at hposition
      · next heq =>
        cases hposition
        obtain ⟨g', hg'⟩ := h.held _ _ hholder
        obtain rfl : g' = g := Option.some.inj (hg'.contends.field.symm.trans hg)
        exact ⟨f, heq ▸ hg'.take rfl hpermission hlt⟩
      · next hother =>
        obtain ⟨g', hg'⟩ := h.held column position hposition
        exact ⟨g', hg'.concat fun heq => absurd heq.symm hother⟩
    · rw [hlookup, h.columns]
      split
      · next heq => exact ⟨fun _ => ⟨done.length, rfl⟩, fun _ => ⟨holder, heq ▸ hholder⟩⟩
      · rfl

theorem add (h : l.Awards done) (hdone : done ++ [f] <+: fields) :
    (l.add fields (f, done.length)).Awards (done ++ [f]) :=
  { h.step (h.addsColumn hdone) with }

end Lookups.Awards

/-- What holds before any field and is kept by each holds after all fields. -/
theorem Lookups.addAll_of_add {P : List Field → Lookups → Prop} (hempty : P [] {})
    (hadd : ∀ done f l, done ++ [f] <+: fields → P done l →
      P (done ++ [f]) (l.add fields (f, done.length))) :
    P fields (fields.zipIdx.foldl (Lookups.add fields) {}) := by
  -- In the middle some fields are done and the rest is to come.
  have hrest : ∀ (rest done : List Field) (l : Lookups), done ++ rest = fields → P done l →
      P fields ((rest.zipIdx done.length).foldl (Lookups.add fields) l) := by
    intro rest
    induction rest with
    | nil =>
      intro done l hfields h
      rw [List.append_nil] at hfields
      exact hfields ▸ h
    | cons f rest ih =>
      intro done l hfields h
      have hdone : (done ++ [f]) ++ rest = fields := by
        rw [List.append_assoc]
        exact hfields
      have hnext := ih (done ++ [f]) (l.add fields (f, done.length)) hdone
      rw [List.length_append, List.length_singleton] at hnext
      rw [List.zipIdx_cons, List.foldl_cons]
      exact hnext (hadd _ _ _ ⟨rest, hdone⟩ h)
  exact hrest fields [] {} rfl hempty

theorem Lookups.awards_all (fields : List Field) :
    (fields.zipIdx.foldl (Lookups.add fields) {}).Awards fields :=
  addAll_of_add awards_empty fun _ _ _ hdone h => h.add hdone

/-! ## The fields of a layout -/

/-- A field with the column that its name gives it, if it is stored and has none. -/
def columned (ns : Naming) (f : Field) : Field :=
  if f.dbName.isEmpty && f.dataType.isSome then { f with dbName := ns.columnName f.name } else f

@[simp] theorem columned_name (ns : Naming) (f : Field) : (columned ns f).name = f.name := by
  unfold columned
  split <;> rfl

@[simp] theorem columned_dataType (ns : Naming) (f : Field) :
    (columned ns f).dataType = f.dataType := by
  unfold columned
  split <;> rfl

/-- A field that says no column has that of its name, if it is stored. -/
theorem columned_dbName {ns : Naming} {f : Field} (h : f.dbName = "") :
    (columned ns f).dbName = if f.dataType.isSome then ns.columnName f.name else "" := by
  have hempty : f.dbName.isEmpty = true := String.isEmpty_iff.mpr h
  unfold columned
  rw [hempty, Bool.true_and]
  split
  · rfl
  · exact h

theorem columned_eq_self {ns : Naming} {f : Field} (h : f.dbName ≠ "") : columned ns f = f := by
  have hempty : f.dbName.isEmpty = false := by
    rw [← Bool.not_eq_true]
    exact fun hempty => h (String.isEmpty_iff.mp hempty)
  rw [columned, hempty]
  rfl

/-- A field keeps everything but its column when it is given one. -/
theorem columned_eq (ns : Naming) (f : Field) : ∃ dbName, columned ns f = { f with dbName } := by
  unfold columned
  split
  · exact ⟨_, rfl⟩
  · exact ⟨f.dbName, rfl⟩

/-- The field at a position, marked as the primary key and as counted up where it is. -/
def marked (prioritized : Option Nat) (primary : List Nat) (f : Field) (i : Nat) : Field :=
  let f := if primary == [i] && prioritized == some i then { f with primaryKey := true } else f
  if prioritized == some i && f.semanticType.any (·.isInteger)
      && !f.settings.contains "AUTOINCREMENT" then
    { f with hasDefault := true, autoIncrement := true }
  else f

theorem markKeys_eq (fields : List Field) (prioritized : Option Nat) (primary : List Nat) :
    markKeys fields prioritized primary
      = fields.zipIdx.map fun (f, i) => marked prioritized primary f i := rfl

/-- The marks of a field change nothing but what it says about keys and defaults. -/
theorem marked_eq (prioritized : Option Nat) (primary : List Nat) (f : Field) (i : Nat) :
    ∃ primaryKey autoIncrement hasDefault, marked prioritized primary f i
      = { f with primaryKey, autoIncrement, hasDefault } := by
  unfold marked
  dsimp only
  split <;> split
  · exact ⟨true, true, true, rfl⟩
  · exact ⟨true, f.autoIncrement, f.hasDefault, rfl⟩
  · exact ⟨f.primaryKey, true, true, rfl⟩
  · exact ⟨f.primaryKey, f.autoIncrement, f.hasDefault, rfl⟩

/-- Marking the keys changes nothing but what a field says about keys and defaults. -/
theorem map_markKeys {α : Type} {g : Field → α} (fields : List Field) (prioritized : Option Nat)
    (primary : List Nat)
    (hg : ∀ (f : Field) (primaryKey autoIncrement hasDefault : Bool),
      g { f with primaryKey, autoIncrement, hasDefault } = g f) :
    (markKeys fields prioritized primary).map g = fields.map g := by
  have hfst : fields.map g = fields.zipIdx.map (g ∘ Prod.fst) := by
    rw [← List.map_map, List.zipIdx_map_fst]
  rw [markKeys_eq, List.map_map, hfst]
  refine List.map_congr_left fun ⟨f, i⟩ _ => ?_
  obtain ⟨primaryKey, autoIncrement, hasDefault, heq⟩ := marked_eq prioritized primary f i
  rw [Function.comp_apply, Function.comp_apply]
  show g (marked prioritized primary f i) = g f
  rw [heq]
  exact hg f primaryKey autoIncrement hasDefault

/-- What `assemble` makes of fields. -/
theorem assemble_ok {name table : String} {declared : List Field} {ns : Naming} {l : Layout}
    (h : assemble name table declared ns = .ok l) :
    ∃ lookups,
      lookups = (declared.map (columned ns)).zipIdx.foldl (Lookups.add (declared.map (columned ns))) {}
      ∧ l.name = name ∧ l.table = table ∧ l.naming = ns
      ∧ l.fields = markKeys (declared.map (columned ns)) l.prioritized l.primary
      ∧ (l.prioritized, l.primary) = electPrimary (declared.map (columned ns)) lookups
      ∧ l.dbNames = lookups.dbNames ∧ l.byDbName = lookups.byDbName
      ∧ l.byName = lookups.byName := by
  simp only [assemble, bind, Except.bind] at h
  split at h
  · cases h
  · cases h
    exact ⟨_, rfl, rfl, rfl, rfl, rfl, rfl, rfl, rfl, rfl⟩

/-- What has nothing to do with keys and defaults, the fields of a layout have as they are
declared. -/
theorem map_fields_of_assemble {α : Type} {g : Field → α} {name table : String}
    {declared : List Field} {ns : Naming} {l : Layout} (h : assemble name table declared ns = .ok l)
    (hg : ∀ (f : Field) (primaryKey autoIncrement hasDefault : Bool),
      g { f with primaryKey, autoIncrement, hasDefault } = g f) :
    l.fields.map g = declared.map fun f => g (columned ns f) := by
  obtain ⟨-, -, -, -, -, hfields, -⟩ := assemble_ok h
  rw [hfields, map_markKeys _ _ _ hg, List.map_map]
  rfl

/-- Each field of a layout is one that is declared, with its column and its marks. -/
theorem getElem?_fields_of_assemble {name table : String} {declared : List Field} {ns : Naming}
    {l : Layout} (h : assemble name table declared ns = .ok l) (i : Nat) :
    l.fields[i]? = declared[i]?.map fun f => marked l.prioritized l.primary (columned ns f) i := by
  obtain ⟨-, -, -, -, -, hfields, -⟩ := assemble_ok h
  rw [hfields, markKeys_eq, List.getElem?_map, List.getElem?_zipIdx, List.getElem?_map, Nat.zero_add]
  cases declared[i]? <;> rfl

/-- What is true of the fields when they have their columns is true of the fields of the layout. -/
theorem forall_fields_of_assemble {P : Field → Prop} {name table : String} {declared : List Field}
    {ns : Naming} {l : Layout} (h : assemble name table declared ns = .ok l)
    (hmarks : ∀ (f : Field) (primaryKey autoIncrement hasDefault : Bool),
      P f → P { f with primaryKey, autoIncrement, hasDefault })
    (hdeclared : ∀ f ∈ declared, P (columned ns f)) : ∀ f ∈ l.fields, P f := by
  intro f' hf'
  obtain ⟨i, hi⟩ := List.getElem?_of_mem hf'
  rw [getElem?_fields_of_assemble h] at hi
  obtain ⟨f, hf, rfl⟩ := Option.map_eq_some_iff.mp hi
  obtain ⟨primaryKey, autoIncrement, hasDefault, heq⟩ :=
    marked_eq l.prioritized l.primary (columned ns f) i
  rw [heq]
  exact hmarks _ primaryKey autoIncrement hasDefault (hdeclared f (List.mem_of_getElem? hf))

/-- The columns of a layout are those of its fields, and each leads to a field that has it. -/
structure Consistent (l : Layout) : Prop where
  held : ∀ name position, l.byDbName.lookup name = some position →
    name ≠ "" ∧ ∃ f, l.field? position = some f ∧ f.dbName = name
  covered : ∀ position f, l.field? position = some f → f.dbName ≠ "" →
    ∃ holder, l.byDbName.lookup f.dbName = some holder
  columns : ∀ name, name ∈ l.dbNames ↔ ∃ position, l.byDbName.lookup name = some position
  nodup : l.dbNames.Nodup

/-- The layout was made of some fields. -/
def Assembled (l : Layout) : Prop :=
  ∃ name table declared ns, assemble name table declared ns = .ok l

theorem consistent_of_assemble {name table : String} {declared : List Field} {ns : Naming}
    {l : Layout} (h : assemble name table declared ns = .ok l) : l.Consistent := by
  obtain ⟨lookups, hlookups, -, -, -, hfields, -, hdbNames, hbyDbName, -⟩ :=
    assemble_ok h
  have hawards : lookups.Awards (declared.map (columned ns)) := hlookups ▸ Lookups.awards_all _
  -- The marks leave the columns as they are.
  have hcolumns : l.fields.map (·.dbName) = (declared.map (columned ns)).map (·.dbName) := by
    rw [hfields]
    exact map_markKeys _ _ _ fun _ _ _ _ => rfl
  constructor
  · intro name position hname
    rw [hbyDbName] at hname
    obtain ⟨f, hf⟩ := hawards.held name position hname
    obtain ⟨g, hg, hsame⟩ := exists_field_of_map hcolumns hf.contends.field
    exact ⟨hawards.ne_of_lookup hname, g, hg, hsame.trans hf.contends.column_eq⟩
  · intro position f hf hne
    obtain ⟨g, hg, hsame⟩ := exists_field_of_map hcolumns.symm hf
    have hsame : g.dbName = f.dbName := hsame
    rw [hbyDbName, ← hsame]
    exact hawards.exists_lookup (List.mem_of_getElem? hg) (hsame ▸ hne)
  · intro name
    rw [hdbNames, hbyDbName]
    exact hawards.columns name
  · rw [hdbNames]
    exact hawards.nodup

namespace Assembled

variable {l : Layout} {column : String} {position : Nat}

/-- The columns of a layout stand in the order of the fields that have them first. -/
theorem dbNames_eq (h : l.Assembled) : l.dbNames = columnsOf l.fields := by
  obtain ⟨_, _, declared, ns, h⟩ := h
  obtain ⟨lookups, hlookups, -, -, -, hfields, -, hdbNames, -⟩ := assemble_ok h
  have hawards : lookups.Awards (declared.map (columned ns)) := hlookups ▸ Lookups.awards_all _
  rw [hdbNames, hawards.dbNames_eq, hfields, columnsOf, columnsOf]
  rw [map_markKeys (g := (·.dbName)) _ _ _ fun _ _ _ _ => rfl]

/-- A column leads to its owner among all fields. -/
theorem owner_of_lookup (h : l.Assembled) (hlookup : l.byDbName.lookup column = some position) :
    ∃ f, OwnerOf l.fields column position f := by
  obtain ⟨_, _, declared, ns, h⟩ := h
  obtain ⟨lookups, hlookups, -, -, -, hfields, -, -, hbyDbName, -⟩ := assemble_ok h
  have hawards : lookups.Awards (declared.map (columned ns)) := hlookups ▸ Lookups.awards_all _
  rw [hbyDbName] at hlookup
  obtain ⟨g, hg⟩ := hawards.held column position hlookup
  refine hg.congr ?_
  rw [hfields]
  exact map_markKeys _ _ _ fun _ _ _ _ => rfl

theorem consistent (h : l.Assembled) : l.Consistent := by
  obtain ⟨_, _, _, _, h⟩ := h
  exact consistent_of_assemble h

end Assembled

namespace Consistent

variable {l : Layout} {column : String}

/-- Looking a column up finds a field that has it, if there is one. -/
theorem fieldByDbName_eq_some (h : l.Consistent) (column : String) :
    (∃ f, l.fieldByDbName column = some f ∧ f.dbName = column)
      ↔ column ≠ "" ∧ ∃ f ∈ l.fields, f.dbName = column := by
  constructor
  · rintro ⟨f, hf, hcolumn⟩
    obtain ⟨position, hposition, hfield⟩ := Option.bind_eq_some_iff.mp hf
    exact ⟨(h.held _ _ hposition).1, f, List.mem_of_getElem? hfield, hcolumn⟩
  · rintro ⟨hne, f, hf, rfl⟩
    obtain ⟨position, hposition⟩ := List.getElem?_of_mem hf
    obtain ⟨holder, hholder⟩ := h.covered position f hposition hne
    obtain ⟨-, g, hg, hcolumn⟩ := h.held _ _ hholder
    exact ⟨g, Option.bind_eq_some_iff.mpr ⟨holder, hholder, hg⟩, hcolumn⟩

theorem mem_dbNames (h : l.Consistent) (column : String) :
    column ∈ l.dbNames ↔ column ≠ "" ∧ ∃ f ∈ l.fields, f.dbName = column := by
  rw [h.columns, ← h.fieldByDbName_eq_some]
  constructor
  · rintro ⟨position, hposition⟩
    obtain ⟨-, f, hf, hcolumn⟩ := h.held _ _ hposition
    exact ⟨f, Option.bind_eq_some_iff.mpr ⟨position, hposition, hf⟩, hcolumn⟩
  · rintro ⟨f, hf, -⟩
    obtain ⟨position, hposition, -⟩ := Option.bind_eq_some_iff.mp hf
    exact ⟨position, hposition⟩

end Consistent

end Layout

/-! ## The records that a schema embeds -/

/-- What the columns of a record begin with where the field embeds it. -/
def Field.columnStart (container : Field) : String :=
  (container.settings.get? "EMBEDDEDPREFIX").getD ""

/-- The field by which a declaration embeds a record, if it does. -/
def DeclaredField.container? (model : String) (d : DeclaredField) : Option Field :=
  match Field.parse model d with
  | .ok (container, some _) => some container
  | _ => none

/-- The fields by which a record type embeds records, in the order of the records. -/
def Model.containers (m : Model) : List Field := m.fields.filterMap (·.container? m.name)

theorem Field.adopted_dbName (container : Field) (owner : Nat) {inner : Field} (h : inner.dbName ≠ "") :
    (Field.adopted container owner inner).dbName = container.columnStart ++ inner.dbName := by
  have hempty : inner.dbName.isEmpty = false := by
    rw [← Bool.not_eq_true]
    exact fun hempty => h (String.isEmpty_iff.mp hempty)
  rw [adopted, columnStart]
  cases container.settings.get? "EMBEDDEDPREFIX" with
  | none => exact (String.empty_append).symm
  | some start =>
    show (if inner.dbName.isEmpty = true then "" else start ++ inner.dbName) = _
    rw [hempty]
    rfl

/-- A record that embeds a field may change the beginning of its column, but leaves it without one. -/
theorem Field.dbName_adopted_eq_empty {container inner : Field} {owner : Nat} (h : inner.dbName = "") :
    (Field.adopted container owner inner).dbName = "" := by
  rw [adopted]
  cases container.settings.get? "EMBEDDEDPREFIX" with
  | none => exact h
  | some start =>
    show (if inner.dbName.isEmpty = true then "" else start ++ inner.dbName) = ""
    rw [if_pos (String.isEmpty_iff.mpr h)]

theorem exists_ok_of_bind {ε α β : Type} {x : Except ε α} {f : α → Except ε β} {b : β}
    (h : x >>= f = .ok b) : ∃ a, x = .ok a ∧ f a = .ok b := by
  cases x with
  | error e => cases h
  | ok a => exact ⟨a, rfl, h⟩

theorem exists_ok_of_map {ε α β : Type} {x : Except ε α} {f : α → β} {b : β} (h : x.map f = .ok b) :
    ∃ a, x = .ok a ∧ f a = b := by
  cases x with
  | error e => cases h
  | ok a =>
    cases h
    exact ⟨a, rfl, rfl⟩

theorem ok_of_toOption {ε α : Type} {x : Except ε α} {a : α} (h : x.toOption = some a) :
    x = .ok a := by
  cases x with
  | error e => cases h
  | ok b =>
    cases h
    rfl

theorem exists_of_mem_mapM_except {ε α β : Type} {f : α → Except ε β} {l : List α} {bs : List β}
    (h : l.mapM f = .ok bs) {b : β} (hb : b ∈ bs) : ∃ a ∈ l, f a = .ok b := by
  induction l generalizing bs with
  | nil =>
    cases h
    exact absurd hb List.not_mem_nil
  | cons a l ih =>
    rw [List.mapM_cons] at h
    obtain ⟨b', hb', h⟩ := exists_ok_of_bind h
    obtain ⟨bs', hbs', h⟩ := exists_ok_of_bind h
    cases h
    obtain rfl | hb := List.mem_cons.mp hb
    · exact ⟨a, List.mem_cons_self, hb'⟩
    · obtain ⟨a', ha', hok⟩ := ih hbs' hb
      exact ⟨a', List.mem_cons_of_mem _ ha', hok⟩

theorem exists_mem_of_mapM_except {ε α β : Type} {f : α → Except ε β} {l : List α} {bs : List β}
    (h : l.mapM f = .ok bs) {a : α} (ha : a ∈ l) : ∃ b ∈ bs, f a = .ok b := by
  induction l generalizing bs with
  | nil => exact absurd ha List.not_mem_nil
  | cons a' l ih =>
    rw [List.mapM_cons] at h
    obtain ⟨b, hb, h⟩ := exists_ok_of_bind h
    obtain ⟨bs', hbs', h⟩ := exists_ok_of_bind h
    cases h
    obtain rfl | ha := List.mem_cons.mp ha
    · exact ⟨b, List.mem_cons_self, hb⟩
    · obtain ⟨b', hmem, hok⟩ := ih hbs' ha
      exact ⟨b', List.mem_cons_of_mem _ hmem, hok⟩

theorem map_eq_of_mapM_except {ε α β γ : Type} {f : α → Except ε β} {g : β → γ} {k : α → γ}
    (hf : ∀ a b, f a = .ok b → g b = k a) {l : List α} {bs : List β} (h : l.mapM f = .ok bs) :
    bs.map g = l.map k := by
  induction l generalizing bs with
  | nil =>
    cases h
    rfl
  | cons a l ih =>
    rw [List.mapM_cons] at h
    obtain ⟨b, hb, h⟩ := exists_ok_of_bind h
    obtain ⟨bs', hbs', h⟩ := exists_ok_of_bind h
    cases h
    rw [List.map_cons, List.map_cons, hf a b hb, ih hbs']

theorem refuse_ok {α : Type} {x : Except Error α} {a : α} (h : refuse x = .ok a) : x = .ok a := by
  cases x with
  | error e => cases h
  | ok b =>
    cases h
    rfl

/-- The fields of declarations and the layouts of the records that they embed, of which `count` have
gone before. -/
inductive Flattened (embed : ModelRef → Except ParseFailure Layout) (model : String) :
    Nat → List DeclaredField → List Field → List Layout → Prop where
  | nil {count : Nat} : Flattened embed model count [] [] []
  /-- The declaration is a field of the record itself. -/
  | own {count : Nat} {d : DeclaredField} {ds : List DeclaredField} {f : Field}
    {fields : List Field} {layouts : List Layout} (hparse : Field.parse model d = .ok (f, none))
    (hrest : Flattened embed model count ds fields layouts) :
    Flattened embed model count (d :: ds) (f :: fields) layouts
  /-- The declaration embeds a record, which it adopts the fields of. -/
  | embedded {count : Nat} {d : DeclaredField} {ds : List DeclaredField} {container : Field}
    {inner : ModelRef} {layout : Layout} {fields : List Field} {layouts : List Layout}
    (hparse : Field.parse model d = .ok (container, some inner)) (hembed : embed inner = .ok layout)
    (hrest : Flattened embed model (count + 1) ds fields layouts) :
    Flattened embed model count (d :: ds) (layout.fields.map (Field.adopted container count) ++ fields)
      (layout :: layouts)

/-- There is nothing else that fields are flattened to. -/
theorem flattened_of_ok {embed : ModelRef → Except ParseFailure Layout} {model : String}
    {count : Nat} {ds : List DeclaredField} {fields : List Field} {layouts : List Layout}
    (h : flattenFields embed model count ds = .ok (fields, layouts)) :
    Flattened embed model count ds fields layouts := by
  induction ds generalizing count fields layouts with
  | nil =>
    cases h
    exact .nil
  | cons d ds ih =>
    rw [flattenFields] at h
    obtain ⟨⟨field, inner⟩, hparse, h⟩ := exists_ok_of_bind h
    cases inner with
    | none =>
      obtain ⟨⟨fields', layouts'⟩, hrest, h⟩ := exists_ok_of_bind h
      cases h
      exact .own (refuse_ok hparse) (ih hrest)
    | some inner =>
      obtain ⟨layout, hembed, h⟩ := exists_ok_of_bind h
      obtain ⟨⟨fields', layouts'⟩, hrest, h⟩ := exists_ok_of_bind h
      cases h
      exact .embedded (refuse_ok hparse) hembed (ih hrest)

/-- The fields of every embedded record are among the fields, adopted by the field that embeds
it. -/
theorem Flattened.mem {embed : ModelRef → Except ParseFailure Layout} {model : String}
    {count : Nat} {ds : List DeclaredField} {fields : List Field} {layouts : List Layout}
    (h : Flattened embed model count ds fields layouts) {index : Nat} {layout : Layout}
    (hlayout : layouts[index]? = some layout) :
    ∃ container, (ds.filterMap (·.container? model))[index]? = some container
      ∧ (∃ inner, embed inner = .ok layout)
      ∧ ∀ f ∈ layout.fields, Field.adopted container (count + index) f ∈ fields := by
  induction h generalizing index with
  | nil => cases hlayout
  | @own count d ds f fields layouts hparse _ ih =>
    have hnone : d.container? model = none := by rw [DeclaredField.container?, hparse]
    obtain ⟨container, hcontainer, hembed, hfields⟩ := ih hlayout
    rw [List.filterMap_cons_none hnone]
    exact ⟨container, hcontainer, hembed, fun f hf => List.mem_cons_of_mem _ (hfields f hf)⟩
  | @embedded count d ds container inner first fields layouts hparse hembed _ ih =>
    have hsome : d.container? model = some container := by rw [DeclaredField.container?, hparse]
    rw [List.filterMap_cons_some hsome]
    cases index with
    | zero =>
      cases hlayout
      exact ⟨container, rfl, ⟨inner, hembed⟩, fun f hf =>
        List.mem_append_left _ (List.mem_map_of_mem hf)⟩
    | succ index =>
      obtain ⟨container', hcontainer, hembed', hfields⟩ := ih hlayout
      refine ⟨container', hcontainer, hembed', fun f hf => ?_⟩
      rw [show count + (index + 1) = count + 1 + index by omega]
      exact List.mem_append_right _ (hfields f hf)

/-- What is true of the fields of embedded records and kept when they are adopted, and true of fields
that are declared, is true of all fields of a record type. -/
theorem Flattened.forall_fields {P Q : Field → Prop}
    {embed : ModelRef → Except ParseFailure Layout} {model : String} {count : Nat}
    {ds : List DeclaredField} {fields : List Field} {layouts : List Layout}
    (hdeclared : ∀ d f inner, Field.parse model d = .ok (f, inner) → Q f)
    (hembedded : ∀ inner layout, embed inner = .ok layout → ∀ f ∈ layout.fields, P f)
    (hadopted : ∀ container owner f, P f → Q (Field.adopted container owner f))
    (h : Flattened embed model count ds fields layouts) : ∀ f ∈ fields, Q f := by
  induction h with
  | nil => exact List.forall_mem_nil _
  | own hparse _ ih => exact List.forall_mem_cons.mpr ⟨hdeclared _ _ _ hparse, ih⟩
  | embedded hparse hembed _ ih =>
    refine List.forall_mem_append.mpr ⟨List.forall_mem_map.mpr fun f hf => ?_, ih⟩
    exact hadopted _ _ f (hembedded _ _ hembed f hf)

namespace Schema

variable {catalog : Catalog} {ns : Naming} {s : Schema}

/-- What `ofModel` makes of a record type, in which records are embedded one step less deep. -/
theorem ofModel_succ_ok {table : String} {below : Nat} {model : Model}
    (h : ofModel catalog ns table (below + 1) model = .ok s) :
    ∃ fields, flattenFields (fun inner =>
          (ofModel catalog ns table below (catalog.describe inner)).map (·.toLayout))
        model.name 0 model.fields = .ok (fields, s.embedded)
      ∧ Layout.assemble model.name table fields ns = .ok s.toLayout := by
  rw [ofModel] at h
  split at h
  · cases h
  · obtain ⟨⟨fields, embedded⟩, hfields, h⟩ := exists_ok_of_bind h
    obtain ⟨layout, hlayout, h⟩ := exists_ok_of_bind h
    cases h
    exact ⟨fields, hfields, refuse_ok hlayout⟩

theorem ofModel_ok {table : String} {depth : Nat} {model : Model}
    (h : ofModel catalog ns table depth model = .ok s) :
    ∃ below fields, flattenFields (fun inner =>
          (ofModel catalog ns table below (catalog.describe inner)).map (·.toLayout))
        model.name 0 model.fields = .ok (fields, s.embedded)
      ∧ Layout.assemble model.name table fields ns = .ok s.toLayout := by
  cases depth with
  | zero => cases h
  | succ below => exact ⟨below, ofModel_succ_ok h⟩

/-- A schema is made of its fields, and so are the records that it embeds. -/
theorem assembled_of_parse {ref : ModelRef} {table : Option String}
    (h : parse catalog ns ref table = .ok s) :
    s.toLayout.Assembled
      ∧ ∀ (index : Nat) (layout : Layout), s.embedded[index]? = some layout → layout.Assembled := by
  obtain ⟨below, fields, hfields, hlayout⟩ := ofModel_ok h
  refine ⟨⟨_, _, _, _, hlayout⟩, fun index layout hindex => ?_⟩
  obtain ⟨container, -, ⟨inner, hembed⟩, -⟩ := (flattened_of_ok hfields).mem hindex
  obtain ⟨embedded, hmodel, rfl⟩ := exists_ok_of_map hembed
  obtain ⟨_, _, -, hassembled⟩ := ofModel_ok hmodel
  exact ⟨_, _, _, _, hassembled⟩

/-- A schema and the records it embeds have the columns of their fields. A field of an embedded
record is one of the schema, and its column begins as the field says that embeds the record. -/
theorem parse_ok {ref : ModelRef} {table : Option String} (h : parse catalog ns ref table = .ok s) :
    s.toLayout.Consistent ∧ ∀ index layout, s.embedded[index]? = some layout →
      layout.Consistent ∧ ∃ container, (catalog.describe ref).containers[index]? = some container
        ∧ ∀ f ∈ layout.fields, f.dbName ≠ "" → ∃ f' ∈ s.fields,
          f'.owner = some index ∧ f'.name = f.name
            ∧ f'.dbName = container.columnStart ++ f.dbName := by
  obtain ⟨below, fields, hfields, hlayout⟩ := ofModel_ok h
  refine ⟨Layout.consistent_of_assemble hlayout, fun index layout hindex => ?_⟩
  obtain ⟨container, hcontainer, -, hadopted⟩ := (flattened_of_ok hfields).mem hindex
  obtain ⟨_, _, _, _, hassembled⟩ := (assembled_of_parse h).2 index layout hindex
  refine ⟨Layout.consistent_of_assemble hassembled, container, hcontainer, fun f hf hne => ?_⟩
  -- The adopted field has a column, so it keeps that.
  have hmem := hadopted f hf
  rw [Nat.zero_add] at hmem
  have hcolumn := Field.adopted_dbName container index hne
  have hkept : Layout.columned ns (Field.adopted container index f)
      = Field.adopted container index f := by
    refine Layout.columned_eq_self fun hempty => hne ?_
    rw [hcolumn] at hempty
    exact (String.append_eq_empty_iff.mp hempty).2
  have hmap := Layout.map_fields_of_assemble (g := fun f => (f.owner, f.name, f.dbName)) hlayout
    fun _ _ _ _ => rfl
  have hentry : (some index, f.name, container.columnStart ++ f.dbName)
      ∈ s.fields.map fun f => (f.owner, f.name, f.dbName) := by
    rw [hmap]
    refine List.mem_map.mpr ⟨_, hmem, ?_⟩
    rw [hkept, hcolumn]
    rfl
  obtain ⟨f', hf', heq⟩ := List.mem_map.mp hentry
  simp only [Prod.mk.injEq] at heq
  exact ⟨f', hf', heq⟩

end Schema

end RecordSql
