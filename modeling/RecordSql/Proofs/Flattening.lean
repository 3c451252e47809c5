/-
  RecordSql.Proofs.Flattening

  Embedded records, flattened by path.  The leaves of a record type are the
  fields that it declares itself and, in their places, those of the records that
  it embeds, and so on inwards (`Flattens`).  What becomes of a leaf is told by
  the declarations on the way to it (`Leaf.Becomes`): they are its path, their
  beginnings stand before its column, and the outermost that has a setting
  decides about it.

  The schema is made the other way round.  Each level makes a layout of its own,
  with columns and a primary key, and the next level adopts copies of its fields;
  so the proof follows the levels, and shows what one adoption does to a leaf
  (`Leaf.Becomes.adopted`).
-/

import Mathlib.Data.List.Forall2
import RecordSql.Proofs.DeclaredFields
import RecordSql.Proofs.EmbeddingCycles

namespace RecordSql

/-! ## Settings put over others -/

namespace Tag.Settings

theorem lookup_filter_of_ne {key other : String} (h : other ≠ key) (entries : List (String × String)) :
    (entries.filter (·.1 != key)).lookup other = entries.lookup other := by
  induction entries with
  | nil => rfl
  | cons entry entries ih =>
    obtain ⟨k, value⟩ := entry
    by_cases hk : k = key
    · have hother : (other == k) = false := beq_false_of_ne (hk ▸ h)
      rw [List.filter_cons_of_neg (by simpa using hk), List.lookup_cons, hother, ih]
    · rw [List.filter_cons_of_pos (by simpa using hk), List.lookup_cons, List.lookup_cons, ih]

theorem get?_insert (s : Settings) (key value other : String) :
    (s.insert key value).get? other = if other = key then some value else s.get? other := by
  rw [get?, insert, List.reverse_append, List.reverse_singleton, List.singleton_append,
    List.lookup_cons, ← List.filter_reverse]
  by_cases h : other = key
  · rw [if_pos h, h, beq_self_eq_true]
  · rw [if_neg h, beq_false_of_ne h, lookup_filter_of_ne h]
    rfl

/-- Of two tags put together the one put over the other decides, where it has a setting. -/
theorem get?_merge (s other : Settings) (key : String) :
    (s.merge other).get? key = (other.get? key).or (s.get? key) := by
  obtain ⟨entries⟩ := other
  rw [merge]
  show (entries.foldl _ s).get? key = (entries.reverse.lookup key).or (s.get? key)
  induction entries generalizing s with
  | nil => rfl
  | cons entry entries ih =>
    obtain ⟨k, value⟩ := entry
    rw [List.foldl_cons, ih, get?_insert, List.reverse_cons, List.lookup_append, Option.or_assoc,
      List.lookup_cons]
    congr 1
    by_cases h : key = k
    · rw [if_pos h, h, beq_self_eq_true]
      rfl
    · rw [if_neg h, beq_false_of_ne h]
      rfl

end Tag.Settings

/-! ## Leaves -/

namespace DeclaredField

/-- What the columns of a record begin with where the declaration embeds it. -/
def columnStart (d : DeclaredField) : String := (d.settings.get? "EMBEDDEDPREFIX").getD ""

/-- The column that the field has in its own record type, or none. -/
def column (ns : Naming) (d : DeclaredField) : String :=
  (d.settings.value? "COLUMN").getD (if d.columnType?.isSome then ns.columnName d.name else "")

/-- A field without a column has no name for one either, or no type. -/
theorem columnName_eq_of_column_eq {ns : Naming} {d : DeclaredField} (h : d.column ns = "") :
    (if d.columnType?.isSome then ns.columnName d.name else "") = "" := by
  rw [column] at h
  cases hvalue : d.settings.value? "COLUMN" with
  | none =>
    rw [hvalue] at h
    exact h
  | some value =>
    -- A setting that counts is not empty.
    rw [hvalue, Option.getD_some] at h
    rw [Tag.Settings.value?, Option.filter_eq_some_iff] at hvalue
    have hne : value.isEmpty = false := by simpa using hvalue.2
    rw [h] at hne
    cases hne

end DeclaredField

/-- A field of a record type, or of one that it embeds, with the declarations on the way to it, the
outermost first. -/
structure Leaf where
  containers : List DeclaredField
  declared : DeclaredField
  deriving DecidableEq, Repr

namespace Leaf

/-- The leaf in a record that the declaration embeds. -/
def within (d : DeclaredField) (leaf : Leaf) : Leaf :=
  { leaf with containers := d :: leaf.containers }

/-- The names that lead to the leaf. -/
def path (leaf : Leaf) : List String := leaf.containers.map (·.name) ++ [leaf.declared.name]

/-- What the column begins with: the beginnings of the containers, from the outermost inwards. -/
def columnStart (leaf : Leaf) : String := String.join (leaf.containers.map (·.columnStart))

/-- The column in the leaf's own record type, with its beginning; none if there is none there. -/
def column (ns : Naming) (leaf : Leaf) : String :=
  if leaf.declared.column ns = "" then "" else leaf.columnStart ++ leaf.declared.column ns

/-- The setting of the outermost declaration that has one with the key, or else of the leaf itself. -/
def setting? (leaf : Leaf) (key : String) : Option String :=
  (leaf.containers ++ [leaf.declared]).findSome? (·.settings.get? key)

end Leaf

/-- The leaves of declarations, depth first in the order of declaration. -/
inductive Flattens (catalog : Catalog) : List DeclaredField → List Leaf → Prop where
  | nil : Flattens catalog [] []
  | leaf {d : DeclaredField} {ds : List DeclaredField} {leaves : List Leaf}
    (hown : d.embedded? = none) (hrest : Flattens catalog ds leaves) :
    Flattens catalog (d :: ds) (⟨[], d⟩ :: leaves)
  | record {d : DeclaredField} {ds : List DeclaredField} {inner : ModelRef}
    {inside leaves : List Leaf} (hembeds : d.embedded? = some inner)
    (hinside : Flattens catalog (catalog.describe inner).fields inside)
    (hrest : Flattens catalog ds leaves) :
    Flattens catalog (d :: ds) (inside.map (Leaf.within d) ++ leaves)

/-- The field of a schema is what the leaf is flattened to. -/
structure Leaf.Becomes (ns : Naming) (leaf : Leaf) (f : Field) : Prop where
  name : f.name = leaf.declared.name
  bindNames : f.bindNames = leaf.path
  dbName : f.dbName = leaf.column ns
  dataType : f.dataType = leaf.declared.columnType?
  settings : ∀ key, f.settings.get? key = leaf.setting? key

/-- There is one way to flatten declarations. -/
theorem Flattens.unique {catalog : Catalog} {ds : List DeclaredField} {leaves leaves' : List Leaf}
    (h : Flattens catalog ds leaves) (h' : Flattens catalog ds leaves') : leaves' = leaves := by
  induction h generalizing leaves' with
  | nil =>
    cases h'
    rfl
  | leaf hown _ ih =>
    cases h' with
    | leaf _ hrest' => rw [ih hrest']
    | record hembeds' =>
      rw [hown] at hembeds'
      cases hembeds'
  | record hembeds _ _ ihinside ih =>
    cases h' with
    | leaf hown' =>
      rw [hembeds] at hown'
      cases hown'
    | record hembeds' hinside' hrest' =>
      rw [hembeds] at hembeds'
      cases hembeds'
      rw [ihinside hinside', ih hrest']

/-! ## One level -/

namespace Leaf

variable {ns : Naming} {leaf : Leaf} {d : DeclaredField} {f container : Field}

/-- The column of a leaf with no way to it is that of its declaration. -/
theorem column_of_own (d : DeclaredField) : (⟨[], d⟩ : Leaf).column ns = d.column ns := by
  rw [column]
  split
  · next hempty => exact hempty.symm
  · exact String.empty_append

/-- A field that a record type declares itself is a leaf with no way to it. -/
theorem becomes_of_readFrom (h : f.ReadFrom d) :
    (⟨[], d⟩ : Leaf).Becomes ns (Layout.columned ns f) := by
  have hcolumn : (Layout.columned ns f).dbName = d.column ns := by
    rw [DeclaredField.column]
    cases hvalue : d.settings.value? "COLUMN" with
    | none =>
      have hempty : f.dbName = "" := by rw [h.dbName, hvalue, Option.getD_none]
      rw [Layout.columned_dbName hempty, h.dataType, h.name, Option.getD_none]
    | some value =>
      have hkept : f.dbName = value := by rw [h.dbName, hvalue, Option.getD_some]
      have hne : f.dbName ≠ "" := by
        rw [Tag.Settings.value?, Option.filter_eq_some_iff] at hvalue
        rw [hkept]
        simpa using hvalue.2
      rw [Layout.columned_eq_self hne, hkept, Option.getD_some]
  obtain ⟨dbName, heq⟩ := Layout.columned_eq ns f
  rw [heq] at hcolumn ⊢
  constructor
  · exact h.name
  · exact h.bindNames
  · exact hcolumn.trans (column_of_own d).symm
  · exact h.dataType
  · intro key
    show f.settings.get? key = _
    rw [h.settings, setting?, List.nil_append, List.findSome?_singleton]

theorem column_eq_empty (h : leaf.declared.column ns = "") : leaf.column ns = "" := by
  rw [column, if_pos h]

theorem column_ne_empty (h : leaf.declared.column ns ≠ "") : leaf.column ns ≠ "" := by
  rw [column, if_neg h]
  exact fun hempty => h (String.append_eq_empty_iff.mp hempty).2

/-- A container puts its beginning before the column, if there is one. -/
theorem column_within (d : DeclaredField) (h : leaf.declared.column ns ≠ "") :
    (leaf.within d).column ns = d.columnStart ++ leaf.column ns := by
  have hstart : (leaf.within d).columnStart = d.columnStart ++ leaf.columnStart := String.join_cons
  rw [column, column, if_neg h, if_neg (show (leaf.within d).declared.column ns ≠ "" from h), hstart,
    String.append_assoc]
  rfl

/-- When a record is embedded, the column of its field gets the beginning that the container gives. -/
theorem Becomes.column_adopted (h : leaf.Becomes ns f) (hcontainer : container.ReadFrom d)
    (owner : Nat) :
    (Layout.columned ns (Field.adopted container owner f)).dbName = (leaf.within d).column ns := by
  by_cases hnone : leaf.declared.column ns = ""
  · -- There is no column, and the name still gives none.
    have hempty : f.dbName = "" := by rw [h.dbName, column_eq_empty hnone]
    have hnoname := DeclaredField.columnName_eq_of_column_eq hnone
    rw [← h.dataType, ← h.name] at hnoname
    have hwithin : (leaf.within d).column ns = "" := column_eq_empty hnone
    rw [Layout.columned_dbName (Field.dbName_adopted_eq_empty hempty), hwithin]
    exact hnoname
  · have hne : f.dbName ≠ "" := by
      rw [h.dbName]
      exact column_ne_empty hnone
    have hstart : container.columnStart = d.columnStart := by
      rw [Field.columnStart, hcontainer.settings]
      rfl
    have hcolumn : (Field.adopted container owner f).dbName = (leaf.within d).column ns := by
      rw [Field.adopted_dbName container owner hne, hstart, h.dbName, column_within d hnone]
    have hkept : (Field.adopted container owner f).dbName ≠ "" := by
      rw [hcolumn]
      exact column_ne_empty hnone
    rw [Layout.columned_eq_self hkept, hcolumn]

/-- A leaf keeps what it becomes when the record that it is in is embedded: the path and the column
get a beginning, and the settings of the container are put over its own. -/
theorem Becomes.adopted (h : leaf.Becomes ns f) (hcontainer : container.ReadFrom d) (owner : Nat) :
    (leaf.within d).Becomes ns (Layout.columned ns (Field.adopted container owner f)) := by
  have hcolumn := h.column_adopted hcontainer owner
  obtain ⟨dbName, heq⟩ := Layout.columned_eq ns (Field.adopted container owner f)
  rw [heq] at hcolumn ⊢
  constructor
  · exact h.name
  · show container.name :: f.bindNames = _
    rw [hcontainer.name, h.bindNames]
    rfl
  · exact hcolumn
  · exact h.dataType
  · intro key
    show (f.settings.merge container.settings).get? key = _
    rw [Tag.Settings.get?_merge, hcontainer.settings, h.settings]
    rw [setting?, setting?, within, List.cons_append, List.findSome?_cons]
    cases d.settings.get? key <;> rfl

end Leaf

/-- What the fields of a layout are to something, they are to it one by one as they are declared. -/
theorem Layout.forall₂_fields_of_assemble {α : Type} {R : α → Field → Prop} {name table : String}
    {declared : List Field} {ns : Naming} {l : Layout} (h : assemble name table declared ns = .ok l)
    (hmarks : ∀ (a : α) (f : Field) (primaryKey autoIncrement hasDefault : Bool),
      R a f → R a { f with primaryKey, autoIncrement, hasDefault }) {as : List α}
    (hdeclared : List.Forall₂ (fun a f => R a (columned ns f)) as declared) :
    List.Forall₂ R as l.fields := by
  obtain ⟨-, -, -, -, -, hfields, -⟩ := assemble_ok h
  have hpositions : List.Forall₂ (fun a (entry : Field × Nat) => R a entry.1) as
      (declared.map (columned ns)).zipIdx := by
    rw [← List.forall₂_map_right_iff, List.zipIdx_map_fst, List.forall₂_map_right_iff]
    exact hdeclared
  rw [hfields, markKeys_eq, List.forall₂_map_right_iff]
  refine hpositions.imp fun a (f, i) hf => ?_
  obtain ⟨primaryKey, autoIncrement, hasDefault, heq⟩ := marked_eq l.prioritized l.primary f i
  show R a (marked l.prioritized l.primary f i)
  rw [heq]
  exact hmarks a f primaryKey autoIncrement hasDefault hf

/-! ## All levels -/

/-- If the embedded records are flattened to their leaves, so are the fields that embed them. -/
theorem Flattened.exists_leaves {catalog : Catalog} {ns : Naming}
    {embed : ModelRef → Except ParseFailure Layout} {model : String} {count : Nat}
    {ds : List DeclaredField} {fields : List Field} {layouts : List Layout}
    (hembedded : ∀ inner layout, embed inner = .ok layout →
      ∃ leaves, Flattens catalog (catalog.describe inner).fields leaves
        ∧ List.Forall₂ (Leaf.Becomes ns) leaves layout.fields)
    (h : Flattened embed model count ds fields layouts) :
    ∃ leaves, Flattens catalog ds leaves
      ∧ List.Forall₂ (fun leaf f => leaf.Becomes ns (Layout.columned ns f)) leaves fields := by
  induction h with
  | nil => exact ⟨[], .nil, .nil⟩
  | @own count d ds f fields layouts hparse _ ih =>
    obtain ⟨leaves, hleaves, hfields⟩ := ih
    obtain ⟨hread, hown⟩ := Field.readFrom_of_parse hparse
    exact ⟨⟨[], d⟩ :: leaves, .leaf hown.symm hleaves,
      .cons (Leaf.becomes_of_readFrom hread) hfields⟩
  | @embedded count d ds container inner layout fields layouts hparse hembed _ ih =>
    obtain ⟨leaves, hleaves, hfields⟩ := ih
    obtain ⟨inside, hinside, hinner⟩ := hembedded inner layout hembed
    obtain ⟨hread, hembeds⟩ := Field.readFrom_of_parse hparse
    refine ⟨inside.map (Leaf.within d) ++ leaves, .record hembeds.symm hinside hleaves,
      List.rel_append ?_ hfields⟩
    rw [List.forall₂_map_left_iff, List.forall₂_map_right_iff]
    exact hinner.imp fun leaf f hf => hf.adopted hread count

namespace Schema

variable {catalog : Catalog} {ns : Naming} {s : Schema} {table : String} {depth : Nat} {model : Model}

theorem exists_leaves_of_ofModel (h : ofModel catalog ns table depth model = .ok s) :
    ∃ leaves, Flattens catalog model.fields leaves
      ∧ List.Forall₂ (Leaf.Becomes ns) leaves s.fields := by
  -- By induction on how deep records are embedded: the embedded ones are schemas themselves.
  induction depth generalizing model s with
  | zero => cases h
  | succ below ih =>
    obtain ⟨fields, hfields, hlayout⟩ := ofModel_succ_ok h
    obtain ⟨leaves, hleaves, hdeclared⟩ := (flattened_of_ok hfields).exists_leaves
      fun inner layout hembed => by
        obtain ⟨embedded, hinner, rfl⟩ := exists_ok_of_map hembed
        exact ih hinner
    refine ⟨leaves, hleaves, Layout.forall₂_fields_of_assemble hlayout ?_ hdeclared⟩
    intro leaf f _ _ _ hf
    exact ⟨hf.name, hf.bindNames, hf.dbName, hf.dataType, hf.settings⟩

/-- Reading a record type ends if reading those that it embeds does. -/
theorem ofModel_ne_endless (h : ∀ d ∈ model.fields, ∀ inner, d.embedded? = some inner →
      ofModel catalog ns table depth (catalog.describe inner) ≠ .error .endless) :
    ofModel catalog ns table (depth + 1) model ≠ .error .endless := by
  intro hendless
  cases hnamed : model.name.isEmpty with
  | true =>
    rw [ofModel_succ_unnamed hnamed] at hendless
    cases hendless
  | false =>
    rw [ofModel_succ_endless_iff hnamed] at hendless
    obtain ⟨before, d, after, field, inner, flat, hfields, -, hd, hinner⟩ :=
      flattenFields_endless hendless
    have hmem : d ∈ model.fields := by
      rw [hfields]
      exact List.mem_append_right before List.mem_cons_self
    exact h d hmem inner (Field.readFrom_of_parse hd).2.symm (embedWithin_endless_iff.mp hinner)

end Schema

/-- What is flattened is embedded to a finite depth: some depth is enough for all records that the
declarations embed. -/
theorem Flattens.exists_depth {catalog : Catalog} {ds : List DeclaredField} {leaves : List Leaf}
    (h : Flattens catalog ds leaves) (ns : Naming) (table : String) :
    ∃ depth, ∀ d ∈ ds, ∀ inner, d.embedded? = some inner →
      Schema.ofModel catalog ns table depth (catalog.describe inner) ≠ .error .endless := by
  induction h with
  | nil => exact ⟨0, List.forall_mem_nil _⟩
  | leaf hown _ ih =>
    obtain ⟨depth, hrest⟩ := ih
    refine ⟨depth, List.forall_mem_cons.mpr ⟨fun inner hembeds => ?_, hrest⟩⟩
    rw [hown] at hembeds
    cases hembeds
  | record hembeds _ _ ihinside ih =>
    obtain ⟨inside, hinside⟩ := ihinside
    obtain ⟨depth, hrest⟩ := ih
    refine ⟨max (inside + 1) depth, List.forall_mem_cons.mpr ⟨fun inner hinner => ?_,
      fun d hd inner hinner => ?_⟩⟩
    · rw [hembeds] at hinner
      cases hinner
      have hends := Schema.ofModel_ne_endless hinside
      rw [Schema.ofModel_mono (Nat.le_max_left _ _) hends]
      exact hends
    · have hends := hrest d hd inner hinner
      rw [Schema.ofModel_mono (Nat.le_max_right _ _) hends]
      exact hends

namespace Schema

/-- Reading a record type that embeds others to a finite depth ends. A schema has the leaves of its
record type for fields, and there is one way to flatten it: each leaf has the names that lead to it for
its path, the beginnings of its containers before its column, and the settings of the outermost
declaration that has them. -/
theorem fields_flattened_by_path (catalog : Catalog) (ns : Naming) (ref : ModelRef)
    (table : Option String) :
    ((∃ leaves, Flattens catalog (catalog.describe ref).fields leaves) →
      parse catalog ns ref table ≠ .error .endless)
    ∧ ∀ s, parse catalog ns ref table = .ok s →
      ∃ leaves, (∀ other, Flattens catalog (catalog.describe ref).fields other ↔ other = leaves)
        ∧ List.Forall₂ (Leaf.Becomes ns) leaves s.fields := by
  constructor
  · rintro ⟨leaves, hleaves⟩ hendless
    obtain ⟨depth, hinside⟩ := hleaves.exists_depth ns (tableOf ns (catalog.describe ref) table)
    have hforever := parse_endless_iff.mp hendless
    exact ofModel_ne_endless hinside (hforever.endless (depth + 1))
  · intro s h
    obtain ⟨leaves, hleaves, hfields⟩ := exists_leaves_of_ofModel h
    refine ⟨leaves, fun other => ⟨hleaves.unique, ?_⟩, hfields⟩
    rintro rfl
    exact hleaves

/-! ## People -/

/-- A person lives somewhere on the map, and has the stamps of a row without a name for them. -/
def people : Catalog :=
  ⟨[ ( "Person",
      { name := "Person"
        fields :=
          [ { name := "ID", kind := .uint 64 }
          , { name := "Home", kind := .record ⟨"Address", "Address"⟩
              tag := "embedded;embeddedPrefix:home_" }
          , { name := "Stamps", kind := .ptr (.record ⟨"Stamps", "Stamps"⟩), anonymous := true } ] } )
    , ( "Address",
      { name := "Address"
        fields :=
          [ { name := "Street", kind := .string }
          , { name := "Point", kind := .ptr (.record ⟨"Point", "Point"⟩)
              tag := "embedded;embeddedPrefix:at_" } ] } )
    , ( "Point",
      { name := "Point"
        fields :=
          [ { name := "Lat", kind := .float 64, tag := "column:latitude" }
          , { name := "Note", kind := .string, tag := "-" } ] } )
    , ("Stamps", { name := "Stamps", fields := [{ name := "CreatedAt", kind := .time }] }) ]⟩

/-- The leaves of a person. -/
def personLeaves : List Leaf :=
  let home : DeclaredField :=
    { name := "Home", kind := .record ⟨"Address", "Address"⟩, tag := "embedded;embeddedPrefix:home_" }
  let point : DeclaredField :=
    { name := "Point", kind := .ptr (.record ⟨"Point", "Point"⟩), tag := "embedded;embeddedPrefix:at_" }
  let stamps : DeclaredField :=
    { name := "Stamps", kind := .ptr (.record ⟨"Stamps", "Stamps"⟩), anonymous := true }
  [ ⟨[], { name := "ID", kind := .uint 64 }⟩
  , ⟨[home], { name := "Street", kind := .string }⟩
  , ⟨[home, point], { name := "Lat", kind := .float 64, tag := "column:latitude" }⟩
  , ⟨[home, point], { name := "Note", kind := .string, tag := "-" }⟩
  , ⟨[stamps], { name := "CreatedAt", kind := .time }⟩ ]

theorem flattens_people :
    Flattens people (people.describe ⟨"Person", "Person"⟩).fields personLeaves := by
  have hpoint : Flattens people (people.describe ⟨"Point", "Point"⟩).fields _ :=
    .leaf (by decide +kernel) (.leaf (by decide +kernel) .nil)
  have haddress : Flattens people (people.describe ⟨"Address", "Address"⟩).fields _ :=
    .leaf (by decide +kernel) (.record (by decide +kernel) hpoint .nil)
  have hstamps : Flattens people (people.describe ⟨"Stamps", "Stamps"⟩).fields _ :=
    .leaf (by decide +kernel) .nil
  exact .leaf (by decide +kernel) (.record (by decide +kernel) haddress
    (.record (by decide +kernel) hstamps .nil))

/-- A person has five fields. The two beginnings stand before the latitude, the note has no column, and
of the settings of the beginnings the outer one counts. -/
theorem fields_flattened_by_path_people :
    parse people {} ⟨"Person", "Person"⟩ none ≠ .error .endless
    ∧ ∃ s, parse people {} ⟨"Person", "Person"⟩ none = .ok s
      ∧ List.Forall₂ (Leaf.Becomes {}) personLeaves s.fields
      ∧ personLeaves.map (·.path) = [["ID"], ["Home", "Street"], ["Home", "Point", "Lat"],
        ["Home", "Point", "Note"], ["Stamps", "CreatedAt"]]
      ∧ personLeaves.map (·.column {})
        = ["id", "home_street", "home_at_latitude", "", "created_at"]
      ∧ personLeaves.map (·.setting? "EMBEDDEDPREFIX")
        = [none, some "home_", some "home_", some "home_", none] := by
  have hparsed : (parse people {} ⟨"Person", "Person"⟩ none).toOption.isSome = true := by
    decide +kernel
  obtain ⟨s, hs⟩ := Option.isSome_iff_exists.mp hparsed
  have hok : parse people {} ⟨"Person", "Person"⟩ none = .ok s := ok_of_toOption hs
  obtain ⟨hends, hflat⟩ := fields_flattened_by_path people {} ⟨"Person", "Person"⟩ none
  obtain ⟨leaves, hleaves, hfields⟩ := hflat s hok
  obtain rfl := (hleaves personLeaves).mp flattens_people
  exact ⟨hends ⟨_, flattens_people⟩, s, hok, hfields, by decide +kernel, by decide +kernel,
    by decide +kernel⟩

end Schema

end RecordSql
