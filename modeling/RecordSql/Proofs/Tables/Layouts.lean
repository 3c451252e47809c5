/-
  RecordSql.Proofs.Tables.Layouts

  A record type stored in two tables.  Its fields, columns and keys do not
  depend on the table.  The table gives names to those indexes and constraints
  that are not given one, so these are declared alike except for the names
  (`Layout.SameButTable`); what has the same name is then put together, and that
  may differ.
-/

import Mathlib.Data.List.Forall2
import RecordSql.Proofs.Columns

namespace RecordSql

/-! ## Two runs over one list -/

section Lists

variable {ε α β γ : Type} {R : β → γ → Prop}

theorem forall₂_of_mapM_except {f : α → Except ε β} {l : List α} {bs : List β}
    (h : l.mapM f = .ok bs) : List.Forall₂ (fun a b => f a = .ok b) l bs := by
  induction l generalizing bs with
  | nil =>
    cases h
    exact .nil
  | cons a l ih =>
    rw [List.mapM_cons] at h
    obtain ⟨b, hb, h⟩ := exists_ok_of_bind h
    obtain ⟨bs', hbs', h⟩ := exists_ok_of_bind h
    cases h
    exact .cons hb (ih hbs')

/-- What is related to the elements of one list in two ways is related to each other. -/
theorem forall₂_of_common {P : α → β → Prop} {Q : α → γ → Prop} {l : List α} {bs : List β}
    {cs : List γ} (hR : ∀ a b c, P a b → Q a c → R b c) (h : List.Forall₂ P l bs)
    (h' : List.Forall₂ Q l cs) : List.Forall₂ R bs cs := by
  induction h generalizing cs with
  | nil =>
    cases h'
    exact .nil
  | cons hb _ ih =>
    cases h' with
    | cons hc hrest => exact .cons (hR _ _ _ hb hc) (ih hrest)

/-- What two functions make of the elements of a list is related if what they make of each is. -/
theorem forall₂_of_mapM {f : α → Except ε β} {g : α → Except ε γ} {l : List α} {bs : List β}
    {cs : List γ} (hR : ∀ a b c, f a = .ok b → g a = .ok c → R b c) (h : l.mapM f = .ok bs)
    (h' : l.mapM g = .ok cs) : List.Forall₂ R bs cs :=
  forall₂_of_common hR (forall₂_of_mapM_except h) (forall₂_of_mapM_except h')

/-- Lists that are related one by one are so at every position. -/
theorem rel_getElem? {l : List β} {l' : List γ} (h : List.Forall₂ R l l') (i : Nat) :
    Option.Rel R l[i]? l'[i]? := by
  induction h generalizing i with
  | nil => exact .none
  | cons ha _ ih =>
    cases i with
    | zero => exact .some ha
    | succ i => exact ih i

end Lists

/-! ## Indexes and checks -/

/-- Two indexes differ in nothing but their names. -/
def Index.SameButName (i i' : Index) : Prop := i' = { i with name := i'.name }

/-- Two checks differ in nothing but their names. -/
def CheckConstraint.SameButName (c c' : CheckConstraint) : Prop := c' = { c with name := c'.name }

namespace Index

variable {ns : Naming} {model table table' : String} {position : Nat} {field : Field}

/-- Declarations of indexes put together. -/
def gathered (declared : List Index) : List Index :=
  declared.foldl (fun indexes i => insert i indexes) []

theorem ofItem_sameButName {item : String} {o o' : Option Index}
    (h : ofItem ns model table position field item = .ok o)
    (h' : ofItem ns model table' position field item = .ok o') :
    Option.Rel SameButName o o' := by
  unfold ofItem at h h'
  dsimp only at h h'
  cases hunique : declarationKinds.lookup (Text.upper (Text.trim (headAndRest ':' item).1)) with
  | none =>
    rw [hunique] at h h'
    cases h
    cases h'
    exact .none
  | some unique =>
    rw [hunique] at h h'
    dsimp only at h h'
    generalize headAndRest ',' (headAndRest ':' item).2 = parts at h h'
    generalize Tag.Settings.parse ',' parts.2 = settings at h h'
    split at h
    · next hempty =>
      rw [if_pos hempty] at h'
      obtain ⟨name, -, h⟩ := exists_ok_of_bind h
      obtain ⟨name', -, h'⟩ := exists_ok_of_bind h'
      cases h
      cases h'
      exact .some rfl
    · next hgiven =>
      rw [if_neg hgiven] at h'
      obtain rfl : o = o' := Except.ok.inj (h.symm.trans h')
      cases h
      exact .some rfl

theorem ofField_sameButName {declared declared' : List Index}
    (h : ofField ns model table position field = .ok declared)
    (h' : ofField ns model table' position field = .ok declared') :
    List.Forall₂ SameButName declared declared' := by
  rw [ofField] at h h'
  obtain ⟨items, hitems, h⟩ := exists_ok_of_bind h
  obtain ⟨items', hitems', h'⟩ := exists_ok_of_bind h'
  cases h
  cases h'
  have hrel : List.Forall₂ (Option.Rel SameButName) items items' :=
    forall₂_of_mapM (fun _ _ _ => ofItem_sameButName) hitems hitems'
  exact List.rel_filterMap (fun _ _ ho => ho) hrel

theorem ofFields_sameButName {fields : List Field} {indexes indexes' : List Index}
    (h : ofFields ns model table fields = .ok indexes)
    (h' : ofFields ns model table' fields = .ok indexes') :
    ∃ declared declared', List.Forall₂ SameButName declared declared'
      ∧ indexes = gathered declared ∧ indexes' = gathered declared' := by
  rw [ofFields] at h h'
  obtain ⟨declared, hdeclared, h⟩ := exists_ok_of_bind h
  obtain ⟨declared', hdeclared', h'⟩ := exists_ok_of_bind h'
  cases h
  cases h'
  have hrel : List.Forall₂ (List.Forall₂ SameButName) declared declared' :=
    forall₂_of_mapM (fun _ _ _ => ofField_sameButName) hdeclared hdeclared'
  exact ⟨declared.flatten, declared'.flatten, List.rel_flatten hrel, rfl, rfl⟩

end Index

namespace CheckConstraint

/-- Declarations of checks put together. -/
def gathered (declared : List CheckConstraint) : List CheckConstraint :=
  declared.foldl (fun checks c => checks.filter (·.name != c.name) ++ [c]) []

theorem ofField?_sameButName (ns : Naming) (table table' : String) (field : Field) :
    Option.Rel SameButName (ofField? ns table field) (ofField? ns table' field) := by
  unfold ofField?
  cases field.settings.value? "CHECK" with
  | none => exact .none
  | some check =>
    refine .some ?_
    unfold SameButName
    dsimp only
    cases Text.cut ',' check with
    | none => dsimp only
    | some parts =>
      obtain ⟨first, rest⟩ := parts
      dsimp only
      by_cases hgiven : isConstraintName first = true
      · simp only [if_pos hgiven]
      · simp only [if_neg hgiven]

theorem ofFields_sameButName (ns : Naming) (table table' : String) (fields : List Field) :
    ∃ declared declared', List.Forall₂ SameButName declared declared'
      ∧ ofFields ns table fields = gathered declared
      ∧ ofFields ns table' fields = gathered declared' := by
  have hrel : List.Forall₂ SameButName (fields.filterMap (ofField? ns table))
      (fields.filterMap (ofField? ns table')) :=
    List.rel_filterMap (R := Eq) (fun field _ heq => heq ▸ ofField?_sameButName ns table table' field)
      (List.forall₂_refl fields)
  exact ⟨_, _, hrel, rfl, rfl⟩

end CheckConstraint

/-! ## Layouts -/

/-- Two layouts have the same fields, columns and keys. -/
def Layout.SameFields (l l' : Layout) : Prop :=
  l' = { l with
    table := l'.table, indexes := l'.indexes, checks := l'.checks, uniques := l'.uniques }

/-- Two layouts of a record type for different tables: everything is the same but for the table, and
indexes and checks are declared alike except for their names. A field is unique by a constraint unless
one of the indexes covers it. -/
structure Layout.SameButTable (l l' : Layout) : Prop where
  sameFields : l.SameFields l'
  indexes : ∃ declared declared', List.Forall₂ Index.SameButName declared declared'
    ∧ l.indexes = Index.gathered declared ∧ l'.indexes = Index.gathered declared'
  checks : ∃ declared declared', List.Forall₂ CheckConstraint.SameButName declared declared'
    ∧ l.checks = CheckConstraint.gathered declared ∧ l'.checks = CheckConstraint.gathered declared'
  uniques : ∃ unique : List (Field × Nat),
    l.uniques.map (·.field) = (unique.filter fun e => !isCovered l.indexes e.2).map (·.1)
    ∧ l'.uniques.map (·.field) = (unique.filter fun e => !isCovered l'.indexes e.2).map (·.1)

/-- So it is with two schemas and the records they embed. -/
structure Schema.SameButTable (s s' : Schema) : Prop where
  layout : s.toLayout.SameButTable s'.toLayout
  embedded : List.Forall₂ Layout.SameButTable s.embedded s'.embedded

theorem UniqueConstraint.map_field_ofFields (ns : Naming) (table : String) (fields : List Field)
    (indexes : List Index) :
    (ofFields ns table fields indexes).map (·.field)
      = ((fields.zipIdx.filter fun e => e.1.unique && !e.1.dbName.isEmpty).filter
          fun e => !isCovered indexes e.2).map (·.1) := by
  rw [ofFields, List.map_filterMap, List.filter_filter, ← List.filterMap_eq_map,
    List.filterMap_filter]
  refine congrArg (List.filterMap · fields.zipIdx) (funext fun ⟨field, position⟩ => ?_)
  cases hunique : field.unique <;> cases hempty : field.dbName.isEmpty <;>
    cases hcovered : isCovered indexes position <;> simp [hunique, hempty, hcovered]

theorem Layout.assemble_sameButTable {name table table' : String} {declared : List Field}
    {ns : Naming} {l l' : Layout} (h : assemble name table declared ns = .ok l)
    (h' : assemble name table' declared ns = .ok l') : l.SameButTable l' := by
  rw [assemble] at h h'
  obtain ⟨indexes, hindexes, h⟩ := exists_ok_of_bind h
  obtain ⟨indexes', hindexes', h'⟩ := exists_ok_of_bind h'
  cases h
  cases h'
  exact
    { sameFields := rfl
      indexes := Index.ofFields_sameButName hindexes hindexes'
      checks := CheckConstraint.ofFields_sameButName ..
      uniques := ⟨_, UniqueConstraint.map_field_ofFields .., UniqueConstraint.map_field_ofFields ..⟩ }

namespace Schema

/-- The fields of a record type do not depend on the table if those of the embedded ones do not. -/
theorem flattenFields_sameButTable {embed embed' : ModelRef → Except ParseFailure Layout}
    {model : String} {count : Nat} {ds : List DeclaredField} {fields fields' : List Field}
    {layouts layouts' : List Layout}
    (hembed : ∀ inner l l', embed inner = .ok l → embed' inner = .ok l' → l.SameButTable l')
    (h : flattenFields embed model count ds = .ok (fields, layouts))
    (h' : flattenFields embed' model count ds = .ok (fields', layouts')) :
    fields' = fields ∧ List.Forall₂ Layout.SameButTable layouts layouts' := by
  induction ds generalizing count fields fields' layouts layouts' with
  | nil =>
    cases h
    cases h'
    exact ⟨rfl, .nil⟩
  | cons d ds ih =>
    rw [flattenFields] at h h'
    obtain ⟨⟨field, inner⟩, hparse, h⟩ := exists_ok_of_bind h
    obtain ⟨parsed, hparse', h'⟩ := exists_ok_of_bind h'
    obtain rfl : parsed = (field, inner) := Except.ok.inj (hparse'.symm.trans hparse)
    cases inner with
    | none =>
      obtain ⟨⟨rest, embedded⟩, hrest, h⟩ := exists_ok_of_bind h
      obtain ⟨⟨rest', embedded'⟩, hrest', h'⟩ := exists_ok_of_bind h'
      cases h
      cases h'
      obtain ⟨rfl, hlayouts⟩ := ih hrest hrest'
      exact ⟨rfl, hlayouts⟩
    | some inner =>
      obtain ⟨l, hl, h⟩ := exists_ok_of_bind h
      obtain ⟨l', hl', h'⟩ := exists_ok_of_bind h'
      obtain ⟨⟨rest, embedded⟩, hrest, h⟩ := exists_ok_of_bind h
      obtain ⟨⟨rest', embedded'⟩, hrest', h'⟩ := exists_ok_of_bind h'
      cases h
      cases h'
      obtain ⟨rfl, hlayouts⟩ := ih hrest hrest'
      have hsame := hembed inner l l' hl hl'
      have hfields : l'.fields = l.fields := by rw [hsame.sameFields]
      exact ⟨by rw [hfields], .cons hsame hlayouts⟩

theorem ofModel_sameButTable {catalog : Catalog} {ns : Naming} {table table' : String} {depth : Nat}
    {model : Model} {s s' : Schema} (h : ofModel catalog ns table depth model = .ok s)
    (h' : ofModel catalog ns table' depth model = .ok s') : s.SameButTable s' := by
  induction depth generalizing model s s' with
  | zero => cases h
  | succ depth ih =>
    rw [ofModel] at h h'
    split at h
    · cases h
    · next hname =>
      rw [if_neg hname] at h'
      obtain ⟨⟨fields, embedded⟩, hfields, h⟩ := exists_ok_of_bind h
      obtain ⟨⟨fields', embedded'⟩, hfields', h'⟩ := exists_ok_of_bind h'
      obtain ⟨layout, hlayout, h⟩ := exists_ok_of_bind h
      obtain ⟨layout', hlayout', h'⟩ := exists_ok_of_bind h'
      cases h
      cases h'
      obtain ⟨rfl, hembedded⟩ := flattenFields_sameButTable (fun inner l l' hl hl' => by
        obtain ⟨t, ht, rfl⟩ := exists_ok_of_map hl
        obtain ⟨t', ht', rfl⟩ := exists_ok_of_map hl'
        exact (ih ht ht').layout) hfields hfields'
      exact ⟨Layout.assemble_sameButTable (refuse_ok hlayout) (refuse_ok hlayout'), hembedded⟩

/-- A record type read for two tables. -/
theorem parse_sameButTable {catalog : Catalog} {ns : Naming} {ref : ModelRef}
    {table table' : Option String} {s s' : Schema} (h : parse catalog ns ref table = .ok s)
    (h' : parse catalog ns ref table' = .ok s') : s.SameButTable s' :=
  ofModel_sameButTable h h'

end Schema

end RecordSql
