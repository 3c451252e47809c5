/-
  RecordSql.Proofs.UniqueColumns

  Columns whose values differ from row to row.  A tag asks for it by a
  constraint, or by a unique index of the field alone.  The constraint is there
  unless an index makes it needless.  The index is there as long as it stays
  alone: declarations with one name are put together, whatever fields they come
  from, and what comes of two of them is unique in both fields together only
  (`Layout.hasSoleIndex_iff`).

  An index that is not given a name has that of its field, without the path to
  it and the beginning of its column.  So a record that is embedded twice has
  one index of two fields where its tag asks for one of one.
-/

import RecordSql.Proofs.DeclaredFields
import RecordSql.Proofs.Indexes

namespace RecordSql

/-! ## What tags ask for -/

/-- Whether an item declares a unique index of its field alone, without giving it a name. -/
def Index.asksAlone (item : String) : Bool :=
  declaredKind? item == some true && (givenName item).1.isEmpty
    && !(Tag.Settings.parse ',' (givenName item).2).contains "COMPOSITE"

namespace Field

/-- The tag has an item that asks for a unique index of the field alone. -/
def AsksAlone (f : Field) : Prop := ∃ item ∈ Tag.items ';' f.tag, Index.asksAlone item = true

/-- The tag says that the field is unique. -/
def SaysUnique (f : Field) : Prop := f.ownSettings.flag "UNIQUE" = true

instance (f : Field) : Decidable f.AsksAlone := inferInstanceAs (Decidable (∃ item ∈ _, _))

instance (f : Field) : Decidable f.SaysUnique := inferInstanceAs (Decidable (_ = _))

end Field

namespace Layout

variable {l : Layout} {position : Nat} {f : Field} {d : Index}

/-- A unique index has the field at the position for its only member. -/
def HasSoleIndex (l : Layout) (position : Nat) : Prop :=
  ∃ i ∈ l.indexes, i.isUnique = true ∧ i.members.map (·.position) = [position]

/-- A constraint makes the field unique. -/
def HasConstraint (l : Layout) (f : Field) : Prop := ∃ u ∈ l.uniques, u.field = f

/-- No other declaration has the name of this one. -/
def StandsAlone (l : Layout) (d : Index) : Prop := l.declarations.filter (·.name == d.name) = [d]

/-- The declaration is a unique one of the field at the position. -/
structure DeclaresUnique (l : Layout) (position : Nat) (d : Index) : Prop where
  declared : d ∈ l.declarations
  unique : d.isUnique = true
  position : d.members.map (·.position) = [position]

theorem isCovered_iff : isCovered l.indexes position = true ↔ l.HasSoleIndex position := by
  rw [isCovered, List.any_eq_true]
  refine exists_congr fun i => and_congr_right fun _ => ?_
  rw [Bool.and_eq_true, beq_iff_eq]

instance (l : Layout) (position : Nat) : Decidable (l.HasSoleIndex position) :=
  decidable_of_iff _ isCovered_iff

/-! ## Indexes of one field -/

namespace Assembled

/-- Each declaration has one member. -/
theorem members_length (h : l.Assembled) (hd : d ∈ l.declarations) : d.members.length = 1 := by
  obtain ⟨_, _, _, _, _, hok⟩ := h.mem_declarations.mp hd
  obtain ⟨_, hdeclared⟩ := Index.declaredBy_of_ofItem hok
  obtain ⟨m, hm, -⟩ := hdeclared.members
  rw [hm]
  rfl

/-- The field at a position has a unique index of its own exactly if one of its unique declarations
stands alone. -/
theorem hasSoleIndex_iff (h : l.Assembled) :
    l.HasSoleIndex position ↔ ∃ d, l.DeclaresUnique position d ∧ l.StandsAlone d := by
  constructor
  · rintro ⟨i, hi, hunique, hposition⟩
    rw [h.indexes_eq, Index.mem_gathered] at hi
    have hone : i.members.length = 1 := by
      rw [← List.length_map (·.position), hposition, List.length_singleton]
    have halone : l.StandsAlone i := Index.eq_singleton_of_members
      (fun d hd => h.members_length (List.mem_filter.mp hd).1) hi hone
    have hmem : i ∈ l.declarations.filter (·.name == i.name) := by
      rw [halone]
      exact List.mem_singleton_self i
    exact ⟨i, ⟨(List.mem_filter.mp hmem).1, hunique, hposition⟩, halone⟩
  · rintro ⟨d, ⟨-, hunique, hposition⟩, halone⟩
    refine ⟨d, ?_, hunique, hposition⟩
    rw [h.indexes_eq, Index.mem_gathered, halone]
    rfl

/-- A declaration is that of the field at its position. -/
theorem declared_at (h : l.Assembled) (hd : l.DeclaresUnique position d)
    (hf : l.field? position = some f) : ∃ item ∈ Tag.items ';' f.tag,
      Index.ofItem l.naming l.name l.table position f item = .ok (some d) := by
  obtain ⟨position', f', hf', item, hitem, hok⟩ := h.mem_declarations.mp hd.declared
  obtain ⟨_, hdeclared⟩ := Index.declaredBy_of_ofItem hok
  obtain ⟨m, hm, rfl, -⟩ := hdeclared.members
  have hposition := hd.position
  rw [hm, List.map_singleton, List.singleton_inj] at hposition
  rw [hposition] at hf' hok
  obtain rfl : f' = f := Option.some.inj (hf'.symm.trans hf)
  exact ⟨item, hitem, hok⟩

/-- Where a field stands at two positions, neither has an index of its own: what it declares at one it
declares at the other, under the same name. -/
theorem position_eq_of_hasSoleIndex (h : l.Assembled) {other : Nat} (hsole : l.HasSoleIndex position)
    (hf : l.field? position = some f) (hother : l.field? other = some f) : other = position := by
  obtain ⟨d, hd, halone⟩ := h.hasSoleIndex_iff.mp hsole
  obtain ⟨item, hitem, hok⟩ := h.declared_at hd hf
  have hmoved : Index.movedTo other d ∈ l.declarations :=
    h.mem_declarations.mpr ⟨other, f, hother, item, hitem, Index.ofItem_movedTo other hok⟩
  have hmem : Index.movedTo other d ∈ l.declarations.filter (·.name == d.name) :=
    List.mem_filter.mpr ⟨hmoved, beq_self_eq_true _⟩
  rw [halone, List.mem_singleton] at hmem
  have hpositions : (Index.movedTo other d).members.map (·.position) = [position] := by
    rw [hmem]
    exact hd.position
  obtain ⟨m, hm⟩ := List.length_eq_one_iff.mp (h.members_length hd.declared)
  rw [Index.movedTo, hm] at hpositions
  exact (List.singleton_inj.mp hpositions)

/-- An item that asks for a unique index of the field alone declares one, with the name that the bare
name of the field gives. -/
theorem declaresUnique_of_asksAlone (h : l.Assembled) (hf : l.field? position = some f)
    (hasks : f.AsksAlone) :
    ∃ d, l.DeclaresUnique position d ∧ d.name = l.naming.indexName l.table f.name := by
  obtain ⟨item, hitem, hasks⟩ := hasks
  rw [Index.asksAlone, Bool.and_eq_true, Bool.and_eq_true, beq_iff_eq, Bool.not_eq_true',
    String.isEmpty_iff] at hasks
  obtain ⟨⟨hkind, hgiven⟩, hcomposite⟩ := hasks
  obtain ⟨declared, hdeclared⟩ := h.exists_declared hf
  obtain ⟨o, hok, -⟩ := Index.exists_ofItem_of_ofField hdeclared hitem
  obtain ⟨hnone, -⟩ | ⟨unique, d, hunique, rfl, hby⟩ := Index.ofItem_ok hok
  · rw [hkind] at hnone
    cases hnone
  · obtain rfl : unique = true := Option.some.inj (hunique.symm.trans hkind)
    obtain ⟨m, hm, hposition, -⟩ := hby.members
    refine ⟨d, ⟨h.mem_declarations.mpr ⟨position, f, hf, item, hitem, hok⟩, hby.unique rfl, ?_⟩, ?_⟩
    · rw [hm, List.map_singleton, hposition]
    · have himplied := hby.implied hgiven
      generalize Tag.Settings.parse ',' (Index.givenName item).2 = settings at himplied hcomposite
      rw [Tag.Settings.contains_eq_isSome, Option.isSome_eq_false_iff,
        Option.isNone_iff_eq_none] at hcomposite
      rw [Index.impliedName, hcomposite] at himplied
      exact (Except.ok.inj himplied).symm

/-- What two fields of one bare name ask for stands not alone: it is one index of both. -/
theorem not_standsAlone_of_asksAlone (h : l.Assembled) {other : Nat} {g : Field}
    (hf : l.field? position = some f) (hasks : f.AsksAlone) (hg : l.field? other = some g)
    (hasks' : g.AsksAlone) (hne : other ≠ position)
    (hname : l.naming.indexName l.table g.name = l.naming.indexName l.table f.name)
    (hd : d.name = l.naming.indexName l.table f.name) : ¬ l.StandsAlone d := by
  obtain ⟨d₁, hd₁, hname₁⟩ := h.declaresUnique_of_asksAlone hf hasks
  obtain ⟨d₂, hd₂, hname₂⟩ := h.declaresUnique_of_asksAlone hg hasks'
  intro halone
  have hmem₁ : d₁ ∈ l.declarations.filter (·.name == d.name) :=
    List.mem_filter.mpr ⟨hd₁.declared, beq_iff_eq.mpr (hname₁.trans hd.symm)⟩
  have hmem₂ : d₂ ∈ l.declarations.filter (·.name == d.name) :=
    List.mem_filter.mpr ⟨hd₂.declared, beq_iff_eq.mpr (hname₂.trans (hname.trans hd.symm))⟩
  rw [halone, List.mem_singleton] at hmem₁ hmem₂
  have hpositions : [other] = [position] := by
    rw [← hd₂.position, ← hd₁.position, hmem₁, hmem₂]
  exact hne (List.singleton_inj.mp hpositions)

/-- A field that has a column is unique by a constraint exactly if it is to be unique and has no unique
index of its own. -/
theorem hasConstraint_iff (h : l.Assembled) (hf : l.field? position = some f) (hcolumn : f.dbName ≠ "") :
    l.HasConstraint f ↔ f.unique = true ∧ ¬ l.HasSoleIndex position := by
  have hmem : l.HasConstraint f ↔ f ∈ l.uniques.map (·.field) := List.mem_map.symm
  rw [hmem, h.indexes_uniques.2, UniqueConstraint.map_field_ofFields]
  simp only [List.mem_map, List.mem_filter, Bool.and_eq_true, Bool.not_eq_true']
  constructor
  · rintro ⟨⟨f', other⟩, ⟨⟨hentry, hunique, -⟩, hcovered⟩, rfl⟩
    refine ⟨hunique, fun hsole => ?_⟩
    have hother : l.field? other = some f' := List.mem_zipIdx_iff_getElem?.mp hentry
    obtain rfl := h.position_eq_of_hasSoleIndex hsole hf hother
    rw [isCovered_iff.mpr hsole] at hcovered
    cases hcovered
  · rintro ⟨hunique, hnone⟩
    refine ⟨(f, position), ⟨⟨List.mem_zipIdx_iff_getElem?.mpr hf, hunique, ?_⟩, ?_⟩, rfl⟩
    · rw [← Bool.not_eq_true, String.isEmpty_iff]
      exact hcolumn
    · rw [← Bool.not_eq_true, isCovered_iff]
      exact hnone

end Assembled

end Layout

/-! ## The columns of a schema -/

namespace Schema

variable {catalog : Catalog} {ns : Naming} {s : Schema}

/-- A field is to be unique as its own tag says, wherever it is embedded. -/
theorem unique_eq_of_ofModel {table : String} {depth : Nat} {model : Model}
    (h : ofModel catalog ns table depth model = .ok s) :
    ∀ f ∈ s.fields, f.unique = f.ownSettings.flag "UNIQUE" := by
  induction depth generalizing model s with
  | zero => cases h
  | succ below ih =>
    obtain ⟨fields, hfields, hlayout⟩ := ofModel_succ_ok h
    refine Layout.forall_fields_of_assemble hlayout (fun _ _ _ _ hf => hf) fun f hf => ?_
    have hunique : f.unique = f.ownSettings.flag "UNIQUE" := by
      refine (flattened_of_ok hfields).forall_fields
        (P := fun f => f.unique = f.ownSettings.flag "UNIQUE")
        (Q := fun f => f.unique = f.ownSettings.flag "UNIQUE") (fun d f inner hparse => ?_)
        (fun inner layout hembed => ?_) (fun _ _ _ hf => hf) f hf
      · have hread := (Field.readFrom_of_parse hparse).1
        rw [hread.unique, hread.ownSettings]
      · obtain ⟨embedded, hinner, rfl⟩ := exists_ok_of_map hembed
        exact ih hinner
    obtain ⟨_, heq⟩ := Layout.columned_eq ns f
    rw [heq]
    exact hunique

/-- A field with a column has a constraint exactly if its tag says that it is unique and it has no
unique index of its own; it has such an index exactly if one of its unique declarations stands alone.
What the tag asks for without a name is declared under the bare name of the field, so it does not stand
alone next to that of another field whose name gives the same. So what asks for uniqueness has it,
unless it asks for nothing but an index and none of its declarations stands alone. -/
theorem unique_columns_iff {ref : ModelRef} {asked : Option String}
    (h : parse catalog ns ref asked = .ok s) {position : Nat} {f : Field}
    (hf : s.field? position = some f) (hcolumn : f.dbName ≠ "") :
    (s.HasConstraint f ↔ f.SaysUnique ∧ ¬ s.HasSoleIndex position)
    ∧ (s.HasSoleIndex position ↔ ∃ d, s.DeclaresUnique position d ∧ s.StandsAlone d)
    ∧ (f.AsksAlone → ∃ d, s.DeclaresUnique position d ∧ d.name = ns.indexName s.table f.name
      ∧ ∀ other g, other ≠ position → s.field? other = some g → g.AsksAlone →
        ns.indexName s.table g.name = ns.indexName s.table f.name → ¬ s.StandsAlone d)
    ∧ ((f.SaysUnique ∨ f.AsksAlone → s.HasSoleIndex position ∨ s.HasConstraint f)
      ↔ (f.AsksAlone → f.SaysUnique ∨ ∃ d, s.DeclaresUnique position d ∧ s.StandsAlone d)) := by
  have hassembled : s.toLayout.Assembled := (assembled_of_parse h).1
  have hnaming : s.naming = ns := by
    obtain ⟨_, _, -, hlayout⟩ := ofModel_ok h
    obtain ⟨-, -, -, -, hnaming, -⟩ := Layout.assemble_ok hlayout
    exact hnaming
  have hunique : f.SaysUnique ↔ f.unique = true := by
    rw [Field.SaysUnique, unique_eq_of_ofModel h f (List.mem_of_getElem? hf)]
  have hsole : s.HasSoleIndex position
      ↔ ∃ d, s.DeclaresUnique position d ∧ s.StandsAlone d := hassembled.hasSoleIndex_iff
  have hconstraint : s.HasConstraint f ↔ f.SaysUnique ∧ ¬ s.HasSoleIndex position := by
    rw [hunique]
    exact hassembled.hasConstraint_iff hf hcolumn
  refine ⟨hconstraint, hsole, fun hasks => ?_, ?_⟩
  · obtain ⟨d, hd, hname⟩ := hassembled.declaresUnique_of_asksAlone hf hasks
    rw [← hnaming]
    exact ⟨d, hd, hname, fun other g hne hg hasks' hsame =>
      hassembled.not_standsAlone_of_asksAlone hf hasks hg hasks' hne hsame hname⟩
  · rw [← hsole, hconstraint]
    by_cases hindex : s.HasSoleIndex position
    · simp only [hindex, true_or, or_true, implies_true]
    · simp only [hindex, false_or, or_false, not_false_eq_true, and_true]
      exact ⟨fun hall hasks => hall (.inr hasks), fun hall hor => hor.elim id hall⟩

/-- A person can be reached at home and at work, by an address that nobody else has. -/
def contacts : Catalog :=
  ⟨[ ( "Person",
      { name := "Person"
        fields :=
          [ { name := "ID", kind := .uint 64 }
          , { name := "Home", kind := .record ⟨"Contact", "Contact"⟩
              tag := "embedded;embeddedPrefix:home_" }
          , { name := "Work", kind := .record ⟨"Contact", "Contact"⟩
              tag := "embedded;embeddedPrefix:work_" } ] } )
    , ( "Contact",
      { name := "Contact"
        fields := [{ name := "Email", kind := .string, tag := "uniqueIndex" }] } ) ]⟩

theorem contacts_schema :
    ∃ s email, parse contacts {} ⟨"Person", "Person"⟩ none = .ok s
      ∧ s.field? 1 = some email ∧ email.dbName = "home_email" ∧ email.name = "Email"
      ∧ email.AsksAlone ∧ ¬ email.SaysUnique ∧ s.indexes.map (·.name) = ["idx_people_email"]
      ∧ ∀ d ∈ s.declarations, (s.declarations.filter (·.name == d.name)).length = 2 := by
  have hparsed : ((parse contacts {} ⟨"Person", "Person"⟩ none).toOption.map fun s =>
      decide ((s.field? 1).any (fun f =>
          decide (f.dbName = "home_email" ∧ f.name = "Email" ∧ f.AsksAlone ∧ ¬ f.SaysUnique)) = true
        ∧ s.indexes.map (·.name) = ["idx_people_email"]
        ∧ ∀ d ∈ s.declarations, (s.declarations.filter (·.name == d.name)).length = 2))
      = some true := by decide +kernel
  obtain ⟨s, hs, hfacts⟩ := Option.map_eq_some_iff.mp hparsed
  obtain ⟨hemail, hindexes, htwo⟩ := of_decide_eq_true hfacts
  rw [Option.any_eq_true] at hemail
  obtain ⟨email, hemail, hemailFacts⟩ := hemail
  obtain ⟨hcolumn, hname, hasks, hsilent⟩ := of_decide_eq_true hemailFacts
  exact ⟨s, email, ok_of_toOption hs, hemail, hcolumn, hname, hasks, hsilent, hindexes, htwo⟩

/-- The address at home asks for a unique index of its own, and has neither that nor a constraint: what
it declares does not stand alone, and so the two addresses are only unique together. -/
theorem unique_columns_iff_contacts :
    ∃ s email, parse contacts {} ⟨"Person", "Person"⟩ none = .ok s
      ∧ s.field? 1 = some email ∧ email.dbName = "home_email" ∧ email.AsksAlone
      ∧ ¬ s.HasSoleIndex 1 ∧ ¬ s.HasConstraint email
      ∧ (∃ d, s.DeclaresUnique 1 d ∧ d.name = Naming.indexName {} s.table "Email")
      ∧ s.indexes.map (·.name) = ["idx_people_email"] := by
  obtain ⟨s, email, hok, hemail, hcolumn, hname, hasks, hsilent, hindexes, htwo⟩ := contacts_schema
  obtain ⟨hconstraint, hsole, hdeclares, -⟩ :=
    unique_columns_iff hok hemail (by rw [hcolumn]; decide)
  have hnone : ¬ s.HasSoleIndex 1 := by
    rw [hsole]
    rintro ⟨d, hd, halone⟩
    have hlength := htwo d hd.declared
    rw [halone, List.length_singleton] at hlength
    omega
  obtain ⟨d, hd, hindex, -⟩ := hdeclares hasks
  rw [hname] at hindex
  exact ⟨s, email, hok, hemail, hcolumn, hasks, hnone, fun hunique => hsilent (hconstraint.mp hunique).1,
    ⟨d, hd, hindex⟩, hindexes⟩

end Schema

end RecordSql
