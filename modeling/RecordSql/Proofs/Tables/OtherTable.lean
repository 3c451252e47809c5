/-
  RecordSql.Proofs.Tables.OtherTable

  One record type read twice from the same cache, for its own table and for
  another one.  What had been read before does not matter, nor in which order
  the two are read.
-/

import RecordSql.Proofs.Tables.Relationships

namespace RecordSql.SchemaCache

/-- What holds after a call that gives a schema. -/
theorem of_parse_ok {c c' : SchemaCache} {model : ModelRef} {table : Option String} {n : Nat}
    (hkeyed : c.Keyed) (hrest : c.AtRest) (h : c.parse model table = (c', .ok n)) :
    c'.Keyed ∧ c'.AtRest ∧ c.Grows (fun _ => True) c' ∧ c'.find? ⟨model.id, table⟩ = some n := by
  have hkeyed' := hkeyed.parse model table
  have hgrows := (parse_grows c model table).mono (Q := fun _ => True) fun _ _ => trivial
  rw [h] at hkeyed' hgrows
  exact ⟨hkeyed', hgrows.atRest hrest, hgrows, hrest.find?_of_parse_ok h⟩

/-- A record type that is read for its own table and for another one has the same fields, columns and
keys in both, with those names in the other one that the table gives. Its relationships are declared
by the same fields one by one, lead to the same record types and link the same fields, except those
that lead back to the record type itself and can be linked either way: of these a record belongs to
another in its own table, and has one in the other. -/
theorem other_table_keeps_schema (catalog : Catalog) (naming : Naming) (calls : List ParseCall)
    (model : ModelRef) (table : String) (c₁ c₂ : SchemaCache) (n m : Nat)
    (h : ((empty catalog naming).parseAll calls).parse model none = (c₁, .ok n))
    (h' : c₁.parse model (some table) = (c₂, .ok m)) :
    ∃ s rs s' rs', c₂.get? n = some ⟨s, .resolved rs⟩ ∧ c₂.get? m = some ⟨s', .resolved rs'⟩
      ∧ s'.table = table ∧ s.SameButTable s'
      ∧ List.Forall₂ (Relationship.Kept s model) rs rs' := by
  obtain ⟨hkeyed₁, hrest₁, -, hn₁⟩ := of_parse_ok ((keyed_empty catalog naming).parseAll calls)
    ((atRest_empty catalog naming).parseAll calls) h
  obtain ⟨hkeyed₂, hrest₂, hgrows, hm⟩ := of_parse_ok hkeyed₁ hrest₁ h'
  obtain ⟨s, rs, he, hs, hmakes⟩ := hkeyed₂.resolved hrest₂ (hgrows.found _ _ hn₁)
  obtain ⟨s', rs', he', hs', hmakes'⟩ := hkeyed₂.resolved hrest₂ hm
  have hs : Schema.parse c₂.catalog c₂.naming model none = .ok s := hs
  have hs' : Schema.parse c₂.catalog c₂.naming model (some table) = .ok s' := hs'
  have hsame : s.SameButTable s' := Schema.parse_sameButTable hs hs'
  have htable : s'.table = table := by
    obtain ⟨_, _, -, hlayout⟩ := Schema.ofModel_ok hs'
    obtain ⟨_, -, -, htable, -⟩ := Layout.assemble_ok hlayout
    exact htable
  have hfields : s'.fieldsAt s'.candidates = s.fieldsAt s.candidates := by
    rw [hsame.layout.sameFields]
    rfl
  rw [MakesAll] at hmakes hmakes'
  rw [hfields] at hmakes'
  refine ⟨s, rs, s', rs', he, he', htable, hsame, forall₂_of_common ?_ hmakes hmakes'⟩
  intro entry r r' hr hr'
  exact SchemaKey.makes_kept hs hs' hr hr'

/-- Employees, who have another one as manager, by a key that is named. -/
def employees : Catalog :=
  ⟨[ ("Employee",
      { name := "Employee"
        fields :=
          [ { name := "ID", kind := .uint 64 }
          , { name := "ManagerID", kind := .uint 64 }
          , { name := "Manager", kind := .ptr (.record ⟨"Employee", "Employee"⟩)
              tag := "foreignKey:ManagerID" } ] }) ]⟩

theorem eq_ok_of_toOption {x : SchemaCache × Except ParseFailure Nat} {n : Nat}
    (h : x.2.toOption = some n) : x = (x.1, .ok n) :=
  congrArg (Prod.mk x.1) (ok_of_toOption h)

/-- An employee belongs to a manager, and a former employee has one: the key of the manager is found
either way. -/
theorem other_table_keeps_schema_employees :
    let employee : ModelRef := ⟨"Employee", "Employee"⟩
    let own := (empty employees {}).parse employee none
    let other := own.1.parse employee (some "former_employees")
    let kinds (e : Entry) := e.relationships.map (·.kind)
    own = (own.1, .ok 0) ∧ other = (other.1, .ok 1)
      ∧ (other.1.get? 0).map kinds = some [.belongsTo] ∧ (other.1.get? 1).map kinds = some [.hasOne]
      ∧ ∃ s r, other.1.get? 0 = some ⟨s, .resolved [r]⟩ ∧ s.Torn employee r.field := by
  intro employee own other kinds
  have hown : own = (own.1, .ok 0) := eq_ok_of_toOption (by decide +kernel)
  have hother : other = (other.1, .ok 1) := eq_ok_of_toOption (by decide +kernel)
  have hkinds : (other.1.get? 0).map kinds = some [.belongsTo] := by decide +kernel
  have hkinds' : (other.1.get? 1).map kinds = some [.hasOne] := by decide +kernel
  refine ⟨hown, hother, hkinds, hkinds', ?_⟩
  obtain ⟨s, rs, s', rs', he, he', -, -, hrs⟩ := other_table_keeps_schema employees {} [] employee
    "former_employees" own.1 other.1 0 1 hown hother
  rw [he] at hkinds
  rw [he'] at hkinds'
  obtain ⟨r, rfl, hr⟩ := List.map_eq_singleton_iff.mp (Option.some.inj hkinds)
  obtain ⟨r', rfl, hr'⟩ := List.map_eq_singleton_iff.mp (Option.some.inj hkinds')
  obtain ⟨hkept, -⟩ := List.forall₂_cons.mp hrs
  refine ⟨s, r, he, ?_⟩
  by_contra htorn
  have hkind := (hkept.links htorn).kind
  rw [hr, hr'] at hkind
  cases hkind

end RecordSql.SchemaCache
