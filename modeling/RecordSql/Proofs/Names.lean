/-
  RecordSql.Proofs.Names

  Which field a name leads to.  A name belongs to the first field that has it,
  unless that is ignored: then it is up to the next (`FirstOf`).  A column
  belongs to the field with the shortest path that has it (`ShortestOf`).  Either
  is about the fields so far, and so it is about all fields in the end, those of
  embedded records among them.  A key is looked up by its column, or else by its
  name (`Layout.Answers`), and where it was declared plays no part in that.
-/

import RecordSql.Proofs.Columns

namespace RecordSql

/-- Whether a field takes no part in anything. -/
def Field.isIgnored (f : Field) : Bool := f.settings.get? "-" == some "-"

/-- The field stands at the end of the path: the names that lead to it differ in the last one only. -/
def Field.EndsPath (f : Field) (path : List String) : Prop := f.bindNames.dropLast = path.dropLast

/-! ## The first field -/

/-- The field at the position is the first with the name that is not ignored, or the last with the
name if all of them are. -/
structure FirstOf (fields : List Field) (name : String) (position : Nat) (f : Field) : Prop where
  field : fields[position]? = some f
  name_eq : f.name = name
  first : f.isIgnored = false → ∀ i g, i < position → fields[i]? = some g → g.name = name →
    g.isIgnored = true
  last : f.isIgnored = true → ∀ i g, fields[i]? = some g → g.name = name →
    g.isIgnored = true ∧ i ≤ position

namespace FirstOf

variable {fields fields' : List Field} {name : String} {position : Nat} {f g : Field}

theorem lt_length (h : FirstOf fields name position f) : position < fields.length :=
  (List.getElem?_eq_some_iff.mp h.field).1

/-- A field that is not ignored keeps its name, and any field keeps it from those with other ones. -/
theorem concat (h : FirstOf fields name position f) (hg : f.isIgnored = false ∨ g.name ≠ name) :
    FirstOf (fields ++ [g]) name position f where
  field := by
    rw [List.getElem?_append_left h.lt_length]
    exact h.field
  name_eq := h.name_eq
  first hf i g' hi hg' := by
    rw [List.getElem?_append_left (Nat.lt_trans hi h.lt_length)] at hg'
    exact h.first hf i g' hi hg'
  last hf i g' hg' hname := by
    obtain hg' | ⟨-, rfl⟩ := getElem?_concat_cases hg'
    · exact h.last hf i g' hg' hname
    · exact absurd hname (hg.resolve_left (by simp [hf]))

/-- A name that only ignored fields have goes to the next one. -/
theorem self (hall : ∀ (i : Nat) (g' : Field), fields[i]? = some g' → g'.name = g.name →
      g'.isIgnored = true) :
    FirstOf (fields ++ [g]) g.name fields.length g where
  field := List.getElem?_concat_length
  name_eq := rfl
  first _ i g' hi hg' := by
    rw [List.getElem?_append_left hi] at hg'
    exact hall i g' hg'
  last hf i g' hg' hname := by
    obtain hg' | ⟨rfl, rfl⟩ := getElem?_concat_cases hg'
    · exact ⟨hall i g' hg' hname, Nat.le_of_lt (List.getElem?_eq_some_iff.mp hg').1⟩
    · exact ⟨hf, Nat.le_refl _⟩

/-- It depends on nothing but the names and on what is ignored. -/
theorem congr (h : FirstOf fields name position f)
    (hsame : fields'.map (fun f => (f.name, f.isIgnored))
      = fields.map fun f => (f.name, f.isIgnored)) :
    ∃ f', FirstOf fields' name position f' := by
  obtain ⟨f', hf', heq⟩ := exists_field_of_map hsame h.field
  obtain ⟨hname, hignored⟩ := Prod.mk.inj heq
  refine ⟨f', hf', hname.trans h.name_eq, fun hf i g hlt hg hgname => ?_, fun hf i g hg hgname => ?_⟩
  · obtain ⟨g', hg', heq'⟩ := exists_field_of_map hsame.symm hg
    obtain ⟨hname', hignored'⟩ := Prod.mk.inj heq'
    rw [← hignored']
    exact h.first (hignored ▸ hf) i g' hlt hg' (hname'.trans hgname)
  · obtain ⟨g', hg', heq'⟩ := exists_field_of_map hsame.symm hg
    obtain ⟨hname', hignored'⟩ := Prod.mk.inj heq'
    rw [← hignored']
    exact h.last (hignored ▸ hf) i g' hg' (hname'.trans hgname)

/-- Of the fields with the name that are not ignored, one at the end of the path has none from elsewhere
before it. -/
def AtPath (fields : List Field) (path : List String) (name : String) : Prop :=
  ∃ (j : Nat) (g : Field), fields[j]? = some g ∧ g.name = name ∧ g.isIgnored = false
    ∧ g.EndsPath path ∧ ∀ (i : Nat) (g' : Field), i < j → fields[i]? = some g' → g'.name = name →
      g'.isIgnored = false → g'.EndsPath path

/-- If there is such a field at the end of the path, the name leads there exactly if it comes first. -/
theorem endsPath_iff (h : FirstOf fields name position f) {path : List String}
    (hown : ∃ g ∈ fields, g.name = name ∧ g.isIgnored = false ∧ g.EndsPath path) :
    f.EndsPath path ↔ AtPath fields path name := by
  -- One with the name is not ignored, so the one that the name leads to is not.
  have hf : f.isIgnored = false := by
    obtain ⟨g, hg, hname, hignored, -⟩ := hown
    obtain ⟨i, hi⟩ := List.getElem?_of_mem hg
    refine Bool.eq_false_iff.mpr fun hall => ?_
    rw [(h.last hall i g hi hname).1] at hignored
    cases hignored
  constructor
  · intro hpath
    refine ⟨position, f, h.field, h.name_eq, hf, hpath, fun i g' hi hg' hname hignored => ?_⟩
    rw [h.first hf i g' hi hg' hname] at hignored
    cases hignored
  · rintro ⟨j, g, hg, hname, hignored, hpath, hbefore⟩
    obtain hlt | rfl | hgt := Nat.lt_trichotomy position j
    · exact hbefore position f hlt h.field h.name_eq hf
    · exact Option.some.inj (h.field.symm.trans hg) ▸ hpath
    · rw [h.first hf j g hgt hg hname] at hignored
      cases hignored

end FirstOf

/-! ## The tables -/

namespace Layout

variable {fields done : List Field} {table : List (String × Nat)} {l : Lookups} {f : Field}

/-- The table leads from every name of the fields to the first that has it. -/
structure LeadsByName (fields : List Field) (table : List (String × Nat)) : Prop where
  held : ∀ name position, table.lookup name = some position → ∃ f, FirstOf fields name position f
  covered : ∀ f ∈ fields, ∃ position, table.lookup f.name = some position

theorem leadsByName_nil : LeadsByName [] [] :=
  ⟨fun _ _ h => (nomatch h), fun _ h => absurd h List.not_mem_nil⟩

namespace LeadsByName

/-- A name is free if nobody has it, or ignored fields only. -/
theorem isFree_lookup (h : LeadsByName done table) (hdone : done <+: fields) (name : String) :
    isFree fields (table.lookup name) = true ↔
      ∀ (i : Nat) (g : Field), done[i]? = some g → g.name = name → g.isIgnored = true := by
  cases hheld : table.lookup name with
  | none =>
    refine ⟨fun _ i g hg hname => ?_, fun _ => rfl⟩
    obtain ⟨position, hposition⟩ := h.covered g (List.mem_of_getElem? hg)
    rw [hname, hheld] at hposition
    cases hposition
  | some position =>
    obtain ⟨f, hf⟩ := h.held name position hheld
    rw [isFree, getElem?_of_isPrefix hdone hf.field]
    show f.isIgnored = true ↔ _
    refine ⟨fun hignored i g hg hname => (hf.last hignored i g hg hname).1, fun hall => ?_⟩
    exact hall position f hf.field hf.name_eq

/-- A field takes a name that is free. -/
theorem take (h : LeadsByName done table)
    (hall : ∀ (i : Nat) (g : Field), done[i]? = some g → g.name = f.name → g.isIgnored = true) :
    LeadsByName (done ++ [f]) (setPosition f.name done.length table) where
  held name position hname := by
    rw [lookup_setPosition] at hname
    split at hname
    · next heq =>
      cases hname
      exact ⟨f, heq ▸ .self hall⟩
    · next hne =>
      obtain ⟨g, hg⟩ := h.held name position hname
      exact ⟨g, hg.concat (.inr fun heq => hne heq.symm)⟩
  covered g hg := by
    rw [lookup_setPosition]
    split
    · exact ⟨_, rfl⟩
    · next hne =>
      obtain hg | hg := List.mem_append.mp hg
      · exact h.covered g hg
      · exact absurd (congrArg Field.name (List.mem_singleton.mp hg)) hne

/-- A field leaves the name to one that is not ignored. -/
theorem skip (h : LeadsByName done table) {i : Nat} {g : Field} (hg : done[i]? = some g)
    (hname : g.name = f.name) (hignored : g.isIgnored = false) :
    LeadsByName (done ++ [f]) table where
  held name position hposition := by
    obtain ⟨holder, hholder⟩ := h.held name position hposition
    refine ⟨holder, hholder.concat ?_⟩
    by_cases heq : f.name = name
    · refine .inl (Bool.eq_false_iff.mpr fun hall => ?_)
      rw [(hholder.last hall i g hg (hname.trans heq)).1] at hignored
      cases hignored
    · exact .inr heq
  covered f' hf' := by
    obtain hf' | hf' := List.mem_append.mp hf'
    · exact h.covered f' hf'
    · rw [List.mem_singleton.mp hf', ← hname]
      exact h.covered g (List.mem_of_getElem? hg)

/-- The next field takes its name if that is free. -/
theorem add (h : LeadsByName done table) (hdone : done ++ [f] <+: fields) :
    LeadsByName (done ++ [f])
      (if isFree fields (table.lookup f.name) then setPosition f.name done.length table else table) := by
  have hfree := h.isFree_lookup ((List.prefix_append done [f]).trans hdone) f.name
  split
  · next hisFree => exact h.take (hfree.mp hisFree)
  · next hheld =>
    rw [hfree] at hheld
    simp only [Classical.not_forall] at hheld
    obtain ⟨i, g, hg, hname, hignored⟩ := hheld
    exact h.skip hg hname (Bool.eq_false_iff.mpr hignored)

end LeadsByName

theorem addColumn_byName (l : Lookups) (position : Nat) (f : Field) :
    (l.addColumn fields position f).byName = l.byName := by
  rw [Lookups.addColumn]
  split
  · rfl
  · split
    · rfl
    · dsimp only
      split <;> rfl

theorem LeadsByName.addField (h : LeadsByName done l.byName) (hdone : done ++ [f] <+: fields) :
    LeadsByName (done ++ [f]) (l.add fields (f, done.length)).byName := by
  have hkept : (l.addColumn fields done.length f).byName = l.byName :=
    addColumn_byName l done.length f
  have hadded := h.add hdone
  rw [← hkept] at hadded
  exact hadded

theorem leadsByName_all (fields : List Field) :
    LeadsByName fields (fields.zipIdx.foldl (Lookups.add fields) {}).byName :=
  Lookups.addAll_of_add (P := fun done l => LeadsByName done l.byName) leadsByName_nil
    fun _ _ _ hdone h => h.addField hdone

/-! ## Layouts -/

/-- What a name leads to: the field that has it as column, or else the first with that name. -/
structure Answers (l : Layout) (name : String) (position : Nat) (f : Field) : Prop where
  field : l.field? position = some f
  column : name ∈ l.dbNames → ShortestOf l.fields name position f
  first : name ∉ l.dbNames → FirstOf l.fields name position f

namespace Assembled

variable {l : Layout} {name : String} {position : Nat}

theorem leadsByName (h : l.Assembled) : LeadsByName l.fields l.byName := by
  obtain ⟨_, _, declared, ns, h⟩ := h
  obtain ⟨lookups, hlookups, -, -, -, hfields, -, -, -, hbyName⟩ := assemble_ok h
  have hleads : LeadsByName (declared.map (columned ns)) lookups.byName :=
    hlookups ▸ leadsByName_all _
  -- The marks leave the names and what is ignored as they are.
  have hsame : l.fields.map (fun f => (f.name, f.isIgnored))
      = (declared.map (columned ns)).map fun f => (f.name, f.isIgnored) := by
    rw [hfields]
    exact map_markKeys _ _ _ fun _ _ _ _ => rfl
  rw [hbyName]
  constructor
  · intro name position hposition
    obtain ⟨g, hg⟩ := hleads.held name position hposition
    exact hg.congr hsame
  · intro f hf
    obtain ⟨i, hi⟩ := List.getElem?_of_mem hf
    obtain ⟨g, hg, heq⟩ := exists_field_of_map hsame.symm hi
    have hname : g.name = f.name := congrArg Prod.fst heq
    rw [← hname]
    exact hleads.covered g (List.mem_of_getElem? hg)

/-- Looking a name up in a layout gives the field that it leads to. -/
theorem answers (h : l.Assembled) (hlookup : l.lookup name = some position) :
    ∃ f, l.Answers name position f := by
  have hcolumns := h.consistent.columns name
  rw [lookup] at hlookup
  cases hcolumn : l.byDbName.lookup name with
  | some holder =>
    rw [hcolumn] at hlookup
    cases hlookup
    obtain ⟨f, hf⟩ := h.owner_of_lookup hcolumn
    refine ⟨f, hf.contends.field, fun _ => hf.shortestOf, fun hnot => absurd ?_ hnot⟩
    exact hcolumns.mpr ⟨position, hcolumn⟩
  | none =>
    rw [hcolumn] at hlookup
    obtain ⟨f, hf⟩ := h.leadsByName.held name position hlookup
    refine ⟨f, hf.field, fun hmem => ?_, fun _ => hf⟩
    obtain ⟨holder, hholder⟩ := hcolumns.mp hmem
    rw [hcolumn] at hholder
    cases hholder

end Assembled

end Layout

end RecordSql
