/-
  RecordSql.Proofs.Indexes

  Indexes put together from their declarations.  Each item of a tag that declares
  an index declares it with one field (`Index.ofItem_some`).  The declarations of
  all fields are put together name by name: under a name stands what comes of the
  declarations with that name, one after the other, and nothing else
  (`Index.find?_gathered`).  So no two indexes of a layout have one name, and an
  index of one field comes of one declaration (`Index.eq_singleton_of_members`).
-/

import Mathlib.Data.List.Induction
import RecordSql.Proofs.Tables.Layouts

namespace RecordSql

namespace Index

variable {ns : Naming} {model table : String} {position : Nat} {field : Field} {declared : List Index}
  {d i : Index} {name : String}

/-! ## Declarations -/

/-- What an item declares, as far as the name, the uniqueness and the field of the index go. -/
structure DeclaredBy (ns : Naming) (model table : String) (position : Nat) (field : Field)
    (given : String) (settings : Tag.Settings) (unique : Bool) (d : Index) : Prop where
  implied : given = "" → impliedName ns model table field settings = .ok d.name
  given : given ≠ "" → d.name = given
  unique : unique = true → d.isUnique = true
  members : ∃ m, d.members = [m] ∧ m.position = position ∧ m.field = field

/-- The name that an item gives to its index, if any, and the rest of its value. -/
def givenName (item : String) : String × String := headAndRest ',' (headAndRest ':' item).2

/-- Whether an item declares an index, and whether as a unique one. -/
def declaredKind? (item : String) : Option Bool :=
  declarationKinds.lookup (Text.upper (Text.trim (headAndRest ':' item).1))

/-- What comes of an item that can be read. -/
theorem ofItem_ok {item : String} {o : Option Index}
    (h : ofItem ns model table position field item = .ok o) :
    (declaredKind? item = none ∧ o = none)
      ∨ ∃ unique d, declaredKind? item = some unique ∧ o = some d
        ∧ DeclaredBy ns model table position field (givenName item).1
          (Tag.Settings.parse ',' (givenName item).2) unique d := by
  unfold ofItem at h
  dsimp only at h
  rw [← declaredKind?] at h
  cases hkind : declaredKind? item with
  | none =>
    rw [hkind] at h
    cases h
    exact .inl ⟨rfl, rfl⟩
  | some unique =>
    rw [hkind] at h
    dsimp only at h
    rw [← givenName] at h
    generalize givenName item = parts at h ⊢
    generalize Tag.Settings.parse ',' parts.2 = settings at h ⊢
    split at h
    · next hempty =>
      obtain ⟨name, hname, h⟩ := exists_ok_of_bind h
      cases h
      refine .inr ⟨unique, _, rfl, rfl, fun _ => hname,
        fun hgiven => absurd (String.isEmpty_iff.mp hempty) hgiven, ?_, _, rfl, rfl, rfl⟩
      rintro rfl
      rfl
    · next hgiven =>
      cases h
      refine .inr ⟨unique, _, rfl, rfl, fun hempty => absurd (String.isEmpty_iff.mpr hempty) hgiven,
        fun _ => rfl, ?_, _, rfl, rfl, rfl⟩
      rintro rfl
      rfl

theorem declaredBy_of_ofItem {item : String}
    (h : ofItem ns model table position field item = .ok (some d)) :
    ∃ unique, DeclaredBy ns model table position field (givenName item).1
      (Tag.Settings.parse ',' (givenName item).2) unique d := by
  obtain ⟨-, hnone⟩ | ⟨unique, d', -, hd, hdeclared⟩ := ofItem_ok h
  · cases hnone
  · cases hd
    exact ⟨unique, hdeclared⟩

/-- The same declaration for a field at another position. -/
def movedTo (position : Nat) (d : Index) : Index :=
  { d with members := d.members.map fun m => { m with position } }

/-- The position of a field has no part in what it declares. -/
theorem ofItem_movedTo {item : String} {o : Option Index} (other : Nat)
    (h : ofItem ns model table position field item = .ok o) :
    ofItem ns model table other field item = .ok (o.map (movedTo other)) := by
  unfold ofItem at h ⊢
  dsimp only at h ⊢
  cases hkind : declarationKinds.lookup (Text.upper (Text.trim (headAndRest ':' item).1)) with
  | none =>
    rw [hkind] at h
    cases h
    rfl
  | some unique =>
    rw [hkind] at h
    dsimp only at h ⊢
    generalize headAndRest ',' (headAndRest ':' item).2 = parts at h ⊢
    generalize Tag.Settings.parse ',' parts.2 = settings at h ⊢
    split at h
    · next hempty =>
      rw [if_pos hempty]
      obtain ⟨name, hname, h⟩ := exists_ok_of_bind h
      cases h
      rw [hname]
      rfl
    · next hgiven =>
      rw [if_neg hgiven]
      cases h
      rfl

/-- Every item of a field that can be read can be read itself. -/
theorem exists_ofItem_of_ofField {item : String}
    (h : ofField ns model table position field = .ok declared) (hitem : item ∈ Tag.items ';' field.tag) :
    ∃ o, ofItem ns model table position field item = .ok o ∧ ∀ d ∈ o, d ∈ declared := by
  rw [ofField] at h
  obtain ⟨found, hfound, h⟩ := exists_ok_of_bind h
  cases h
  obtain ⟨o, ho, hok⟩ := exists_mem_of_mapM_except hfound hitem
  exact ⟨o, hok, fun d hd => List.mem_filterMap.mpr ⟨o, ho, hd⟩⟩

/-- What a field declares is the declaration of an item of its tag. -/
theorem exists_item_of_mem (h : ofField ns model table position field = .ok declared)
    (hd : d ∈ declared) : ∃ item ∈ Tag.items ';' field.tag,
      ofItem ns model table position field item = .ok (some d) := by
  rw [ofField] at h
  obtain ⟨found, hfound, h⟩ := exists_ok_of_bind h
  cases h
  obtain ⟨o, ho, rfl⟩ := List.mem_filterMap.mp hd
  exact exists_of_mem_mapM_except hfound ho

/-! ## Putting declarations together -/

/-- What comes of declarations with one name, one put together with the next; nothing if there is
none. -/
def combineAll : List Index → Option Index
  | [] => none
  | d :: ds => some (ds.foldl combine d)

theorem combineAll_concat (ds : List Index) (d : Index) :
    combineAll (ds ++ [d]) = some ((combineAll ds).elim d (·.combine d)) := by
  cases ds with
  | nil => rfl
  | cons first rest =>
    rw [List.cons_append, combineAll, combineAll, List.foldl_append]
    rfl

/-- A declaration changes what stands under its own name, and nothing else. -/
theorem find?_insert (d : Index) (indexes : List Index) (name : String) :
    (insert d indexes).find? (·.name == name)
      = if d.name = name then some ((indexes.find? (·.name == name)).elim d (·.combine d))
        else indexes.find? (·.name == name) := by
  induction indexes with
  | nil =>
    rw [insert, List.find?_cons]
    by_cases h : d.name = name
    · rw [if_pos h, h, beq_self_eq_true]
      rfl
    · rw [if_neg h, beq_false_of_ne h]
  | cons i rest ih =>
    rw [insert]
    by_cases hsame : i.name = d.name
    · rw [if_pos (by simpa using hsame), List.find?_cons, List.find?_cons]
      show (match i.name == name with | true => _ | false => _) = _
      by_cases h : i.name = name
      · rw [if_pos (hsame ▸ h), h, beq_self_eq_true]
        rfl
      · rw [if_neg (hsame ▸ h), beq_false_of_ne h]
    · rw [if_neg (by simpa using hsame), List.find?_cons, List.find?_cons, ih]
      by_cases h : i.name = name
      · have hother : d.name ≠ name := fun heq => hsame (h.trans heq.symm)
        rw [h, beq_self_eq_true, if_neg hother, if_neg hother]
      · rw [beq_false_of_ne h]

theorem gathered_concat (declared : List Index) (d : Index) :
    gathered (declared ++ [d]) = insert d (gathered declared) := by
  rw [gathered, List.foldl_append]
  rfl

/-- Under a name stands what comes of the declarations with that name. -/
theorem find?_gathered (declared : List Index) (name : String) :
    (gathered declared).find? (·.name == name) = combineAll (declared.filter (·.name == name)) := by
  induction declared using List.reverseRecOn with
  | nil => rfl
  | append_singleton declared d ih =>
    rw [gathered_concat, find?_insert, ih, List.filter_append]
    by_cases h : d.name = name
    · rw [if_pos h, List.filter_cons_of_pos (by simpa using h), List.filter_nil, combineAll_concat]
    · rw [if_neg h, List.filter_cons_of_neg (by simpa using h), List.filter_nil, List.append_nil]

theorem names_insert (d : Index) (indexes : List Index) :
    (insert d indexes).map (·.name)
      = indexes.map (·.name) ++ if d.name ∈ indexes.map (·.name) then [] else [d.name] := by
  induction indexes with
  | nil => rfl
  | cons i rest ih =>
    rw [insert]
    by_cases hsame : i.name = d.name
    · rw [if_pos (by simpa using hsame), List.map_cons, List.map_cons,
        if_pos (hsame ▸ List.mem_cons_self), List.append_nil]
      rfl
    · have hmem : d.name ∈ i.name :: rest.map (·.name) ↔ d.name ∈ rest.map (·.name) := by
        rw [List.mem_cons, or_iff_right (Ne.symm hsame)]
      rw [if_neg (by simpa using hsame), List.map_cons, List.map_cons, ih, List.cons_append]
      simp only [hmem]

/-- No two indexes have one name. -/
theorem nodup_names_gathered (declared : List Index) : ((gathered declared).map (·.name)).Nodup := by
  induction declared using List.reverseRecOn with
  | nil => exact List.nodup_nil
  | append_singleton declared d ih =>
    rw [gathered_concat, names_insert]
    split
    · rw [List.append_nil]
      exact ih
    · next hnew =>
      refine List.nodup_append.mpr ⟨ih, List.pairwise_singleton _ _, fun a ha b hb heq => hnew ?_⟩
      rw [← List.mem_singleton.mp hb, ← heq]
      exact ha

/-- Where names are distinct, each index is found under its name. -/
theorem find?_name_of_mem {indexes : List Index} (hnodup : (indexes.map (·.name)).Nodup)
    (hi : i ∈ indexes) : indexes.find? (·.name == i.name) = some i := by
  induction indexes with
  | nil => cases hi
  | cons first rest ih =>
    rw [List.map_cons, List.nodup_cons] at hnodup
    rw [List.find?_cons]
    obtain rfl | hrest := List.mem_cons.mp hi
    · rw [beq_self_eq_true]
    · have hne : first.name ≠ i.name := fun heq =>
        hnodup.1 (heq ▸ List.mem_map_of_mem hrest)
      rw [beq_false_of_ne hne]
      exact ih hnodup.2 hrest

/-- An index is what comes of the declarations with its name. -/
theorem mem_gathered : i ∈ gathered declared ↔
    combineAll (declared.filter (·.name == i.name)) = some i := by
  rw [← find?_gathered]
  exact ⟨find?_name_of_mem (nodup_names_gathered declared), List.mem_of_find?_eq_some⟩

/-! ## Members -/

/-- No member is lost and none comes twice when declarations are put together. -/
theorem members_foldl_combine (ds : List Index) (d : Index) :
    (ds.foldl combine d).members.Perm (d.members ++ ds.flatMap (·.members)) := by
  induction ds generalizing d with
  | nil =>
    rw [List.foldl_nil, List.flatMap_nil, List.append_nil]
  | cons next ds ih =>
    rw [List.foldl_cons, List.flatMap_cons, ← List.append_assoc]
    exact (ih (d.combine next)).trans ((List.mergeSort_perm _ _).append_right _)

/-- An index of one member comes of one declaration, if each declares one. -/
theorem eq_singleton_of_members (hdeclared : ∀ d ∈ declared, d.members.length = 1)
    (h : combineAll declared = some i) (hone : i.members.length = 1) : declared = [i] := by
  cases declared with
  | nil => cases h
  | cons d ds =>
    obtain ⟨hfirst, hrest⟩ := List.forall_mem_cons.mp hdeclared
    have hcombined : ds.foldl combine d = i := Option.some.inj h
    have hlength := (members_foldl_combine ds d).length_eq
    rw [hcombined, hone, List.length_append, hfirst] at hlength
    cases ds with
    | nil => rw [← hcombined, List.foldl_nil]
    | cons next ds =>
      rw [List.flatMap_cons, List.length_append, (List.forall_mem_cons.mp hrest).1] at hlength
      omega

end Index

/-! ## The indexes of a layout -/

namespace Layout

variable {l : Layout} {position : Nat} {f : Field} {d : Index}

/-- The declarations of indexes, field by field and item by item. -/
def declarations (l : Layout) : List Index :=
  l.fields.zipIdx.flatMap fun entry =>
    (Index.ofField l.naming l.name l.table entry.2 entry.1).toOption.getD []

theorem Assembled.indexes_uniques (h : l.Assembled) :
    Index.ofFields l.naming l.name l.table l.fields = .ok l.indexes
      ∧ l.uniques = UniqueConstraint.ofFields l.naming l.table l.fields l.indexes := by
  obtain ⟨name, table, declared, ns, h⟩ := h
  rw [assemble] at h
  obtain ⟨indexes, hindexes, h⟩ := exists_ok_of_bind h
  cases h
  exact ⟨hindexes, rfl⟩

/-- The declarations of each field of a layout can be read. -/
theorem Assembled.exists_declared (h : l.Assembled) (hf : l.field? position = some f) :
    ∃ declared, Index.ofField l.naming l.name l.table position f = .ok declared := by
  obtain ⟨hindexes, -⟩ := h.indexes_uniques
  rw [Index.ofFields] at hindexes
  obtain ⟨found, hfound, -⟩ := exists_ok_of_bind hindexes
  have hmem : (f, position) ∈ l.fields.zipIdx := List.mem_zipIdx_iff_getElem?.mpr hf
  obtain ⟨declared, -, hok⟩ := exists_mem_of_mapM_except hfound hmem
  exact ⟨declared, hok⟩

/-- The indexes of a layout are made of the declarations. -/
theorem Assembled.indexes_eq (h : l.Assembled) : l.indexes = Index.gathered l.declarations := by
  obtain ⟨hindexes, -⟩ := h.indexes_uniques
  rw [Index.ofFields] at hindexes
  obtain ⟨found, hfound, hindexes⟩ := exists_ok_of_bind hindexes
  have hfields : found.map id = l.fields.zipIdx.map fun entry =>
      (Index.ofField l.naming l.name l.table entry.2 entry.1).toOption.getD [] :=
    map_eq_of_mapM_except (fun entry declared hok => by
      have hok : Index.ofField l.naming l.name l.table entry.2 entry.1 = .ok declared := hok
      rw [hok]
      rfl) hfound
  rw [List.map_id] at hfields
  rw [declarations, List.flatMap_def, ← hfields]
  exact (Except.ok.inj hindexes).symm

/-- The declarations are those of the items in the tags of the fields. -/
theorem Assembled.mem_declarations (h : l.Assembled) : d ∈ l.declarations ↔
    ∃ position f, l.field? position = some f ∧ ∃ item ∈ Tag.items ';' f.tag,
      Index.ofItem l.naming l.name l.table position f item = .ok (some d) := by
  rw [declarations, List.mem_flatMap]
  constructor
  · rintro ⟨⟨f, position⟩, hmem, hd⟩
    have hf : l.field? position = some f := List.mem_zipIdx_iff_getElem?.mp hmem
    obtain ⟨declared, hok⟩ := h.exists_declared hf
    have hd : d ∈ (Index.ofField l.naming l.name l.table position f).toOption.getD [] := hd
    rw [hok] at hd
    exact ⟨position, f, hf, Index.exists_item_of_mem hok hd⟩
  · rintro ⟨position, f, hf, item, hitem, hok⟩
    refine ⟨(f, position), List.mem_zipIdx_iff_getElem?.mpr hf, ?_⟩
    obtain ⟨declared, hdeclared⟩ := h.exists_declared hf
    obtain ⟨o, ho, hmem⟩ := Index.exists_ofItem_of_ofField hdeclared hitem
    obtain rfl := Except.ok.inj (ho.symm.trans hok)
    show d ∈ (Index.ofField l.naming l.name l.table position f).toOption.getD []
    rw [hdeclared]
    exact hmem d rfl

end Layout

end RecordSql
