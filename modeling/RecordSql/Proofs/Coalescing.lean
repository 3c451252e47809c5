/-
  RecordSql.Proofs.Coalescing

  Indexes of several fields.  An index is declared piece by piece, by an item in
  the tag of each field that takes part in it.  The pieces are put together as
  they are read, and the members are sorted again after each one.  What stands
  there in the end is what one stable sort of all pieces gives
  (`Index.coalesced_by_name`): repeated sorting keeps pieces of one priority in
  the order they were read in (`SortedFrom.combine`).
-/

import RecordSql.Proofs.Indexes

namespace RecordSql

open RecordSql.Text

namespace Index

variable {ns : Naming} {model table : String}

/-! ## Declarations -/

/-- An item of a tag that declares an index. -/
structure Declaration where
  position : Nat
  field : Field
  /-- Whether the item makes the index unique. -/
  unique : Bool
  /-- The name that the item gives to the index; empty if it gives none. -/
  given : String
  settings : Tag.Settings

namespace Declaration

/-- The declaration that an item makes, if it makes one. -/
def ofItem? (position : Nat) (field : Field) (item : String) : Option Declaration :=
  (declaredKind? item).map fun unique =>
    ⟨position, field, unique, (givenName item).1, Tag.Settings.parse ',' (givenName item).2⟩

/-- The declarations in the tags of several fields, field by field and item by item. -/
def inTags (fields : List Field) : List Declaration :=
  fields.zipIdx.flatMap fun (field, position) =>
    (Tag.items ';' field.tag).filterMap (ofItem? position field)

/-- The name of the index. -/
def name? (ns : Naming) (model table : String) (d : Declaration) : Except Error String :=
  if d.given.isEmpty then impliedName ns model table d.field d.settings else .ok d.given

/-- A setting that is read as a number. -/
def number? {α : Type} (d : Declaration) (key : String) (read : List Char → Option α) : Option α :=
  (d.settings.value? key).bind fun v => read (trim v).toList

/-- The place among the members; 10 unless the declaration says otherwise by a number. -/
def priority (d : Declaration) : Int := (d.number? "PRIORITY" (signed? 64 10)).getD 10

/-- The class that the declaration gives to the index. -/
def category (d : Declaration) : String :=
  if d.unique || (d.settings.value? "UNIQUE").isSome then "UNIQUE" else d.settings.text "CLASS"

/-- The field as a member of the index. -/
def member (d : Declaration) : IndexMember :=
  { position := d.position
    field := d.field
    expression := d.settings.text "EXPRESSION"
    sort := d.settings.text "SORT"
    collate := d.settings.text "COLLATE"
    length := (d.number? "LENGTH" (unsigned? 64 10)).getD 0
    priority := d.priority }

/-- An index that is what a declaration says of it, and nothing else. -/
structure Declares (ns : Naming) (model table : String) (d : Declaration) (i : Index) : Prop where
  name : d.name? ns model table = .ok i.name
  category : i.category = d.category
  method : i.method = d.settings.text "TYPE"
  condition : i.condition = d.settings.text "WHERE"
  comment : i.comment = d.settings.text "COMMENT"
  option : i.option = d.settings.text "OPTION"
  members : i.members = [d.member]

/-- An item that can be read declares what it says, or nothing if it is none of a declaration. -/
theorem declares_of_ofItem {position : Nat} {field : Field} {item : String} {o : Option Index}
    (h : ofItem ns model table position field item = .ok o) :
    Option.Rel (Declares ns model table) (ofItem? position field item) o := by
  unfold ofItem at h
  dsimp only at h
  rw [← declaredKind?] at h
  rw [ofItem?]
  cases hkind : declaredKind? item with
  | none =>
    rw [hkind] at h
    cases h
    exact .none
  | some unique =>
    rw [hkind] at h
    dsimp only at h
    rw [← givenName] at h
    rw [Option.map_some]
    generalize (givenName item).1 = given at h ⊢
    generalize Tag.Settings.parse ',' (givenName item).2 = settings at h ⊢
    have hnumber {α : Type} (key : String) (read : List Char → Option α) :
        ((settings.value? key).map fun v => (trim v).toList).bind read
          = number? ⟨position, field, unique, given, settings⟩ key read := by
      rw [Option.bind_map]
      rfl
    rw [hnumber, hnumber] at h
    split at h
    · next hempty =>
      obtain ⟨name, hname, h⟩ := exists_ok_of_bind h
      cases h
      exact .some ⟨(if_pos hempty).trans hname, rfl, rfl, rfl, rfl, rfl, rfl⟩
    · next hgiven =>
      cases h
      exact .some ⟨if_neg hgiven, rfl, rfl, rfl, rfl, rfl, rfl⟩

/-- The indexes of several fields are put together from one index for each declaration. -/
theorem exists_declared {fields : List Field} {indexes : List Index}
    (h : ofFields ns model table fields = .ok indexes) :
    ∃ declared, List.Forall₂ (Declares ns model table) (inTags fields) declared
      ∧ indexes = gathered declared := by
  rw [ofFields] at h
  obtain ⟨found, hfound, h⟩ := exists_ok_of_bind h
  cases h
  refine ⟨found.flatten, ?_, rfl⟩
  rw [inTags, List.flatMap_def]
  refine List.rel_flatten (List.forall₂_map_left_iff.mpr ?_)
  refine (forall₂_of_mapM_except hfound).imp ?_
  rintro ⟨field, position⟩ ofField hfield
  have hfield : Index.ofField ns model table position field = .ok ofField := hfield
  rw [Index.ofField] at hfield
  obtain ⟨read, hread, hfield⟩ := exists_ok_of_bind hfield
  cases hfield
  exact List.rel_filterMap (fun item o ho => declares_of_ofItem ho) (forall₂_of_mapM_except hread)

theorem flatMap_members {ds : List Declaration} {declared : List Index}
    (h : List.Forall₂ (Declares ns model table) ds declared) :
    declared.flatMap (·.members) = ds.map (·.member) := by
  induction h with
  | nil => rfl
  | cons hd _ ih => rw [List.flatMap_cons, List.map_cons, hd.members, ih, List.singleton_append]

end Declaration

/-! ## Sorted members -/

/-- Members in ascending order of priority, those of one priority in the order they were written
in. -/
structure SortedFrom (written sorted : List IndexMember) : Prop where
  perm : sorted.Perm written
  ascending : sorted.Pairwise fun a b => a.priority ≤ b.priority
  stable : ∀ priority,
    sorted.filter (·.priority == priority) = written.filter (·.priority == priority)

theorem precedes_trans (a b c : IndexMember) (hab : decide (a.priority ≤ b.priority) = true)
    (hbc : decide (b.priority ≤ c.priority) = true) : decide (a.priority ≤ c.priority) = true := by
  rw [decide_eq_true_eq] at hab hbc ⊢
  omega

theorem precedes_total (a b : IndexMember) :
    (decide (a.priority ≤ b.priority) || decide (b.priority ≤ a.priority)) = true := by
  rw [Bool.or_eq_true, decide_eq_true_eq, decide_eq_true_eq]
  omega

/-- A sort leaves the members of one priority as they stand. -/
theorem filter_mergeSort (members : List IndexMember) (priority : Int) :
    (members.mergeSort fun a b => a.priority ≤ b.priority).filter (·.priority == priority)
      = members.filter (·.priority == priority) := by
  generalize hchosen : members.filter (·.priority == priority) = chosen
  have hsame : ∀ m ∈ chosen, m.priority = priority := by
    intro m hm
    rw [← hchosen] at hm
    exact eq_of_beq (List.mem_filter.mp hm).2
  -- Members of one priority are in order already, so a stable sort keeps them as a sublist.
  have hordered : chosen.Pairwise fun a b => decide (a.priority ≤ b.priority) = true :=
    List.pairwise_iff_forall_sublist.mpr fun {a b} hab => by
      have ha := hsame a (hab.mem (by simp))
      have hb := hsame b (hab.mem (by simp))
      exact decide_eq_true (by omega)
  have hsublist : chosen.Sublist members := hchosen ▸ List.filter_sublist
  have hkept := (List.sublist_mergeSort precedes_trans precedes_total hordered hsublist).filter
    (·.priority == priority)
  rw [List.filter_eq_self.mpr fun m hm => beq_iff_eq.mpr (hsame m hm)] at hkept
  have hlength := ((List.mergeSort_perm members fun a b => decide (a.priority ≤ b.priority)).filter
    (·.priority == priority)).length_eq
  rw [hchosen] at hlength
  exact (hkept.eq_of_length hlength.symm).symm

theorem SortedFrom.singleton (m : IndexMember) : SortedFrom [m] [m] :=
  ⟨.refl _, List.pairwise_singleton _ _, fun _ => rfl⟩

/-- One more declaration: what was sorted before stays in the order it was written in. -/
theorem SortedFrom.combine {written : List IndexMember} {i : Index}
    (h : SortedFrom written i.members) (d : Index) :
    SortedFrom (written ++ d.members) (i.combine d).members := by
  refine ⟨?_, ?_, ?_⟩
  · exact (List.mergeSort_perm _ _).trans (h.perm.append_right _)
  · have hsorted : (i.combine d).members.Pairwise fun a b => decide (a.priority ≤ b.priority) = true :=
      List.pairwise_mergeSort precedes_trans precedes_total (i.members ++ d.members)
    exact hsorted.imp of_decide_eq_true
  · intro priority
    show ((i.members ++ d.members).mergeSort _).filter _ = _
    rw [filter_mergeSort, List.filter_append, List.filter_append, h.stable]

/-- Any number of further declarations. -/
theorem SortedFrom.foldl_combine {written : List IndexMember} {i : Index}
    (h : SortedFrom written i.members) (ds : List Index) :
    SortedFrom (written ++ ds.flatMap (·.members)) (ds.foldl Index.combine i).members := by
  induction ds generalizing written i with
  | nil =>
    rw [List.flatMap_nil, List.append_nil]
    exact h
  | cons d ds ih =>
    rw [List.flatMap_cons, ← List.append_assoc, List.foldl_cons]
    exact ih (h.combine d)

/-! ## Attributes -/

/-- The first of several texts that is not empty. -/
def firstGiven (texts : List String) : String := (texts.find? (!·.isEmpty)).getD ""

theorem firstGiven_cons (text : String) (texts : List String) :
    firstGiven (text :: texts) = firstText text (firstGiven texts) := by
  rw [firstGiven, List.find?_cons, firstText]
  by_cases hempty : text.isEmpty = true
  · rw [hempty, if_pos rfl]
    rfl
  · rw [Bool.not_eq_true] at hempty
    rw [hempty, if_neg Bool.false_ne_true]
    rfl

theorem firstText_assoc (a b c : String) :
    firstText (firstText a b) c = firstText a (firstText b c) := by
  unfold firstText
  by_cases hempty : a.isEmpty = true
  · rw [if_pos hempty, if_pos hempty]
  · rw [if_neg hempty, if_neg hempty, if_neg hempty]

/-- A part that every declaration can give is the first one that is given. -/
theorem part_foldl_combine {part : Index → String}
    (hstep : ∀ a b, part (combine a b) = firstText (part a) (part b))
    (i : Index) (ds : List Index) :
    part (ds.foldl combine i) = firstGiven ((i :: ds).map part) := by
  induction ds generalizing i with
  | nil =>
    rw [List.foldl_nil, List.map_singleton, firstGiven_cons, firstText]
    split
    · next hempty => exact String.isEmpty_iff.mp hempty
    · rfl
  | cons d ds ih =>
    rw [List.foldl_cons, ih, List.map_cons, List.map_cons, List.map_cons, firstGiven_cons,
      firstGiven_cons, firstGiven_cons, hstep, firstText_assoc]

/-- An index that is made of several declarations. -/
structure MadeOf (ds : List Index) (i : Index) : Prop where
  category : i.category = firstGiven (ds.map (·.category))
  method : i.method = firstGiven (ds.map (·.method))
  condition : i.condition = firstGiven (ds.map (·.condition))
  comment : i.comment = firstGiven (ds.map (·.comment))
  option : i.option = firstGiven (ds.map (·.option))
  members : SortedFrom (ds.flatMap (·.members)) i.members

theorem madeOf_combineAll {ds : List Index} {i : Index} (hone : ∀ d ∈ ds, ∃ m, d.members = [m])
    (h : combineAll ds = some i) : MadeOf ds i := by
  cases ds with
  | nil => cases h
  | cons d ds =>
    cases h
    obtain ⟨m, hm⟩ := hone d (List.mem_cons_self ..)
    refine ⟨?_, ?_, ?_, ?_, ?_, ?_⟩
    iterate 5 exact part_foldl_combine (fun _ _ => rfl) d ds
    rw [List.flatMap_cons]
    refine SortedFrom.foldl_combine ?_ ds
    rw [hm]
    exact .singleton m

/-! ## All indexes -/

/-- Names stand in the order in which they are declared first. -/
theorem names_gathered (declared : List Index) :
    (gathered declared).map (·.name) = (declared.map (·.name)).eraseDups := by
  induction declared using List.reverseRecOn with
  | nil => rfl
  | append_singleton declared d ih =>
    have hmem : d.name ∈ (declared.map (·.name)).eraseDups ↔ d.name ∈ declared.map (·.name) :=
      List.mem_eraseDups
    rw [gathered_concat, names_insert, ih, List.map_append, List.eraseDups_append,
      List.map_singleton]
    congr 1
    by_cases hheld : d.name ∈ declared.map (·.name)
    · have hknown : [d.name].removeAll (declared.map (·.name)) = [] := by
        rw [List.removeAll, List.filter_cons_of_neg (by simpa using hheld), List.filter_nil]
      rw [if_pos (hmem.mpr hheld), hknown, List.eraseDups_nil]
    · have hnew : [d.name].removeAll (declared.map (·.name)) = [d.name] := by
        rw [List.removeAll, List.filter_cons_of_pos (by simpa using hheld), List.filter_nil]
      rw [if_neg fun hin => hheld (hmem.mp hin), hnew]
      rfl

/-- A declaration brings its members into one index, and the others keep theirs. -/
theorem members_insert (d : Index) (indexes : List Index) :
    ((insert d indexes).flatMap (·.members)).Perm (indexes.flatMap (·.members) ++ d.members) := by
  induction indexes with
  | nil =>
    rw [insert, List.flatMap_nil, List.nil_append, List.flatMap_singleton]
  | cons i rest ih =>
    rw [insert]
    split
    · rw [List.flatMap_cons, List.flatMap_cons, List.append_assoc]
      -- The members of the index are sorted with the new ones, which then move to the end.
      refine ((List.mergeSort_perm _ _).append_right _).trans ?_
      rw [List.append_assoc]
      exact List.perm_append_comm.append_left i.members
    · rw [List.flatMap_cons, List.flatMap_cons, List.append_assoc]
      exact ih.append_left i.members

/-- No member is lost and none comes twice. -/
theorem members_gathered (declared : List Index) :
    ((gathered declared).flatMap (·.members)).Perm (declared.flatMap (·.members)) := by
  induction declared using List.reverseRecOn with
  | nil => exact .refl _
  | append_singleton declared d ih =>
    rw [gathered_concat, List.flatMap_append, List.flatMap_singleton]
    exact (members_insert d _).trans (ih.append_right _)

open Declaration in
/-- Indexes and their declarations.  Each declaration in the tags has its name and its member.  No two
indexes have one name, and they stand in the order in which their names are declared first.  The
members of all indexes are those of all declarations, each once.  And an index is made of the
declarations with its name: their members are sorted by priority, those of one priority stand in the
order of the declarations, and every other attribute is the first one that a declaration gives. -/
theorem coalesced_by_name {fields : List Field} {indexes : List Index}
    (h : ofFields ns model table fields = .ok indexes) :
    ∃ declared, List.Forall₂ (Declares ns model table) (inTags fields) declared
      ∧ indexes.map (·.name) = (declared.map (·.name)).eraseDups
      ∧ (indexes.map (·.name)).Nodup
      ∧ (indexes.flatMap (·.members)).Perm ((inTags fields).map (·.member))
      ∧ ∀ i ∈ indexes, MadeOf (declared.filter (·.name == i.name)) i := by
  obtain ⟨declared, hdeclared, rfl⟩ := exists_declared h
  have hone : ∀ d ∈ declared, ∃ m, d.members = [m] :=
    ((List.forall₂_and_left _ _).mp
      (hdeclared.flip.imp fun d declaration hd => ⟨⟨declaration.member, hd.members⟩, hd⟩)).1
  refine ⟨declared, hdeclared, names_gathered declared, nodup_names_gathered declared, ?_, ?_⟩
  · rw [← flatMap_members hdeclared]
    exact members_gathered declared
  · intro i hi
    exact madeOf_combineAll (fun d hd => hone d (List.mem_filter.mp hd).1) (mem_gathered.mp hi)

/-- A seat is found by its row and its hall, in one index that stands in the tags of three fields. -/
def seatFields : List Field :=
  [ { name := "Number", bindNames := ["Number"], kind := .uint 64
      tag := "index:idx_place,priority:third;index" }
  , { name := "Row", bindNames := ["Row"], kind := .string
      tag := "Unique_Index:idx_place,priority:2,comment:place,sort:desc" }
  , { name := "Hall", bindNames := ["Hall"], kind := .string
      tag := "index:idx_place, PRIORITY: 1 ,comment:hall" } ]

open Declaration in
theorem seatFields_indexes :
    (inTags seatFields).map (fun d => (d.given, d.field.name, d.priority))
        = [("idx_place", "Number", 10), ("", "Number", 10), ("idx_place", "Row", 2),
          ("idx_place", "Hall", 1)]
      ∧ ∃ indexes, ofFields {} "Seat" "seats" seatFields = .ok indexes
        ∧ indexes.map (·.name) = ["idx_place", "idx_seats_number"]
        ∧ indexes.map (fun i => (i.category, i.comment)) = [("UNIQUE", "place"), ("", "")] := by
  refine ⟨by decide +kernel, ?_⟩
  have hread : ((ofFields {} "Seat" "seats" seatFields).toOption.map fun indexes =>
      (indexes.map (·.name), indexes.map fun i => (i.category, i.comment)))
      = some (["idx_place", "idx_seats_number"], [("UNIQUE", "place"), ("", "")]) := by
    decide +kernel
  obtain ⟨indexes, hok, hfacts⟩ := Option.map_eq_some_iff.mp hread
  rw [Prod.mk.injEq] at hfacts
  exact ⟨indexes, ok_of_toOption hok, hfacts⟩

open Declaration in
/-- The three declarations of the place are put together; a priority that is not a number is as good as
none. -/
theorem coalesced_by_name_seats :
    ∃ indexes declared, ofFields {} "Seat" "seats" seatFields = .ok indexes
      ∧ (inTags seatFields).map (·.priority) = [10, 10, 2, 1]
      ∧ List.Forall₂ (Declares {} "Seat" "seats") (inTags seatFields) declared
      ∧ (declared.map (·.name)).eraseDups = ["idx_place", "idx_seats_number"]
      ∧ indexes.map (·.comment) = ["place", ""]
      ∧ ∀ i ∈ indexes, MadeOf (declared.filter (·.name == i.name)) i := by
  obtain ⟨hdeclarations, indexes, hok, hnames, hgiven⟩ := seatFields_indexes
  obtain ⟨declared, hdeclared, hfirst, -, -, hmade⟩ := coalesced_by_name hok
  rw [hnames] at hfirst
  have hpriorities := congrArg (List.map fun entry => entry.2.2) hdeclarations
  have hcomments := congrArg (List.map Prod.snd) hgiven
  rw [List.map_map] at hpriorities hcomments
  exact ⟨indexes, declared, hok, hpriorities, hdeclared, hfirst.symm, hcomments, hmade⟩

end Index

end RecordSql
