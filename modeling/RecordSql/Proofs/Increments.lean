/-
  RecordSql.Proofs.Increments

  Which fields are counted up.  A tag may ask for it; what matters here are the
  fields whose own tags say nothing.  The field that is elected to stand for the
  primary key is counted up if it is a number, in every record type for itself
  (`Layout.electsIncrement`).  When the record is embedded, the copy of the
  elected field is taken back with the key, but only if election made it a key:
  a field that says itself that it is a key keeps counting
  (`Field.keepsIncrement`), next to the one that the outer record elects.

  So a field counts up exactly if some level elects it and every level further
  out keeps it (`Schema.CountsUp`).
-/

import RecordSql.Proofs.DeclaredFields
import RecordSql.Proofs.Tables.Layouts

namespace RecordSql

/-! ## What is counted up -/

namespace Field

/-- The field's own tag says nothing about counting up. -/
def SaysNoIncrement (f : Field) : Prop := f.ownSettings.contains "AUTOINCREMENT" = false

instance (f : Field) : Decidable f.SaysNoIncrement := inferInstanceAs (Decidable (_ = _))

/-- The field is a key by election alone. -/
def isMadeKey (f : Field) : Bool := f.primaryKey && !isExplicitKey f.settings

/-- Where the record is embedded, the copy of the field is still counted up if the field is: it is not
taken back with a key that the field was made, or the settings ask for it. -/
def keepsIncrement (f : Field) : Bool :=
  !f.isMadeKey || (f.settings.get? "AUTOINCREMENT").any Tag.isTrue

theorem adopted_autoIncrement (container : Field) (owner : Nat) (g : Field) :
    (adopted container owner g).autoIncrement = (g.autoIncrement && g.keepsIncrement) := by
  rw [keepsIncrement, ← Bool.not_not ((g.settings.get? "AUTOINCREMENT").any Tag.isTrue),
    ← Bool.not_and]
  rfl

end Field

namespace Layout

variable {l : Layout} {name table : String} {declared : List Field} {ns : Naming} {index i : Nat}
  {f : Field}

/-- The field at the position stands for the primary key, and is a number about which no tag says
whether it is counted up. -/
def electsIncrement (prioritized : Option Nat) (f : Field) (i : Nat) : Bool :=
  prioritized == some i && f.semanticType.any (·.isInteger) && !f.settings.contains "AUTOINCREMENT"

/-- A field of a layout counts as the one that is declared does, or because it is elected. -/
structure CountsAs (prioritized : Option Nat) (declared : Field) (i : Nat) (f : Field) : Prop where
  owner : f.owner = declared.owner
  tag : f.tag = declared.tag
  defaultText : f.defaultText = declared.defaultText
  autoIncrement : f.autoIncrement = (declared.autoIncrement || electsIncrement prioritized f i)
  hasDefault : f.hasDefault = (declared.hasDefault || electsIncrement prioritized f i)

theorem countsAs_marked (prioritized : Option Nat) (primary : List Nat) (ns : Naming) (g : Field)
    (i : Nat) : CountsAs prioritized g i (marked prioritized primary (columned ns g) i) := by
  obtain ⟨dbName, hcolumned⟩ := columned_eq ns g
  obtain ⟨_, _, _, hmarked⟩ := marked_eq prioritized primary (columned ns g) i
  have hcounts : (marked prioritized primary (columned ns g) i).autoIncrement
        = (g.autoIncrement || electsIncrement prioritized g i)
      ∧ (marked prioritized primary (columned ns g) i).hasDefault
        = (g.hasDefault || electsIncrement prioritized g i) := by
    rw [hcolumned]
    unfold marked electsIncrement
    dsimp only
    -- Whether it is made a key has nothing to do with its type and its settings.
    split <;> split <;> simp_all
  have helects : electsIncrement prioritized (marked prioritized primary (columned ns g) i) i
      = electsIncrement prioritized g i := by
    rw [hmarked, hcolumned]
    rfl
  refine ⟨?_, ?_, ?_, hcounts.1.trans (by rw [helects]), hcounts.2.trans (by rw [helects])⟩
  all_goals
    rw [hmarked, hcolumned]

theorem exists_declared_of_assemble (h : assemble name table declared ns = .ok l)
    (hf : l.field? i = some f) : ∃ g ∈ declared, CountsAs l.prioritized g i f := by
  rw [field?, getElem?_fields_of_assemble h] at hf
  obtain ⟨g, hg, rfl⟩ := Option.map_eq_some_iff.mp hf
  exact ⟨g, List.mem_of_getElem? hg, countsAs_marked _ _ _ _ _⟩

/-- The fields that come from the embedded record with the number, and their positions. -/
def copies (l : Layout) (index : Nat) : List (Field × Nat) :=
  l.fields.zipIdx.filter fun entry => entry.1.owner == some index

theorem mem_copies : (f, i) ∈ l.copies index ↔ l.field? i = some f ∧ f.owner = some index := by
  rw [copies, List.mem_filter, List.mem_zipIdx_iff_getElem?]
  exact and_congr_right fun _ => beq_iff_eq

theorem field?_of_copy {j : Nat} (h : (l.copies index)[j]? = some (f, i)) : l.field? i = some f :=
  (mem_copies.mp (List.mem_of_getElem? h)).1

theorem zipIdx_fields_of_assemble (h : assemble name table declared ns = .ok l) :
    l.fields.zipIdx = declared.zipIdx.map fun (g, i) =>
      (marked l.prioritized l.primary (columned ns g) i, i) := by
  refine List.ext_getElem? fun i => ?_
  rw [List.getElem?_zipIdx, List.getElem?_map, List.getElem?_zipIdx, getElem?_fields_of_assemble h]
  cases declared[i]? with
  | none => rfl
  | some g =>
    rw [Option.map_some, Option.map_some, Option.map_some, Option.map_some, Nat.zero_add]

/-- They come, in order, of those that are declared with the number. -/
theorem copies_of_assemble (h : assemble name table declared ns = .ok l) :
    List.Forall₂ (fun g (entry : Field × Nat) => CountsAs l.prioritized g entry.2 entry.1)
      (declared.filter (·.owner == some index)) (l.copies index) := by
  have hcounts (g : Field) (i : Nat) := countsAs_marked l.prioritized l.primary ns g i
  have hcopies : l.copies index
      = (declared.zipIdx.filter fun entry => entry.1.owner == some index).map fun (g, i) =>
          (marked l.prioritized l.primary (columned ns g) i, i) := by
    rw [copies, zipIdx_fields_of_assemble h, List.filter_map]
    congr 2
    funext entry
    show ((marked l.prioritized l.primary (columned ns entry.1) entry.2).owner == some index) = _
    rw [(hcounts entry.1 entry.2).owner]
  have hdeclared : (declared.zipIdx.filter fun entry => entry.1.owner == some index).map Prod.fst
      = declared.filter (·.owner == some index) := by
    rw [← List.zipIdx_map_fst 0 declared, List.filter_map, List.zipIdx_map_fst]
    rfl
  rw [hcopies, ← hdeclared, List.forall₂_map_left_iff, List.forall₂_map_right_iff]
  exact List.forall₂_same.mpr fun entry _ => hcounts entry.1 entry.2

end Layout

/-! ## Where fields come from -/

namespace Flattened

variable {embed : ModelRef → Except ParseFailure Layout} {model : String} {count index : Nat}
  {ds : List DeclaredField} {fields : List Field} {layouts : List Layout} {layout : Layout} {f : Field}

/-- A field that comes from no embedded record is declared by the record type itself. -/
theorem exists_declared (h : Flattened embed model count ds fields layouts) (hf : f ∈ fields)
    (howner : f.owner = none) : ∃ d, f.ReadFrom d := by
  induction h with
  | nil => cases hf
  | own hparse _ ih =>
    obtain rfl | hrest := List.mem_cons.mp hf
    · exact ⟨_, (Field.readFrom_of_parse hparse).1⟩
    · exact ih hrest
  | embedded _ _ _ ih =>
    obtain hcopy | hrest := List.mem_append.mp hf
    · obtain ⟨g, -, rfl⟩ := List.mem_map.mp hcopy
      cases howner
    · exact ih hrest

/-- The numbers of embedded records go on from those before. -/
theorem owner_range (h : Flattened embed model count ds fields layouts) (hf : f ∈ fields)
    (howner : f.owner = some index) : count ≤ index ∧ index < count + layouts.length := by
  induction h with
  | nil => cases hf
  | own hparse _ ih =>
    obtain rfl | hrest := List.mem_cons.mp hf
    · rw [(Field.readFrom_of_parse hparse).1.owner] at howner
      cases howner
    · exact ih hrest
  | embedded _ _ _ ih =>
    obtain hcopy | hrest := List.mem_append.mp hf
    · obtain ⟨g, -, rfl⟩ := List.mem_map.mp hcopy
      cases howner
      rw [List.length_cons]
      omega
    · have hrange := ih hrest
      rw [List.length_cons]
      omega

/-- The fields with the number of an embedded record are the copies of its fields, in order. -/
theorem filter_owner (h : Flattened embed model count ds fields layouts)
    (hlayout : layouts[index]? = some layout) :
    ∃ container, fields.filter (·.owner == some (count + index))
      = layout.fields.map (Field.adopted container (count + index)) := by
  induction h generalizing index with
  | nil => cases hlayout
  | own hparse _ ih =>
    obtain ⟨container, hfields⟩ := ih hlayout
    refine ⟨container, ?_⟩
    rw [List.filter_cons_of_neg, hfields]
    rw [(Field.readFrom_of_parse hparse).1.owner]
    exact Bool.false_ne_true
  | @embedded count d ds container inner first fields layouts hparse hembed hrest ih =>
    rw [List.filter_append]
    cases index with
    | zero =>
      cases hlayout
      refine ⟨container, ?_⟩
      have hall : (layout.fields.map (Field.adopted container count)).filter
          (·.owner == some (count + 0)) = layout.fields.map (Field.adopted container count) := by
        refine List.filter_eq_self.mpr fun f hf => ?_
        obtain ⟨g, -, rfl⟩ := List.mem_map.mp hf
        exact beq_self_eq_true _
      have hnone : fields.filter (·.owner == some (count + 0)) = [] := by
        refine List.filter_eq_nil_iff.mpr fun f hf howner => ?_
        have hrange := hrest.owner_range hf (beq_iff_eq.mp howner)
        omega
      rw [hall, hnone, List.append_nil]
      rfl
    | succ index =>
      obtain ⟨container', hfields⟩ := ih hlayout
      refine ⟨container', ?_⟩
      have hnone : (first.fields.map (Field.adopted container count)).filter
          (·.owner == some (count + (index + 1))) = [] := by
        refine List.filter_eq_nil_iff.mpr fun f hf howner => ?_
        obtain ⟨g, -, rfl⟩ := List.mem_map.mp hf
        have heq : some count = some (count + (index + 1)) := beq_iff_eq.mp howner
        have hlt := Option.some.inj heq
        omega
      rw [hnone, List.nil_append, show count + (index + 1) = count + 1 + index by omega]
      exact hfields

end Flattened

/-! ## One level -/

namespace Schema

variable {catalog : Catalog} {ns : Naming} {s : Schema} {table : String} {depth : Nat} {model : Model}
  {index i j : Nat} {f g : Field} {layout : Layout}

/-- The schema is that of a record type of the catalog, in a table. -/
def IsRead (catalog : Catalog) (ns : Naming) (table : String) (s : Schema) : Prop :=
  ∃ depth model, ofModel catalog ns table depth model = .ok s

/-- A field that the record type declares itself is counted up if it is elected. -/
theorem autoIncrement_of_own (h : s.IsRead catalog ns table) (hf : s.field? i = some f)
    (howner : f.owner = none) (hsilent : f.SaysNoIncrement) :
    f.autoIncrement = Layout.electsIncrement s.prioritized f i := by
  obtain ⟨depth, model, h⟩ := h
  obtain ⟨below, fields, hfields, hlayout⟩ := ofModel_ok h
  obtain ⟨g, hg, hcounts⟩ := Layout.exists_declared_of_assemble hlayout hf
  obtain ⟨d, hread⟩ := (flattened_of_ok hfields).exists_declared hg (hcounts.owner ▸ howner)
  rw [Field.SaysNoIncrement, Field.ownSettings_of_tag hcounts.tag, hread.ownSettings] at hsilent
  rw [hcounts.autoIncrement, hread.autoIncrement, Tag.Settings.flag_eq_false hsilent, Bool.false_or]

/-- The copies are, one by one, those of the fields of the embedded record, adopted. -/
theorem copies_ok (h : s.IsRead catalog ns table) (hlayout : s.embedded[index]? = some layout) :
    ∃ container, List.Forall₂ (fun g (entry : Field × Nat) =>
        Layout.CountsAs s.prioritized (Field.adopted container index g) entry.2 entry.1)
      layout.fields (s.copies index) := by
  obtain ⟨depth, model, h⟩ := h
  obtain ⟨below, fields, hfields, hassembled⟩ := ofModel_ok h
  obtain ⟨container, hadopted⟩ := (flattened_of_ok hfields).filter_owner hlayout
  rw [Nat.zero_add] at hadopted
  have hcopies : List.Forall₂ (fun g (entry : Field × Nat) =>
      Layout.CountsAs s.prioritized g entry.2 entry.1)
      (fields.filter (·.owner == some index)) (s.copies index) :=
    Layout.copies_of_assemble hassembled
  rw [hadopted, List.forall₂_map_left_iff] at hcopies
  exact ⟨container, hcopies⟩

/-- The copy of a field is counted up if the field is and keeps that, or if the copy is elected. -/
theorem autoIncrement_of_copy (h : s.IsRead catalog ns table)
    (hlayout : s.embedded[index]? = some layout) (hg : layout.field? j = some g)
    (hf : (s.copies index)[j]? = some (f, i)) :
    f.tag = g.tag ∧ f.autoIncrement
      = (g.autoIncrement && g.keepsIncrement || Layout.electsIncrement s.prioritized f i) := by
  obtain ⟨container, hcopies⟩ := copies_ok h hlayout
  have hcounts : Layout.CountsAs s.prioritized (Field.adopted container index g) i f := by
    have hrel := rel_getElem? hcopies j
    rw [hf, show layout.fields[j]? = some g from hg] at hrel
    cases hrel with
    | some hcounts => exact hcounts
  refine ⟨hcounts.tag, ?_⟩
  rw [hcounts.autoIncrement, Field.adopted_autoIncrement]

/-- A field that comes from an embedded record is the copy of one of its fields. -/
theorem exists_copied (h : ofModel catalog ns table (depth + 1) model = .ok s)
    (hf : s.field? i = some f) (howner : f.owner = some index) :
    ∃ inner j g, (∃ ref, ofModel catalog ns table depth (catalog.describe ref) = .ok inner)
      ∧ s.embedded[index]? = some inner.toLayout ∧ inner.field? j = some g
      ∧ (s.copies index)[j]? = some (f, i) := by
  obtain ⟨fields, hfields, hlayout⟩ := ofModel_succ_ok h
  obtain ⟨declared, hdeclared, hcounts⟩ := Layout.exists_declared_of_assemble hlayout hf
  -- The number is that of an embedded record.
  have hrange := (flattened_of_ok hfields).owner_range hdeclared (hcounts.owner ▸ howner)
  have hlt : index < s.embedded.length := by omega
  have hembedded : s.embedded[index]? = some s.embedded[index] := List.getElem?_eq_getElem hlt
  obtain ⟨_, -, ⟨ref, hembed⟩, -⟩ := (flattened_of_ok hfields).mem hembedded
  obtain ⟨inner, hinner, hsame⟩ := exists_ok_of_map hembed
  -- The field is one of the copies, so it stands at the place of the one that is copied.
  obtain ⟨j, hj⟩ := List.getElem?_of_mem (Layout.mem_copies.mpr ⟨hf, howner⟩)
  obtain ⟨container, hcopies⟩ := copies_ok ⟨_, _, h⟩ hembedded
  have hrel := rel_getElem? hcopies j
  rw [hj] at hrel
  cases hg : s.embedded[index].fields[j]? with
  | none =>
    rw [hg] at hrel
    cases hrel
  | some g => exact ⟨inner, j, g, ⟨ref, hinner⟩, hsame ▸ hembedded, hsame ▸ hg, hj⟩

/-! ## All levels -/

/-- The field at the position of a schema is counted up although its tag does not say so. -/
inductive CountsUp (catalog : Catalog) (ns : Naming) (table : String) : Schema → Nat → Prop where
  /-- The field stands for the primary key. -/
  | elected {s : Schema} {i : Nat} {f : Field} (hf : s.field? i = some f)
    (helected : Layout.electsIncrement s.prioritized f i = true) : CountsUp catalog ns table s i
  /-- The field is the copy of one that is counted up, and keeps that. -/
  | kept {s inner : Schema} {index i j : Nat} {f g : Field} (hinner : inner.IsRead catalog ns table)
    (hembedded : s.embedded[index]? = some inner.toLayout)
    (hcopy : (s.copies index)[j]? = some (f, i)) (hg : inner.field? j = some g)
    (hcounts : CountsUp catalog ns table inner j) (hkeeps : g.keepsIncrement = true) :
    CountsUp catalog ns table s i

variable {inner : Schema}

/-- A field that says nothing itself is counted up exactly if some level elects it and the others keep
it. -/
theorem autoIncrement_iff_countsUp (h : ofModel catalog ns table depth model = .ok s)
    (hf : s.field? i = some f) (hsilent : f.SaysNoIncrement) :
    f.autoIncrement = true ↔ CountsUp catalog ns table s i := by
  constructor
  · intro hincrement
    -- By induction on how deep records are embedded: a copy is counted up because it is elected, or
    -- because the field of the embedded record is.
    induction depth generalizing model s i f with
    | zero => cases h
    | succ below ih =>
      cases howner : f.owner with
      | none =>
        rw [autoIncrement_of_own ⟨_, _, h⟩ hf howner hsilent] at hincrement
        exact .elected hf hincrement
      | some index =>
        obtain ⟨inner, j, g, ⟨ref, hinner⟩, hembedded, hg, hcopy⟩ := exists_copied h hf howner
        obtain ⟨htag, hcounts⟩ := autoIncrement_of_copy ⟨_, _, h⟩ hembedded hg hcopy
        rw [hcounts, Bool.or_eq_true, Bool.and_eq_true] at hincrement
        obtain ⟨hinside, hkeeps⟩ | helected := hincrement
        · rw [Field.SaysNoIncrement, Field.ownSettings_of_tag htag] at hsilent
          exact .kept ⟨_, _, hinner⟩ hembedded hcopy hg (ih hinner hg hsilent hinside) hkeeps
        · exact .elected hf helected
  · intro hcounts
    have hread : s.IsRead catalog ns table := ⟨_, _, h⟩
    clear h
    induction hcounts generalizing f with
    | @elected s i f' hf' helected =>
      obtain rfl : f' = f := Option.some.inj (hf'.symm.trans hf)
      cases howner : f'.owner with
      | none => rw [autoIncrement_of_own hread hf howner hsilent, helected]
      | some index =>
        obtain ⟨depth, model, h⟩ := hread
        cases depth with
        | zero => cases h
        | succ below =>
          obtain ⟨inner, j, g, -, hembedded, hg, hcopy⟩ := exists_copied h hf howner
          rw [(autoIncrement_of_copy ⟨_, _, h⟩ hembedded hg hcopy).2, helected, Bool.or_true]
    | kept hinner hembedded hcopy hg _ hkeeps ih =>
      obtain rfl := Option.some.inj ((Layout.field?_of_copy hcopy).symm.trans hf)
      obtain ⟨htag, hcounts⟩ := autoIncrement_of_copy hread hembedded hg hcopy
      rw [Field.SaysNoIncrement, Field.ownSettings_of_tag htag] at hsilent
      rw [hcounts, ih hg hsilent hinner, hkeeps]
      rfl

end Schema

/-! ## Values that the database gives -/

/-- The database gives a value to the field only if it counts the field up, or if the field's own tag
says so. -/
structure Field.GivenAsTold (f : Field) : Prop where
  text : f.defaultText = f.ownSettings.text "DEFAULT"
  reason : f.hasDefault = true → f.autoIncrement = true ∨ f.ownSettings.contains "DEFAULT" = true

namespace Field.GivenAsTold

variable {f g : Field}

theorem of_readFrom {d : DeclaredField} (h : f.ReadFrom d) : f.GivenAsTold where
  text := by rw [h.defaultText, h.ownSettings]
  reason hdefault := by
    rw [h.hasDefault, Bool.or_eq_true] at hdefault
    rw [h.autoIncrement, h.ownSettings]
    exact hdefault

theorem of_countsAs {prioritized : Option Nat} {i : Nat} (hg : g.GivenAsTold)
    (h : Layout.CountsAs prioritized g i f) : f.GivenAsTold where
  text := by rw [h.defaultText, hg.text, Field.ownSettings_of_tag h.tag]
  reason hdefault := by
    rw [h.hasDefault, Bool.or_eq_true] at hdefault
    rw [h.autoIncrement, Field.ownSettings_of_tag h.tag, Bool.or_eq_true]
    obtain hdefault | helected := hdefault
    · exact (hg.reason hdefault).imp_left .inl
    · exact .inl (.inr helected)

/-- What a field is no longer counted up for is not left to the database either, unless its tag gives a
default. -/
theorem adopted (hg : g.GivenAsTold) (container : Field) (owner : Nat) :
    (Field.adopted container owner g).GivenAsTold where
  text := hg.text
  reason hdefault := by
    show (Field.adopted container owner g).autoIncrement = true ∨ g.ownSettings.contains "DEFAULT" = true
    cases hcounts : (Field.adopted container owner g).autoIncrement with
    | true => exact .inl rfl
    | false =>
      refine .inr ?_
      have hkept : (g.hasDefault && !(g.isMadeKey
          && !(Field.adopted container owner g).autoIncrement && g.defaultText.isEmpty)) = true :=
        hdefault
      rw [hcounts, Bool.not_false, Bool.and_true, Bool.and_eq_true] at hkept
      obtain hincrement | htold := hg.reason hkept.1
      · -- The field was counted up and is not any more, so it was made a key; its default stays.
        rw [adopted_autoIncrement, hincrement, Bool.true_and, keepsIncrement, Bool.or_eq_false_iff,
          Bool.not_eq_false'] at hcounts
        have htext := hkept.2
        rw [hcounts.1, Bool.true_and, Bool.not_eq_true', hg.text] at htext
        refine Tag.Settings.contains_of_text_ne fun hempty => ?_
        rw [hempty] at htext
        cases htext
      · exact htold

end Field.GivenAsTold

theorem Layout.takesDbDefault_of_mem {name table : String} {declared : List Field} {ns : Naming}
    {l : Layout} (h : assemble name table declared ns = .ok l) {i : Nat} (hi : i ∈ l.dbDefaults) :
    ∃ f, l.field? i = some f ∧ takesDbDefault f = true := by
  simp only [assemble, bind, Except.bind] at h
  split at h
  · cases h
  · cases h
    obtain hprimary | hother := List.mem_append.mp hi
    · have htakes := (List.mem_filter.mp hprimary).2
      rw [Option.any_eq_true] at htakes
      exact htakes
    · obtain ⟨⟨f, j⟩, hmem, hf⟩ := List.mem_filterMap.mp hother
      dsimp only at hf
      split at hf
      · next htakes =>
        cases hf
        simp only [Bool.and_eq_true] at htakes
        exact ⟨f, List.mem_zipIdx_iff_getElem?.mp hmem, htakes.1.2⟩
      · cases hf

namespace Schema

variable {catalog : Catalog} {ns : Naming} {s : Schema} {table : String} {depth : Nat} {model : Model}

theorem givenAsTold_of_ofModel (h : ofModel catalog ns table depth model = .ok s) :
    ∀ f ∈ s.fields, f.GivenAsTold := by
  induction depth generalizing model s with
  | zero => cases h
  | succ below ih =>
    obtain ⟨fields, hfields, hlayout⟩ := ofModel_succ_ok h
    have hdeclared : ∀ f ∈ fields, f.GivenAsTold := by
      refine (flattened_of_ok hfields).forall_fields (P := Field.GivenAsTold)
        (fun d f inner hparse => .of_readFrom (Field.readFrom_of_parse hparse).1)
        (fun inner layout hembed => ?_) fun container owner f hf => hf.adopted container owner
      obtain ⟨embedded, hinner, rfl⟩ := exists_ok_of_map hembed
      exact ih hinner
    intro f hf
    obtain ⟨i, hi⟩ := List.getElem?_of_mem hf
    obtain ⟨g, hg, hcounts⟩ := Layout.exists_declared_of_assemble hlayout hi
    exact (hdeclared g hg).of_countsAs hcounts

/-- Of the fields whose own tags say nothing about it, those are counted up that some level elects and
every level further out keeps. So nothing but the field that stands for the primary key is counted up
in this way exactly if no embedded record has another one that keeps counting. What the database gives
a value for, although its tag gives neither a default nor an increment, is counted up. -/
theorem counted_up_iff {ref : ModelRef} {asked : Option String}
    (h : parse catalog ns ref asked = .ok s) :
    (∀ i f, s.field? i = some f → f.SaysNoIncrement →
      (f.autoIncrement = true ↔ CountsUp catalog ns (tableOf ns (catalog.describe ref) asked) s i))
    ∧ ((∀ i f, s.field? i = some f → f.SaysNoIncrement → f.autoIncrement = true →
        s.prioritized = some i)
      ↔ ∀ index layout j g f i, s.embedded[index]? = some layout → layout.field? j = some g →
        (s.copies index)[j]? = some (f, i) → g.SaysNoIncrement → g.autoIncrement = true →
        g.keepsIncrement = true → s.prioritized = some i)
    ∧ ∀ i ∈ s.dbDefaults, ∀ f, s.field? i = some f → f.SaysNoIncrement →
      f.ownSettings.contains "DEFAULT" = false → f.autoIncrement = true := by
  have hread : s.IsRead catalog ns (tableOf ns (catalog.describe ref) asked) := ⟨_, _, h⟩
  refine ⟨fun i f hf hsilent => autoIncrement_iff_countsUp h hf hsilent, ⟨?_, ?_⟩, ?_⟩
  · intro honly index layout j g f i hlayout hg hcopy hsilent hincrement hkeeps
    obtain ⟨htag, hcounts⟩ := autoIncrement_of_copy hread hlayout hg hcopy
    have hf : s.field? i = some f := Layout.field?_of_copy hcopy
    rw [Field.SaysNoIncrement, ← Field.ownSettings_of_tag htag] at hsilent
    exact honly i f hf hsilent (by rw [hcounts, hincrement, hkeeps]; rfl)
  · intro hkept i f hf hsilent hincrement
    have hstands : Layout.electsIncrement s.prioritized f i = true → s.prioritized = some i := by
      rw [Layout.electsIncrement, Bool.and_eq_true, Bool.and_eq_true, beq_iff_eq]
      exact fun helected => helected.1.1
    cases howner : f.owner with
    | none =>
      rw [autoIncrement_of_own hread hf howner hsilent] at hincrement
      exact hstands hincrement
    | some index =>
      obtain ⟨inner, j, g, -, hembedded, hg, hcopy⟩ := exists_copied h hf howner
      obtain ⟨htag, hcounts⟩ := autoIncrement_of_copy hread hembedded hg hcopy
      rw [hcounts, Bool.or_eq_true, Bool.and_eq_true] at hincrement
      obtain ⟨hinside, hkeeps⟩ | helected := hincrement
      · rw [Field.SaysNoIncrement, Field.ownSettings_of_tag htag] at hsilent
        exact hkept index inner.toLayout j g f i hembedded hg hcopy hsilent hinside hkeeps
      · exact hstands helected
  · intro i hi f hf hsilent hsilent'
    obtain ⟨below, fields, -, hlayout⟩ := ofModel_ok h
    obtain ⟨f', hf', htakes⟩ := Layout.takesDbDefault_of_mem hlayout hi
    obtain rfl : f' = f := Option.some.inj (hf'.symm.trans hf)
    rw [Layout.takesDbDefault, Bool.and_eq_true] at htakes
    have hgiven := givenAsTold_of_ofModel h f' (List.mem_of_getElem? hf')
    refine (hgiven.reason htakes.1).resolve_right fun htold => ?_
    rw [hsilent'] at htold
    cases htold

/-- A ticket has a number of its own and that of a venue, and both say that they are keys. -/
def tickets : Catalog :=
  ⟨[ ( "Ticket",
      { name := "Ticket"
        fields :=
          [ { name := "ID", kind := .uint 64, tag := "primaryKey" }
          , { name := "Venue", kind := .record ⟨"Venue", "Venue"⟩
              tag := "embedded;embeddedPrefix:venue_" } ] } )
    , ( "Venue",
      { name := "Venue"
        fields := [{ name := "Number", kind := .uint 64, tag := "primaryKey" }] } ) ]⟩

theorem tickets_schema :
    ∃ s id number, parse tickets {} ⟨"Ticket", "Ticket"⟩ none = .ok s
      ∧ s.prioritized = some 0 ∧ s.dbDefaults = [0, 1]
      ∧ (s.field? 0 = some id ∧ id.SaysNoIncrement ∧ id.autoIncrement = true)
      ∧ s.field? 1 = some number ∧ number.SaysNoIncrement ∧ number.autoIncrement = true := by
  have hparsed : ((parse tickets {} ⟨"Ticket", "Ticket"⟩ none).toOption.map fun s =>
      decide (s.prioritized = some 0 ∧ s.dbDefaults = [0, 1]
        ∧ (s.field? 0).any (fun f => decide (f.SaysNoIncrement ∧ f.autoIncrement = true)) = true
        ∧ (s.field? 1).any (fun f => decide (f.SaysNoIncrement ∧ f.autoIncrement = true)) = true))
      = some true := by decide +kernel
  obtain ⟨s, hs, hfacts⟩ := Option.map_eq_some_iff.mp hparsed
  obtain ⟨hprioritized, hdefaults, hid, hnumber⟩ := of_decide_eq_true hfacts
  rw [Option.any_eq_true] at hid hnumber
  obtain ⟨id, hid, hidFacts⟩ := hid
  obtain ⟨number, hnumber, hnumberFacts⟩ := hnumber
  obtain ⟨hidSilent, hidCounts⟩ := of_decide_eq_true hidFacts
  obtain ⟨hnumberSilent, hnumberCounts⟩ := of_decide_eq_true hnumberFacts
  exact ⟨s, id, number, ok_of_toOption hs, hprioritized, hdefaults, ⟨hid, hidSilent, hidCounts⟩,
    hnumber, hnumberSilent, hnumberCounts⟩

/-- The number of the venue is counted up next to that of the ticket, which stands for the primary
key: an embedded record has a field that keeps counting. -/
theorem counted_up_iff_tickets :
    ∃ s, parse tickets {} ⟨"Ticket", "Ticket"⟩ none = .ok s
      ∧ s.prioritized = some 0 ∧ s.dbDefaults = [0, 1]
      ∧ (∀ i ∈ s.dbDefaults, CountsUp tickets {}
        (tableOf {} (tickets.describe ⟨"Ticket", "Ticket"⟩) none) s i)
      ∧ ¬ ∀ index layout j g f i, s.embedded[index]? = some layout → layout.field? j = some g →
        (s.copies index)[j]? = some (f, i) → g.SaysNoIncrement → g.autoIncrement = true →
        g.keepsIncrement = true → s.prioritized = some i := by
  obtain ⟨s, id, number, hok, hprioritized, hdefaults, ⟨hid, hidSilent, hidCounts⟩, hnumber,
    hnumberSilent, hnumberCounts⟩ := tickets_schema
  obtain ⟨hcounts, honly, -⟩ := counted_up_iff hok
  refine ⟨s, hok, hprioritized, hdefaults, ?_, fun hkept => ?_⟩
  · rw [hdefaults]
    exact List.forall_mem_cons.mpr ⟨(hcounts 0 id hid hidSilent).mp hidCounts,
      List.forall_mem_singleton.mpr ((hcounts 1 number hnumber hnumberSilent).mp hnumberCounts)⟩
  · have hsecond := honly.mpr hkept 1 number hnumber hnumberSilent hnumberCounts
    rw [hprioritized] at hsecond
    cases hsecond

end Schema

end RecordSql
