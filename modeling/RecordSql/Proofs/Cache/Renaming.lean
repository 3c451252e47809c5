/-
  RecordSql.Proofs.Cache.Renaming

  The numbers of schemas are names without a meaning.  Giving the two schemas
  of a pairing, and the join table that may come with it, other numbers gives
  the same relationship with these numbers in it (`relationship_renamed`), as
  long as different numbers stay different: whether a schema is related to
  itself is all that is ever asked about numbers.  The ways to link two sides do
  not even depend on that (`references?_renamed`).

  There is one lemma for each step from the lookups of a side to the whole
  relationship, in the order in which the steps are built on each other.
-/

import RecordSql.Schema.Cache
import RecordSql.Proofs.KeyFields

namespace RecordSql

variable (ρ : Nat → Nat)

/-! ## Other numbers -/

def Home.renamed (h : Home) : Home := { h with schema := ρ h.schema }

def KeyField.renamed (k : KeyField) : KeyField := { k with home := k.home.renamed ρ }

def SchemaRef.renamed (r : SchemaRef) : SchemaRef := { r with number := ρ r.number }

def Reference.renamed (r : Reference) : Reference :=
  { r with
    primaryKey := r.primaryKey.map (·.renamed ρ)
    foreignKey := r.foreignKey.renamed ρ }

def Polymorphic.renamed (p : Polymorphic) : Polymorphic :=
  { p with id := p.id.renamed ρ, typeField := p.typeField.renamed ρ }

def Relationship.renamed (r : Relationship) : Relationship :=
  { r with
    owner := r.owner.renamed ρ
    related := r.related.renamed ρ
    joinTable := r.joinTable.map (·.renamed ρ)
    polymorphic := r.polymorphic.map (·.renamed ρ)
    references := r.references.map (·.renamed ρ) }

def Progress.renamed : Progress → Progress
  | .resolved rs => .resolved (rs.map (·.renamed ρ))
  | progress => progress

def Entry.renamed (e : Entry) : Entry := { e with progress := e.progress.renamed ρ }

def JoinField.renamed (j : JoinField) : JoinField := { j with source := j.source.renamed ρ }

def JoinTable.renamed (j : JoinTable) : JoinTable :=
  { j with references := j.references.map (·.renamed ρ), links := j.links.map (·.renamed ρ) }

def Side.renamed (s : Side) : Side := { s with home := s.home.renamed ρ }

def NumberedSchema.renamed (s : NumberedSchema) : NumberedSchema :=
  { s with number := ρ s.number }

def Pairing.renamed (p : Pairing) : Pairing :=
  { p with owner := p.owner.renamed ρ, related := p.related.renamed ρ }

/-! ## Lists of lookups -/

section Lists

variable {α β γ ε : Type}

theorem mapM_option_map (f : α → Option β) (g : β → γ) (l : List α) :
    l.mapM (fun a => (f a).map g) = (l.mapM f).map (List.map g) := by
  induction l with
  | nil => rfl
  | cons a l ih =>
    rw [List.mapM_cons, List.mapM_cons, ih]
    cases f a with
    | none => rfl
    | some b => cases l.mapM f <;> rfl

theorem mapM_except_map (f : α → Except ε β) (g : β → γ) (l : List α) :
    l.mapM (fun a => (f a).map g) = (l.mapM f).map (List.map g) := by
  induction l with
  | nil => rfl
  | cons a l ih =>
    rw [List.mapM_cons, List.mapM_cons, ih]
    cases f a with
    | error e => rfl
    | ok b => cases l.mapM f <;> rfl

end Lists

/-! ## Sides -/

namespace Side

variable (s : Side)

theorem key?_renamed (position : Nat) :
    (s.renamed ρ).key? position = (s.key? position).map (·.renamed ρ) := by
  rw [key?, key?, Option.map_map]
  rfl

theorem bind_key?_renamed (position : Option Nat) :
    position.bind (s.renamed ρ).key? = (position.bind s.key?).map (·.renamed ρ) := by
  cases position with
  | none => rfl
  | some position => exact s.key?_renamed ρ position

theorem lookup_renamed (name : String) :
    (s.renamed ρ).lookup name = (s.lookup name).map (·.renamed ρ) :=
  s.bind_key?_renamed ρ _

theorem byName_renamed (name : String) :
    (s.renamed ρ).byName name = (s.byName name).map (·.renamed ρ) :=
  s.bind_key?_renamed ρ _

theorem prioritized_renamed : (s.renamed ρ).prioritized = s.prioritized.map (·.renamed ρ) :=
  s.bind_key?_renamed ρ _

theorem primary_renamed : (s.renamed ρ).primary = s.primary.map (·.renamed ρ) := by
  rw [primary, primary, List.map_filterMap]
  exact congrArg (List.filterMap · s.layout.primary) (funext (s.key?_renamed ρ))

end Side

namespace Pairing

variable {ρ} (p : Pairing)

theorem embeddedOwner?_renamed :
    (p.renamed ρ).embeddedOwner? = p.embeddedOwner?.map (·.renamed ρ) := by
  rw [embeddedOwner?, embeddedOwner?]
  show p.field.owner.bind _ = _
  cases p.field.owner with
  | none => rfl
  | some index =>
    show NumberedSchema.embeddedSide? _ index = (p.owner.embeddedSide? index).map _
    rw [NumberedSchema.embeddedSide?, NumberedSchema.embeddedSide?, Option.map_map]
    rfl

/-! ## Polymorphic relationships -/

theorem discriminator_renamed (stem ending : String) :
    (p.renamed ρ).discriminator stem ending = (p.discriminator stem ending).map (·.renamed ρ) := by
  have hside : (p.renamed ρ).related.side.byName (stem ++ ending)
      = (p.related.side.byName (stem ++ ending)).map (·.renamed ρ) :=
    p.related.side.byName_renamed ρ _
  rw [discriminator, discriminator, hside]
  cases p.related.side.byName (stem ++ ending) <;> rfl

theorem polymorphicKey_renamed :
    (p.renamed ρ).polymorphicKey = p.polymorphicKey.map (·.renamed ρ) := by
  have hkeys : (p.renamed ρ).foreignKeys = p.foreignKeys := rfl
  have hprioritized : (p.renamed ρ).owner.side.prioritized
      = p.owner.side.prioritized.map (·.renamed ρ) := p.owner.side.prioritized_renamed ρ
  have hlookup : ∀ name, (p.renamed ρ).owner.side.lookup name
      = (p.owner.side.lookup name).map (·.renamed ρ) := p.owner.side.lookup_renamed ρ
  rw [polymorphicKey, polymorphicKey, hkeys]
  -- No key is named, or one, or several.
  cases p.foreignKeys with
  | nil =>
    dsimp only
    rw [hprioritized]
    cases p.owner.side.prioritized <;> rfl
  | cons only rest =>
    cases rest with
    | nil =>
      dsimp only
      rw [hlookup]
      cases p.owner.side.lookup only <;> rfl
    | cons _ _ => rfl

theorem polymorphic_renamed (stem : String) :
    (p.renamed ρ).polymorphic stem
      = (p.polymorphic stem).map fun (made, references) =>
          (made.renamed ρ, references.map (·.renamed ρ)) := by
  rw [polymorphic, polymorphic, discriminator_renamed, discriminator_renamed,
    polymorphicKey_renamed]
  cases p.discriminator stem "Type" with
  | error e => rfl
  | ok typeField =>
    cases p.discriminator stem "ID" with
    | error e => rfl
    | ok id => cases p.polymorphicKey <;> rfl

/-! ## Relationships by a join table -/

theorem contributed_renamed (side : Side) (names : List String) :
    (p.renamed ρ).contributed (side.renamed ρ) names
      = (p.contributed side names).map (List.map (·.renamed ρ)) := by
  rw [contributed, contributed]
  split
  · rw [Side.primary_renamed]
    rfl
  · rw [← mapM_except_map]
    refine congrArg (List.mapM · names) (funext fun name => ?_)
    rw [Side.lookup_renamed]
    cases side.lookup name <;> rfl

theorem zipIdx_map_renamed {α β γ : Type} (f : α → β) (g : β × Nat → γ) (l : List α) :
    (l.map f).zipIdx.map g = l.zipIdx.map fun (a, i) => g (f a, i) := by
  rw [List.zipIdx_map, List.map_map]
  rfl

theorem ownJoinFields_renamed (keys : List KeyField) :
    (p.renamed ρ).ownJoinFields (keys.map (·.renamed ρ))
      = (p.ownJoinFields keys).map (·.renamed ρ) := by
  rw [ownJoinFields, ownJoinFields, zipIdx_map_renamed, List.map_map]
  rfl

theorem any_name_renamed (fields : List JoinField) (name : String) :
    (fields.map (·.renamed ρ)).any (·.name == name) = fields.any (·.name == name) := by
  rw [List.any_map]
  rfl

theorem relatedJoinFields_renamed (own : List JoinField) (keys : List KeyField) :
    (p.renamed ρ).relatedJoinFields (own.map (·.renamed ρ)) (keys.map (·.renamed ρ))
      = (p.relatedJoinFields own keys).map (·.renamed ρ) := by
  rw [relatedJoinFields, relatedJoinFields, zipIdx_map_renamed, List.map_map]
  refine congrArg (List.map · keys.zipIdx) (funext fun entry => ?_)
  simp only [any_name_renamed]
  rfl

theorem joinFields_renamed (own related : List JoinField) :
    joinFields (own.map (·.renamed ρ)) (related.map (·.renamed ρ))
      = (joinFields own related).map (·.renamed ρ) := by
  rw [joinFields, joinFields, List.foldl_map]
  induction related generalizing own with
  | nil => rfl
  | cons j related ih =>
    rw [List.foldl_cons, List.foldl_cons, any_name_renamed]
    have hname : (j.renamed ρ).name = j.name := rfl
    rw [hname]
    split
    · exact ih own
    · have happend : own.map (·.renamed ρ) ++ [j.renamed ρ] = (own ++ [j]).map (·.renamed ρ) := by
        rw [List.map_append]
        rfl
      rw [happend]
      exact ih (own ++ [j])

theorem sourceOf_renamed (fields : List JoinField) (name : String) :
    sourceOf (fields.map (·.renamed ρ)) name = (sourceOf fields name).map (·.renamed ρ) := by
  rw [sourceOf, sourceOf, List.find?_map, Option.map_map, Option.map_map]
  rfl

/-- The copies of key fields do not know what they are copies of. -/
theorem mapM_declared_renamed (given : String) (fields : List JoinField) :
    (fields.map (·.renamed ρ)).mapM (JoinField.declared given)
      = fields.mapM (JoinField.declared given) := by
  rw [List.mapM_map]
  rfl

/-- The references that a copied key takes part in. -/
theorem pairs_renamed (fields : List JoinField) (isOwn : Bool) (copy : KeyField) :
    (sourceOf (fields.map (·.renamed ρ)) (copy.renamed ρ).field.name).toList.map
        (fun source => ({ primaryKey := some source, foreignKey := copy.renamed ρ,
                          ownPrimaryKey := isOwn } : Reference))
      = ((sourceOf fields copy.field.name).toList.map
          (fun source => ({ primaryKey := some source, foreignKey := copy,
                            ownPrimaryKey := isOwn } : Reference))).map (·.renamed ρ) := by
  rw [show (copy.renamed ρ).field.name = copy.field.name from rfl, sourceOf_renamed]
  cases sourceOf fields copy.field.name <;> rfl

theorem copies_renamed (join : NumberedSchema) (positions : List Nat) :
    (positions.filterMap (join.renamed ρ).side.key?).filter (·.field.hasPermission)
      = ((positions.filterMap join.side.key?).filter (·.field.hasPermission)).map
          (·.renamed ρ) := by
  have hkeys : positions.filterMap (join.renamed ρ).side.key?
      = (positions.filterMap join.side.key?).map (·.renamed ρ) := by
    rw [List.map_filterMap]
    exact congrArg (List.filterMap · positions) (funext (join.side.key?_renamed ρ))
  rw [hkeys, List.filter_map]
  rfl

theorem joinTable_renamed (number : Nat) (given : String) :
    (p.renamed ρ).joinTable (ρ number) given
      = (p.joinTable number given).map (·.renamed ρ) := by
  rw [joinTable, joinTable]
  have hown : (p.renamed ρ).contributed (p.renamed ρ).owner.side (p.renamed ρ).foreignKeys
      = (p.contributed p.owner.side p.foreignKeys).map (List.map (·.renamed ρ)) :=
    p.contributed_renamed p.owner.side p.foreignKeys
  have hrelated : (p.renamed ρ).contributed (p.renamed ρ).related.side (p.renamed ρ).primaryKeys
      = (p.contributed p.related.side p.primaryKeys).map (List.map (·.renamed ρ)) :=
    p.contributed_renamed p.related.side p.primaryKeys
  rw [hown, hrelated]
  cases p.contributed p.owner.side p.foreignKeys with
  | error e => rfl
  | ok ownKeys =>
    cases p.contributed p.related.side p.primaryKeys with
    | error e => rfl
    | ok relatedKeys =>
      simp only [Except.map, bind, Except.bind]
      rw [ownJoinFields_renamed, relatedJoinFields_renamed, joinFields_renamed,
        mapM_declared_renamed]
      generalize p.ownJoinFields ownKeys = own
      generalize p.relatedJoinFields own relatedKeys = related
      cases (joinFields own related).mapM (JoinField.declared given) with
      | error e => rfl
      | ok fields =>
        dsimp only
        have hnaming : (p.renamed ρ).related.schema.naming = p.related.schema.naming := rfl
        rw [hnaming]
        cases Layout.assemble given (p.related.schema.naming.joinTableName given) fields
            p.related.schema.naming with
        | error e => rfl
        | ok layout =>
          -- The copies are the same with other numbers, and so is what each takes part in.
          have hcopies : ((List.range layout.fields.length).filterMap
                (NumberedSchema.side ⟨ρ number, { layout with }⟩).key?).filter (·.field.hasPermission)
              = (((List.range layout.fields.length).filterMap
                  (NumberedSchema.side ⟨number, { layout with }⟩).key?).filter
                    (·.field.hasPermission)).map (·.renamed ρ) :=
            copies_renamed ⟨number, { layout with }⟩ _
          dsimp only
          rw [hcopies]
          simp only [List.flatMap_map, pairs_renamed, ← List.map_append, ← List.map_flatMap]
          rfl

/-! ## Relationships that are guessed -/

theorem sides?_renamed (d : Direction) :
    (p.renamed ρ).sides? d = (p.sides? d).map (Prod.map (·.renamed ρ) (·.renamed ρ)) := by
  cases d with
  | belongs => rfl
  | has => rfl
  | embeddedBelongs =>
    rw [sides?, sides?, embeddedOwner?_renamed]
    cases p.embeddedOwner? <;> rfl
  | embeddedHas =>
    rw [sides?, sides?, embeddedOwner?_renamed]
    cases p.embeddedOwner? <;> rfl

theorem findSome?_lookup_renamed (side : Side) (names : List String) :
    names.findSome? (side.renamed ρ).lookup = (names.findSome? side.lookup).map (·.renamed ρ) := by
  rw [List.map_findSome?]
  exact congrArg (List.findSome? · names) (funext (side.lookup_renamed ρ))

theorem namedPairs_renamed (d : Direction) (primary foreign : Side) :
    (p.renamed ρ).namedPairs d (primary.renamed ρ) (foreign.renamed ρ)
      = (p.namedPairs d primary foreign).map (Prod.map (·.renamed ρ) (·.renamed ρ)) := by
  have hcandidates :
      (if (p.renamed ρ).primaryKeys.isEmpty then (primary.renamed ρ).primary
        else (p.renamed ρ).primaryKeys.filterMap (primary.renamed ρ).lookup)
      = (if p.primaryKeys.isEmpty then primary.primary
        else p.primaryKeys.filterMap primary.lookup).map (·.renamed ρ) := by
    rw [apply_ite (List.map _), Side.primary_renamed, List.map_filterMap,
      funext (primary.lookup_renamed ρ)]
    rfl
  rw [namedPairs, namedPairs, hcandidates]
  generalize (if p.primaryKeys.isEmpty then primary.primary
        else p.primaryKeys.filterMap primary.lookup) = candidates
  rw [List.filterMap_map, List.map_filterMap]
  refine congrArg (List.filterMap · candidates) (funext fun candidate => ?_)
  simp only [Function.comp_apply, List.length_map, findSome?_lookup_renamed, Option.map_map]
  rfl

/-- Fields that live in the same place are told apart by their positions. -/
theorem all_same_renamed {home : Home} {known named : List KeyField}
    (hknown : ∀ k ∈ known, k.home = home) (hnamed : ∀ k ∈ named, k.home = home) :
    ((known.map (·.renamed ρ)).zip (named.map (·.renamed ρ))).all (fun (a, b) => a.same b)
      = (known.zip named).all fun (a, b) => a.same b := by
  rw [List.zip_map, List.all_map, Bool.eq_iff_iff, List.all_eq_true, List.all_eq_true]
  refine forall₂_congr fun ⟨a, b⟩ hpair => ?_
  obtain ⟨ha, hb⟩ := List.of_mem_zip hpair
  simp only [Function.comp_apply, Prod.map, KeyField.same, KeyField.renamed, hknown a ha,
    hnamed b hb]

theorem completed?_renamed (side : Side) {known : List KeyField}
    (hknown : ∀ k ∈ known, k.home = side.home) (count : Nat) :
    (p.renamed ρ).completed? (side.renamed ρ) (known.map (·.renamed ρ)) count
      = (p.completed? side known count).map (List.map (·.renamed ρ)) := by
  unfold completed?
  have hkeys : (p.renamed ρ).primaryKeys = p.primaryKeys := rfl
  rw [hkeys]
  split
  · -- The tag names the primary keys, which must agree with those that are known.
    have hnamed : p.primaryKeys.mapM (side.renamed ρ).lookup
        = (p.primaryKeys.mapM side.lookup).map (List.map (·.renamed ρ)) := by
      rw [← mapM_option_map]
      exact congrArg (List.mapM · p.primaryKeys) (funext (side.lookup_renamed ρ))
    rw [hnamed]
    cases hkeys : p.primaryKeys.mapM side.lookup with
    | none => rfl
    | some named =>
      have hhome : ∀ k ∈ named, k.home = side.home := fun k hk => by
        obtain ⟨name, -, hname⟩ := exists_of_mem_mapM_option hkeys hk
        exact (Side.has_of_lookup hname).1
      dsimp only [Option.map, bind, Option.bind]
      rw [all_same_renamed hknown hhome, List.length_map, ← List.map_drop, ← List.map_append]
      split <;> rfl
  · rw [List.isEmpty_map, Side.prioritized_renamed, Side.primary_renamed, List.length_map]
    split
    · have hwhole : (if side.primary.length == count then
            some (side.primary.map (·.renamed ρ)) else none)
          = (if side.primary.length == count then some side.primary else none).map
              (List.map (·.renamed ρ)) := by split <;> rfl
      match side.prioritized, count with
      | none, _ => exact hwhole
      | some _, 0 => exact hwhole
      | some _, 1 => rfl
      | some _, _ + 2 => exact hwhole
    · rfl

/-- What is left of `references?` once the foreign keys, and maybe the keys they hold, are known. -/
theorem zipped_renamed (isHas : Bool) (side : Side) {known : List KeyField}
    (hknown : ∀ k ∈ known, k.home = side.home) (foreign : List KeyField) :
    (if (foreign.map (·.renamed ρ)).isEmpty then none
      else do
        let primary ← (p.renamed ρ).completed? (side.renamed ρ) (known.map (·.renamed ρ))
          (foreign.map (·.renamed ρ)).length
        if primary.length < (foreign.map (·.renamed ρ)).length then none
        else some (((foreign.map (·.renamed ρ)).zip primary).map fun (f, k) =>
          ({ primaryKey := some k, foreignKey := f, ownPrimaryKey := isHas } : Reference)))
    = (if foreign.isEmpty then none
      else do
        let primary ← p.completed? side known foreign.length
        if primary.length < foreign.length then none
        else some ((foreign.zip primary).map fun (f, k) =>
          ({ primaryKey := some k, foreignKey := f, ownPrimaryKey := isHas } : Reference))).map
            (List.map (·.renamed ρ)) := by
  rw [List.isEmpty_map, List.length_map, completed?_renamed p side hknown]
  split
  · rfl
  · cases p.completed? side known foreign.length with
    | none => rfl
    | some primary =>
      dsimp only [Option.map, bind, Option.bind]
      rw [List.length_map, List.zip_map, List.map_map]
      split
      · rfl
      · dsimp only
        rw [List.map_map]
        rfl

theorem references?_renamed (d : Direction) :
    (p.renamed ρ).references? d = (p.references? d).map (List.map (·.renamed ρ)) := by
  rw [references?, references?, sides?_renamed]
  cases p.sides? d with
  | none => rfl
  | some sides =>
    obtain ⟨primarySide, foreignSide⟩ := sides
    have hkeys : (p.renamed ρ).foreignKeys = p.foreignKeys := rfl
    dsimp only [Option.map_some, Prod.map, bind, Option.bind]
    rw [hkeys]
    split
    · have hunzip : ((p.renamed ρ).namedPairs d (primarySide.renamed ρ)
            (foreignSide.renamed ρ)).unzip
          = ((p.namedPairs d primarySide foreignSide).unzip.1.map (·.renamed ρ),
            (p.namedPairs d primarySide foreignSide).unzip.2.map (·.renamed ρ)) := by
        rw [namedPairs_renamed, List.unzip_eq_map, List.unzip_eq_map]
        simp only [List.map_map]
        rfl
      have hknown : ∀ k ∈ (p.namedPairs d primarySide foreignSide).unzip.1,
          k.home = primarySide.home := fun k hk => by
        rw [List.unzip_fst] at hk
        obtain ⟨pair, hpair, rfl⟩ := List.mem_map.mp hk
        exact (namedPairs_has hpair).1.1
      rw [hunzip]
      exact p.zipped_renamed d.isHas primarySide hknown _
    · have hmapM : p.foreignKeys.mapM (foreignSide.renamed ρ).lookup
          = (p.foreignKeys.mapM foreignSide.lookup).map (List.map (·.renamed ρ)) := by
        rw [← mapM_option_map]
        exact congrArg (List.mapM · p.foreignKeys) (funext (foreignSide.lookup_renamed ρ))
      rw [hmapM]
      cases p.foreignKeys.mapM foreignSide.lookup with
      | none => rfl
      | some foreign =>
        exact p.zipped_renamed d.isHas primarySide (List.forall_mem_nil _) foreign

end Pairing

namespace Pairing

variable {ρ : Nat → Nat} (hρ : Function.Injective ρ) (p : Pairing)
include hρ

/-- The only question about numbers: whether a schema is related to itself. -/
theorem directions_renamed : (p.renamed ρ).directions = p.directions := by
  have hself : ((p.renamed ρ).owner.number = (p.renamed ρ).related.number)
      = (p.owner.number = p.related.number) := propext hρ.eq_iff
  rw [directions, directions]
  simp only [hself]
  rfl

theorem guess_renamed :
    (p.renamed ρ).guess
      = p.guess.map fun (kind, references) => (kind, references.map (·.renamed ρ)) := by
  rw [guess, guess, directions_renamed hρ]
  cases p.directions with
  | error e => rfl
  | ok directions =>
    have hfound : (directions.findSome? fun d =>
            ((p.renamed ρ).references? d).map fun refs => (d, refs))
        = (directions.findSome? fun d => (p.references? d).map fun refs => (d, refs)).map
            (Prod.map id (List.map (·.renamed ρ))) := by
      rw [List.map_findSome?]
      refine congrArg (List.findSome? · directions) (funext fun d => ?_)
      rw [references?_renamed, Function.comp_apply, Option.map_map, Option.map_map]
      rfl
    dsimp only [bind, Except.bind]
    rw [hfound]
    cases directions.findSome? fun d => (p.references? d).map fun refs => (d, refs) <;> rfl

/-! ## The whole relationship -/

theorem relationship_renamed (position next : Nat) :
    (p.renamed ρ).relationship position (ρ next)
      = (p.relationship position next).map fun (r, join) =>
          (r.renamed ρ, join.map (·.renamed ρ)) := by
  have hfield : (p.renamed ρ).field = p.field := rfl
  rw [relationship, relationship, hfield]
  cases p.field.settings.value? "POLYMORPHIC" with
  | some stem =>
    dsimp only
    rw [polymorphic_renamed]
    cases p.polymorphic stem <;> rfl
  | none =>
    cases p.field.settings.value? "MANY2MANY" with
    | some given =>
      dsimp only
      rw [joinTable_renamed]
      cases p.joinTable next given <;> rfl
    | none =>
      dsimp only
      rw [guess_renamed hρ]
      cases p.guess <;> rfl

omit hρ in
/-- Only a join table takes the next number. -/
theorem relationship_without_join {position next : Nat} {r : Relationship}
    (h : p.relationship position next = .ok (r, none)) (next' : Nat) :
    p.relationship position next' = .ok (r, none) := by
  rw [relationship] at h ⊢
  cases hpolymorphic : p.field.settings.value? "POLYMORPHIC" with
  | some stem => simpa only [hpolymorphic] using h
  | none =>
    cases hgiven : p.field.settings.value? "MANY2MANY" with
    | some given =>
      simp only [hpolymorphic, hgiven] at h
      cases hjoin : p.joinTable next given with
      | error e => rw [hjoin] at h; cases h
      | ok join => rw [hjoin] at h; cases h
    | none => simpa only [hpolymorphic, hgiven] using h

end Pairing

end RecordSql
