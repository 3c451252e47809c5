/-
  RecordSql.Proofs.KeptWhole

  Which raw SQL stays whole among the conditions it is written with.  A
  fragment with the word OR in it is torn where AND or NOT stands right beside
  it, for both bind tighter (`Mark.Apart`).

  A fragment reaches its surroundings as it is when nothing on the way puts it
  in parentheses: neither its own group nor the groups of one condition around
  that (`Form.Loose`).  Every fragment stays whole exactly when no group joins
  such a form to another by AND, and none has it alone under the word NOT
  (`Form.keepsWhole_marks`, `Where.fragments_kept_whole`).
-/

import RecordSql.Proofs.Marks
import Mathlib.Data.List.Chain
import Mathlib.Logic.Relation

namespace RecordSql

/-! ## Marks side by side -/

/-- Whether a form is a fragment of SQL with the word OR in it. -/
def Form.isFragile : Form → Bool
  | ⟨false, .raw sql _ _⟩ => hasOr sql
  | ⟨false, .named sql _⟩ => hasOr sql
  | _ => false

namespace Mark

def isFragile : Mark → Bool
  | .word _ => false
  | .form f => f.isFragile

/-- Whether a mark takes what stands beside it before OR does. -/
def binds : Mark → Bool
  | .word .not => true
  | .word (.connective .and) => true
  | _ => false

/-- Neither of two marks takes a part of the other. -/
def Apart (a b : Mark) : Prop :=
  (a.binds = true → b.isFragile = false) ∧ (b.binds = true → a.isFragile = false)

/-- No fragment is torn. -/
def KeepsWhole (ms : List Mark) : Prop := ms.IsChain Apart

/-- Whether marks begin with a fragment with OR. -/
def begins (ms : List Mark) : Bool := ms.head?.any isFragile

/-- Whether marks end with one. -/
def ends (ms : List Mark) : Bool := ms.getLast?.any isFragile

instance (a b : Mark) : Decidable (Apart a b) := inferInstanceAs (Decidable (_ ∧ _))

instance (ms : List Mark) : Decidable (KeepsWhole ms) :=
  inferInstanceAs (Decidable (ms.IsChain Apart))

variable {w : Word} {ms ns : List Mark}

/-- A word tears only what it stands beside. -/
theorem keepsWhole_cons :
    KeepsWhole (.word w :: ms) ↔ ((Mark.word w).binds = true → begins ms = false) ∧ KeepsWhole ms := by
  rw [KeepsWhole, List.isChain_cons]
  refine and_congr_left fun _ => ?_
  cases ms with
  | nil => exact ⟨fun _ _ => rfl, fun _ m hm => nomatch hm⟩
  | cons m ms =>
    constructor
    · intro h hbinds
      exact (h m rfl).1 hbinds
    · rintro h _ ⟨⟩
      exact ⟨h, fun _ => rfl⟩

theorem keepsWhole_append :
    KeepsWhole (ms ++ .word w :: ns)
      ↔ KeepsWhole ms ∧ ((Mark.word w).binds = true → ends ms = false ∧ begins ns = false)
        ∧ KeepsWhole ns := by
  have hends : (∀ m ∈ ms.getLast?, ∀ n ∈ (Mark.word w :: ns).head?, Apart m n)
      ↔ ((Mark.word w).binds = true → ends ms = false) := by
    rw [ends]
    cases ms.getLast? with
    | none => exact ⟨fun _ _ => rfl, fun _ m hm => nomatch hm⟩
    | some m =>
      constructor
      · intro h hbinds
        exact (h m rfl _ rfl).2 hbinds
      · rintro h _ ⟨⟩ _ ⟨⟩
        exact ⟨fun _ => rfl, h⟩
  rw [KeepsWhole, List.isChain_append, hends]
  refine and_congr_right fun _ => ?_
  rw [show List.IsChain Apart (.word w :: ns) = KeepsWhole (.word w :: ns) from rfl,
    keepsWhole_cons]
  constructor
  · rintro ⟨⟨hbegins, hns⟩, hends⟩
    exact ⟨fun hbinds => ⟨hends hbinds, hbegins hbinds⟩, hns⟩
  · rintro ⟨hedges, hns⟩
    exact ⟨⟨fun hbinds => (hedges hbinds).2, hns⟩, fun hbinds => (hedges hbinds).1⟩

theorem begins_append_word : begins (ms ++ .word w :: ns) = begins ms := by
  cases ms <;> rfl

theorem ends_word_cons : ends (.word w :: ms) = ends ms := by
  cases ms <;> rfl

theorem ends_concat_word : ends (ms ++ [.word w]) = false := by
  rw [ends, List.getLast?_concat]
  rfl

end Mark

/-! ## Forms that are a bare fragment -/

/-- All that a form writes is a fragment with OR, not in parentheses: it is the fragment, or made of
one such form. -/
inductive Form.Loose : Form → Prop
  | fragment {f : Form} : f.isFragile = true → Loose f
  | through {f : Form} {g : Grouping} {es : List Expression} {e : Expression} :
      f.grouping? = some (g, es) → g.underNot = false → es.filter g.keeps = [e] →
      g.wraps true e = false → Loose ⟨g.negates, e⟩ → Loose f

namespace Grouping

/-- A condition stands in its group as a bare fragment. -/
def Exposes (g : Grouping) (alone : Bool) (e : Expression) : Prop :=
  g.wraps alone e = false ∧ Form.Loose ⟨g.negates, e⟩

/-- No bare fragment stands beside AND, or alone under NOT. -/
structure Guards (g : Grouping) (es : List Expression) : Prop where
  beside : (es.filter g.keeps).IsChain fun a b =>
    g.connective b = .and → ¬g.Exposes false a ∧ ¬g.Exposes false b
  under : ∀ e, es.filter g.keeps = [e] → g.underNot = true → ¬g.Exposes true e

end Grouping

/-- The group that a form is, if it is one, leaves fragments whole. -/
def Form.Guarded (f : Form) : Prop := ∀ g es, f.grouping? = some (g, es) → g.Guards es

/-- A form that another is made of, through any number of groups. -/
def Form.Inside (f p : Form) : Prop := Relation.ReflTransGen (fun f p => p ∈ f.parts) f p

/-! ## The edges of groups -/

open Mark

namespace Grouping

variable {g : Grouping} {alone wrap : Bool} {e : Expression} {es : List Expression} {ms : List Mark}

/-- The marks of a condition in its group. -/
def unitMarks (g : Grouping) (alone : Bool) (e : Expression) : List Mark :=
  g.unit ([.word ·]) alone (e, Form.marks ⟨g.negates, e⟩)

/-- The marks of conditions joined in their group. -/
def linkedMarks (g : Grouping) (alone : Bool) (es : List Expression) : List Mark :=
  g.linked ([.word ·]) alone (Form.items Form.marks g.negates es)

theorem linkedMarks_cons (d : Expression) :
    g.linkedMarks alone (e :: d :: es)
      = g.unitMarks alone e ++ .word (.connective (g.connective d)) :: g.linkedMarks alone (d :: es) :=
  rfl

theorem keepsWhole_enclosed : KeepsWhole (enclosed ([.word ·]) wrap ms) ↔ KeepsWhole ms := by
  cases wrap with
  | false => exact Iff.rfl
  | true =>
    show KeepsWhole (.word .opening :: (ms ++ [.word .closing])) ↔ _
    rw [keepsWhole_cons, keepsWhole_append]
    constructor
    · rintro ⟨_, hms, _⟩
      exact hms
    · intro hms
      exact ⟨fun hbinds => Bool.noConfusion hbinds, hms, fun hbinds => Bool.noConfusion hbinds,
        List.isChain_nil⟩

theorem begins_enclosed : begins (enclosed ([.word ·]) wrap ms) = (!wrap && begins ms) := by
  cases wrap <;> rfl

theorem ends_enclosed : ends (enclosed ([.word ·]) wrap ms) = (!wrap && ends ms) := by
  cases wrap with
  | false => rfl
  | true =>
    show ends ((.word .opening :: ms) ++ [.word .closing]) = false
    exact ends_concat_word

theorem keepsWhole_unit :
    KeepsWhole (g.unitMarks alone e) ↔ KeepsWhole (Form.marks ⟨g.negates, e⟩) := keepsWhole_enclosed

theorem begins_linked : begins (g.linkedMarks alone (e :: es)) = begins (g.unitMarks alone e) := by
  cases es with
  | nil => rfl
  | cons d es => rw [linkedMarks_cons, begins_append_word]

/-- A group that is joined is whole where its conditions are and no AND tears one. -/
theorem keepsWhole_linked :
    KeepsWhole (g.linkedMarks alone es)
      ↔ (∀ e ∈ es, KeepsWhole (Form.marks ⟨g.negates, e⟩))
        ∧ es.IsChain fun a b => g.connective b = .and →
          ends (g.unitMarks alone a) = false ∧ begins (g.unitMarks alone b) = false := by
  induction es with
  | nil => exact ⟨fun _ => ⟨List.forall_mem_nil _, List.isChain_nil⟩, fun _ => List.isChain_nil⟩
  | cons e es ih =>
    cases es with
    | nil =>
      rw [List.forall_mem_singleton]
      exact keepsWhole_unit.trans ⟨fun h => ⟨h, List.isChain_singleton e⟩, fun h => h.1⟩
    | cons d es =>
      have hbinds : (Mark.word (.connective (g.connective d))).binds = true ↔ g.connective d = .and := by
        cases g.connective d with
        | and => exact ⟨fun _ => rfl, fun _ => rfl⟩
        | or => exact ⟨fun h => Bool.noConfusion h, fun h => Reading.Connective.noConfusion h⟩
      rw [linkedMarks_cons, keepsWhole_append, keepsWhole_unit, begins_linked, ih, hbinds,
        List.isChain_cons_cons, List.forall_mem_cons (a := e)]
      constructor
      · rintro ⟨he, hedge, hes, hchain⟩
        exact ⟨⟨he, hes⟩, hedge, hchain⟩
      · rintro ⟨⟨he, hes⟩, hedge, hchain⟩
        exact ⟨he, hedge, hes, hchain⟩

/-- What stands in front of a group. -/
def leading (g : Grouping) : List Mark := if g.underNot then [.word .not] else []

theorem keepsWhole_leading :
    KeepsWhole (g.leading ++ ms) ↔ (g.underNot = true → begins ms = false) ∧ KeepsWhole ms := by
  rw [leading]
  cases g.underNot with
  | false => exact (and_iff_right fun h => Bool.noConfusion h).symm
  | true => exact keepsWhole_cons

/-- The marks of a group with the one condition it keeps. -/
theorem assembled_one (h : es.filter g.keeps = [e]) :
    g.assembled ([.word ·]) (Form.items Form.marks g.negates es)
      = g.leading ++ g.unitMarks true e := by
  rw [assembled_items, joined_items, h]
  rfl

/-- The marks of any other group are nothing, or stand in parentheses. -/
theorem assembled_not_one (h : ∀ e, es.filter g.keeps ≠ [e]) :
    g.assembled ([.word ·]) (Form.items Form.marks g.negates es)
      = g.leading ++ enclosed ([.word ·]) (!(es.filter g.keeps).isEmpty)
          (g.linkedMarks false (es.filter g.keeps)) := by
  rw [assembled_items, joined_items]
  match hkept : es.filter g.keeps with
  | [] => rfl
  | [e] => exact absurd hkept (h e)
  | e :: d :: es => rfl

theorem edges_enclosed (g : Grouping) (alone : Bool) (es : List Expression) :
    begins (enclosed ([.word ·]) (!es.isEmpty) (g.linkedMarks alone es)) = false
      ∧ ends (enclosed ([.word ·]) (!es.isEmpty) (g.linkedMarks alone es)) = false := by
  rw [begins_enclosed, ends_enclosed]
  cases es with
  | nil => exact ⟨rfl, rfl⟩
  | cons e es => exact ⟨rfl, rfl⟩

theorem edges_not_one (g : Grouping) (es : List Expression) :
    begins (g.leading ++ enclosed ([.word ·]) (!es.isEmpty) (g.linkedMarks false es)) = false
      ∧ ends (g.leading ++ enclosed ([.word ·]) (!es.isEmpty) (g.linkedMarks false es)) = false := by
  rw [leading]
  cases g.underNot with
  | false => exact g.edges_enclosed false es
  | true => exact ⟨rfl, ends_word_cons.trans (g.edges_enclosed false es).2⟩

end Grouping

namespace Form

variable {f : Form} {g : Grouping} {es : List Expression} {e : Expression}

theorem edges_of_loose (h : f.Loose) : begins f.marks = true ∧ ends f.marks = true := by
  induction h with
  | @fragment f h =>
    have hnone : f.grouping? = none := by
      obtain ⟨negated, e⟩ := f
      cases negated <;> cases e <;> first | rfl | cases h
    rw [marks_of_none hnone]
    exact ⟨h, h⟩
  | @through f g es e hgrouping hunderNot hone hwraps _ ih =>
    rw [marks_of_grouping hgrouping, Grouping.assembled_one hone, Grouping.leading, hunderNot,
      Grouping.unitMarks, Grouping.unit, hwraps]
    exact ih

/-- A form whose group keeps one condition has its edges from there, and the word NOT leaves none. -/
theorem loose_of_edge_one (hgrouping : f.grouping? = some (g, es))
    (hone : es.filter g.keeps = [e])
    (hbegins : begins (marks ⟨g.negates, e⟩) = true → Loose ⟨g.negates, e⟩)
    (hends : KeepsWhole (marks ⟨g.negates, e⟩) → ends (marks ⟨g.negates, e⟩) = true →
      Loose ⟨g.negates, e⟩) :
    (begins (g.leading ++ g.unitMarks true e) = true → f.Loose)
      ∧ (KeepsWhole (g.leading ++ g.unitMarks true e) →
        ends (g.leading ++ g.unitMarks true e) = true → f.Loose) := by
  have hbeginsUnit : begins (g.unitMarks true e)
      = (!g.wraps true e && begins (marks ⟨g.negates, e⟩)) := Grouping.begins_enclosed
  have hendsUnit : ends (g.unitMarks true e)
      = (!g.wraps true e && ends (marks ⟨g.negates, e⟩)) := Grouping.ends_enclosed
  rw [Grouping.leading]
  cases hunderNot : g.underNot with
  | false =>
    show (begins (g.unitMarks true e) = true → _)
      ∧ (KeepsWhole (g.unitMarks true e) → ends (g.unitMarks true e) = true → _)
    rw [hbeginsUnit, hendsUnit, Grouping.keepsWhole_unit, Bool.and_eq_true, Bool.and_eq_true,
      Bool.not_eq_true']
    constructor
    · rintro ⟨hwraps, hedge⟩
      exact .through hgrouping hunderNot hone hwraps (hbegins hedge)
    · rintro hwhole ⟨hwraps, hedge⟩
      exact .through hgrouping hunderNot hone hwraps (hends hwhole hedge)
  | true =>
    -- A bare fragment under the word NOT would be torn by it.
    refine ⟨fun h => Bool.noConfusion h, fun hwhole hedge => ?_⟩
    obtain ⟨hnot, hwhole⟩ := keepsWhole_cons.mp hwhole
    have hedge : ends (g.unitMarks true e) = true := ends_word_cons ▸ hedge
    rw [hendsUnit, Bool.and_eq_true] at hedge
    have hloose := hends (Grouping.keepsWhole_unit.mp hwhole) hedge.2
    have hbegins : begins (g.unitMarks true e) = true := by
      rw [hbeginsUnit, hedge.1, (edges_of_loose hloose).1]
      rfl
    exact absurd (hnot rfl) (Bool.not_eq_false _ ▸ hbegins)

/-- A form begins with a fragment with OR only as a bare fragment, and ends with one only as such if
no fragment is torn. -/
theorem loose_of_edge (f : Form) :
    (begins f.marks = true → f.Loose) ∧ (KeepsWhole f.marks → ends f.marks = true → f.Loose) := by
  induction f using Form.induction with
  | h f ih =>
    cases hgrouping : f.grouping? with
    | none =>
      rw [marks_of_none hgrouping]
      exact ⟨.fragment, fun _ => .fragment⟩
    | some made =>
      obtain ⟨g, es⟩ := made
      rw [marks_of_grouping hgrouping]
      rw [parts_of_grouping hgrouping] at ih
      by_cases hone : ∃ e, es.filter g.keeps = [e]
      · obtain ⟨e, hone⟩ := hone
        obtain ⟨hbegins, hends⟩ := ih ⟨g.negates, e⟩ (by rw [hone]; exact List.mem_singleton_self _)
        rw [Grouping.assembled_one hone]
        exact loose_of_edge_one hgrouping hone hbegins hends
      · rw [Grouping.assembled_not_one (not_exists.mp hone)]
        obtain ⟨hbegins, hends⟩ := g.edges_not_one (es.filter g.keeps)
        exact ⟨fun hedge => absurd hedge (Bool.eq_false_iff.mp hbegins),
          fun _ hedge => absurd hedge (Bool.eq_false_iff.mp hends)⟩

theorem begins_marks : begins f.marks = true ↔ f.Loose :=
  ⟨(loose_of_edge f).1, fun h => (edges_of_loose h).1⟩

theorem ends_marks (h : KeepsWhole f.marks) : ends f.marks = true ↔ f.Loose :=
  ⟨(loose_of_edge f).2 h, fun h => (edges_of_loose h).2⟩

end Form

/-! ## Which forms keep fragments whole -/

namespace Grouping

variable {g : Grouping} {alone : Bool} {e : Expression} {es : List Expression}

theorem begins_unit : begins (g.unitMarks alone e) = true ↔ g.Exposes alone e := by
  rw [unitMarks, unit, begins_enclosed, Bool.and_eq_true, Bool.not_eq_true', Form.begins_marks]
  rfl

theorem ends_unit (h : KeepsWhole (Form.marks ⟨g.negates, e⟩)) :
    ends (g.unitMarks alone e) = true ↔ g.Exposes alone e := by
  rw [unitMarks, unit, ends_enclosed, Bool.and_eq_true, Bool.not_eq_true', Form.ends_marks h]
  rfl

/-- Joined conditions keep fragments whole if each does and no AND stands beside a bare one. -/
theorem keepsWhole_linked_iff :
    KeepsWhole (g.linkedMarks false es)
      ↔ (∀ e ∈ es, KeepsWhole (Form.marks ⟨g.negates, e⟩))
        ∧ es.IsChain fun a b => g.connective b = .and → ¬g.Exposes false a ∧ ¬g.Exposes false b := by
  rw [keepsWhole_linked]
  refine and_congr_right fun hwhole => List.IsChain.iff_of_mem_imp fun a b ha _ => ?_
  rw [← Bool.not_eq_true, ← Bool.not_eq_true, ends_unit (hwhole a ha), begins_unit]

theorem keepsWhole_one (hone : es.filter g.keeps = [e]) :
    KeepsWhole (g.leading ++ g.unitMarks true e)
      ↔ g.Guards es ∧ KeepsWhole (Form.marks ⟨g.negates, e⟩) := by
  have hguards : g.Guards es ↔ (g.underNot = true → ¬g.Exposes true e) := by
    constructor
    · intro h
      exact h.under e hone
    · intro h
      refine ⟨hone ▸ List.isChain_singleton e, fun d hd => ?_⟩
      obtain rfl : e = d := List.singleton_injective (hone.symm.trans hd)
      exact h
  rw [hguards, keepsWhole_leading, keepsWhole_unit, ← Bool.not_eq_true, begins_unit]

theorem keepsWhole_not_one (hone : ∀ e, es.filter g.keeps ≠ [e]) :
    KeepsWhole (g.leading ++ enclosed ([.word ·]) (!(es.filter g.keeps).isEmpty)
        (g.linkedMarks false (es.filter g.keeps)))
      ↔ g.Guards es ∧ ∀ e ∈ es.filter g.keeps, KeepsWhole (Form.marks ⟨g.negates, e⟩) := by
  rw [keepsWhole_leading, and_iff_right fun _ => (edges_enclosed _ _ _).1, keepsWhole_enclosed,
    keepsWhole_linked_iff]
  constructor
  · rintro ⟨hwhole, hchain⟩
    exact ⟨⟨hchain, fun e he => absurd he (hone e)⟩, hwhole⟩
  · rintro ⟨hguards, hwhole⟩
    exact ⟨hwhole, hguards.beside⟩

end Grouping

namespace Form

/-- A form that is a group keeps fragments whole if the group and the forms in it do. -/
theorem keepsWhole_of_grouping {f : Form} {g : Grouping} {es : List Expression}
    (h : f.grouping? = some (g, es)) :
    KeepsWhole f.marks ↔ f.Guarded ∧ ∀ p ∈ f.parts, KeepsWhole p.marks := by
  have hguarded : f.Guarded ↔ g.Guards es := by
    constructor
    · intro hguarded
      exact hguarded g es h
    · intro hguards g' es' h'
      obtain ⟨rfl, rfl⟩ := Prod.mk.inj (Option.some.inj (h.symm.trans h'))
      exact hguards
  rw [hguarded, marks_of_grouping h, parts_of_grouping h, List.forall_mem_map]
  by_cases hone : ∃ e, es.filter g.keeps = [e]
  · obtain ⟨e, hone⟩ := hone
    rw [Grouping.assembled_one hone, Grouping.keepsWhole_one hone, hone, List.forall_mem_singleton]
  · have hone := not_exists.mp hone
    rw [Grouping.assembled_not_one hone, Grouping.keepsWhole_not_one hone]

/-- No fragment in a form is torn exactly when all the groups inside it leave fragments whole. -/
theorem keepsWhole_marks (f : Form) : KeepsWhole f.marks ↔ ∀ p, f.Inside p → p.Guarded := by
  induction f using Form.induction with
  | h f ih =>
    have hinside : (∀ p, f.Inside p → p.Guarded)
        ↔ f.Guarded ∧ ∀ q ∈ f.parts, ∀ p, q.Inside p → p.Guarded := by
      constructor
      · intro h
        exact ⟨h f .refl, fun q hq p hp => h p (.head hq hp)⟩
      · rintro ⟨hf, hparts⟩ p hp
        obtain rfl | ⟨q, hq, hp⟩ := hp.cases_head
        · exact hf
        · exact hparts q hq p hp
    rw [hinside, ← forall₂_congr ih]
    cases hgrouping : f.grouping? with
    | none =>
      have hguarded : f.Guarded := fun g es h => nomatch hgrouping.symm.trans h
      have hparts : f.parts = [] := by rw [parts, hgrouping]
      rw [marks_of_none hgrouping, hparts]
      exact ⟨fun _ => ⟨hguarded, List.forall_mem_nil _⟩, fun _ => List.isChain_singleton _⟩
    | some made => exact keepsWhole_of_grouping hgrouping

end Form

/-! ## What the marks of conditions are -/

/-- Whether a condition is no group of conditions. -/
def Expression.isSimple : Expression → Bool
  | .and _ => false
  | .or _ => false
  | .not _ => false
  | _ => true

namespace Grouping

variable {g : Grouping} {es : List Expression} {p : Form}

theorem mem_enclosed {wrap : Bool} {ms : List Mark}
    (h : .form p ∈ enclosed ([.word ·]) wrap ms) : .form p ∈ ms := by
  cases wrap with
  | false => exact h
  | true => simpa [enclosed] using h

theorem mem_linked {alone : Bool} (h : .form p ∈ g.linkedMarks alone es) :
    ∃ e ∈ es, .form p ∈ Form.marks ⟨g.negates, e⟩ := by
  induction es with
  | nil => exact absurd h List.not_mem_nil
  | cons e es ih =>
    cases es with
    | nil => exact ⟨e, List.mem_singleton_self e, mem_enclosed h⟩
    | cons d es =>
      rw [linkedMarks_cons, List.mem_append, List.mem_cons] at h
      obtain h | h | h := h
      · exact ⟨e, List.mem_cons_self .., mem_enclosed h⟩
      · exact Mark.noConfusion h
      · obtain ⟨e', he', hp⟩ := ih h
        exact ⟨e', List.mem_cons_of_mem e he', hp⟩

theorem mem_joined (h : .form p ∈ g.joined ([.word ·]) (Form.items Form.marks g.negates es)) :
    ∃ e ∈ es.filter g.keeps, .form p ∈ Form.marks ⟨g.negates, e⟩ := by
  rw [joined_items] at h
  exact mem_linked h

theorem mem_assembled
    (h : .form p ∈ g.assembled ([.word ·]) (Form.items Form.marks g.negates es)) :
    ∃ e ∈ es.filter g.keeps, .form p ∈ Form.marks ⟨g.negates, e⟩ := by
  rw [assembled_items, List.mem_append] at h
  obtain h | h := h
  · cases hunder : g.underNot <;> rw [hunder] at h <;> simp at h
  · exact mem_joined (mem_enclosed h)

/-- Only forms that there are get negated. -/
theorem isNegatable_of_negates {f : Form} (h : f.grouping? = some (g, es)) (hneg : g.negates = true) :
    ∀ e ∈ es, e.isNegatable = true := by
  unfold Form.grouping? at h
  split at h
  · cases h
    exact Bool.noConfusion hneg
  · cases h
    exact Bool.noConfusion hneg
  · cases h
    split at hneg
    · next hall => exact List.all_eq_true.mp hall
    · exact Bool.noConfusion hneg
  · cases h
    exact Bool.noConfusion hneg
  · cases h

end Grouping

/-- All marks of a form are words, and conditions that are no groups. -/
theorem Form.isSimple_of_mem {f : Form} (hnegated : f.negated = true → f.expr.isNegatable = true)
    {p : Form} (hp : .form p ∈ f.marks) : p.expr.isSimple = true := by
  induction f using Form.induction with
  | h f ih =>
    cases hgrouping : f.grouping? with
    | none =>
      rw [marks_of_none hgrouping] at hp
      obtain rfl : p = f := by simpa using hp
      obtain ⟨negated, e⟩ := p
      cases negated with
      | false => cases e <;> first | rfl | cases hgrouping
      | true =>
        have hnegatable := hnegated rfl
        cases e with
        | and _ => exact Bool.noConfusion hnegatable
        | or _ => exact Bool.noConfusion hnegatable
        | not _ => cases hgrouping
        | _ => rfl
    | some made =>
      obtain ⟨g, es⟩ := made
      rw [marks_of_grouping hgrouping] at hp
      obtain ⟨e, he, hp⟩ := Grouping.mem_assembled hp
      refine ih ⟨g.negates, e⟩ ?_ ?_ hp
      · rw [parts_of_grouping hgrouping]
        exact List.mem_map_of_mem he
      · intro hneg
        exact Grouping.isNegatable_of_negates hgrouping hneg e (List.mem_of_mem_filter he)

/-! ## Conditions of clauses -/

namespace Where

/-- The conditions that are joined, in their order. -/
def joins (w : Where) : List Expression := reordered w.flattened

/-- The marks of the conditions of a clause. -/
def marks (w : Where) : List Mark :=
  (Grouping.group .and).joined ([.word ·]) (Form.items Form.marks false w.joins)

theorem spelled_marks (s : Scope) (w : Where) : Mark.spelled s w.marks = w.fragment s := by
  refine (Grouping.spelled_joined (g := .group .and) fun e _ => Form.spelled_marks s _).trans ?_
  exact Grouping.connected_eq_joined.symm

/-- Conditions keep fragments whole as their conjunction does. -/
theorem keepsWhole_marks (w : Where) :
    KeepsWhole w.marks ↔ ∀ p, Form.Inside ⟨false, .and w.joins⟩ p → p.Guarded := by
  rw [← Form.keepsWhole_marks, Form.marks_of_grouping (f := ⟨false, .and w.joins⟩) rfl]
  exact Grouping.keepsWhole_enclosed.symm

end Where

/-- The conditions of WHERE, of HAVING and of ON are written as their marks: words, and conditions
that are no groups. A fragment of SQL with the word OR in it is torn by none of the words exactly
when in every group, to any depth, none that reaches the group bare is joined by AND or alone under
NOT. -/
theorem Where.fragments_kept_whole (s : Scope) :
    (∀ w : Where, w.fragment s = Mark.spelled s w.marks
      ∧ (∀ p, .form p ∈ w.marks → p.expr.isSimple = true)
      ∧ (KeepsWhole w.marks ↔ ∀ p, Form.Inside ⟨false, .and w.joins⟩ p → p.Guarded))
    ∧ (∀ g : GroupBy, Expression.allEmpty g.having = false →
      ∃ before, g.fragment s = before ++ Mark.spelled s (Where.mk g.having).marks)
    ∧ (∀ j : Join, j.expression = none → j.on.isEmpty = false →
      ∃ before, j.fragment s = before ++ Mark.spelled s j.on.marks) := by
  refine ⟨fun w => ⟨(spelled_marks s w).symm, fun p hp => ?_, keepsWhole_marks w⟩, ?_, ?_⟩
  · obtain ⟨e, _, hp⟩ := Grouping.mem_joined (g := .group .and) hp
    exact Form.isSimple_of_mem (fun hneg => Bool.noConfusion hneg) hp
  · intro g hhaving
    refine ⟨columnList s g.columns
      ++ [.text (if g.columns.isEmpty then "HAVING " else " HAVING ")], ?_⟩
    rw [GroupBy.fragment, hhaving, spelled_marks, List.append_assoc]
    rfl
  · intro j hexpression hon
    refine ⟨.text (j.type.keyword ++ " JOIN ") :: j.table.fragment s ++ [.text " ON "], ?_⟩
    rw [Join.fragment, hexpression, spelled_marks, List.append_assoc]
    show _ ++ (if !j.on.isEmpty then _ else _) = _
    rw [hon]
    rfl

/-- A fragment under NOT is torn if its arguments have names. -/
example : ¬KeepsWhole (Where.mk [.not [.named "a = 1 OR b = 2" []]]).marks := by
  decide

end RecordSql
