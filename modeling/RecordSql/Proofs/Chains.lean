/-
  RecordSql.Proofs.Chains

  What texts say that join conditions by AND and OR side by side, and by the
  word NOT.  AND binds tighter than OR, so a chain of conditions is an
  alternative of conjunctions (`chain`), whatever the connectives mean in the
  tree it was written for.

  `IsFactor` is what `IsCondition` is, for texts that may begin with NOT: where
  one NOT waits already, the two cancel out.  Chains of factors are texts
  (`isText_chain`), and a NOT before a factor is a factor (`IsFactor.not`).
-/

import RecordSql.Proofs.Conditions

namespace RecordSql

namespace Reading

/-! ## Chains of truth values -/

/-- The truth value of `b` with the rest behind it, each after its connective. -/
def chain (b : Bool) : List (Connective × Bool) → Bool
  | [] => b
  | (.and, b') :: rest => chain (b && b') rest
  | (.or, b') :: rest => b || chain b' rest

/-- A chain without a condition in front. The first connective joins nothing. -/
def chained : List (Connective × Bool) → Bool
  | [] => true
  | (_, b) :: rest => chain b rest

/-- Where all conditions agree, the connectives do not matter. -/
theorem chain_eq_of_all_eq {b : Bool} {bs : List (Connective × Bool)} (h : ∀ p ∈ bs, p.2 = b) :
    chain b bs = b := by
  induction bs with
  | nil => rfl
  | cons p bs ih =>
    obtain ⟨hp, hbs⟩ := List.forall_mem_cons.mp h
    obtain ⟨c, b'⟩ := p
    have hb' : b' = b := hp
    subst hb'
    cases c <;> simp [chain, ih hbs]

theorem chain_and {ι : Type} (meaning : ι → Bool) (b : Bool) (is : List ι) :
    chain b (is.map fun i => (.and, meaning i)) = (b && is.all meaning) := by
  induction is generalizing b with
  | nil => simp [chain]
  | cons i is ih => simp [chain, ih, Bool.and_assoc]

theorem chain_or {ι : Type} (meaning : ι → Bool) (b : Bool) (is : List ι) :
    chain b (is.map fun i => (.or, meaning i)) = (b || is.any meaning) := by
  induction is generalizing b with
  | nil => simp [chain]
  | cons i is ih => simp [chain, ih]

/-! ## Factors -/

/-- The fragment is read as one condition wherever a condition is awaited, and as the negation of
that where a NOT waits. -/
def IsFactor (s : Scope) (f : Fragment) (as : List Atom) (m : (Atom → Bool) → Bool) : Prop :=
  ∃ ts, f = spelled s ts ∧ List.Forall₂ Atom.OnOneSide (atoms ts) as ∧
    ∀ level : Level, ∃ last : Formula,
      (∀ outer, ({ level, outer } : Reader).run ts
        = some { level := { level with negated := false }, outer, last := some last })
      ∧ ∀ α, Complementary α → last.eval α = (level.negated ^^ m α)

section Reads

variable {s : Scope} {f : Fragment} {as : List Atom} {m : (Atom → Bool) → Bool}

theorem IsCondition.isFactor (h : IsCondition s f as m) : IsFactor s f as m := by
  obtain ⟨ts, φ, ⟨hfragment, hatoms, heval⟩, hrun⟩ := h
  refine ⟨ts, hfragment, hatoms, fun level => ?_⟩
  refine ⟨if level.negated then .not φ else φ, fun outer => hrun level outer, ?_⟩
  intro α hα
  cases hnegated : level.negated with
  | false => simp [heval α hα]
  | true => simp [Formula.eval, heval α hα]

/-- What a factor means matters under complementary assignments only. -/
theorem IsFactor.congr {m' : (Atom → Bool) → Bool} (h : IsFactor s f as m)
    (hm : ∀ α, Complementary α → m α = m' α) : IsFactor s f as m' := by
  obtain ⟨ts, hfragment, hatoms, hrun⟩ := h
  refine ⟨ts, hfragment, hatoms, fun level => ?_⟩
  obtain ⟨last, hlast, heval⟩ := hrun level
  exact ⟨last, hlast, fun α hα => by rw [heval α hα, hm α hα]⟩

theorem IsFactor.isText (h : IsFactor s f as m) : IsText s f as m := by
  obtain ⟨ts, hfragment, hatoms, hrun⟩ := h
  obtain ⟨last, hlast, heval⟩ := hrun {}
  refine ⟨ts, last, ⟨hfragment, hatoms, fun α hα => ?_⟩, fun outer => ⟨{}, last, hlast outer, rfl⟩⟩
  rw [heval α hα, Bool.false_xor]

/-- The word NOT before a factor negates it. -/
theorem IsFactor.not (h : IsFactor s f as m) :
    IsFactor s (.text "NOT " :: f) as (fun α => !m α) := by
  obtain ⟨ts, hfragment, hatoms, hrun⟩ := h
  refine ⟨.not :: ts, ?_, hatoms, fun level => ?_⟩
  · rw [spelled_cons, ← hfragment]
    rfl
  -- The factor is read with one NOT more, or with one less.
  obtain ⟨last, hlast, heval⟩ := hrun { level with negated := !level.negated }
  refine ⟨last, fun outer => ?_, fun α hα => ?_⟩
  · have hstep : Reader.step { level, outer } .not
        = some { level := { level with negated := !level.negated }, outer } := rfl
    rw [Reader.run_cons, hstep, Option.bind_some, hlast]
  · rw [heval α hα]
    simp

/-! ## Chains of factors -/

/-- The level on which the condition behind a connective is read. -/
def Level.beyond (level : Level) (φ : Formula) : Connective → Level
  | .and => { level with conditions := some (Formula.after .and level.conditions φ) }
  | .or => { alternatives := some (level.whole φ) }

theorem Reader.step_beyond (level : Level) (outer : List Level) (φ : Formula) (c : Connective) :
    Reader.step { level, outer, last := some φ } (.connective c)
      = some { level := level.beyond φ c, outer } := by
  cases c <;> rfl

theorem Level.negated_beyond {level : Level} (h : level.negated = false) (φ : Formula)
    (c : Connective) : (level.beyond φ c).negated = false := by
  cases c with
  | and => exact h
  | or => rfl

/-- The truth value of a level whose last condition is `b`, with the rest behind it. -/
def Level.chain (level : Level) (α : Atom → Bool) (b : Bool) (rest : List (Connective × Bool)) :
    Bool :=
  level.alternatives.any (Formula.eval α)
    || Reading.chain (level.conditions.all (Formula.eval α) && b) rest

theorem Level.eval_whole (level : Level) (α : Atom → Bool) (φ : Formula) :
    (level.whole φ).eval α = level.chain α (φ.eval α) [] := by
  obtain ⟨alternatives, conditions, negated⟩ := level
  cases alternatives <;> cases conditions <;>
    simp [Level.whole, Formula.after, Formula.eval, Connective.holds, Level.chain, Reading.chain]

/-- Reading on behind a connective does not change what the level says. -/
theorem Level.chain_beyond (level : Level) (α : Atom → Bool) (φ : Formula) (c : Connective)
    (b : Bool) (rest : List (Connective × Bool)) :
    (level.beyond φ c).chain α b rest = level.chain α (φ.eval α) ((c, b) :: rest) := by
  cases c with
  | and =>
    have hconditions : (level.beyond φ .and).conditions.all (Formula.eval α)
        = (level.conditions.all (Formula.eval α) && φ.eval α) := by
      cases hbefore : level.conditions <;>
        simp [Level.beyond, hbefore, Formula.after, Formula.eval, Connective.holds]
    rw [Level.chain, hconditions]
    rfl
  | or =>
    show ((level.whole φ).eval α || Reading.chain (true && b) rest) = _
    rw [Level.eval_whole, Bool.true_and]
    exact Bool.or_assoc ..

variable {ι : Type} {fragment : ι → Fragment} {comparisons : ι → List Atom}
  {meaning : (Atom → Bool) → ι → Bool} (connective : ι → Connective)

/-- Factors behind a condition, each after its connective. -/
def continuation (fragment : ι → Fragment) (connective : ι → Connective) (is : List ι) : Fragment :=
  is.flatMap fun i => .text (connective i).text :: fragment i

/-- The truth values of conditions with their connectives. -/
def links (connective : ι → Connective) (meaning : ι → Bool) (is : List ι) :
    List (Connective × Bool) :=
  is.map fun i => (connective i, meaning i)

/-- Factors behind a condition are read one by one, each joined to what stands before it. -/
theorem run_chain {is : List ι}
    (h : ∀ i ∈ is, IsFactor s (fragment i) (comparisons i) (fun α => meaning α i)) :
    ∃ ts, continuation fragment connective is = spelled s ts
      ∧ List.Forall₂ Atom.OnOneSide (atoms ts) (is.flatMap comparisons)
      ∧ ∀ (level : Level) (φ : Formula), level.negated = false → ∃ level' last,
          (∀ outer, Reader.run { level, outer, last := some φ } ts
            = some { level := level', outer, last := some last })
          ∧ ∀ α, Complementary α → (level'.whole last).eval α
              = level.chain α (φ.eval α) (links connective (meaning α) is) := by
  -- The level that the rest is read at differs from factor to factor, so it is not fixed here.
  induction is with
  | nil =>
    refine ⟨[], rfl, .nil, fun level φ _ => ⟨level, φ, fun _ => rfl, fun α _ => ?_⟩⟩
    exact level.eval_whole α φ
  | cons i is ih =>
    obtain ⟨⟨ts, hfragment, hatoms, hfactor⟩, his⟩ := List.forall_mem_cons.mp h
    obtain ⟨us, hus, hatoms', hrest⟩ := ih his
    refine ⟨.connective (connective i) :: (ts ++ us), ?_, ?_, fun level φ hlevel => ?_⟩
    · rw [spelled_cons, spelled_append, ← hus, ← hfragment]
      rfl
    · have hskip : atoms (.connective (connective i) :: (ts ++ us)) = atoms ts ++ atoms us :=
        atoms_append ts us
      rw [hskip, List.flatMap_cons]
      exact List.rel_append hatoms hatoms'
    · -- The first factor is read on the level beyond its connective, where no NOT waits.
      have hfree := Level.negated_beyond hlevel φ (connective i)
      obtain ⟨ψ, hψ, hevalψ⟩ := hfactor (level.beyond φ (connective i))
      have hsame : { level.beyond φ (connective i) with negated := false }
          = level.beyond φ (connective i) := by
        rw [← hfree]
      rw [hsame] at hψ
      obtain ⟨level', last, hrun, heval⟩ := hrest (level.beyond φ (connective i)) ψ hfree
      refine ⟨level', last, fun outer => ?_, fun α hα => ?_⟩
      · rw [Reader.run_cons, Reader.step_beyond, Option.bind_some, Reader.run_append, hψ,
          Option.bind_some, hrun]
      · rw [heval α hα, hevalψ α hα, hfree, Bool.false_xor, Level.chain_beyond]
        rfl

/-- A chain of factors is a text. -/
theorem isText_chain {i : ι} {is : List ι}
    (h : ∀ j ∈ i :: is, IsFactor s (fragment j) (comparisons j) (fun α => meaning α j)) :
    IsText s (fragment i ++ continuation fragment connective is) ((i :: is).flatMap comparisons)
      (fun α => chain (meaning α i) (links connective (meaning α) is)) := by
  obtain ⟨⟨ts, hfragment, hatoms, hfirst⟩, his⟩ := List.forall_mem_cons.mp h
  obtain ⟨us, hus, hatoms', hrest⟩ := run_chain connective his
  obtain ⟨φ, hφ, hevalφ⟩ := hfirst {}
  obtain ⟨level, last, hrun, heval⟩ := hrest {} φ rfl
  refine ⟨ts ++ us, level.whole last, ⟨?_, ?_, fun α hα => ?_⟩, fun outer => ?_⟩
  · rw [spelled_append, ← hfragment, ← hus]
  · rw [atoms_append, List.flatMap_cons]
    exact List.rel_append hatoms hatoms'
  · rw [heval α hα, hevalφ α hα]
    simp [Level.chain]
  · refine ⟨level, last, ?_, rfl⟩
    rw [Reader.run_append, hφ, Option.bind_some, hrun]

/-- It is a factor once it stands in parentheses, which one factor alone does without. -/
theorem isFactor_group {i : ι} {is : List ι}
    (h : ∀ j ∈ i :: is, IsFactor s (fragment j) (comparisons j) (fun α => meaning α j)) :
    IsFactor s
      (Fragment.parenthesized (1 < (i :: is).length)
        (fragment i ++ continuation fragment connective is))
      ((i :: is).flatMap comparisons)
      (fun α => chain (meaning α i) (links connective (meaning α) is)) := by
  cases is with
  | nil =>
    have halone : fragment i ++ continuation fragment connective [] = fragment i :=
      List.append_nil _
    rw [List.flatMap_singleton, halone]
    exact h i (List.mem_singleton_self i)
  | cons j is =>
    have hmore : 1 < (i :: j :: is).length := by simp
    rw [decide_eq_true hmore]
    exact (isText_chain connective h).enclosed.isFactor

end Reads

end Reading

end RecordSql
