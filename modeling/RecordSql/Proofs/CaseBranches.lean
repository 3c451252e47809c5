/-
  RecordSql.Proofs.CaseBranches

  Case distinctions and their arguments.  A branch comes with arguments for
  its question marks, but before anything is filled in the texts of all
  branches are put together, and so are the arguments.  So a part of a case
  distinction takes as many arguments as it has question marks, from where the
  part before left off (`CasePart.allotted`), be they its own or not.

  What is written part by part are these (`filled_parts_append`); that the
  scan goes on from one part to the next makes no difference, since every part
  begins with a space.

  Every part takes its own arguments exactly if the numbers fit
  (`CasePart.Fits`): up to the first part that has too many arguments or too
  few there are as many as question marks, and from there on no part takes what
  is over, or gives what is missing.
-/

import Mathlib.Data.List.SplitLengths
import RecordSql.Proofs.FilledMarks

namespace RecordSql

/-! ## Texts that are put together -/

theorem places_append (args : List Arg) (cs ds : List Char) :
    places args (cs ++ ds) = places args cs ++ places (args.drop (cs.count '?')) ds := by
  induction cs generalizing args with
  | nil => rfl
  | cons c cs ih =>
    by_cases hc : c = '?'
    · cases args with
      | nil => simp only [List.drop_nil, places_none, List.map_append]
      | cons a args =>
        rw [hc, List.cons_append, places_mark, places_mark, ih, List.count_cons_self,
          List.drop_succ_cons, List.cons_append]
    · rw [List.cons_append, places_char args hc, places_char args hc, ih, List.count_cons_of_ne hc,
        List.cons_append]

/-- Arguments that are left over change nothing. -/
theorem places_take (args : List Arg) (cs : List Char) :
    places (args.take (cs.count '?')) cs = places args cs := by
  induction cs generalizing args with
  | nil => rfl
  | cons c cs ih =>
    by_cases hc : c = '?'
    · cases args with
      | nil => rw [List.take_nil]
      | cons a args =>
        rw [hc, List.count_cons_self, List.take_succ_cons, places_mark, places_mark, ih]
    · rw [List.count_cons_of_ne hc, places_char _ hc, places_char _ hc, ih]

/-- A text without question marks takes no arguments. -/
theorem places_of_no_mark {cs : List Char} (h : '?' ∉ cs) (args : List Arg) :
    places args cs = cs.map .char := by
  rw [← places_take, List.count_eq_zero.mpr h, List.take_zero, places_none]

theorem inOrder_append {α : Type} (write : List α → α → Fragment) (before items more : List α) :
    inOrder write before (items ++ more)
      = inOrder write before items ++ inOrder write (before ++ items) more := by
  induction items generalizing before with
  | nil => rw [List.append_nil]; rfl
  | cons a items ih =>
    rw [List.cons_append, inOrder_cons, inOrder_cons, ih, List.append_assoc, List.append_assoc,
      List.singleton_append]

theorem filled_append (s : Scope) (spread : Bool) (before ps qs : List Place) :
    filled s spread before (ps ++ qs)
      = filled s spread before ps ++ filled s spread (before ++ ps) qs := inOrder_append ..

/-- A text that begins with a space is written alike, whatever stands before it. -/
theorem filled_of_space (s : Scope) (spread : Bool) (before : List Place) (args : List Arg)
    {cs : List Char} (h : cs.head? = some ' ') :
    filled s spread before (places args cs) = filled s spread [] (places args cs) := by
  have hsame (before before' ps : List Place) (hopens : opens before = opens before') :
      filled s spread before ps = filled s spread before' ps := by
    induction ps generalizing before before' with
    | nil => rfl
    | cons p ps ih =>
      have hnext : opens (before ++ [p]) = opens (before' ++ [p]) := by
        cases p with
        | char c => rw [opens_concat_char, opens_concat_char]
        | filled a => rw [opens_concat_filled, opens_concat_filled, hopens]
      rw [filled, inOrder_cons, filled, inOrder_cons, hopens]
      exact congrArg _ (ih _ _ hnext)
  obtain ⟨cs, rfl⟩ := List.head?_eq_some_iff.mp h
  rw [places_char args (by decide), filled, inOrder_cons, filled, inOrder_cons]
  exact congrArg _ (hsame _ _ _ (by rw [opens_concat_char, opens_concat_char]))

/-! ## The parts of a case distinction -/

/-- A part of a case distinction: its text, with the keywords in it, and the arguments that it comes
with. -/
structure CasePart where
  text : String
  args : List Arg

namespace CasePart

/-- How many question marks there are in the text. -/
def marks (p : CasePart) : Nat := p.text.toList.count '?'

/-- The arguments that the question marks of the part are meant for, without those left over. -/
def own (p : CasePart) : List Arg := p.args.take p.marks

/-- The part that a branch makes. -/
def ofBranch : Branch → CasePart
  | .mk condition result args => ⟨" WHEN " ++ condition ++ " THEN " ++ result, args⟩

/-- The part for all other cases. -/
def ofElse : String × List Arg → CasePart
  | (result, args) => ⟨" ELSE " ++ result, args⟩

/-- The parts of a case distinction, between its first word and its last. -/
def all (branches : List Branch) (otherwise : Option (String × List Arg)) : List CasePart :=
  branches.map ofBranch ++ otherwise.toList.map ofElse

/-- The arguments that each part takes: as many of all arguments as it has question marks, from where
the part before left off. -/
def allotted (parts : List CasePart) : List (List Arg) :=
  (parts.map marks).splitLengths (parts.flatMap (·.args))

/-- The parts with other arguments. -/
def withArgs (parts : List CasePart) (args : List (List Arg)) : List CasePart :=
  parts.zipWith (fun p args => { p with args }) args

theorem withArgs_cons (p : CasePart) (parts : List CasePart) (args : List Arg)
    (more : List (List Arg)) :
    withArgs (p :: parts) (args :: more) = { p with args } :: withArgs parts more := rfl

/-- A part as it is written by itself. -/
def fragment (s : Scope) (p : CasePart) : Fragment := filled s false [] (places p.args p.text.toList)

theorem head?_text_of_mem_all {branches : List Branch} {otherwise : Option (String × List Arg)}
    {p : CasePart} (hp : p ∈ all branches otherwise) : p.text.toList.head? = some ' ' := by
  rw [all, List.mem_append, List.mem_map, List.mem_map] at hp
  obtain ⟨⟨condition, result, args⟩, -, rfl⟩ | ⟨⟨result, args⟩, -, rfl⟩ := hp
  · rw [ofBranch, String.append_assoc, String.append_assoc, String.toList_append]
    rfl
  · rw [ofElse, String.toList_append]
    rfl

/-- Arguments that are left over are not written. -/
theorem fragment_own (s : Scope) (p : CasePart) :
    fragment s { p with args := p.own } = p.fragment s :=
  congrArg (filled s false []) (places_take p.args p.text.toList)

theorem flatMap_fragment_own (s : Scope) (parts : List CasePart) :
    (withArgs parts (parts.map own)).flatMap (fragment s) = parts.flatMap (fragment s) := by
  induction parts with
  | nil => rfl
  | cons p parts ih =>
    rw [List.map_cons, withArgs_cons, List.flatMap_cons, List.flatMap_cons, ih, fragment_own]

/-- Parts in a row are written one by one, each with the next of all arguments. -/
theorem filled_parts_append (s : Scope) {parts : List CasePart}
    (hparts : ∀ p ∈ parts, p.text.toList.head? = some ' ') {tail : List Char} (htail : '?' ∉ tail)
    (before : List Place) (args : List Arg) :
    filled s false before (places args (parts.flatMap (·.text.toList) ++ tail))
      = (withArgs parts ((parts.map marks).splitLengths args)).flatMap (fragment s)
        ++ tail.map fun c => .text (String.singleton c) := by
  induction parts generalizing before args with
  | nil =>
    rw [List.flatMap_nil, List.nil_append, places_of_no_mark htail, filled_chars]
    rfl
  | cons p parts ih =>
    obtain ⟨hp, hparts⟩ := List.forall_mem_cons.mp hparts
    have hfirst : filled s false before (places args p.text.toList)
        = fragment s { p with args := args.take p.marks } := by
      rw [filled_of_space s false before args hp, fragment]
      exact congrArg _ (places_take args p.text.toList).symm
    have hrest := ih hparts (before ++ places args p.text.toList) (args.drop p.marks)
    have hseam : places args (p.text.toList ++ (parts.flatMap (·.text.toList) ++ tail))
        = places args p.text.toList
          ++ places (args.drop p.marks) (parts.flatMap (·.text.toList) ++ tail) :=
      places_append ..
    rw [List.flatMap_cons, List.append_assoc, hseam, filled_append, hfirst, hrest, List.map_cons,
      List.splitLengths_cons, withArgs_cons, List.flatMap_cons, List.append_assoc]

/-! ## A case distinction as raw SQL -/

theorem slots_append (s : Scope) (args more : List Arg) :
    Arg.slots s (args ++ more) = Arg.slots s args ++ Arg.slots s more := by
  induction args with
  | nil => rfl
  | cons a args ih => rw [List.cons_append, Arg.slots, ih, Arg.slots, List.cons_append]

/-- The branches are written with the texts of their parts. -/
theorem branch_parts (s : Scope) (branches : List Branch) :
    ((Branch.parts s branches).1.map fun (condition, result) =>
        " WHEN " ++ condition ++ " THEN " ++ result) = branches.map fun b => (ofBranch b).text := by
  induction branches with
  | nil => rfl
  | cons b branches ih =>
    obtain ⟨condition, result, args⟩ := b
    rw [Branch.parts, List.map_cons, List.map_cons, ih]
    rfl

/-- Their arguments stand in a row. -/
theorem branch_slots (s : Scope) (branches : List Branch) :
    (Branch.parts s branches).2
      = Arg.slots s ((branches.map ofBranch).flatMap (·.args)) := by
  induction branches with
  | nil => rfl
  | cons b branches ih =>
    obtain ⟨condition, result, args⟩ := b
    rw [Branch.parts, List.map_cons, List.flatMap_cons, slots_append, ← ih]
    rfl

/-- A case distinction is raw SQL: its parts between two words, with all arguments in a row. -/
theorem fragment_case (s : Scope) (branches : List Branch) (otherwise : Option (String × List Arg)) :
    (Expression.case branches otherwise).fragment s
      = fillMarks false false (Arg.slots s ((all branches otherwise).flatMap (·.args)))
          ("CASE".toList ++ ((all branches otherwise).flatMap (·.text.toList) ++ " END".toList)) := by
  have htexts : (String.join ((Branch.parts s branches).1.map fun (condition, result) =>
      " WHEN " ++ condition ++ " THEN " ++ result)).toList
      = (branches.map ofBranch).flatMap (·.text.toList) := by
    rw [branch_parts, String.toList_join, List.flatMap_map, List.flatMap_map]
  rw [all, List.flatMap_append, List.flatMap_append, slots_append, ← branch_slots, ← htexts]
  rw [Expression.fragment, Expression.forms]
  cases otherwise with
  | none =>
    show fillMarks false false (Branch.parts s branches).2
      (caseText (Branch.parts s branches).1 none).toList = _
    rw [caseText]
    simp only [String.toList_append, String.toList_empty, Option.toList_none, List.map_nil,
      List.flatMap_nil, Arg.slots, List.append_nil, List.append_assoc]
  | some other =>
    obtain ⟨result, args⟩ := other
    show fillMarks false false ((Branch.parts s branches).2 ++ Arg.slots s args)
      (caseText (Branch.parts s branches).1 (some result)).toList = _
    rw [caseText]
    simp only [String.toList_append, Option.toList_some, List.map_cons, List.map_nil,
      List.flatMap_cons, List.flatMap_nil, ofElse, List.append_nil, List.append_assoc]

/-! ## Whose arguments the parts take -/

/-- The same texts, with as many arguments each. -/
def SameShape (parts parts' : List CasePart) : Prop :=
  parts.map (fun p => (p.text, p.args.length)) = parts'.map fun p => (p.text, p.args.length)

/-- The numbers of question marks and arguments fit: they are equal from part to part, or they are up
to a part from which on nobody takes what is over, or gives what is missing. -/
inductive Fits : List CasePart → Prop
  | nil : Fits []
  | balanced {p : CasePart} {parts : List CasePart} (h : p.args.length = p.marks)
      (hparts : Fits parts) : Fits (p :: parts)
  | surplus {p : CasePart} {parts : List CasePart} (h : p.marks < p.args.length)
      (hparts : ∀ q ∈ parts, q.marks = 0) : Fits (p :: parts)
  | shortage {p : CasePart} {parts : List CasePart} (h : p.args.length < p.marks)
      (hparts : ∀ q ∈ parts, q.args = []) : Fits (p :: parts)

theorem fits_cons_iff {p : CasePart} {parts : List CasePart} : Fits (p :: parts) ↔
    (p.args.length = p.marks ∧ Fits parts)
      ∨ (p.marks < p.args.length ∧ ∀ q ∈ parts, q.marks = 0)
      ∨ (p.args.length < p.marks ∧ ∀ q ∈ parts, q.args = []) := by
  constructor
  · rintro (_ | ⟨h, hparts⟩ | ⟨h, hparts⟩ | ⟨h, hparts⟩)
    · exact .inl ⟨h, hparts⟩
    · exact .inr (.inl ⟨h, hparts⟩)
    · exact .inr (.inr ⟨h, hparts⟩)
  · rintro (⟨h, hparts⟩ | ⟨h, hparts⟩ | ⟨h, hparts⟩)
    · exact .balanced h hparts
    · exact .surplus h hparts
    · exact .shortage h hparts

instance decidableFits : (parts : List CasePart) → Decidable (Fits parts)
  | [] => .isTrue .nil
  | _ :: parts =>
    have := decidableFits parts
    decidable_of_iff _ fits_cons_iff.symm

theorem allotted_cons (p : CasePart) (parts : List CasePart) :
    allotted (p :: parts)
      = (p.args ++ parts.flatMap (·.args)).take p.marks
        :: (parts.map marks).splitLengths ((p.args ++ parts.flatMap (·.args)).drop p.marks) := by
  rw [allotted, List.map_cons, List.splitLengths_cons, List.flatMap_cons]

/-- Parts without question marks take nothing, and need nothing. -/
theorem splitLengths_of_no_marks {parts : List CasePart} (h : ∀ p ∈ parts, p.marks = 0)
    (args : List Arg) : (parts.map marks).splitLengths args = parts.map own := by
  induction parts with
  | nil => rfl
  | cons p parts ih =>
    obtain ⟨hp, hparts⟩ := List.forall_mem_cons.mp h
    rw [List.map_cons, List.splitLengths_cons, List.map_cons, own, hp, List.take_zero,
      List.take_zero, List.drop_zero, ih hparts]

/-- Parts without arguments are given none. -/
theorem splitLengths_of_no_args {parts : List CasePart} (h : ∀ p ∈ parts, p.args = []) :
    (parts.map marks).splitLengths [] = parts.map own := by
  induction parts with
  | nil => rfl
  | cons p parts ih =>
    obtain ⟨hp, hparts⟩ := List.forall_mem_cons.mp h
    rw [List.map_cons, List.splitLengths_cons, List.map_cons, own, hp, List.take_nil, List.drop_nil,
      ih hparts]

/-- If the numbers fit, every part takes its own arguments. -/
theorem Fits.allotted_eq {parts : List CasePart} (h : Fits parts) :
    allotted parts = parts.map own := by
  induction h with
  | nil => rfl
  | @balanced p parts h hparts ih =>
    rw [allotted_cons, List.take_left' h, List.drop_left' h, List.map_cons, own, ← h,
      List.take_length, ← ih, allotted]
  | @surplus p parts h hparts =>
    rw [allotted_cons, splitLengths_of_no_marks hparts, List.take_append_of_le_length h.le]
    rfl
  | @shortage p parts h hparts =>
    have hnone : parts.flatMap (·.args) = [] := List.flatMap_eq_nil_iff.mpr hparts
    rw [allotted_cons, hnone, List.append_nil, List.drop_eq_nil_of_le h.le,
      splitLengths_of_no_args hparts]
    rfl

/-- The part with as many arguments, all of them the same. -/
def relabelled (a : Arg) (p : CasePart) : CasePart :=
  { p with args := List.replicate p.args.length a }

theorem sameShape_map_relabelled (a : Arg) (parts : List CasePart) :
    SameShape (parts.map (relabelled a)) parts := by
  rw [SameShape, List.map_map]
  refine List.map_congr_left fun p _ => ?_
  rw [Function.comp_apply, relabelled, List.length_replicate]

theorem SameShape.cons {p p' : CasePart} {parts parts' : List CasePart} (htext : p.text = p'.text)
    (hlength : p.args.length = p'.args.length) (h : SameShape parts parts') :
    SameShape (p :: parts) (p' :: parts') := by
  rw [SameShape, List.map_cons, List.map_cons, htext, hlength, h]

/-- The first argument is dealt out, unless all portions are empty. -/
theorem exists_portion_of_first {sizes : List Nat} (h : ∃ n ∈ sizes, n ≠ 0) (a : Arg)
    (args : List Arg) : ∃ portion ∈ sizes.splitLengths (a :: args), a ∈ portion := by
  induction sizes with
  | nil =>
    obtain ⟨n, hn, -⟩ := h
    exact absurd hn List.not_mem_nil
  | cons n sizes ih =>
    rw [List.splitLengths_cons]
    cases n with
    | zero =>
      obtain ⟨m, hm, hne⟩ := h
      have hrest : m ∈ sizes := (List.mem_cons.mp hm).resolve_left hne
      obtain ⟨portion, hportion, ha⟩ := ih ⟨m, hrest, hne⟩
      exact ⟨portion, List.mem_cons_of_mem _ hportion, ha⟩
    | succ n => exact ⟨_, List.mem_cons_self, List.mem_cons_self⟩

theorem SameShape.exists_cons {p : CasePart} {parts parts' : List CasePart}
    (h : SameShape parts' (p :: parts)) :
    ∃ p' rest, parts' = p' :: rest ∧ p'.marks = p.marks ∧ p'.args.length = p.args.length
      ∧ SameShape rest parts := by
  obtain ⟨p', rest, rfl, hp, hrest⟩ := List.map_eq_cons_iff.mp h
  obtain ⟨htext, hlength⟩ := Prod.mk.inj hp
  exact ⟨p', rest, rfl, by rw [marks, htext, marks], hlength, hrest⟩

/-- What all parts of a shape have is a matter of the shape. -/
theorem SameShape.forall_mem {parts parts' : List CasePart} (h : SameShape parts' parts)
    {P : CasePart → Prop}
    (hP : ∀ p p' : CasePart, p'.marks = p.marks → p'.args.length = p.args.length → P p → P p')
    (hparts : ∀ p ∈ parts, P p) : ∀ p' ∈ parts', P p' := by
  induction parts generalizing parts' with
  | nil =>
    obtain rfl : parts' = [] := List.map_eq_nil_iff.mp h
    exact fun _ h => absurd h List.not_mem_nil
  | cons p parts ih =>
    obtain ⟨p', rest, rfl, hmarks, hlength, hrest⟩ := h.exists_cons
    obtain ⟨hp, hparts⟩ := List.forall_mem_cons.mp hparts
    exact List.forall_mem_cons.mpr ⟨hP p p' hmarks hlength hp, ih hrest hparts⟩

/-- Whether the numbers fit is a matter of the shape. -/
theorem Fits.congr {parts parts' : List CasePart} (hfits : Fits parts)
    (h : SameShape parts' parts) : Fits parts' := by
  induction hfits generalizing parts' with
  | nil =>
    obtain rfl : parts' = [] := List.map_eq_nil_iff.mp h
    exact .nil
  | balanced heq _ ih =>
    obtain ⟨p', rest, rfl, hmarks, hlength, hrest⟩ := h.exists_cons
    exact .balanced (by rw [hlength, hmarks, heq]) (ih hrest)
  | surplus hlt hparts =>
    obtain ⟨p', rest, rfl, hmarks, hlength, hrest⟩ := h.exists_cons
    refine .surplus (by rw [hlength, hmarks]; exact hlt) (hrest.forall_mem ?_ hparts)
    exact fun p p' hmarks _ hp => hmarks.trans hp
  | shortage hlt hparts =>
    obtain ⟨p', rest, rfl, hmarks, hlength, hrest⟩ := h.exists_cons
    refine .shortage (by rw [hlength, hmarks]; exact hlt) (hrest.forall_mem ?_ hparts)
    intro p p' _ hlength hp
    rw [hp] at hlength
    exact List.eq_nil_of_length_eq_zero hlength

theorem mem_own_relabelled {a b : Arg} {p : CasePart} (h : b ∈ (relabelled a p).own) : b = a :=
  List.eq_of_mem_replicate (List.mem_of_mem_take h)

/-- What is left over after a part goes to the next question mark, whosever it is. -/
theorem no_marks_of_surplus {p : CasePart} {parts : List CasePart} (h : p.marks < p.args.length)
    (hown : ∀ parts', SameShape parts' (p :: parts) → allotted parts' = parts'.map own) :
    ∀ q ∈ parts, q.marks = 0 := by
  -- The arguments of the part are told from those of the others.
  let mine := Arg.value .null
  let others := Arg.value (.bool true)
  have hne : mine ≠ others := fun h => nomatch Arg.value.inj h
  have hdealt := hown (relabelled mine p :: parts.map (relabelled others))
    (.cons rfl List.length_replicate (sameShape_map_relabelled others parts))
  rw [allotted_cons, List.map_cons, List.cons.injEq] at hdealt
  have hmarks : (parts.map (relabelled others)).map marks = parts.map marks := List.map_map
  have hleft : (relabelled mine p).args.drop (relabelled mine p).marks
      = mine :: List.replicate (p.args.length - p.marks - 1) mine := by
    show (List.replicate p.args.length mine).drop p.marks = _
    rw [List.drop_replicate, ← List.replicate_succ, Nat.sub_add_cancel (by omega)]
  have hlength : (relabelled mine p).marks ≤ (relabelled mine p).args.length := by
    rw [relabelled, List.length_replicate]
    exact h.le
  have hportions := hdealt.2
  rw [hmarks, List.drop_append_of_le_length hlength, hleft, List.cons_append] at hportions
  by_contra hsome
  -- Some question mark takes the first that is left over, which would be one of the others.
  have hsizes : ∃ n ∈ parts.map marks, n ≠ 0 := by
    push Not at hsome
    obtain ⟨q, hq, hmark⟩ := hsome
    exact ⟨q.marks, List.mem_map_of_mem hq, hmark⟩
  obtain ⟨portion, hportion, hmine⟩ := exists_portion_of_first hsizes mine _
  rw [hportions] at hportion
  obtain ⟨_, hpart, rfl⟩ := List.mem_map.mp hportion
  obtain ⟨q, -, rfl⟩ := List.mem_map.mp hpart
  exact hne (mem_own_relabelled hmine)

/-- A part with too few arguments takes those of the next parts. -/
theorem no_args_of_shortage {p : CasePart} {parts : List CasePart} (h : p.args.length < p.marks)
    (hown : allotted (p :: parts) = (p :: parts).map own) : ∀ q ∈ parts, q.args = [] := by
  rw [allotted_cons, List.map_cons, List.cons.injEq] at hown
  have hlength := congrArg List.length hown.1
  rw [own, List.length_take, List.length_take, List.length_append] at hlength
  have hnone : (parts.flatMap (·.args)).length = 0 := by omega
  exact List.flatMap_eq_nil_iff.mp (List.eq_nil_of_length_eq_zero hnone)

/-- Each part takes its own arguments, whatever these are, exactly if the numbers fit. -/
theorem own_iff_fits (parts : List CasePart) :
    (∀ parts', SameShape parts' parts → allotted parts' = parts'.map own) ↔ Fits parts := by
  constructor
  · intro hown
    induction parts with
    | nil => exact .nil
    | cons p parts ih =>
      obtain hlt | heq | hgt := Nat.lt_trichotomy p.args.length p.marks
      · exact .shortage hlt (no_args_of_shortage hlt (hown _ rfl))
      · refine .balanced heq (ih fun parts' hshape => ?_)
        have hdealt := hown (p :: parts') (.cons rfl rfl hshape)
        rw [allotted_cons, List.map_cons, List.cons.injEq, List.drop_left' heq] at hdealt
        exact hdealt.2
      · exact .surplus hgt (no_marks_of_surplus hgt hown)
  · intro hfits parts' hshape
    exact (hfits.congr hshape).allotted_eq

end CasePart

/-! ## What is written -/

namespace Statement

/-- Writes a case distinction part by part, each part as raw SQL with its own arguments. -/
def writeCase (st : Statement) (parts : List CasePart) : Statement :=
  (parts.foldl (fun st p => st.writeExpression (.sql p.text p.args)) (st.write [.text "CASE"])).write
    [.text " END"]

theorem writeCase_eq (st : Statement) (parts : List CasePart) :
    st.writeCase parts
      = st.write ([.text "CASE"]
          ++ (parts.flatMap (CasePart.fragment st.scope) ++ [.text " END"])) := by
  have hparts (st' : Statement) (hscope : st'.scope = st.scope) :
      parts.foldl (fun st p => st.writeExpression (.sql p.text p.args)) st'
        = st'.write (parts.flatMap (CasePart.fragment st.scope)) := by
    induction parts generalizing st' with
    | nil => rfl
    | cons p parts ih =>
      have hpart : st'.writeExpression (.sql p.text p.args) = st'.write (p.fragment st.scope) := by
        rw [← hscope]
        exact fillMarks_writtenAs st'.scope false [] p.args p.text.toList st'
      rw [List.foldl_cons, hpart, ih (st'.write _) hscope, List.flatMap_cons, write_append]
  rw [writeCase, hparts (st.write _) rfl, write_append, write_append]

/-- A case distinction is written part by part, each part with the arguments it is allotted. -/
theorem writeExpression_case (st : Statement) (branches : List Branch)
    (otherwise : Option (String × List Arg)) :
    let parts := CasePart.all branches otherwise
    st.writeExpression (.case branches otherwise)
      = st.writeCase (CasePart.withArgs parts (CasePart.allotted parts)) := by
  intro parts
  have hspaces : ∀ p ∈ parts, p.text.toList.head? = some ' ' := fun p hp =>
    CasePart.head?_text_of_mem_all hp
  have hnone : "CASE".toList.count '?' = 0 := by decide
  have hscan := fillMarks_writtenAs st.scope false [] (parts.flatMap (·.args))
    ("CASE".toList ++ (parts.flatMap (·.text.toList) ++ " END".toList))
  rw [places_append, hnone, List.drop_zero, filled_append, places_of_no_mark (by decide), filled_chars,
    CasePart.filled_parts_append st.scope hspaces (by decide)] at hscan
  -- The two words are written character by character.
  have hwords := (Fragment.writtenAs_chars "CASE".toList).append
    ((Fragment.WrittenAs.refl ((CasePart.withArgs parts (CasePart.allotted parts)).flatMap
      (CasePart.fragment st.scope))).append (Fragment.writtenAs_chars " END".toList))
  rw [writeExpression, CasePart.fragment_case, writeCase_eq]
  exact (hscan st).trans (hwords st).symm

/-- A case distinction is written part by part, between its first word and its last, each part as raw
SQL with the arguments that it takes: as many as it has question marks, from where the part before left
off. If every part takes its own arguments, it is written as its parts are with these, each by itself
and with what is left over unused. They do so, whatever the arguments are, exactly if the numbers fit. -/
theorem case_takes_own_arguments_iff (branches : List Branch)
    (otherwise : Option (String × List Arg)) :
    let parts := CasePart.all branches otherwise
    (∀ st : Statement, st.writeExpression (.case branches otherwise)
        = st.writeCase (CasePart.withArgs parts (CasePart.allotted parts)))
      ∧ (CasePart.allotted parts = parts.map CasePart.own → ∀ st : Statement,
        st.writeExpression (.case branches otherwise) = st.writeCase parts)
      ∧ ((∀ parts', CasePart.SameShape parts' parts →
          CasePart.allotted parts' = parts'.map CasePart.own) ↔ CasePart.Fits parts) := by
  intro parts
  have hwritten (st : Statement) := st.writeExpression_case branches otherwise
  refine ⟨hwritten, fun hown st => ?_, CasePart.own_iff_fits parts⟩
  rw [hwritten, writeCase_eq, writeCase_eq]
  show st.write ([.text "CASE"] ++ ((CasePart.withArgs parts (CasePart.allotted parts)).flatMap
    (CasePart.fragment st.scope) ++ [.text " END"])) = _
  rw [hown, CasePart.flatMap_fragment_own]

/-- A branch has an argument too many. The question mark of the next branch takes it, and the argument
of that branch is not bound. -/
theorem case_takes_own_arguments_iff_surplus :
    let st : Statement := { dialect := .mysql }
    let branches := [Branch.mk "a = ?" "1" [.value (.int 1), .value (.int 9)],
      .mk "b = ?" "2" [.value (.int 2)]]
    let parts := CasePart.all branches none
    ¬ CasePart.Fits parts
      ∧ (st.writeExpression (.case branches none)).output.sql
        = "CASE WHEN a = ? THEN 1 WHEN b = ? THEN 2 END"
      ∧ (st.writeExpression (.case branches none)).output.values = [.int 1, .int 9]
      ∧ (st.writeCase parts).output.values = [.int 1, .int 2] := by
  intro st branches parts
  obtain ⟨hwritten, -, -⟩ := case_takes_own_arguments_iff branches none
  refine ⟨by decide, by decide, ?_, rfl⟩
  rw [hwritten]
  rfl

end Statement

end RecordSql
