/-
  RecordSql.Proofs.FilledMarks

  Raw SQL with arguments.  Each character of the text has a place: the first
  question marks are filled with the arguments, one after the other, and all
  other characters stay (`places`).  What is written is what stands in the
  places from left to right.

  A list is spread in its place if the nearest character before it that stays
  opens a parenthesis.  The scan that writes the text keeps one flag for that;
  here the question is asked of the places before (`opens`), and the induction
  carries that the flag is its answer.
-/

import RecordSql.Proofs.Written
import RecordSql.Render.Clause

namespace RecordSql

/-- A text may be written character by character. -/
theorem Fragment.writtenAs_chars (cs : List Char) :
    WrittenAs [.text (String.ofList cs)] (cs.map fun c => .text (String.singleton c)) := by
  induction cs with
  | nil => exact writtenAs_text_empty
  | cons c cs ih =>
    have hcons : String.ofList (c :: cs) = String.singleton c ++ String.ofList cs := by
      rw [String.singleton_eq_ofList, ← String.ofList_append, List.singleton_append]
    rw [hcons]
    exact (writtenAs_text_append _ _).trans (WrittenAs.append_left [.text (String.singleton c)] ih)

/-! ## The places of a text -/

/-- What stands in a place of a text: the character that was there, or the argument that has taken the
place of a question mark. -/
inductive Place where
  | char (c : Char)
  | filled (a : Arg)

namespace Place

/-- The character that stands there. -/
def char? : Place → Option Char
  | .char c => some c
  | .filled _ => none

/-- The argument that stands there. -/
def arg? : Place → Option Arg
  | .char _ => none
  | .filled a => some a

/-- The character that was there. -/
def spelled : Place → Char
  | .char c => c
  | .filled _ => '?'

end Place

/-- The places of a text: each question mark is filled with the argument of its number, if there is
one. -/
def places (args : List Arg) (cs : List Char) : List Place :=
  cs.mapIdx fun i c =>
    if c = '?' then (args[(cs.take i).count '?']?).elim (.char c) .filled else .char c

@[simp] theorem places_nil (args : List Arg) : places args [] = [] := rfl

/-- The first question mark takes the first argument. -/
theorem places_mark (a : Arg) (args : List Arg) (cs : List Char) :
    places (a :: args) ('?' :: cs) = .filled a :: places args cs := by
  rw [places, List.mapIdx_cons, places]
  simp

theorem places_char (args : List Arg) {c : Char} (hc : c ≠ '?') (cs : List Char) :
    places args (c :: cs) = .char c :: places args cs := by
  rw [places, List.mapIdx_cons, places]
  simp [hc]

/-- Without arguments the text stays as it is. -/
theorem places_none (cs : List Char) : places [] cs = cs.map .char := by
  induction cs with
  | nil => rfl
  | cons c cs ih =>
    rw [List.map_cons, ← ih, places, List.mapIdx_cons, places]
    simp

/-- A question mark for which there is no argument stays as well. -/
theorem places_kept {args : List Arg} {c : Char} (h : c = '?' → args = []) (cs : List Char) :
    places args (c :: cs) = .char c :: places args cs := by
  by_cases hc : c = '?'
  · rw [h hc, places_none, places_none, List.map_cons]
  · exact places_char args hc cs

/-- Nothing but the question marks gives way. -/
theorem map_spelled_places (args : List Arg) (cs : List Char) :
    (places args cs).map Place.spelled = cs := by
  induction cs generalizing args with
  | nil => rfl
  | cons c cs ih =>
    by_cases hc : c = '?'
    · cases args with
      | nil =>
        rw [places_none, List.map_map]
        exact List.map_id _
      | cons a args => rw [hc, places_mark, List.map_cons, ih]; rfl
    · rw [places_char args hc, List.map_cons, ih]
      rfl

/-- The arguments stand there in their order, as many as there are question marks for. -/
theorem filterMap_arg?_places (args : List Arg) (cs : List Char) :
    (places args cs).filterMap Place.arg? = args.take (cs.count '?') := by
  induction cs generalizing args with
  | nil => rfl
  | cons c cs ih =>
    by_cases hc : c = '?'
    · cases args with
      | nil => simp [places_none, Place.arg?]
      | cons a args =>
        rw [hc, places_mark, List.filterMap_cons, ih, List.count_cons_self, List.take_succ_cons]
        rfl
    · rw [places_char args hc, List.filterMap_cons, ih, List.count_cons_of_ne hc]
      rfl

/-! ## What is written in the places -/

/-- An argument in its place. A list that is spread is written item by item, and an empty one as a
bound null; any other argument is bound as a whole. -/
def Arg.rendering (s : Scope) (spread : Bool) (a : Arg) : Fragment :=
  match spread, a with
  | true, .list [] => [.bound .null]
  | true, .list items => argList s items
  | _, a => argList s [a]

theorem Arg.placed_slot (s : Scope) (spread : Bool) (a : Arg) :
    (a.slot s).placed spread = a.rendering s spread := by
  cases spread with
  | false => cases a <;> rfl
  | true =>
    cases a with
    | list items => cases items <;> rfl
    | _ => rfl

/-- What stands in a place, as it is written. -/
def Place.fragment (s : Scope) (spread : Bool) : Place → Fragment
  | .char c => [.text (String.singleton c)]
  | .filled a => a.rendering s spread

/-- Whether the last character that stands in one of the places opens a parenthesis. -/
def opens (ps : List Place) : Bool := (ps.filterMap Place.char?).getLast? == some '('

theorem opens_concat_filled (ps : List Place) (a : Arg) : opens (ps ++ [.filled a]) = opens ps := by
  have hsame : (ps ++ [Place.filled a]).filterMap Place.char? = ps.filterMap Place.char? :=
    List.filterMap_append.trans (List.append_nil _)
  rw [opens, hsame, opens]

theorem opens_concat_char (ps : List Place) (c : Char) : opens (ps ++ [.char c]) = (c == '(') := by
  have hlast : (ps ++ [Place.char c]).filterMap Place.char? = ps.filterMap Place.char? ++ [c] :=
    List.filterMap_append
  rw [opens, hlast, List.getLast?_concat]
  rfl

/-- What is written of several items from left to right, with others before them. How an item is
written depends on all items before it. -/
def inOrder {α : Type} (write : List α → α → Fragment) (before items : List α) : Fragment :=
  (items.mapIdx fun i a => write (before ++ items.take i) a).flatten

@[simp] theorem inOrder_nil {α : Type} (write : List α → α → Fragment) (before : List α) :
    inOrder write before [] = [] := rfl

theorem inOrder_cons {α : Type} (write : List α → α → Fragment) (before : List α) (a : α)
    (items : List α) :
    inOrder write before (a :: items)
      = write before a ++ inOrder write (before ++ [a]) items := by
  have hfirst : before ++ List.take 0 (a :: items) = before := List.append_nil _
  have hlater (i : Nat) :
      before ++ List.take (i + 1) (a :: items) = before ++ [a] ++ items.take i := by
    rw [List.take_succ_cons, List.append_cons]
  rw [inOrder, List.mapIdx_cons, List.flatten_cons, hfirst, inOrder]
  simp only [hlater]

/-- What stands in places from left to right, with other places before them. Lists are spread
everywhere, or else where a parenthesis was opened right before. -/
def filled (s : Scope) (spread : Bool) (before ps : List Place) : Fragment :=
  inOrder (fun before p => p.fragment s (spread || opens before)) before ps

/-- Without arguments the text is written as it is. -/
theorem filled_chars (s : Scope) (spread : Bool) (before : List Place) (cs : List Char) :
    filled s spread before (cs.map .char) = cs.map fun c => .text (String.singleton c) := by
  induction cs generalizing before with
  | nil => rfl
  | cons c cs ih =>
    rw [List.map_cons, filled, inOrder_cons]
    exact congrArg (List.cons _) (ih _)

/-- The scan writes what stands in the places that are left, if its flag tells whether those before
open a parenthesis. -/
theorem fillMarks_writtenAs (s : Scope) (spread : Bool) (before : List Place) (args : List Arg)
    (cs : List Char) :
    (fillMarks spread (opens before) (Arg.slots s args) cs).WrittenAs
      (filled s spread before (places args cs)) := by
  induction cs generalizing before args with
  | nil => exact .refl _
  | cons c cs ih =>
    cases args with
    | nil =>
      -- No argument is left, and the rest is written in one piece.
      rw [places_none, filled_chars]
      exact Fragment.writtenAs_chars (c :: cs)
    | cons a args =>
      by_cases hc : c = '?'
      · -- A filled place leaves the flag as it is.
        have hstep : fillMarks spread (opens before) (Arg.slots s (a :: args)) (c :: cs)
            = a.rendering s (opens before || spread)
              ++ fillMarks spread (opens (before ++ [.filled a])) (Arg.slots s args) cs := by
          rw [opens_concat_filled, ← Arg.placed_slot, Arg.slots, fillMarks, if_pos (by simpa using hc)]
        rw [hstep, hc, places_mark, filled, inOrder_cons, Bool.or_comm]
        exact Fragment.WrittenAs.append_left _ (ih _ _)
      · have hstep : fillMarks spread (opens before) (Arg.slots s (a :: args)) (c :: cs)
            = [.text (String.singleton c)]
              ++ fillMarks spread (opens (before ++ [.char c])) (Arg.slots s (a :: args)) cs := by
          rw [opens_concat_char, Arg.slots, fillMarks, if_neg (by simpa using hc)]
          rfl
        rw [hstep, places_char _ hc, filled, inOrder_cons]
        exact Fragment.WrittenAs.append_left _ (ih _ _)

/-- Raw SQL is written as its text, with each of the first question marks filled with the argument of
its number: as many as there are both question marks and arguments, and the arguments that are left
over are not used. A list is spread if that is asked for, or if the nearest character before its place
that is written opens a parenthesis; otherwise it is bound as a whole, as any other argument is. -/
theorem Statement.raw_marks_filled (st : Statement) (sql : String) (args : List Arg)
    (spread : Bool) :
    let ps := places args sql.toList
    st.writeExpression (.raw sql args spread) = st.write (filled st.scope spread [] ps)
      ∧ ps.map Place.spelled = sql.toList
      ∧ ps.filterMap Place.arg? = args.take (sql.toList.count '?') :=
  ⟨fillMarks_writtenAs st.scope spread [] args sql.toList st, map_spelled_places args sql.toList,
    filterMap_arg?_places args sql.toList⟩

end RecordSql
