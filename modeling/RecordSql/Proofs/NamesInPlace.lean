/-
  RecordSql.Proofs.NamesInPlace

  Raw SQL with arguments by name.  The places of the text are those of raw SQL
  with question marks (`places`), and they are put together to lexemes: an at
  sign and the places up to the next character that ends a name are one, every
  other place is one by itself.

  The scan holds a name back until it has read it to its end, but writes the
  argument of a question mark at once.  So an argument whose question mark
  stands in a name is written before that name (`Lexeme.fragment`), and not in
  its place (`Lexeme.inPlace`).  Where no such question mark stands in a name,
  everything is written in its place.

  A text without at signs has no names.  There each place is a lexeme by
  itself, and what is written is what raw SQL with question marks writes.
-/

import RecordSql.Proofs.FilledMarks

namespace RecordSql

/-! ## The lexemes of a text -/

/-- Whether a name goes on with what stands in a place. -/
def Place.continuesName : Place → Bool
  | .char c => !endsName c
  | .filled _ => true

/-- A part of a text with names. -/
inductive Lexeme where
  /-- A place outside names. -/
  | place (p : Place)
  /-- An at sign, with the places after it that belong to its name. -/
  | name (body : List Place)

namespace Lexeme

/-- The places it is made of. -/
def places : Lexeme → List Place
  | .place p => [p]
  | .name body => .char '@' :: body

/-- Its place, if it is outside names. -/
def outside? : Lexeme → Option Place
  | .place p => some p
  | .name _ => none

end Lexeme

/-- The lexemes of a text. A name begins with an at sign outside names and is as long as it can be. -/
def lexemes : List Place → List Lexeme
  | [] => []
  | .filled a :: ps => .place (.filled a) :: lexemes ps
  | .char c :: ps =>
    if c = '@' then
      .name (ps.takeWhile Place.continuesName) :: lexemes (ps.dropWhile Place.continuesName)
    else .place (.char c) :: lexemes ps
termination_by ps => ps.length
decreasing_by
  · exact Nat.lt_succ_self _
  · exact Nat.lt_succ_of_le (List.dropWhile_sublist _).length_le
  · exact Nat.lt_succ_self _

@[simp] theorem lexemes_nil : lexemes [] = [] := by rw [lexemes]

@[simp] theorem lexemes_filled (a : Arg) (ps : List Place) :
    lexemes (.filled a :: ps) = .place (.filled a) :: lexemes ps := by rw [lexemes]

theorem lexemes_at (ps : List Place) :
    lexemes (.char '@' :: ps)
      = .name (ps.takeWhile Place.continuesName) :: lexemes (ps.dropWhile Place.continuesName) := by
  rw [lexemes, if_pos rfl]

theorem lexemes_char {c : Char} (hc : c ≠ '@') (ps : List Place) :
    lexemes (.char c :: ps) = .place (.char c) :: lexemes ps := by
  rw [lexemes, if_neg hc]

/-- Put together, the lexemes are the places of the text. -/
theorem flatMap_places_lexemes (ps : List Place) : (lexemes ps).flatMap Lexeme.places = ps := by
  induction ps using lexemes.induct with
  | case1 => rw [lexemes_nil]; rfl
  | case2 a ps ih => rw [lexemes_filled, List.flatMap_cons, ih]; rfl
  | case3 ps ih =>
    rw [lexemes_at, List.flatMap_cons, ih, Lexeme.places, List.cons_append,
      List.takeWhile_append_dropWhile]
  | case4 c ps hc ih => rw [lexemes_char hc, List.flatMap_cons, ih]; rfl

/-! ## What stands for a name -/

/-- The names an argument defines, and what they stand for. -/
def Arg.definitions : Arg → List (String × Arg)
  | .named name a => [(name, a)]
  | .map entries => entries
  | _ => []

/-- What a name stands for, if the arguments define it. The last definition counts. -/
def defined? (vars : List Arg) (name : String) : Option Arg :=
  (vars.flatMap Arg.definitions).reverse.lookup name

/-- The name that is spelled in places, without what has been filled in. -/
def spelledName (body : List Place) : String := String.ofList (body.filterMap Place.char?)

/-- The arguments that have been filled in, as they are written. -/
def filledArgs (s : Scope) (spread : Bool) (body : List Place) : Fragment :=
  (body.filterMap Place.arg?).flatMap (Arg.rendering s spread)

/-- What a name puts in the place of its lexeme: what it stands for, or else itself. -/
def nameFragment (s : Scope) (vars : List Arg) (name : String) : Fragment :=
  match defined? vars name with
  | some a => argList s [a]
  | none => [.text ("@" ++ name)]

/-- The entries of an argument are its definitions, written. -/
theorem Arg.entries_slot (s : Scope) (a : Arg) :
    (a.slot s).entries = a.definitions.map fun d => (d.1, argList s [d.2]) := by
  have hentries (entries : List (String × Arg)) :
      Arg.entrySlots s entries = entries.map fun d => (d.1, argList s [d.2]) := by
    induction entries with
    | nil => rfl
    | cons d entries ih => rw [Arg.entrySlots, ih]; rfl
  cases a with
  | map entries => exact hentries entries
  | _ => rfl

/-- The entries of all arguments, the last first. -/
def entriesOf (s : Scope) (vars : List Arg) : List (String × Fragment) :=
  ((Arg.slots s vars).flatMap (·.entries)).reverse

theorem flatMap_entries_slots (s : Scope) (vars : List Arg) :
    (Arg.slots s vars).flatMap (·.entries)
      = (vars.flatMap Arg.definitions).map fun d => (d.1, argList s [d.2]) := by
  induction vars with
  | nil => rfl
  | cons a vars ih =>
    rw [Arg.slots, List.flatMap_cons, ih, Arg.entries_slot, List.flatMap_cons, List.map_append]

/-- What is written is found under the names of what is to be written. -/
theorem lookup_map_snd (write : Arg → Fragment) (name : String) (ds : List (String × Arg)) :
    (ds.map fun d => (d.1, write d.2)).lookup name = (ds.lookup name).map write := by
  induction ds with
  | nil => rfl
  | cons d ds ih =>
    rw [List.map_cons, List.lookup_cons, List.lookup_cons, ih]
    split <;> rfl

/-- The scan writes for a name what the arguments define. -/
theorem namedFragment_entriesOf (s : Scope) (vars : List Arg) (read : List Char) :
    namedFragment (entriesOf s vars) read
      = nameFragment s vars (String.ofList read.reverse) := by
  have hlookup (name : String) :
      (entriesOf s vars).lookup name = (defined? vars name).map fun a => argList s [a] := by
    rw [entriesOf, flatMap_entries_slots, ← List.map_reverse]
    exact lookup_map_snd (fun a => argList s [a]) name _
  rw [namedFragment, hlookup, nameFragment]
  cases defined? vars (String.ofList read.reverse) <;> rfl

/-! ## What is written of a lexeme -/

/-- A lexeme as it is written: what has been filled in a name comes before the name. -/
def Lexeme.fragment (s : Scope) (vars : List Arg) (spread : Bool) : Lexeme → Fragment
  | .place p => p.fragment s spread
  | .name body => filledArgs s spread body ++ nameFragment s vars (spelledName body)

/-- A lexeme with everything in its place. What has been filled in a name that stands for an argument
comes after it. -/
def Lexeme.inPlace (s : Scope) (vars : List Arg) (spread : Bool) : Lexeme → Fragment
  | .place p => p.fragment s spread
  | .name body =>
    match defined? vars (spelledName body) with
    | some a => argList s [a] ++ filledArgs s spread body
    | none => .text "@" :: body.flatMap (Place.fragment s spread)

/-- Whether the last character outside names that stands in one of the lexemes opens a parenthesis. -/
def opensOutside (ls : List Lexeme) : Bool := opens (ls.filterMap Lexeme.outside?)

theorem opensOutside_concat_name (ls : List Lexeme) (body : List Place) :
    opensOutside (ls ++ [.name body]) = opensOutside ls := by
  have hsame : (ls ++ [Lexeme.name body]).filterMap Lexeme.outside?
      = ls.filterMap Lexeme.outside? := List.filterMap_append.trans (List.append_nil _)
  rw [opensOutside, hsame, opensOutside]

theorem opensOutside_concat_filled (ls : List Lexeme) (a : Arg) :
    opensOutside (ls ++ [.place (.filled a)]) = opensOutside ls := by
  have hlast : (ls ++ [Lexeme.place (.filled a)]).filterMap Lexeme.outside?
      = ls.filterMap Lexeme.outside? ++ [.filled a] := List.filterMap_append
  rw [opensOutside, hlast, opens_concat_filled, opensOutside]

theorem opensOutside_concat_char (ls : List Lexeme) (c : Char) :
    opensOutside (ls ++ [.place (.char c)]) = (c == '(') := by
  have hlast : (ls ++ [Lexeme.place (.char c)]).filterMap Lexeme.outside?
      = ls.filterMap Lexeme.outside? ++ [.char c] := List.filterMap_append
  rw [opensOutside, hlast, opens_concat_char]

/-- Lexemes from left to right, with other lexemes before them. A list is spread where a parenthesis
was opened right before, names not counted. -/
def lexemesFilled (write : Bool → Lexeme → Fragment) (before ls : List Lexeme) : Fragment :=
  inOrder (fun before l => write (opensOutside before) l) before ls

/-! ## The scan -/

section Scan

variable {args : List Arg} {c : Char} (s : Scope) (entries : List (String × Fragment))

/-- A question mark for which there is an argument is filled, inside a name and outside. -/
theorem fillNames_mark (name : Option (List Char)) (spread : Bool) (a : Arg) (args : List Arg)
    (cs : List Char) :
    fillNames entries name spread (Arg.slots s (a :: args)) ('?' :: cs)
      = a.rendering s spread ++ fillNames entries name spread (Arg.slots s args) cs := by
  rw [← Arg.placed_slot, Arg.slots]
  cases name <;> rw [fillNames] <;> rfl

/-- A character that ends names is written. -/
theorem fillNames_ends (name : Option (List Char)) (spread : Bool) (slots : List Slot)
    (hc : endsName c = true) (cs : List Char) :
    fillNames entries name spread slots (c :: cs)
      = (name.map (namedFragment entries)).getD []
        ++ .text (String.singleton c) :: fillNames entries none false slots cs := by
  have hat : ¬ (c == '@' && name.isNone) = true := by
    intro h
    obtain rfl : c = '@' := eq_of_beq (Bool.and_eq_true_iff.mp h).1
    exact absurd hc (by decide)
  cases slots <;> cases name <;> rw [fillNames, if_neg hat, if_pos hc]

/-- Any other character in a name is held back. -/
theorem fillNames_heldBack (read : List Char) (spread : Bool) (hkept : c = '?' → args = [])
    (hc : endsName c = false) (cs : List Char) :
    fillNames entries (some read) spread (Arg.slots s args) (c :: cs)
      = fillNames entries (some (c :: read)) spread (Arg.slots s args) cs := by
  have hat : ¬ (c == '@' && (some read).isNone) = true := by
    rw [Option.isNone_some, Bool.and_false]
    exact Bool.false_ne_true
  have hends : ¬ endsName c = true := by rw [hc]; exact Bool.false_ne_true
  cases args with
  | nil => rw [Arg.slots, fillNames, if_neg hat, if_neg hends]
  | cons a args =>
    have hmark : ¬ (c == '?') = true := fun h => List.cons_ne_nil a args (hkept (eq_of_beq h))
    rw [Arg.slots, fillNames, if_neg hat, if_neg hends, if_neg hmark]

/-- Outside a name it is written, unless a name begins with it. -/
theorem fillNames_written (spread : Bool) (hkept : c = '?' → args = []) (hat : c ≠ '@')
    (cs : List Char) :
    fillNames entries none spread (Arg.slots s args) (c :: cs)
      = .text (String.singleton c) :: fillNames entries none (c == '(') (Arg.slots s args) cs := by
  by_cases hc : endsName c = true
  · have hparen : (c == '(') = false := by
      rw [beq_eq_false_iff_ne]
      rintro rfl
      exact absurd hc (by decide)
    rw [fillNames_ends entries none spread _ hc, hparen]
    rfl
  · have hstart : ¬ (c == '@' && (none : Option (List Char)).isNone) = true := fun h =>
      hat (eq_of_beq (Bool.and_eq_true_iff.mp h).1)
    cases args with
    | nil => rw [Arg.slots, fillNames, if_neg hstart, if_neg hc]
    | cons a args =>
      have hmark : ¬ (c == '?') = true := fun h => List.cons_ne_nil a args (hkept (eq_of_beq h))
      rw [Arg.slots, fillNames, if_neg hstart, if_neg hc, if_neg hmark]

/-- An at sign outside names begins one. -/
theorem fillNames_at (spread : Bool) (slots : List Slot) (cs : List Char) :
    fillNames entries none spread slots ('@' :: cs)
      = fillNames entries (some []) spread slots cs := by
  cases slots <;> rw [fillNames] <;> rfl

/-- From inside a name, of which a part has been read, the scan writes what is filled into the rest of
the name, then the name, and goes on behind it with the arguments and characters that are left. -/
structure LeavesName (spread : Bool) (read : List Char) (args : List Arg) (cs : List Char)
    (args' : List Arg) (cs' : List Char) : Prop where
  rest : (places args cs).dropWhile Place.continuesName = places args' cs'
  length_le : cs'.length ≤ cs.length
  scan :
    let body := (places args cs).takeWhile Place.continuesName
    fillNames entries (some read) spread (Arg.slots s args) cs
      = filledArgs s spread body ++ namedFragment entries ((body.filterMap Place.char?).reverse ++ read)
        ++ fillNames entries none spread (Arg.slots s args') cs'

namespace LeavesName

variable {s entries} {spread : Bool} {read cs cs' : List Char} {args' : List Arg}

theorem nil : LeavesName s entries spread read args [] args [] where
  rest := rfl
  length_le := Nat.le_refl _
  scan := by
    rw [fillNames, fillNames]
    exact (List.append_nil _).symm

/-- A character that ends names is left behind the name. -/
theorem ended (hends : endsName c = true) :
    LeavesName s entries spread read args (c :: cs) args (c :: cs) := by
  have hkept : c = '?' → args = [] := by
    rintro rfl
    exact absurd hends (by decide)
  have hstop : ¬ (Place.char c).continuesName = true := by
    rw [Place.continuesName, hends]
    exact Bool.false_ne_true
  constructor
  · rw [places_kept hkept, List.dropWhile_cons_of_neg hstop]
  · exact Nat.le_refl _
  · rw [places_kept hkept, List.takeWhile_cons_of_neg hstop, fillNames_ends _ _ _ _ hends,
      fillNames_ends _ _ _ _ hends]
    rfl

/-- Any other character is read, unless it is filled. -/
theorem heldBack (hkept : c = '?' → args = []) (hends : endsName c = false)
    (h : LeavesName s entries spread (c :: read) args cs args' cs') :
    LeavesName s entries spread read args (c :: cs) args' cs' := by
  have hstay : (Place.char c).continuesName = true := by
    rw [Place.continuesName, hends]
    rfl
  have hread (body : List Place) : ((Place.char c :: body).filterMap Place.char?).reverse ++ read
      = (body.filterMap Place.char?).reverse ++ c :: read := by
    rw [List.filterMap_cons, Place.char?, List.reverse_cons, List.append_assoc,
      List.singleton_append]
  constructor
  · rw [places_kept hkept, List.dropWhile_cons_of_pos hstay, h.rest]
  · exact Nat.le_succ_of_le h.length_le
  · rw [places_kept hkept, List.takeWhile_cons_of_pos hstay,
      fillNames_heldBack s entries read spread hkept hends, h.scan]
    dsimp only
    rw [hread]
    rfl

/-- What is filled is written before the name. -/
theorem filled {a : Arg} (h : LeavesName s entries spread read args cs args' cs') :
    LeavesName s entries spread read (a :: args) ('?' :: cs) args' cs' := by
  have hstay : (Place.filled a).continuesName = true := rfl
  constructor
  · rw [places_mark, List.dropWhile_cons_of_pos hstay, h.rest]
  · exact Nat.le_succ_of_le h.length_le
  · rw [places_mark, List.takeWhile_cons_of_pos hstay, fillNames_mark, h.scan]
    simp only [filledArgs, List.filterMap_cons, Place.arg?, Place.char?, List.flatMap_cons,
      List.append_assoc]

end LeavesName

/-- Every name comes to an end. -/
theorem exists_leavesName (spread : Bool) (read : List Char) (args : List Arg) (cs : List Char) :
    ∃ args' cs', LeavesName s entries spread read args cs args' cs' := by
  induction cs generalizing read args with
  | nil => exact ⟨_, _, .nil⟩
  | cons c cs ih =>
    cases hends : endsName c with
    | true => exact ⟨_, _, .ended hends⟩
    | false =>
      by_cases hkept : c = '?' → args = []
      · obtain ⟨args', cs', h⟩ := ih (c :: read) args
        exact ⟨args', cs', h.heldBack hkept hends⟩
      · obtain ⟨rfl, hargs⟩ := Classical.not_imp.mp hkept
        obtain ⟨a, rest, rfl⟩ := List.exists_cons_of_ne_nil hargs
        obtain ⟨args', cs', h⟩ := ih read rest
        exact ⟨args', cs', h.filled⟩

/-- Outside names the scan writes the lexemes that are left, if its flag tells whether those before
open a parenthesis. -/
theorem fillNames_eq_lexemesFilled (vars args : List Arg) (before : List Lexeme) (cs : List Char) :
    fillNames (entriesOf s vars) none (opensOutside before) (Arg.slots s args) cs
      = lexemesFilled (Lexeme.fragment s vars) before (lexemes (places args cs)) := by
  -- A name is as long as it can be, so the induction is on how many characters are left.
  induction hn : cs.length using Nat.strongRecOn generalizing before args cs with
  | ind n ih =>
    subst hn
    cases cs with
    | nil =>
      rw [places_nil, lexemes_nil, fillNames]
      rfl
    | cons c cs =>
      -- What comes after the first lexeme has that lexeme before it too.
      have hnext (l : Lexeme) (args' : List Arg) (cs' : List Char) (hlen : cs'.length ≤ cs.length) :=
        ih cs'.length (Nat.lt_succ_of_le hlen) args' (before ++ [l]) cs' rfl
      by_cases hkept : c = '?' → args = []
      · rw [places_kept hkept]
        by_cases hat : c = '@'
        · -- A name is one lexeme. The flag stays as it is, for names do not count for it.
          subst hat
          obtain ⟨args', cs', h⟩ :=
            exists_leavesName s (entriesOf s vars) (opensOutside before) [] args cs
          have hafter := hnext (.name ((places args cs).takeWhile Place.continuesName)) args' cs'
            h.length_le
          rw [opensOutside_concat_name] at hafter
          rw [lexemes_at, fillNames_at, h.scan, h.rest, hafter, lexemesFilled, lexemesFilled,
            inOrder_cons, namedFragment_entriesOf, List.append_nil, List.reverse_reverse]
          rfl
        · -- Any other character is written, and the flag is whether it opens a parenthesis.
          have hafter := hnext (.place (.char c)) args cs (Nat.le_refl _)
          rw [opensOutside_concat_char] at hafter
          rw [lexemes_char hat, fillNames_written _ _ _ hkept hat, hafter, lexemesFilled,
            lexemesFilled, inOrder_cons]
          rfl
      · -- A question mark is filled.
        obtain ⟨rfl, hargs⟩ := Classical.not_imp.mp hkept
        obtain ⟨a, rest, rfl⟩ := List.exists_cons_of_ne_nil hargs
        have hafter := hnext (.place (.filled a)) rest cs (Nat.le_refl _)
        rw [opensOutside_concat_filled] at hafter
        rw [places_mark, lexemes_filled, fillNames_mark, hafter, lexemesFilled, lexemesFilled,
          inOrder_cons]
        rfl

end Scan

/-! ## Names without question marks -/

/-- Lexemes that are written as others one by one are so in a row. -/
theorem lexemesFilled_writtenAs {write write' : Bool → Lexeme → Fragment} {ls : List Lexeme}
    (h : ∀ l ∈ ls, ∀ spread, (write spread l).WrittenAs (write' spread l)) (before : List Lexeme) :
    (lexemesFilled write before ls).WrittenAs (lexemesFilled write' before ls) := by
  induction ls generalizing before with
  | nil => exact .refl _
  | cons l ls ih =>
    rw [lexemesFilled, inOrder_cons, lexemesFilled, inOrder_cons]
    exact (h l List.mem_cons_self _).append
      (ih (fun l' hl' => h l' (List.mem_cons_of_mem l hl')) (before ++ [l]))

/-- Places in which nothing has been filled are written character by character. -/
theorem flatMap_fragment_of_unfilled (s : Scope) (spread : Bool) {body : List Place}
    (h : body.filterMap Place.arg? = []) :
    body.flatMap (Place.fragment s spread)
      = (body.filterMap Place.char?).map fun c => .text (String.singleton c) := by
  induction body with
  | nil => rfl
  | cons p body ih =>
    cases p with
    | char c => exact congrArg (List.cons _) (ih h)
    | filled a => cases h

/-- A lexeme is written with everything in its place, if nothing has been filled in a name. -/
theorem Lexeme.fragment_writtenAs_inPlace (s : Scope) (vars : List Arg) (spread : Bool) {l : Lexeme}
    (h : ∀ body, l = .name body → body.filterMap Place.arg? = []) :
    (l.fragment s vars spread).WrittenAs (l.inPlace s vars spread) := by
  cases l with
  | place p => exact .refl _
  | name body =>
    have hnone := h body rfl
    have hfilled : filledArgs s spread body = [] := by rw [filledArgs, hnone]; rfl
    rw [fragment, inPlace, hfilled, List.nil_append, nameFragment]
    cases defined? vars (spelledName body) with
    | some a =>
      show (argList s [a]).WrittenAs (argList s [a] ++ [])
      rw [List.append_nil]
      exact .refl _
    | none =>
      -- The name is written in one piece; in its place it stands character by character.
      rw [flatMap_fragment_of_unfilled s spread hnone]
      exact (Fragment.writtenAs_text_append "@" (spelledName body)).trans
        (Fragment.WrittenAs.append_left [.text "@"] (Fragment.writtenAs_chars _))

/-- Raw SQL with arguments by name is written as its text, with each of the first question marks filled
with the argument of its number, and each at sign and name that the arguments define with what the
name stands for. A name goes up to the next character that ends names; what is filled into it is
written before it. If nothing is filled into a name, everything is written in its place, and a name
that no argument defines as it is spelled. -/
theorem Statement.names_filled (st : Statement) (sql : String) (args : List Arg) :
    let ls := lexemes (places args sql.toList)
    (ls.flatMap Lexeme.places).map Place.spelled = sql.toList
      ∧ (ls.flatMap Lexeme.places).filterMap Place.arg? = args.take (sql.toList.count '?')
      ∧ st.writeExpression (.named sql args)
        = st.write (lexemesFilled (Lexeme.fragment st.scope args) [] ls)
      ∧ ((∀ body, .name body ∈ ls → body.filterMap Place.arg? = []) →
        st.writeExpression (.named sql args)
          = st.write (lexemesFilled (Lexeme.inPlace st.scope args) [] ls)) := by
  intro ls
  have hplaces : ls.flatMap Lexeme.places = places args sql.toList := flatMap_places_lexemes _
  have hwritten : st.writeExpression (.named sql args)
      = st.write (lexemesFilled (Lexeme.fragment st.scope args) [] ls) :=
    congrArg st.write (fillNames_eq_lexemesFilled st.scope args args [] sql.toList)
  refine ⟨?_, ?_, hwritten, ?_⟩
  · rw [hplaces, map_spelled_places]
  · rw [hplaces, filterMap_arg?_places]
  · intro hunfilled
    rw [hwritten]
    exact lexemesFilled_writtenAs (fun l hl spread =>
      Lexeme.fragment_writtenAs_inPlace st.scope args spread fun body hbody =>
        hunfilled body (hbody ▸ hl)) [] st

/-- A name and a question mark outside it are written in their places. The operator `@>` is read as a
name without a definition, and a question mark right behind it is filled before it. -/
theorem Statement.names_filled_operator :
    let st : Statement := { dialect := .postgres, output := { sql := "ON " } }
    let apart := [Arg.value (.int 7), .named "b" (.value (.int 8))]
    let touching := [Arg.value (.text "x")]
    (∀ body, .name body ∈ lexemes (places apart "? = @b".toList) →
        body.filterMap Place.arg? = [])
      ∧ (st.writeExpression (.named "? = @b" apart)).output.sql = "ON $1 = $2"
      ∧ (st.writeExpression (.named "a @>?" touching)).output.sql = "ON a $1@>"
      ∧ (st.write (lexemesFilled (Lexeme.inPlace st.scope touching) []
          (lexemes (places touching "a @>?".toList)))).output.sql = "ON a @>$1" := by
  intro st apart touching
  -- In both texts the name goes on to the end.
  have hend (ps : List Place) (h : ps.dropWhile Place.continuesName = []) :
      lexemes (.char '@' :: ps) = [.name (ps.takeWhile Place.continuesName)] := by
    rw [lexemes_at, h, lexemes_nil]
  have hapart : lexemes (places apart "? = @b".toList)
      = [.place (.filled (.value (.int 7))), .place (.char ' '), .place (.char '='),
        .place (.char ' '), .name [.char 'b']] := by
    show lexemes (.filled _ :: .char ' ' :: .char '=' :: .char ' ' :: .char '@' :: [.char 'b']) = _
    rw [lexemes_filled, lexemes_char (by decide), lexemes_char (by decide),
      lexemes_char (by decide), hend [.char 'b'] rfl]
    rfl
  have htouching : lexemes (places touching "a @>?".toList)
      = [.place (.char 'a'), .place (.char ' '), .name [.char '>', .filled (.value (.text "x"))]] := by
    show lexemes (.char 'a' :: .char ' ' :: .char '@' :: [.char '>', .filled (.value (.text "x"))]) = _
    rw [lexemes_char (by decide), lexemes_char (by decide), hend [.char '>', .filled _] rfl]
    rfl
  have hunfilled : ∀ body, .name body ∈ lexemes (places apart "? = @b".toList) →
      body.filterMap Place.arg? = [] := by
    intro body hbody
    rw [hapart] at hbody
    have hname : body = [.char 'b'] := by simpa using hbody
    rw [hname]
    rfl
  obtain ⟨-, -, -, hinPlace⟩ := names_filled st "? = @b" apart
  refine ⟨hunfilled, ?_, ?_, ?_⟩
  · rw [hinPlace hunfilled, hapart]
    decide
  · obtain ⟨-, -, hwritten, -⟩ := names_filled st "a @>?" touching
    rw [hwritten, htouching]
    decide
  · rw [htouching]
    decide

/-! ## Texts without names -/

/-- Without an at sign every place is a lexeme by itself. -/
theorem lexemes_eq_map_place {ps : List Place} (h : Place.char '@' ∉ ps) :
    lexemes ps = ps.map .place := by
  induction ps with
  | nil => exact lexemes_nil
  | cons p ps ih =>
    obtain ⟨hp, hps⟩ := not_or.mp (mt List.mem_cons.mpr h)
    cases p with
    | char c =>
      have hat : c ≠ '@' := fun hc => hp (hc ▸ rfl)
      rw [lexemes_char hat, ih hps, List.map_cons]
    | filled a => rw [lexemes_filled, ih hps, List.map_cons]

/-- An at sign that stands in a place stood in the text. -/
theorem char_at_notMem_places {cs : List Char} (h : '@' ∉ cs) (args : List Arg) :
    Place.char '@' ∉ places args cs := by
  intro hplace
  have hspelled : '@' ∈ (places args cs).map Place.spelled := List.mem_map_of_mem hplace
  rw [map_spelled_places] at hspelled
  exact h hspelled

theorem opensOutside_map_place (ps : List Place) : opensOutside (ps.map .place) = opens ps := by
  have hall : (ps.map Lexeme.place).filterMap Lexeme.outside? = ps := by
    rw [List.filterMap_map]
    exact List.filterMap_some
  rw [opensOutside, hall]

/-- Where every place is a lexeme, what is written of the lexemes is what stands in the places. -/
theorem lexemesFilled_map_place (s : Scope) (vars : List Arg) (before ps : List Place) :
    lexemesFilled (Lexeme.fragment s vars) (before.map .place) (ps.map .place)
      = filled s false before ps := by
  induction ps generalizing before with
  | nil => rfl
  | cons p ps ih =>
    have hplace : Lexeme.fragment s vars (opensOutside (before.map .place)) (.place p)
        = p.fragment s (false || opens before) := by
      rw [opensOutside_map_place, Bool.false_or, Lexeme.fragment]
    have hnext := ih (before ++ [p])
    rw [List.map_append] at hnext
    rw [List.map_cons, lexemesFilled, inOrder_cons, filled, inOrder_cons, hplace]
    exact congrArg _ hnext

/-- Raw SQL without at signs is written the same whether it takes arguments by name or not, whatever
the arguments are: the same text, the same values and the same errors, in the same order. -/
theorem Statement.nameless_text_written_alike (st : Statement) {sql : String}
    (h : '@' ∉ sql.toList) (args : List Arg) :
    st.writeExpression (.named sql args) = st.writeExpression (.raw sql args false) := by
  have hnamed : (Expression.named sql args).fragment st.scope
      = filled st.scope false [] (places args sql.toList) := by
    show fillNames (entriesOf st.scope args) none (opensOutside []) (Arg.slots st.scope args)
      sql.toList = _
    rw [fillNames_eq_lexemesFilled, lexemes_eq_map_place (char_at_notMem_places h args)]
    exact lexemesFilled_map_place st.scope args [] _
  rw [writeExpression, hnamed]
  exact (fillMarks_writtenAs st.scope false [] args sql.toList st).symm

/-- Characters that end names, a list that is spread, a map that nothing takes its entries from, and
a question mark too many make no difference. -/
theorem Statement.nameless_text_written_alike_spread :
    let st : Statement :=
      { dialect := .postgres, output := { sql := "$1 OR ", values := [.bool true] } }
    let sql := "'a' IN (?, ?); ?, ?"
    let args := [Arg.list [.value (.int 1), .value (.int 2)], .map [("b", .value (.int 3))],
      .named "c" (.value .null)]
    '@' ∉ sql.toList
      ∧ st.writeExpression (.named sql args) = st.writeExpression (.raw sql args false)
      ∧ (st.writeExpression (.named sql args)).output.sql = "$1 OR 'a' IN ($2,$3, ); $4, ?"
      ∧ (st.writeExpression (.named sql args)).output.errors.length = 1 := by
  intro st sql args
  have hnone : '@' ∉ sql.toList := by decide
  have halike := nameless_text_written_alike st hnone args
  refine ⟨hnone, halike, ?_, ?_⟩
  · rw [halike]
    decide
  · rw [halike]
    decide

end RecordSql
