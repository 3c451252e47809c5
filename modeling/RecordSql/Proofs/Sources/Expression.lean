/-
  RecordSql.Proofs.Sources.Expression

  What an expression is written from: the names in it, its raw SQL without the
  question marks that its arguments take, the values in it and the arrays that
  its lists make of them (`Expression.sources`).  Both forms of an expression are
  drawn from these (`Expression.drawnFrom_forms`).  So whatever is written for a
  value is its placeholder: there is no text for a value to be drawn from.

  The induction is over arguments, branches and expressions at once, with one
  lemma for each way in which they are put together.  Raw SQL is scanned with the
  invariant that what is left of it, after the name that is being read, is left of
  the text that it came from.
-/

import RecordSql.Proofs.Sources.Literal

namespace RecordSql

/-! ## Raw SQL -/

/-- Raw SQL without its first `n` question marks. -/
def unfilled : Nat → List Char → List Char
  | 0, cs => cs
  | _ + 1, [] => []
  | n + 1, c :: cs => if c = '?' then unfilled n cs else c :: unfilled (n + 1) cs

theorem unfilled_zero (cs : List Char) : unfilled 0 cs = cs := by
  cases cs <;> rfl

theorem unfilled_mark (n : Nat) (cs : List Char) : unfilled (n + 1) ('?' :: cs) = unfilled n cs :=
  if_pos rfl

theorem unfilled_char (n : Nat) {c : Char} (hc : c ≠ '?') (cs : List Char) :
    unfilled n (c :: cs) = c :: unfilled n cs := by
  cases n with
  | zero => rw [unfilled_zero, unfilled_zero]
  | succ n => exact if_neg hc

/-- A question mark is left exactly if there are more than `n` of them. -/
theorem mark_mem_unfilled_iff (n : Nat) (cs : List Char) :
    '?' ∈ unfilled n cs ↔ n < cs.count '?' := by
  induction cs generalizing n with
  | nil => cases n <;> simp [unfilled]
  | cons c cs ih =>
    by_cases hc : c = '?'
    · subst hc
      cases n with
      | zero => simp [unfilled]
      | succ n =>
        rw [unfilled_mark, ih, List.count_cons_self]
        omega
    · rw [unfilled_char n hc, List.count_cons_of_ne hc, ← ih, List.mem_cons,
        or_iff_right fun h => hc h.symm]

/-! ## Names -/

/-- The column that stands for the primary key of the schema. -/
def Scope.keySources (s : Scope) : List Source :=
  (s.schema.bind (·.primaryColumn?)).toList.map .text

/-- What a name is written from. -/
def Name.sources (s : Scope) : Name → List Source
  | .ident name => [.text name]
  | .currentTable => [.table]
  | .primaryKey => s.keySources
  | .associations => []

/-- What a column is written from. -/
def Column.sources (s : Scope) (c : Column) : List Source :=
  c.table.toList.flatMap (Name.sources s) ++ c.name.sources s ++ c.aliasName.toList.map .text

/-- What a table is written from. -/
def Table.sources (s : Scope) (t : Table) : List Source :=
  t.name.sources s ++ t.aliasName.toList.map .text

section Names

variable {s : Scope} {sources : List Source}

theorem Scope.drawnFrom_quoted {name : String} (h : .text name ∈ sources) :
    (s.quoted name).DrawnFrom s.dialect sources := Literal.quoted h

theorem Scope.drawnFrom_primaryKey : s.primaryKey.DrawnFrom s.dialect s.keySources := by
  rw [Scope.primaryKey, Scope.keySources]
  split
  · exact .singleton trivial
  · next layout hschema =>
    split
    · exact .singleton trivial
    · next column hcolumn =>
      refine .singleton (Scope.drawnFrom_quoted ?_)
      rw [hschema, Option.bind_some, hcolumn]
      exact List.mem_singleton_self _

theorem Name.drawnFrom (name : Name) (raw : Bool) :
    (name.fragmentRaw s raw).DrawnFrom s.dialect (name.sources s) := by
  cases name with
  | ident name =>
    have hname : Source.text name ∈ Name.sources s (.ident name) := List.mem_singleton_self _
    refine .singleton ?_
    cases raw with
    | false => exact Scope.drawnFrom_quoted hname
    | true => exact Literal.verbatim hname
  | currentTable => exact .singleton (List.mem_singleton_self _)
  | primaryKey => exact Scope.drawnFrom_primaryKey
  | associations => exact .nil

theorem drawnFrom_alias (raw : Bool) {announce : String} (hannounce : announce ∈ sqlWords)
    (name : Option String) :
    (aliasFragment s raw announce name).DrawnFrom s.dialect (name.toList.map .text) := by
  cases name with
  | none => exact .nil
  | some name =>
    have hname : Source.text name ∈ (some name).toList.map Source.text := List.mem_singleton_self _
    refine .word hannounce (.singleton ?_)
    cases raw with
    | false => exact Scope.drawnFrom_quoted hname
    | true => exact Literal.verbatim hname

theorem Column.drawnFrom (c : Column) : (c.fragment s).DrawnFrom s.dialect (c.sources s) := by
  rw [fragment, sources]
  refine .append (.left (.append ?_ (c.name.drawnFrom _).right)) (drawnFrom_alias _ (by decide) _).right
  cases c.table with
  | none => exact .nil
  | some table =>
    rw [Option.toList_some, List.flatMap_singleton]
    exact ((table.drawnFrom _).append (.word (by decide) .nil)).left

theorem Table.drawnFrom (t : Table) : (t.fragment s).DrawnFrom s.dialect (t.sources s) :=
  (t.name.drawnFrom _).left.append (drawnFrom_alias _ (by decide) _).right

end Names

/-! ## Arguments in their places -/

/-- An argument that is drawn from the sources, wherever it is put. -/
structure Slot.DrawnFrom (d : Dialect) (sources : List Source) (slot : Slot) : Prop where
  whole : slot.whole.DrawnFrom d sources
  items : ∀ items, slot.items = some items → ∀ f ∈ items, f.DrawnFrom d sources
  /-- Null stands for an empty list that is spread. -/
  null : slot.items = some [] → .value .null ∈ sources
  entries : ∀ entry ∈ slot.entries, entry.2.DrawnFrom d sources

section Slots

variable {d : Dialect} {sources more : List Source} {slot : Slot} {slots : List Slot}
  {entries : List (String × Fragment)}

/-- An argument that is no list and has no names. -/
theorem Slot.DrawnFrom.of_whole {f : Fragment} (h : f.DrawnFrom d sources) :
    Slot.DrawnFrom d sources { whole := f } where
  whole := h
  items := nofun
  null := nofun
  entries := List.forall_mem_nil _

theorem Slot.DrawnFrom.mono (h : slot.DrawnFrom d sources) (hsub : sources ⊆ more) :
    slot.DrawnFrom d more where
  whole := h.whole.mono hsub
  items items hitems f hf := (h.items items hitems f hf).mono hsub
  null hnull := hsub (h.null hnull)
  entries entry hentry := (h.entries entry hentry).mono hsub

theorem Slot.DrawnFrom.placed (h : slot.DrawnFrom d sources) (spread : Bool) :
    (slot.placed spread).DrawnFrom d sources := by
  unfold Slot.placed
  split
  · next hnull => exact .singleton (h.null hnull)
  · next items _ hitems => exact .joined (by decide) (h.items items hitems)
  · exact h.whole

theorem Slot.drawnFrom_wholes (h : ∀ slot ∈ slots, slot.DrawnFrom d sources) :
    ∀ f ∈ slots.map (·.whole), f.DrawnFrom d sources := by
  intro f hf
  obtain ⟨slot, hslot, rfl⟩ := List.mem_map.mp hf
  exact (h slot hslot).whole

theorem drawnFrom_among (isIn : Bool) {fs : List Fragment} (h : ∀ f ∈ fs, f.DrawnFrom d sources) :
    (amongFragment isIn fs).DrawnFrom d sources := by
  have hkeyword : (if isIn then " IN (" else " NOT IN (") ∈ sqlWords := by
    cases isIn <;> decide
  unfold amongFragment
  dsimp only
  split
  · exact .text (.append (.word hkeyword) (.word (by decide))) .nil
  · exact (Fragment.DrawnFrom.joined (by decide) h).enclosed hkeyword (by decide)

theorem Comparison.symbol_mem_sqlWords (op : Comparison) (negated : Bool) :
    op.symbol negated ∈ sqlWords := by
  cases op <;> cases negated <;> decide

theorem drawnFrom_comparison (op : Comparison) (negated isNull : Bool)
    (h : slot.DrawnFrom d sources) :
    (comparisonFragment op negated isNull slot).DrawnFrom d sources := by
  rw [comparisonFragment]
  split
  · next items _ hitems => exact drawnFrom_among _ (h.items items hitems)
  · split
    · refine .word ?_ .nil
      split <;> decide
    · exact .word (op.symbol_mem_sqlWords negated) h.whole
  · exact .word (op.symbol_mem_sqlWords negated) h.whole

theorem drawnFrom_member {column : Fragment} (negated : Bool) (args : List Arg)
    (hcolumn : column.DrawnFrom d sources) (h : ∀ slot ∈ slots, slot.DrawnFrom d sources) :
    (memberFragment column negated args slots).DrawnFrom d sources := by
  unfold memberFragment
  split
  · split
    · exact .nil
    · exact hcolumn.append (drawnFrom_among _ (List.forall_mem_nil _))
  · next slot =>
    have hslot : slot.whole.DrawnFrom d sources := (h slot List.mem_cons_self).whole
    split
    · exact hcolumn.append (drawnFrom_among _ (List.forall_mem_singleton.mpr hslot))
    · refine hcolumn.append (.word ?_ hslot)
      split <;> decide
  · exact hcolumn.append (drawnFrom_among _ (Slot.drawnFrom_wholes h))

/-! ## Scans -/

/-- What is left of raw SQL is left of the text that it came from. -/
theorem drawnFrom_fillMarks (spread afterParen : Bool) (h : ∀ slot ∈ slots, slot.DrawnFrom d sources)
    {t : String} (ht : .text t ∈ sources) {cs : List Char}
    (hcs : (unfilled slots.length cs).Sublist t.toList) :
    (fillMarks spread afterParen slots cs).DrawnFrom d sources := by
  induction cs generalizing afterParen slots with
  | nil => exact .nil
  | cons c cs ih =>
    cases slots with
    | nil =>
      -- No argument is left: the rest is written as it is.
      rw [List.length_nil, unfilled_zero] at hcs
      exact .singleton (Literal.text ht hcs)
    | cons slot slots =>
      obtain ⟨hslot, hrest⟩ := List.forall_mem_cons.mp h
      by_cases hc : c = '?'
      · subst hc
        rw [List.length_cons, unfilled_mark] at hcs
        rw [fillMarks, if_pos (beq_self_eq_true '?')]
        exact (hslot.placed _).append (ih _ hrest hcs)
      · rw [unfilled_char _ hc] at hcs
        rw [fillMarks, if_neg (by simpa using hc)]
        exact .text (.text ht ((List.singleton_sublist.mpr List.mem_cons_self).trans hcs))
          (ih _ h ((List.sublist_cons_self _ _).trans hcs))

/-- The characters of the name that is being read. -/
def pendingName : Option (List Char) → List Char
  | none => []
  | some reversed => '@' :: reversed.reverse

theorem drawnFrom_pendingName (h : ∀ entry ∈ entries, entry.2.DrawnFrom d sources)
    (name : Option (List Char)) {t : String} (ht : .text t ∈ sources)
    (hname : (pendingName name).Sublist t.toList) :
    ((name.map (namedFragment entries)).getD []).DrawnFrom d sources := by
  cases name with
  | none => exact .nil
  | some reversed =>
    show (namedFragment entries reversed).DrawnFrom d sources
    unfold namedFragment
    dsimp only
    cases hfound : entries.lookup (String.ofList reversed.reverse) with
    | none =>
      -- A name that nothing is given for stays in the text.
      have htext : "@" ++ String.ofList reversed.reverse = String.ofList ('@' :: reversed.reverse) := by
        rw [← String.toList_inj, String.toList_append]
        simp only [String.toList_ofList]
        rfl
      refine .singleton ?_
      rw [htext]
      exact Literal.text ht hname
    | some f =>
      obtain ⟨before, after, heq, -⟩ := List.lookup_eq_some_iff.mp hfound
      refine h (String.ofList reversed.reverse, f) ?_
      rw [heq]
      exact List.mem_append_right before List.mem_cons_self

theorem ne_mark_of_endsName {c : Char} (h : endsName c = true) : c ≠ '?' := by
  rintro rfl
  exact absurd h (by decide)

/-- The same for raw SQL with names: the name that is being read stands before what is left. -/
theorem drawnFrom_fillNames (hentries : ∀ entry ∈ entries, entry.2.DrawnFrom d sources)
    (name : Option (List Char)) (afterParen : Bool) (h : ∀ slot ∈ slots, slot.DrawnFrom d sources)
    {t : String} (ht : .text t ∈ sources) {cs : List Char}
    (hcs : (pendingName name ++ unfilled slots.length cs).Sublist t.toList) :
    (fillNames entries name afterParen slots cs).DrawnFrom d sources := by
  induction cs generalizing name afterParen slots with
  | nil =>
    exact drawnFrom_pendingName hentries name ht ((List.sublist_append_left _ _).trans hcs)
  | cons c cs ih =>
    -- A character that is kept is one of the name that is being read, or of the text.
    have hkept (hc : unfilled slots.length (c :: cs) = c :: unfilled slots.length cs) :
        Fragment.DrawnFrom d sources (match name with
          | some reversed => fillNames entries (some (c :: reversed)) afterParen slots cs
          | none => .text (String.singleton c) :: fillNames entries none (c == '(') slots cs) := by
      rw [hc] at hcs
      cases name with
      | some reversed =>
        refine ih _ _ h ?_
        rwa [pendingName, List.reverse_cons, ← List.cons_append, List.append_assoc]
      | none =>
        exact .text (.text ht ((List.singleton_sublist.mpr List.mem_cons_self).trans hcs))
          (ih none _ h ((List.sublist_cons_self _ _).trans hcs))
    simp only [fillNames]
    split
    · -- A name begins.
      next hat =>
      obtain ⟨hc, hnone⟩ := Bool.and_eq_true_iff.mp hat
      obtain rfl := beq_iff_eq.mp hc
      obtain rfl := Option.isNone_iff_eq_none.mp hnone
      rw [unfilled_char _ (by decide)] at hcs
      exact ih (some []) _ h hcs
    · split
      · -- A name ends, and is written before the character behind it.
        next hends =>
        rw [unfilled_char _ (ne_mark_of_endsName hends)] at hcs
        have hname := (List.sublist_append_left _ _).trans hcs
        have hrest := (List.sublist_append_right _ _).trans hcs
        exact (drawnFrom_pendingName hentries name ht hname).append
          (.text (.text ht ((List.singleton_sublist.mpr List.mem_cons_self).trans hrest))
            (ih none _ h ((List.sublist_cons_self _ _).trans hrest)))
      · -- A question mark takes the next argument, as long as there is one.
        cases slots with
        | nil =>
          have hdrawn := hkept (by rw [List.length_nil, unfilled_zero, unfilled_zero])
          cases name <;> exact hdrawn
        | cons slot slots =>
          obtain ⟨hslot, hrest⟩ := List.forall_mem_cons.mp h
          by_cases hc : c = '?'
          · subst hc
            rw [List.length_cons, unfilled_mark] at hcs
            simp only [beq_self_eq_true, if_true]
            exact (hslot.placed _).append (ih name _ hrest hcs)
          · have hdrawn := hkept (unfilled_char _ hc cs)
            simp only [beq_iff_eq, hc, if_false]
            cases name <;> exact hdrawn

end Slots

/-! ## Joined children -/

/-- Both forms of an expression are drawn from the sources. -/
structure Forms.DrawnFrom (d : Dialect) (sources : List Source) (forms : Forms) : Prop where
  positive : forms.positive.DrawnFrom d sources
  negative : ∀ f, forms.negative = some f → f.DrawnFrom d sources

theorem Forms.DrawnFrom.mono {d : Dialect} {sources more : List Source} {forms : Forms}
    (h : forms.DrawnFrom d sources) (hsub : sources ⊆ more) : forms.DrawnFrom d more where
  positive := h.positive.mono hsub
  negative f hf := (h.negative f hf).mono hsub

namespace Child

variable {d : Dialect} {sources : List Source} {children : List Child}

theorem drawnFrom_continued {connective : String} (hconnective : connective ∈ sqlWords)
    (h : ∀ c ∈ children, c.forms.DrawnFrom d sources) :
    (continued connective children).DrawnFrom d sources := by
  induction children with
  | nil => exact .nil
  | cons c cs ih =>
    obtain ⟨hc, hcs⟩ := List.forall_mem_cons.mp h
    refine .word ?_ ((hc.positive.parenthesized _).append (ih hcs))
    split
    · decide
    · exact hconnective

theorem drawnFrom_connected {connective : String} (hconnective : connective ∈ sqlWords)
    (h : ∀ c ∈ children, c.forms.DrawnFrom d sources) :
    (connected connective children).DrawnFrom d sources := by
  have hpresent : ∀ c ∈ present children, c.forms.DrawnFrom d sources :=
    fun c hc => h c (List.mem_filter.mp hc).1
  rw [connected]
  split
  · exact .nil
  · next c hall => exact (hpresent c (hall ▸ List.mem_cons_self)).positive
  · next c cs _ hall =>
    obtain ⟨hc, hcs⟩ := List.forall_mem_cons.mp (hall ▸ hpresent)
    exact (hc.positive.parenthesized _).append (drawnFrom_continued hconnective hcs)

theorem drawnFrom_grouped {connective : String} (hconnective : connective ∈ sqlWords)
    (h : ∀ c ∈ children, c.forms.DrawnFrom d sources) :
    (grouped connective children).DrawnFrom d sources :=
  (drawnFrom_connected hconnective h).parenthesized _

theorem drawnFrom_notList (h : ∀ c ∈ children, c.forms.DrawnFrom d sources) :
    (notList children).DrawnFrom d sources := by
  induction children with
  | nil => exact .nil
  | cons c cs ih =>
    obtain ⟨hc, hcs⟩ := List.forall_mem_cons.mp h
    unfold notList
    refine (hc.positive.parenthesized _).append ?_
    cases cs with
    | nil => exact .nil
    | cons next cs =>
      refine .word ?_ (ih hcs)
      split <;> decide

theorem drawnFrom_negated (h : ∀ c ∈ children, c.forms.DrawnFrom d sources) :
    (negated children).DrawnFrom d sources := by
  rw [negated]
  split
  · refine (Fragment.DrawnFrom.joined (by decide) fun f hf => ?_).parenthesized _
    obtain ⟨c, hc, rfl⟩ := List.mem_map.mp hf
    have hforms := h c (List.mem_filter.mp hc).1
    cases hnegative : c.forms.negative with
    | none => exact .nil
    | some f => exact hforms.negative f hnegative
  · exact .word (by decide) ((drawnFrom_notList h).parenthesized _)

theorem drawnFrom_doublyNegated (h : ∀ c ∈ children, c.forms.DrawnFrom d sources) :
    (doublyNegated children).DrawnFrom d sources := by
  refine drawnFrom_grouped ?_ h
  split <;> decide

end Child

/-! ## Expressions -/

/-- The texts of the branches of a case distinction. -/
def Branch.texts (branches : List Branch) : List (String × String) :=
  branches.map fun | .mk condition result _ => (condition, result)

/-- The number of arguments of the branches. -/
def Branch.arity : List Branch → Nat
  | [] => 0
  | .mk _ _ args :: rest => args.length + Branch.arity rest

/-- Raw SQL with so many arguments: they take as many of its question marks. -/
def rawSource (arity : Nat) (sql : String) : Source := .text (String.ofList (unfilled arity sql.toList))

/-- The values of a list: one array if it is a list of values, and null if it has no items. -/
def Arg.listSources (items : List Arg) : List Source :=
  (Arg.values? items).toList.map (fun values => .value (.array values))
    ++ if items.isEmpty then [.value .null] else []

mutual
/-- What an argument is written from. -/
def Arg.sources (s : Scope) : Arg → List Source
  | .value v => [.value v]
  | .list items => Arg.listSources items ++ Arg.allSources s items
  | .column c => c.sources s
  | .table t => t.sources s
  | .expr e => Expression.sources s e
  | .named _ arg => Arg.sources s arg
  | .map entries => Arg.entrySources s entries

/-- What several arguments are written from. -/
def Arg.allSources (s : Scope) : List Arg → List Source
  | [] => []
  | a :: as => Arg.sources s a ++ Arg.allSources s as

/-- What several arguments by name are written from. -/
def Arg.entrySources (s : Scope) : List (String × Arg) → List Source
  | [] => []
  | (_, a) :: rest => Arg.sources s a ++ Arg.entrySources s rest

/-- What the arguments of branches are written from. -/
def Branch.allSources (s : Scope) : List Branch → List Source
  | [] => []
  | .mk _ _ args :: rest => Arg.allSources s args ++ Branch.allSources s rest

/-- What an expression is written from. A case distinction is raw SQL that is put together. -/
def Expression.sources (s : Scope) : Expression → List Source
  | .compare _ column arg => column.sources s ++ Arg.sources s arg
  | .member column args => column.sources s ++ Arg.allSources s args
  | .raw sql args _ => rawSource args.length sql :: Arg.allSources s args
  | .named sql args => rawSource args.length sql :: Arg.allSources s args
  | .and children => Expression.allSources s children
  | .or children => Expression.allSources s children
  | .not children => Expression.allSources s children
  | .case branches none =>
    rawSource (Branch.arity branches) (caseText (Branch.texts branches) none)
      :: Branch.allSources s branches
  | .case branches (some (result, args)) =>
    rawSource (Branch.arity branches + args.length) (caseText (Branch.texts branches) (some result))
      :: (Branch.allSources s branches ++ Arg.allSources s args)
  | .comma children => Expression.allSources s children

/-- What several expressions are written from. -/
def Expression.allSources (s : Scope) : List Expression → List Source
  | [] => []
  | e :: es => Expression.sources s e ++ Expression.allSources s es
end

section Arity

variable (s : Scope)

theorem Arg.length_slots (args : List Arg) : (Arg.slots s args).length = args.length := by
  induction args with
  | nil => rfl
  | cons a as ih => rw [Arg.slots, List.length_cons, ih, List.length_cons]

theorem Branch.parts_fst (branches : List Branch) :
    (Branch.parts s branches).1 = Branch.texts branches := by
  induction branches with
  | nil => rfl
  | cons b rest ih =>
    obtain ⟨condition, result, args⟩ := b
    show (condition, result) :: (Branch.parts s rest).1 = _
    rw [ih]
    rfl

theorem Branch.length_parts_snd (branches : List Branch) :
    (Branch.parts s branches).2.length = Branch.arity branches := by
  induction branches with
  | nil => rfl
  | cons b rest ih =>
    obtain ⟨condition, result, args⟩ := b
    show (Arg.slots s args ++ (Branch.parts s rest).2).length = args.length + Branch.arity rest
    rw [List.length_append, ih, Arg.length_slots]

end Arity

/-- Raw SQL is drawn from what its arguments leave of it, and from what they are drawn from. -/
theorem drawnFrom_rawSql {d : Dialect} {sources : List Source} (spread : Bool) {slots : List Slot}
    (h : ∀ slot ∈ slots, slot.DrawnFrom d sources) {arity : Nat} (harity : slots.length = arity)
    (sql : String) :
    (fillMarks spread false slots sql.toList).DrawnFrom d (rawSource arity sql :: sources) := by
  refine drawnFrom_fillMarks spread false (t := String.ofList (unfilled arity sql.toList))
    (fun slot hslot => (h slot hslot).mono (List.subset_cons_self _ _)) List.mem_cons_self ?_
  simp [harity]

mutual
theorem Arg.drawnFrom_slot (s : Scope) : (a : Arg) → (a.slot s).DrawnFrom s.dialect (a.sources s)
  | .value v => .of_whole (.singleton (List.mem_singleton_self _))
  | .list items => by
    have hslots : ∀ slot ∈ Arg.slots s items, slot.DrawnFrom s.dialect (Arg.sources s (.list items)) :=
      fun slot hslot => (Arg.drawnFrom_slots s items slot hslot).mono (List.subset_append_right _ _)
    refine ⟨?_, fun fs hfs f hf => ?_, fun hnull => ?_, List.forall_mem_nil _⟩
    · rw [Arg.slot]
      dsimp only
      split
      · exact .word (by decide) .nil
      · split
        · next values hvalues =>
          -- A list of values is one array.
          refine .singleton (List.mem_append_left _ (List.mem_append_left _ ?_))
          rw [hvalues]
          exact List.mem_singleton_self _
        · exact (Fragment.DrawnFrom.joined (by decide) (Slot.drawnFrom_wholes hslots)).enclosed
            (by decide) (by decide)
    · obtain rfl := Option.some.inj hfs
      exact Slot.drawnFrom_wholes hslots f hf
    · -- Null is bound only for a list without items.
      have hitems : items = [] := by
        have hlength := congrArg List.length (Option.some.inj hnull)
        rw [List.length_map, Arg.length_slots] at hlength
        exact List.length_eq_zero_iff.mp hlength
      subst hitems
      exact List.mem_append_left _ (List.mem_append_right _ (List.mem_singleton_self _))
  | .column c => .of_whole c.drawnFrom
  | .table t => .of_whole t.drawnFrom
  | .expr e => .of_whole (Expression.drawnFrom_forms s e).positive
  | .named name arg => by
    have hwhole := (Arg.drawnFrom_slot s arg).whole
    exact ⟨hwhole, nofun, nofun, List.forall_mem_singleton.mpr hwhole⟩
  | .map entries => ⟨.singleton trivial, nofun, nofun, Arg.drawnFrom_entrySlots s entries⟩

theorem Arg.drawnFrom_slots (s : Scope) : (args : List Arg) →
    ∀ slot ∈ Arg.slots s args, slot.DrawnFrom s.dialect (Arg.allSources s args)
  | [] => List.forall_mem_nil _
  | a :: as => List.forall_mem_cons.mpr
    ⟨(Arg.drawnFrom_slot s a).mono (List.subset_append_left _ _),
      fun slot hslot => (Arg.drawnFrom_slots s as slot hslot).mono (List.subset_append_right _ _)⟩

theorem Arg.drawnFrom_entrySlots (s : Scope) : (entries : List (String × Arg)) →
    ∀ entry ∈ Arg.entrySlots s entries, entry.2.DrawnFrom s.dialect (Arg.entrySources s entries)
  | [] => List.forall_mem_nil _
  | (_, a) :: rest => List.forall_mem_cons.mpr
    ⟨(Arg.drawnFrom_slot s a).whole.left,
      fun entry hentry => (Arg.drawnFrom_entrySlots s rest entry hentry).right⟩

theorem Branch.drawnFrom_parts (s : Scope) : (branches : List Branch) →
    ∀ slot ∈ (Branch.parts s branches).2, slot.DrawnFrom s.dialect (Branch.allSources s branches)
  | [] => List.forall_mem_nil _
  | .mk _ _ args :: rest => List.forall_mem_append.mpr
    ⟨fun slot hslot => (Arg.drawnFrom_slots s args slot hslot).mono (List.subset_append_left _ _),
      fun slot hslot => (Branch.drawnFrom_parts s rest slot hslot).mono (List.subset_append_right _ _)⟩

/-- Both forms of an expression are drawn from its sources. -/
theorem Expression.drawnFrom_forms (s : Scope) : (e : Expression) →
    (e.forms s).DrawnFrom s.dialect (e.sources s)
  | .compare op column arg => by
    -- The two forms differ in the sign of the comparison only.
    have hform (negated : Bool) := (column.drawnFrom (s := s)).left.append
      (drawnFrom_comparison op negated arg.isNull (Arg.drawnFrom_slot s arg)).right
    exact ⟨hform false, fun f hf => Option.some.inj hf ▸ hform true⟩
  | .member column args => by
    have hslots : ∀ slot ∈ Arg.slots s args,
        slot.DrawnFrom s.dialect (column.sources s ++ Arg.allSources s args) :=
      fun slot hslot => (Arg.drawnFrom_slots s args slot hslot).mono (List.subset_append_right _ _)
    have hform (negated : Bool) := drawnFrom_member negated args column.drawnFrom.left hslots
    exact ⟨hform false, fun f hf => Option.some.inj hf ▸ hform true⟩
  | .raw sql args spread =>
    ⟨drawnFrom_rawSql spread (Arg.drawnFrom_slots s args) (Arg.length_slots s args) sql, nofun⟩
  | .named sql args => by
    have hslots : ∀ slot ∈ Arg.slots s args,
        slot.DrawnFrom s.dialect (rawSource args.length sql :: Arg.allSources s args) :=
      fun slot hslot => (Arg.drawnFrom_slots s args slot hslot).mono (List.subset_cons_self _ _)
    refine ⟨drawnFrom_fillNames (t := String.ofList (unfilled args.length sql.toList))
      (fun entry hentry => ?_) none false hslots List.mem_cons_self ?_, nofun⟩
    · obtain ⟨slot, hslot, hentry⟩ := List.mem_flatMap.mp (List.mem_reverse.mp hentry)
      exact (hslots slot hslot).entries entry hentry
    · rw [Arg.length_slots, String.toList_ofList]
      exact List.Sublist.refl _
  | .and children =>
    ⟨Child.drawnFrom_grouped (by decide) (Expression.drawnFrom_children s children), nofun⟩
  | .or children =>
    ⟨Child.drawnFrom_grouped (by decide) (Expression.drawnFrom_children s children), nofun⟩
  | .not children => by
    have hchildren := Expression.drawnFrom_children s children
    exact ⟨Child.drawnFrom_negated hchildren,
      fun f hf => Option.some.inj hf ▸ Child.drawnFrom_doublyNegated hchildren⟩
  | .case branches none => by
    have hdrawn := drawnFrom_rawSql false (Branch.drawnFrom_parts s branches)
      (Branch.length_parts_snd s branches) (caseText (Branch.texts branches) none)
    rw [← Branch.parts_fst s] at hdrawn
    refine ⟨?_, nofun⟩
    rw [Expression.sources, ← Branch.parts_fst s]
    exact hdrawn
  | .case branches (some (result, args)) => by
    -- The arguments of the branches and those of the last result follow one another.
    have hslots := List.forall_mem_append.mpr
      ⟨fun slot hslot => (Branch.drawnFrom_parts s branches slot hslot).mono
          (List.subset_append_left _ (Arg.allSources s args)),
        fun slot hslot => (Arg.drawnFrom_slots s args slot hslot).mono
          (List.subset_append_right (Branch.allSources s branches) _)⟩
    have harity : ((Branch.parts s branches).2 ++ Arg.slots s args).length
        = Branch.arity branches + args.length := by
      rw [List.length_append, Branch.length_parts_snd, Arg.length_slots]
    have hdrawn := drawnFrom_rawSql false hslots harity
      (caseText (Branch.texts branches) (some result))
    rw [← Branch.parts_fst s] at hdrawn
    refine ⟨?_, nofun⟩
    rw [Expression.sources, ← Branch.parts_fst s]
    exact hdrawn
  | .comma children => by
    have hchildren := Expression.drawnFrom_children s children
    refine ⟨.joined (by decide) fun f hf => ?_, nofun⟩
    obtain ⟨c, hc, rfl⟩ := List.mem_map.mp hf
    exact (hchildren c hc).positive

theorem Expression.drawnFrom_children (s : Scope) : (es : List Expression) →
    ∀ c ∈ Expression.children s es, c.forms.DrawnFrom s.dialect (Expression.allSources s es)
  | [] => List.forall_mem_nil _
  | e :: es => List.forall_mem_cons.mpr
    ⟨(Expression.drawnFrom_forms s e).mono (List.subset_append_left _ _),
      fun c hc => (Expression.drawnFrom_children s es c hc).mono (List.subset_append_right _ _)⟩
end

end RecordSql
