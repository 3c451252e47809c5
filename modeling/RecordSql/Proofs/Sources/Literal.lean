/-
  RecordSql.Proofs.Sources.Literal

  Where text comes from.  What is written of an expression or a clause has two
  sources only: the words and signs of SQL (`sqlWords`), and what the expression
  or the clause is given (`Source`): names and raw SQL, numbers of rows and times.
  A text that is made of these is a `Literal`.  Values are no sources of text; they
  can only be bound.

  A fragment is drawn from sources if all of its texts are literals of them, all
  of its values are among them, and the table is mentioned only if it is one of
  them (`Fragment.DrawnFrom`).  The lemmas here say that the ways to put fragments
  together keep that.

  No word has a question mark.  So where no text that is given has one, and
  quotes bring none, no literal has one (`Literal.mark_notMem`).
-/

import RecordSql.Proofs.Numerals
import RecordSql.Proofs.Written

namespace RecordSql

/-! ## Sources -/

/-- Something that is given to be written. -/
inductive Source where
  /-- A name or an alias, or raw SQL. -/
  | text (s : String)
  /-- A number of rows. -/
  | number (n : Int)
  | time (t : Instant)
  /-- A value to be bound. -/
  | value (v : Value)
  /-- The table of the statement. -/
  | table

/-- The words and signs that are written of themselves. -/
def sqlWords : List String :=
  [ " = ", " <> ", " > ", " >= ", " < ", " <= ", " LIKE ", " NOT LIKE ", " IN (", " NOT IN (",
    " IS NULL", " IS NOT NULL", "NULL)", "(NULL)", " AND ", " OR ", "NOT ", "(", ")", ") ", " (", ",",
    ", ", ".", " ", "*", "=", "'", " AS ", " AS (", "DISTINCT ", "HAVING ", " HAVING ", " DESC",
    "LIMIT ", "OFFSET ", "AS OF SYSTEM TIME ", "CROSS", "INNER", "LEFT", "RIGHT", " JOIN ", " ON ",
    " USING (", "INTO ", "DEFAULT VALUES", ") VALUES ", "DELETE", "ON CONSTRAINT ", " WHERE ",
    "DO NOTHING", "DO UPDATE SET ", "UPDATE", "SHARE", " OF ", "NOWAIT", "SKIP LOCKED",
    "RECURSIVE " ]

/-- A text made of words and of what is given. -/
inductive Literal (d : Dialect) (sources : List Source) : String → Prop
  | empty : Literal d sources ""
  | word {s : String} (h : s ∈ sqlWords) : Literal d sources s
  /-- Some characters of a text that is given, in their order. -/
  | text {t : String} {cs : List Char} (h : .text t ∈ sources) (hcs : cs.Sublist t.toList) :
      Literal d sources (String.ofList cs)
  | quoted {t : String} (h : .text t ∈ sources) : Literal d sources (d.quoted t)
  | number {n : Int} (h : .number n ∈ sources) : Literal d sources (toString n)
  | time {t : Instant} (h : .time t ∈ sources) : Literal d sources (t.text 6)
  | append {s t : String} : Literal d sources s → Literal d sources t → Literal d sources (s ++ t)

namespace Literal

variable {d : Dialect} {sources more : List Source}

/-- A text that is given is written as it is. -/
theorem verbatim {t : String} (h : .text t ∈ sources) : Literal d sources t := by
  rw [← String.ofList_toList (s := t)]
  exact .text h (List.Sublist.refl _)

theorem mono {s : String} (h : Literal d sources s) (hsub : sources ⊆ more) : Literal d more s := by
  induction h with
  | empty => exact .empty
  | word h => exact .word h
  | text h hcs => exact .text (hsub h) hcs
  | quoted h => exact .quoted (hsub h)
  | number h => exact .number (hsub h)
  | time h => exact .time (hsub h)
  | append _ _ hs ht => exact .append hs ht

end Literal

/-! ## Question marks -/

theorem mark_notMem_of_mem_sqlWords : ∀ s ∈ sqlWords, '?' ∉ s.toList := by decide

namespace Text

theorem mark_notMem_toString (n : Int) : '?' ∉ (toString n).toList := by
  intro h
  rcases isDigit_or_minus_of_mem_toString h with h | h
  · exact absurd h (by decide)
  · exact absurd h (by decide)

theorem mark_notMem_padded (width n : Nat) : '?' ∉ (padded width n).toList := by
  rw [padded, String.toList_ofList, List.mem_append, not_or]
  refine ⟨fun h => ?_, fun h => ?_⟩
  · exact absurd (List.mem_replicate.mp h).2 (by decide)
  · exact absurd (isDigit_of_mem_toString h) (by decide)

end Text

theorem Instant.mark_notMem_text (t : Instant) (places : Nat) : '?' ∉ (t.text places).toList := by
  have hyear (year : Int) : '?' ∉ (yearText year).toList := by
    rw [yearText]
    split
    · exact Text.mark_notMem_padded _ _
    · split <;> simp [Text.mark_notMem_padded]
  simp [text, dateText, clockText, fractionText, Text.mark_notMem_padded, hyear]

/-- Quotes around a name bring no question mark. -/
def Dialect.QuotesPlainly (d : Dialect) : Prop :=
  ∀ ident : String, '?' ∉ ident.toList → '?' ∉ (d.quoted ident).toList

/-- Without a question mark in what is given there is none in a literal. -/
theorem Literal.mark_notMem {d : Dialect} {sources : List Source} (hd : d.QuotesPlainly)
    (hsources : ∀ t, .text t ∈ sources → '?' ∉ t.toList) {s : String} (h : Literal d sources s) :
    '?' ∉ s.toList := by
  induction h with
  | empty => exact List.not_mem_nil
  | word h => exact mark_notMem_of_mem_sqlWords _ h
  | text h hcs =>
    rw [String.toList_ofList]
    exact fun hmark => hsources _ h (hcs.subset hmark)
  | quoted h => exact hd _ (hsources _ h)
  | number h => exact Text.mark_notMem_toString _
  | time h => exact Instant.mark_notMem_text _ 6
  | append _ _ hs ht =>
    rw [String.toList_append, List.mem_append, not_or]
    exact ⟨hs, ht⟩

/-! ## Fragments -/

/-- The piece has its source: it is a literal, a value or a mention of the table. -/
def Piece.DrawnFrom (d : Dialect) (sources : List Source) : Piece → Prop
  | .text s => Literal d sources s
  | .bound v => .value v ∈ sources
  | .fault _ => True
  | .currentTable => .table ∈ sources

namespace Fragment

/-- All pieces have their sources. -/
def DrawnFrom (d : Dialect) (sources : List Source) (f : Fragment) : Prop :=
  ∀ p ∈ f, p.DrawnFrom d sources

namespace DrawnFrom

variable {d : Dialect} {sources more : List Source} {f g : Fragment}

theorem nil : DrawnFrom d sources [] := List.forall_mem_nil _

theorem cons {p : Piece} (hp : p.DrawnFrom d sources) (h : f.DrawnFrom d sources) :
    DrawnFrom d sources (p :: f) := List.forall_mem_cons.mpr ⟨hp, h⟩

theorem singleton {p : Piece} (hp : p.DrawnFrom d sources) : DrawnFrom d sources [p] := cons hp nil

theorem text {s : String} (hs : Literal d sources s) (h : f.DrawnFrom d sources) :
    DrawnFrom d sources (.text s :: f) := cons hs h

theorem word {s : String} (hs : s ∈ sqlWords) (h : f.DrawnFrom d sources) :
    DrawnFrom d sources (.text s :: f) := text (.word hs) h

theorem append (hf : f.DrawnFrom d sources) (hg : g.DrawnFrom d sources) :
    (f ++ g).DrawnFrom d sources := List.forall_mem_append.mpr ⟨hf, hg⟩

theorem mono (h : f.DrawnFrom d sources) (hsub : sources ⊆ more) : f.DrawnFrom d more := by
  intro p hp
  have hdrawn := h p hp
  cases p with
  | text s => exact Literal.mono hdrawn hsub
  | bound v => exact hsub hdrawn
  | fault e => trivial
  | currentTable => exact hsub hdrawn

theorem left (h : f.DrawnFrom d sources) : f.DrawnFrom d (sources ++ more) :=
  h.mono (List.subset_append_left _ _)

theorem right (h : f.DrawnFrom d more) : f.DrawnFrom d (sources ++ more) :=
  h.mono (List.subset_append_right _ _)

/-- One of several things brings its sources. -/
theorem flatMap {α : Type} {a : α} {l : List α} {sources : α → List Source} (ha : a ∈ l)
    (h : f.DrawnFrom d (sources a)) : f.DrawnFrom d (l.flatMap sources) :=
  h.mono fun _ hsource => List.mem_flatMap.mpr ⟨a, ha, hsource⟩

theorem enclosed {opening closing : String} (hopening : opening ∈ sqlWords)
    (hclosing : closing ∈ sqlWords) (h : f.DrawnFrom d sources) :
    (Fragment.enclosed opening f closing).DrawnFrom d sources :=
  word hopening (h.append (word hclosing nil))

theorem parenthesized (wrap : Bool) (h : f.DrawnFrom d sources) :
    (Fragment.parenthesized wrap f).DrawnFrom d sources := by
  cases wrap with
  | false => exact h
  | true => exact h.enclosed (by decide) (by decide)

theorem joined {separator : String} (hseparator : separator ∈ sqlWords) {fs : List Fragment}
    (h : ∀ f ∈ fs, f.DrawnFrom d sources) : (Fragment.joined separator fs).DrawnFrom d sources := by
  match fs, h with
  | [], _ => exact nil
  | [f], h => exact h f List.mem_cons_self
  | f :: g :: fs, h =>
    obtain ⟨hf, hrest⟩ := List.forall_mem_cons.mp h
    exact hf.append (word hseparator (DrawnFrom.joined hseparator hrest))

/-- What the table is drawn from comes in where it is put in. -/
theorem withTable {table : Fragment} (h : f.DrawnFrom d sources) (ht : table.DrawnFrom d more) :
    (f.withTable table).DrawnFrom d (more ++ sources) := by
  intro p hp
  obtain ⟨origin, horigin, hp⟩ := List.mem_flatMap.mp hp
  cases origin with
  | currentTable => exact ht.left p hp
  | _ =>
    obtain rfl := List.mem_singleton.mp hp
    exact h.right _ horigin

theorem mentionsTable_eq_false (h : f.DrawnFrom d sources) (htable : .table ∉ sources) :
    f.mentionsTable = false := by
  rw [mentionsTable, List.any_eq_false]
  intro p hp
  cases p with
  | currentTable => exact absurd (h _ hp) htable
  | _ => exact Bool.false_ne_true

/-! ## Literals and values -/

theorem literals (h : f.DrawnFrom d sources) : ∀ s ∈ f.literals, Literal d sources s := by
  induction f with
  | nil => exact List.forall_mem_singleton.mpr .empty
  | cons p f ih =>
    obtain ⟨hp, hf⟩ := List.forall_mem_cons.mp h
    have hrest := ih hf
    cases p with
    | bound v => exact List.forall_mem_cons.mpr ⟨.empty, hrest⟩
    | fault e => exact hrest
    | currentTable => exact hrest
    | text s =>
      -- The text stands before the first of the literals that follow.
      rw [Fragment.literals]
      cases hliterals : Fragment.literals f with
      | nil => exact List.forall_mem_nil _
      | cons t rest =>
        rw [hliterals] at hrest
        obtain ⟨ht, hrest⟩ := List.forall_mem_cons.mp hrest
        exact List.forall_mem_cons.mpr ⟨.append hp ht, hrest⟩

theorem values (h : f.DrawnFrom d sources) : ∀ v ∈ f.values, .value v ∈ sources := by
  intro v hv
  obtain ⟨p, hp, hbound⟩ := List.mem_filterMap.mp hv
  cases p with
  | bound w =>
    obtain rfl := Option.some.inj hbound
    exact h _ hp
  | _ => cases hbound

end DrawnFrom

end Fragment

end RecordSql
