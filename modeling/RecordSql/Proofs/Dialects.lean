/-
  RecordSql.Proofs.Dialects

  What is relied on of a dialect.  A dialect may quote identifiers and mark
  values as it likes, and a theorem about statements holds for all dialects
  unless it names a law: that a placeholder does not give its value away
  (`Dialect.Blind`), or that neither identifiers nor placeholders vanish
  (`Dialect.Legible`).

  The dialects that are always there keep these laws, and so does every dialect
  that has quotes around identifiers and a mark or a number for each value
  (`Dialect.Usual`).
-/

import RecordSql.Dialect.BuiltIn

namespace RecordSql

/-! ## Laws -/

/-- Placeholders are written for positions, whatever the values, and clauses in the way of all
dialects. -/
structure Dialect.Blind (d : Dialect) : Prop where
  placeholder_eq : ∀ (position : Nat) (v w : Value), d.placeholder position v = d.placeholder position w
  clauseWriter_eq : ∀ name : String, d.clauseWriter name = none

/-- Something is written for each identifier and for each value. -/
structure Dialect.Legible (d : Dialect) : Prop where
  quoted_ne : ∀ ident : String, d.quoted ident ≠ ""
  placeholder_ne : ∀ (position : Nat) (v : Value), d.placeholder position v ≠ ""

/-- The dialect writes quotes around identifiers, and placeholders in the given way. -/
structure Dialect.Usual (d : Dialect) (p : Placeholder) : Prop where
  quoted_eq : ∀ ident : String, d.quoted ident = Quoted.text d.quote ident
  placeholder_eq : ∀ (position : Nat) (v : Value), d.placeholder position v = p.text position

theorem Placeholder.text_ne (p : Placeholder) (position : Nat) : p.text position ≠ "" := by
  intro hempty
  cases p with
  | mark => exact absurd hempty (by rw [text]; decide)
  | numbered => exact absurd (String.append_eq_empty_iff.mp hempty).1 (by decide)

namespace Quoted

theorem text_ne (quote : Char) (ident : String) : text quote ident ≠ "" := by
  rw [text, quoted]
  split <;> exact fun h => List.cons_ne_nil _ _ (String.ofList_eq_empty_iff.mp h)

/-- A name between quotes is not a single character. -/
theorem text_ne_star (quote : Char) (ident : String) : text quote ident ≠ "*" := by
  have htail (name : List Char) : (quoted quote name).tail ≠ [] := by
    rw [quoted]
    split
    · exact List.append_ne_nil_of_right_ne_nil _ (List.cons_ne_nil _ _)
    · exact List.append_ne_nil_of_right_ne_nil _ (List.cons_ne_nil _ _)
  intro hstar
  have hchars : quoted quote ident.toList = ['*'] := by
    rw [← String.toList_ofList (l := quoted quote ident.toList)]
    exact congrArg String.toList hstar
  exact htail ident.toList (by rw [hchars]; rfl)

end Quoted

namespace Dialect

variable {d : Dialect} {p : Placeholder}

theorem Usual.legible (h : d.Usual p) : d.Legible where
  quoted_ne ident := by
    rw [h.quoted_eq]
    exact Quoted.text_ne d.quote ident
  placeholder_ne position v := by
    rw [h.placeholder_eq]
    exact p.text_ne position

theorem Usual.quoted_ne_star (h : d.Usual p) (ident : String) : d.quoted ident ≠ "*" := by
  rw [h.quoted_eq]
  exact Quoted.text_ne_star d.quote ident

theorem Usual.blind (h : d.Usual p) (hwriter : ∀ name, d.clauseWriter name = none) : d.Blind where
  placeholder_eq position v w := by rw [h.placeholder_eq, h.placeholder_eq]
  clauseWriter_eq := hwriter

/-! ## Placeholders of several values -/

/-- The placeholders of values, by their positions counted from one. -/
def marks (d : Dialect) (values : List Value) (position : Nat) : String :=
  d.placeholder position (values.getD (position - 1) .null)

/-- The value behind the first ones has the position after theirs. -/
theorem marks_append_cons (d : Dialect) (before after : List Value) (v : Value) :
    d.marks (before ++ v :: after) (before.length + 1) = d.placeholder (before.length + 1) v := by
  simp [marks]

/-! ## The built-in dialects -/

/-- The placeholder for a position: numbered in PostgreSQL, a question mark everywhere else. -/
def mark (d : Dialect) (position : Nat) : String :=
  if d.name = "postgres" then "$" ++ toString position else "?"

theorem usual_of_builtIn (h : d ∈ builtIn) :
    d.Usual (if d.name = "postgres" then .numbered else .mark) := by
  simp only [builtIn, List.mem_cons, List.not_mem_nil, or_false] at h
  rcases h with rfl | rfl | rfl | rfl <;> exact ⟨fun _ => rfl, fun _ _ => rfl⟩

theorem placeholder_of_builtIn (h : d ∈ builtIn) (position : Nat) (v : Value) :
    d.placeholder position v = d.mark position := by
  rw [(usual_of_builtIn h).placeholder_eq, mark]
  split <;> rfl

theorem marks_of_builtIn (h : d ∈ builtIn) (values : List Value) : d.marks values = d.mark :=
  funext fun position => placeholder_of_builtIn h position _

theorem clauseWriter_of_builtIn (h : d ∈ builtIn) (name : String) : d.clauseWriter name = none := by
  simp only [builtIn, List.mem_cons, List.not_mem_nil, or_false] at h
  rcases h with rfl | rfl | rfl | rfl <;> rfl

theorem blind_of_builtIn (h : d ∈ builtIn) : d.Blind :=
  (usual_of_builtIn h).blind fun name => clauseWriter_of_builtIn h name

end Dialect

end RecordSql
