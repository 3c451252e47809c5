/-
  RecordSql.Proofs.QuotedNames

  How texts between quotes are read back.  The reader (`Quoted.read`) is that
  of SQL: a quote opens, a quote that stands alone closes, and two quotes in a
  row stand for one.  It knows nothing of how quotes are written; what is
  written is read as it was before its quotes were doubled, up to its last
  quote and no further (`Quoted.read_enclosed`).

  Names between quotes are read as identifiers with dots between them
  (`Quoted.ReadsAs`).  Whatever a name contains, it comes back as the one or
  two identifiers that its first dot makes of it, and there is no other way
  to read it.
-/

import Mathlib.Data.List.Infix
import RecordSql.Proofs.AppendedSettings
import RecordSql.Proofs.Dialects

namespace RecordSql.Quoted

open RecordSql.Text

variable {quote : Char}

/-! ## The reader -/

/-- Reads behind an opening quote: the content up to the first quote that stands alone, and what is
left after that. -/
def readBehind (quote : Char) : List Char → Option (List Char × List Char)
  | [] => none
  | [c] => if c = quote then some ([], []) else none
  | c :: d :: cs =>
    if c = quote then
      if d = quote then (readBehind quote cs).map fun (content, left) => (quote :: content, left)
      else some ([], d :: cs)
    else (readBehind quote (d :: cs)).map fun (content, left) => (c :: content, left)

/-- Reads a text between quotes, and tells what is left after it. -/
def read (quote : Char) : List Char → Option (List Char × List Char)
  | [] => none
  | c :: cs => if c = quote then readBehind quote cs else none

/-- The text is read to its end as identifiers between quotes, with a dot between each two. -/
inductive ReadsAs (quote : Char) : List Char → List (List Char) → Prop where
  | last {cs content : List Char} (h : read quote cs = some (content, [])) :
    ReadsAs quote cs [content]
  | more {cs content left : List Char} {contents : List (List Char)}
    (h : read quote cs = some (content, '.' :: left)) (hrest : ReadsAs quote left contents) :
    ReadsAs quote cs (content :: contents)

/-- There is one way to read a text. -/
theorem ReadsAs.unique {cs : List Char} {contents others : List (List Char)}
    (h : ReadsAs quote cs contents) (h' : ReadsAs quote cs others) : others = contents := by
  induction h generalizing others with
  | last hlast =>
    cases h' with
    | last h => simp_all
    | more h _ => simp_all
  | more hmore _ ih =>
    cases h' with
    | last h => simp_all
    | more h hrest =>
      obtain ⟨rfl, hleft⟩ := Prod.mk.inj (Option.some.inj (h.symm.trans hmore))
      obtain ⟨-, rfl⟩ := List.cons.inj hleft
      rw [ih hrest]

/-! ## What is written is read -/

@[simp] theorem doubled_nil : doubled quote [] = [] := rfl

theorem doubled_cons (c : Char) (part : List Char) :
    doubled quote (c :: part)
      = (if c = quote then [quote, quote] else [c]) ++ doubled quote part := by
  simp [doubled]

theorem doubled_of_notMem {part : List Char} (h : quote ∉ part) : doubled quote part = part := by
  induction part with
  | nil => rfl
  | cons c part ih =>
    rw [List.mem_cons, not_or] at h
    rw [doubled_cons, if_neg (Ne.symm h.1), ih h.2, List.singleton_append]

/-- A character that is no quote is content. -/
theorem readBehind_cons_of_ne {c : Char} (hc : c ≠ quote) (cs : List Char) :
    readBehind quote (c :: cs)
      = (readBehind quote cs).map fun (content, left) => (c :: content, left) := by
  cases cs with
  | nil => simp [readBehind, hc]
  | cons d cs => simp [readBehind, hc]

/-- The content is read as it was, up to the closing quote. -/
theorem readBehind_doubled (part : List Char) {left : List Char} (h : left.head? ≠ some quote) :
    readBehind quote (doubled quote part ++ quote :: left) = some (part, left) := by
  induction part with
  | nil =>
    -- The quote stands alone, whether anything is left or not.
    cases left with
    | nil => simp [readBehind]
    | cons d left =>
      have hd : d ≠ quote := by simpa using h
      simp [readBehind, hd]
  | cons c part ih =>
    rw [doubled_cons]
    by_cases hc : c = quote
    · simp [hc, readBehind, ih]
    · simp [hc, readBehind_cons_of_ne hc, ih]

/-- A text between quotes is read up to its last quote. -/
theorem read_enclosed (part : List Char) {left : List Char} (h : left.head? ≠ some quote) :
    read quote (quote :: doubled quote part ++ [quote] ++ left) = some (part, left) := by
  simp [read, readBehind_doubled part h]

/-- Where nothing is left, it is read to the end. -/
theorem read_enclosed_whole (part : List Char) :
    read quote (quote :: doubled quote part ++ [quote]) = some (part, []) := by
  have hread := read_enclosed part (show [].head? ≠ some quote from nofun)
  rwa [List.append_nil] at hread

/-! ## Names -/

/-- The parts of a name: what stands before and after its first dot, or the whole name if there is
none. -/
def parts (name : List Char) : List (List Char) :=
  match name.dropWhile (· ≠ '.') with
  | [] => [name]
  | _ :: rest => [name.takeWhile (· ≠ '.'), rest]

/-- A part without one quote at its start and one at its end, if both are there as characters of their
own. -/
def stripped (quote : Char) (part : List Char) : List Char :=
  if 2 ≤ part.length ∧ part.head? = some quote ∧ part.getLast? = some quote then
    part.tail.dropLast
  else part

theorem bare_eq_stripped (part : List Char) : bare quote part = stripped quote part := by
  cases part with
  | nil => rfl
  | cons c rest =>
    -- A quote that is the first character cannot be the last one as well.
    have hlast (hrest : rest ≠ []) : (c :: rest).getLast? = rest.getLast? := by
      cases rest with
      | nil => exact absurd rfl hrest
      | cons d rest => rfl
    by_cases hrest : rest = []
    · simp [bare, stripped, hrest]
    · have hlength : 2 ≤ (c :: rest).length := by
        have := List.length_pos_of_ne_nil hrest
        simp only [List.length_cons]
        omega
      rw [bare, stripped, hlast hrest]
      simp only [hlength, List.head?_cons, List.tail_cons, Option.some.injEq, true_and,
        Bool.and_eq_true, beq_iff_eq]

theorem stripped_enclosed (part : List Char) :
    stripped quote (quote :: part ++ [quote]) = part := by
  have hlength : 2 ≤ (quote :: part ++ [quote]).length := by simp
  rw [stripped, if_pos ⟨hlength, rfl, List.getLast?_concat⟩]
  simp

theorem stripped_of_notMem {part : List Char} (h : quote ∉ part) : stripped quote part = part := by
  rw [stripped, if_neg]
  rintro ⟨-, hhead, -⟩
  exact h (List.mem_of_head? hhead)

/-- The first dot cuts a name. -/
theorem quoted_qualified {qualifier : List Char} (h : '.' ∉ qualifier) (rest : List Char) :
    quoted quote (qualifier ++ '.' :: rest)
      = quotedPart quote qualifier ++ '.' :: quotedPart quote rest := by
  have hcut : cutChars '.' (qualifier ++ '.' :: rest) = some (qualifier, rest) := by
    induction qualifier with
    | nil => simp [cutChars]
    | cons c qualifier ih =>
      rw [List.mem_cons, not_or] at h
      rw [List.cons_append, cutChars, beq_false_of_ne (Ne.symm h.1), if_neg Bool.false_ne_true,
        ih h.2]
      rfl
  rw [quoted, hcut]

theorem quoted_whole {name : List Char} (h : '.' ∉ name) :
    quoted quote name = quotedPart quote name := by
  rw [quoted, Tag.cutChars_of_notMem h]

theorem parts_qualified {qualifier : List Char} (h : '.' ∉ qualifier) (rest : List Char) :
    parts (qualifier ++ '.' :: rest) = [qualifier, rest] := by
  have hne : ∀ c ∈ qualifier, decide (c ≠ '.') = true := by
    intro c hc
    simpa using fun hdot : c = '.' => h (hdot ▸ hc)
  rw [parts, List.dropWhile_append_of_pos hne, List.takeWhile_append_of_pos hne]
  simp

theorem parts_whole {name : List Char} (h : '.' ∉ name) : parts name = [name] := by
  have hne : ∀ c ∈ name, decide (c ≠ '.') = true := by
    intro c hc
    simpa using fun hdot : c = '.' => h (hdot ▸ hc)
  rw [parts, List.dropWhile_eq_nil_iff.mpr hne]

/-- A name is cut at its first dot, or has none. -/
theorem name_cases (name : List Char) :
    '.' ∉ name ∨ ∃ qualifier rest, '.' ∉ qualifier ∧ name = qualifier ++ '.' :: rest := by
  by_cases h : '.' ∈ name
  · obtain ⟨qualifier, rest, hname, hqualifier⟩ := List.eq_append_cons_of_mem h
    exact .inr ⟨qualifier, rest, hqualifier, hname⟩
  · exact .inl h

/-- The last identifier of a name is read to the end. -/
theorem readsAs_quotedPart (part : List Char) :
    ReadsAs quote (quotedPart quote part) [stripped quote part] := by
  apply ReadsAs.last
  rw [quotedPart, bare_eq_stripped]
  exact read_enclosed_whole _

/-- A name between quotes is read as its parts without the quotes around them. -/
theorem readsAs_quoted (hdot : quote ≠ '.') (name : List Char) :
    ReadsAs quote (quoted quote name) ((parts name).map (stripped quote)) := by
  rcases name_cases name with h | ⟨qualifier, rest, h, rfl⟩
  · rw [quoted_whole h, parts_whole h]
    exact readsAs_quotedPart name
  · rw [quoted_qualified h, parts_qualified h]
    -- The dot is no quote, so the closing quote before it stands alone.
    have hread : read quote (quotedPart quote qualifier ++ '.' :: quotedPart quote rest)
        = some (stripped quote qualifier, '.' :: quotedPart quote rest) := by
      rw [quotedPart, bare_eq_stripped]
      exact read_enclosed _ (by simpa using hdot.symm)
    exact .more hread (readsAs_quotedPart rest)

/-! ## Names that are quoted again -/

theorem quotedPart_of_notMem {part : List Char} (h : quote ∉ part) :
    quotedPart quote part = quote :: part ++ [quote] := by
  rw [quotedPart, bare_eq_stripped, stripped_of_notMem h, doubled_of_notMem h]

/-- The quotes that are there are taken for those that are to be written. -/
theorem quotedPart_quotedPart {part : List Char} (h : quote ∉ part) :
    quotedPart quote (quotedPart quote part) = quotedPart quote part := by
  rw [quotedPart_of_notMem h, quotedPart, bare_eq_stripped, stripped_enclosed, doubled_of_notMem h]

theorem dot_notMem_quotedPart (hdot : quote ≠ '.') {part : List Char} (h : quote ∉ part)
    (hpart : '.' ∉ part) : '.' ∉ quotedPart quote part := by
  rw [quotedPart_of_notMem h]
  simp [hpart, hdot.symm]

/-- A name without quotes is quoted once, however often. -/
theorem quoted_quoted (hdot : quote ≠ '.') {name : List Char} (h : quote ∉ name) :
    quoted quote (quoted quote name) = quoted quote name := by
  rcases name_cases name with hname | ⟨qualifier, rest, hqualifier, rfl⟩
  · rw [quoted_whole hname, quoted_whole (dot_notMem_quotedPart hdot h hname),
      quotedPart_quotedPart h]
  · have hleft : quote ∉ qualifier := fun hmem => h (List.mem_append_left _ hmem)
    have hright : quote ∉ rest := fun hmem => h (List.mem_append_right _ (.tail _ hmem))
    -- The first dot of what is written is that of the name.
    rw [quoted_qualified hqualifier, quoted_qualified (dot_notMem_quotedPart hdot hleft hqualifier),
      quotedPart_quotedPart hleft, quotedPart_quotedPart hright]

/-! ## Characters of quoted names -/

theorem mem_of_mem_bare {part : List Char} {c : Char} (h : c ∈ bare quote part) : c ∈ part := by
  rw [bare_eq_stripped, stripped] at h
  split at h
  · exact List.mem_of_mem_tail (List.mem_of_mem_dropLast h)
  · exact h

theorem mem_quotedPart {part : List Char} {c : Char} (h : c ∈ quotedPart quote part) :
    c = quote ∨ c ∈ part := by
  rw [quotedPart, List.mem_append, List.mem_cons, List.mem_singleton, or_right_comm, or_self,
    doubled, List.mem_flatMap] at h
  obtain h | ⟨d, hd, hc⟩ := h
  · exact .inl h
  · split at hc
    · have hc : c = quote ∨ c = quote := List.mem_pair.mp hc
      exact .inl (or_self_iff.mp hc)
    · exact .inr (List.mem_singleton.mp hc ▸ mem_of_mem_bare hd)

/-- Quoting brings no character but the quote. -/
theorem mem_quoted {name : List Char} {c : Char} (h : c ∈ quoted quote name) :
    c = quote ∨ c ∈ name := by
  rcases name_cases name with hname | ⟨qualifier, rest, hname, rfl⟩
  · rw [quoted_whole hname] at h
    exact mem_quotedPart h
  · rw [quoted_qualified hname, List.mem_append, List.mem_cons] at h
    rw [List.mem_append, List.mem_cons]
    rcases h with h | h | h
    · exact (mem_quotedPart h).imp_right .inl
    · exact .inr (.inr (.inl h))
    · exact (mem_quotedPart h).imp_right fun hrest => .inr (.inr hrest)

end RecordSql.Quoted

namespace RecordSql.Dialect

open RecordSql.Quoted

theorem quote_ne_dot_of_builtIn {d : Dialect} (h : d ∈ builtIn) : d.quote ≠ '.' := by
  simp only [builtIn, List.mem_cons, List.not_mem_nil, or_false] at h
  rcases h with rfl | rfl | rfl | rfl <;> decide

/-- Whatever a name contains, there is one way to read it where it stands between the quotes of a
dialect: as its parts, each without the quotes that it had around it and with all those inside. A name
without quotes is not changed when it is quoted again. -/
theorem quoted_names_read_back {d : Dialect} (hd : d ∈ builtIn) (ident : String) :
    (∀ contents, ReadsAs d.quote (d.quoted ident).toList contents
        ↔ contents = (parts ident.toList).map (stripped d.quote))
      ∧ (d.quote ∉ ident.toList → d.quoted (d.quoted ident) = d.quoted ident) := by
  have hdot := quote_ne_dot_of_builtIn hd
  have hchars (name : String) : (d.quoted name).toList = Quoted.quoted d.quote name.toList := by
    rw [(usual_of_builtIn hd).quoted_eq]
    exact String.toList_ofList
  have hreads := readsAs_quoted hdot ident.toList
  refine ⟨fun contents => ?_, fun hquote => ?_⟩
  · rw [hchars]
    exact ⟨fun h => hreads.unique h, fun h => h ▸ hreads⟩
  · rw [← String.toList_inj, hchars, hchars, quoted_quoted hdot hquote]

/-- A part with quotes inside and one that is quoted already, with a dot of its own; and a name of three
words, which is quoted twice. -/
theorem quoted_names_read_back_mysql :
    ReadsAs '\x60' (mysql.quoted "we\x60ird.\x60db.users\x60").toList
        ["we\x60ird".toList, "db.users".toList]
      ∧ mysql.quoted (mysql.quoted "db.users.name") = "\x60db\x60.\x60users.name\x60" := by
  have hd : mysql ∈ builtIn := by simp [builtIn]
  refine ⟨((quoted_names_read_back hd _).1 _).mpr (by decide), ?_⟩
  rw [(quoted_names_read_back hd "db.users.name").2 (by decide)]
  decide

/-- A quote alone is not taken for two, and half of a pair is kept as well. -/
example : mysql.quoted "\x60" = "\x60\x60\x60\x60"
    ∧ mysql.quoted "\x60id" = "\x60\x60\x60id\x60" := by
  decide

end RecordSql.Dialect
