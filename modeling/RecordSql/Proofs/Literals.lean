/-
  RecordSql.Proofs.Literals

  Literals say what they stand for.  The literals of values without floats and
  times (`Value.IsExact`) are the same only if the values are, but for whether
  a number has a signed or an unsigned type (`Value.Same`).

  Elements of an array stand between commas, without their lengths, so the
  induction over the value carries more than that: of two texts that begin
  with literals and go on with a comma, a parenthesis or nothing, it tells
  where the literals end (`Value.IsExact.same_of_append`).  The first character
  says of which kind a literal is; texts are told apart by reading them
  (`Quoted.read`), bytes by their digits.
-/

import RecordSql.Proofs.Numerals
import RecordSql.Proofs.QuotedNames

namespace RecordSql

open RecordSql.Text

namespace Value

/-! ## Values that are written exactly -/

/-- A value without floats and times, at any depth. -/
inductive IsExact : Value → Prop where
  | null : IsExact .null
  | bool (b : Bool) : IsExact (.bool b)
  | int (n : Int64) : IsExact (.int n)
  | uint (n : UInt64) : IsExact (.uint n)
  | text (s : String) : IsExact (.text s)
  | blob (bytes : List UInt8) : IsExact (.blob bytes)
  | array {items : List Value} (h : ∀ v ∈ items, IsExact v) : IsExact (.array items)

/-- The number that a value is, of either type. -/
def number? : Value → Option Int
  | .int n => some n.toInt
  | .uint n => some n.toNat
  | _ => none

/-- The same value; numbers are the same if they are equal, with or without a sign in their type. -/
inductive Same : Value → Value → Prop where
  | null : Same .null .null
  | bool (b : Bool) : Same (.bool b) (.bool b)
  | number {v w : Value} {i : Int} (hv : v.number? = some i) (hw : w.number? = some i) : Same v w
  | text (s : String) : Same (.text s) (.text s)
  | blob (bytes : List UInt8) : Same (.blob bytes) (.blob bytes)
  | array {vs ws : List Value} (h : List.Forall₂ Same vs ws) : Same (.array vs) (.array ws)

/-! ## The characters of literals -/

/-- The characters of the literal of a value. -/
def spelling (v : Value) : List Char := v.literal.toList

theorem literal_of_number? {v : Value} {i : Int} (h : v.number? = some i) :
    v.literal = toString i := by
  cases v with
  | int n => cases h; rfl
  | uint n => cases h; rfl
  | _ => cases h

theorem spelling_text (s : String) :
    (Value.text s).spelling = '\'' :: Quoted.doubled '\'' s.toList ++ ['\''] := by
  have hdoubled : (replaceChar '\'' "''" s).toList = Quoted.doubled '\'' s.toList :=
    String.toList_ofList
  simp [spelling, literal, quotedText, hdoubled]

theorem spelling_blob (bytes : List UInt8) :
    (Value.blob bytes).spelling = 'X' :: '\'' :: bytes.flatMap (hexByte true) ++ ['\''] := by
  simp [spelling, literal, hex]

/-- The elements of an array behind its first, each after a comma. -/
def rest (items : List Value) : List Char := items.flatMap fun v => ',' :: v.spelling

theorem rest_cons (v : Value) (vs : List Value) : rest (v :: vs) = ',' :: v.spelling ++ rest vs :=
  List.flatMap_cons

theorem literals_eq_map (items : List Value) : literals items = items.map literal := by
  induction items with
  | nil => rfl
  | cons v vs ih => rw [literals, ih, List.map_cons]

theorem spelling_array_nil : (Value.array []).spelling = ['(', ')'] := by
  simp [spelling, literal, literals]

theorem spelling_array_cons (v : Value) (vs : List Value) :
    (Value.array (v :: vs)).spelling = '(' :: (v.spelling ++ rest vs) ++ [')'] := by
  -- Between the parentheses stands the first element, and each other one behind its comma.
  have hjoined (w : Value) (ws : List Value) :
      [','].intercalate (((w :: ws).map literal).map String.toList) = w.spelling ++ rest ws := by
    induction ws generalizing w with
    | nil => simp [rest, spelling]
    | cons u ws ih =>
      have hstep := ih u
      simp only [List.map_cons] at hstep ⊢
      rw [List.intercalate_cons_cons, hstep, rest_cons]
      simp [spelling]
  have hcomma : ",".toList = [','] := rfl
  rw [spelling, literal, literals_eq_map]
  simp only [String.toList_append, String.toList_intercalate, hcomma, hjoined]
  rfl

/-! ## The first character -/

/-- What the first character of a literal tells. -/
inductive Kind where
  | null
  | bool
  | number
  | text
  | blob
  | array
  deriving DecidableEq

/-- The kind of the literals that begin with a character, if there are any. -/
def kind? (c : Char) : Option Kind :=
  if c = 'N' then some .null
  else if c = 'T' ∨ c = 'F' then some .bool
  else if c = '\'' then some .text
  else if c = 'X' then some .blob
  else if c = '(' then some .array
  else if c.isDigit ∨ c = '-' then some .number
  else none

/-- The kind of the literal of a value. -/
def kind : Value → Kind
  | .null => .null
  | .bool _ => .bool
  | .int _ | .uint _ | .float _ => .number
  | .text _ | .time _ => .text
  | .blob _ => .blob
  | .array _ => .array

theorem kind?_of_numeral {c : Char} (h : c.isDigit = true ∨ c = '-') :
    kind? c = some .number := by
  rcases h with h | rfl
  · -- None of the characters that come first is a digit.
    have hne {d : Char} (hd : d.isDigit = false) : c ≠ d := by
      rintro rfl
      rw [h] at hd
      cases hd
    simp [kind?, h, hne (d := 'N') rfl, hne (d := 'T') rfl, hne (d := 'F') rfl,
      hne (d := '\'') rfl, hne (d := 'X') rfl, hne (d := '(') rfl]
  · rfl

theorem kind_of_number? {v : Value} {i : Int} (h : v.number? = some i) : v.kind = .number := by
  cases v with
  | int n => rfl
  | uint n => rfl
  | _ => cases h

/-- The literal of a value begins with a character of its kind. -/
theorem IsExact.exists_spelling {v : Value} (h : IsExact v) :
    ∃ c cs, v.spelling = c :: cs ∧ kind? c = some v.kind := by
  have hnumber {w : Value} {i : Int} (hi : w.number? = some i) :
      ∃ c cs, w.spelling = c :: cs ∧ kind? c = some w.kind := by
    obtain ⟨c, cs, hcs⟩ := List.exists_cons_of_ne_nil (toString_int_ne_nil i)
    refine ⟨c, cs, by rw [spelling, literal_of_number? hi, hcs], ?_⟩
    rw [kind_of_number? hi]
    exact kind?_of_numeral (isDigit_or_minus_of_mem_toString (hcs ▸ List.mem_cons_self))
  cases h with
  | null => exact ⟨'N', _, rfl, rfl⟩
  | bool b =>
    cases b with
    | false => exact ⟨'F', _, rfl, rfl⟩
    | true => exact ⟨'T', _, rfl, rfl⟩
  | int n => exact hnumber rfl
  | uint n => exact hnumber rfl
  | text s => exact ⟨'\'', _, spelling_text s, rfl⟩
  | blob bytes => exact ⟨'X', _, spelling_blob bytes, rfl⟩
  | @array items h =>
    cases items with
    | nil => exact ⟨'(', _, spelling_array_nil, rfl⟩
    | cons v vs => exact ⟨'(', _, spelling_array_cons v vs, rfl⟩

/-! ## Where literals end -/

/-- The text goes on with a comma or a closing parenthesis, or is at its end. -/
def Ended (r : List Char) : Prop := ∀ c, r.head? = some c → c = ',' ∨ c = ')'

theorem ended_nil : Ended [] := nofun

theorem ended_rest (items : List Value) (r : List Char) : Ended (rest items ++ ')' :: r) := by
  intro c hc
  cases items with
  | nil => exact .inr (Option.some.inj hc).symm
  | cons v vs => exact .inl (Option.some.inj hc).symm

/-- Neither of these belongs to a number. -/
theorem takeWhile_toString (i : Int) {r : List Char} (hr : Ended r) :
    ((toString i).toList ++ r).takeWhile (fun c => c.isDigit || c == '-')
      = (toString i).toList := by
  have hall : ∀ c ∈ (toString i).toList, (c.isDigit || c == '-') = true := by
    intro c hc
    simpa using isDigit_or_minus_of_mem_toString hc
  rw [List.takeWhile_append_of_pos hall]
  cases r with
  | nil => simp
  | cons c r => rcases hr c rfl with rfl | rfl <;> simp

/-- A number ends where its digits do. -/
theorem same_of_number? {v w : Value} {i j : Int} (hv : v.number? = some i)
    (hw : w.number? = some j) {r s : List Char} (hr : Ended r) (hs : Ended s)
    (h : v.spelling ++ r = w.spelling ++ s) : Same v w ∧ r = s := by
  rw [spelling, spelling, literal_of_number? hv, literal_of_number? hw] at h
  have hdigits := congrArg (List.takeWhile fun c : Char => c.isDigit || c == '-') h
  rw [takeWhile_toString i hr, takeWhile_toString j hs] at hdigits
  have hij : i = j := eq_of_toString_int_eq hdigits
  subst hij
  exact ⟨.number hv hw, List.append_cancel_left h⟩

/-- A text ends at the quote that stands alone. -/
theorem same_text {t u : String} {r s : List Char} (hr : Ended r) (hs : Ended s)
    (h : (Value.text t).spelling ++ r = (Value.text u).spelling ++ s) :
    Same (.text t) (.text u) ∧ r = s := by
  have hquote {r : List Char} (hr : Ended r) : r.head? ≠ some '\'' := by
    intro hc
    rcases hr _ hc with h | h <;> cases h
  have hread := congrArg (Quoted.read '\'') h
  rw [spelling_text, spelling_text, Quoted.read_enclosed _ (hquote hr),
    Quoted.read_enclosed _ (hquote hs)] at hread
  obtain ⟨htext, hrest⟩ := Prod.mk.inj (Option.some.inj hread)
  rw [String.toList_inj.mp htext]
  exact ⟨.text u, hrest⟩

theorem hexDigit_injective : ∀ m < 16, ∀ n < 16, hexDigit true m = hexDigit true n → m = n := by
  decide

theorem hexDigit_ne_quote : ∀ n < 16, hexDigit true n ≠ '\'' := by
  decide

/-- A byte is told by its two digits. -/
theorem hexByte_injective {b d : UInt8} (h : hexByte true b = hexByte true d) : b = d := by
  simp only [hexByte, List.cons.injEq, and_true] at h
  have hb := b.toNat_lt
  have hd := d.toNat_lt
  have hhigh := hexDigit_injective _ (by omega) _ (by omega) h.1
  have hlow := hexDigit_injective _ (by omega) _ (by omega) h.2
  apply UInt8.toNat_inj.mp
  omega

/-- Bytes end at the quote, which is no digit. -/
theorem eq_of_hex_append {bs ds : List UInt8} {r s : List Char}
    (h : bs.flatMap (hexByte true) ++ '\'' :: r = ds.flatMap (hexByte true) ++ '\'' :: s) :
    bs = ds ∧ r = s := by
  have hne (d : UInt8) : hexDigit true (d.toNat / 16) ≠ '\'' := by
    have hd := d.toNat_lt
    exact hexDigit_ne_quote _ (by omega)
  induction bs generalizing ds with
  | nil =>
    cases ds with
    | nil => exact ⟨rfl, (List.cons.inj h).2⟩
    | cons d ds => exact absurd (List.cons.inj h).1.symm (hne d)
  | cons b bs ih =>
    cases ds with
    | nil => exact absurd (List.cons.inj h).1 (hne b)
    | cons d ds =>
      rw [List.flatMap_cons, List.flatMap_cons, List.append_assoc, List.append_assoc] at h
      obtain ⟨hbyte, hrest⟩ := List.append_inj h rfl
      obtain ⟨rfl, hrs⟩ := ih hrest
      exact ⟨by rw [hexByte_injective hbyte], hrs⟩

theorem same_blob {bs ds : List UInt8} {r s : List Char}
    (h : (Value.blob bs).spelling ++ r = (Value.blob ds).spelling ++ s) :
    Same (.blob bs) (.blob ds) ∧ r = s := by
  rw [spelling_blob, spelling_blob] at h
  simp only [List.cons_append, List.append_assoc, List.cons.injEq, true_and] at h
  obtain ⟨rfl, hrest⟩ := eq_of_hex_append h
  exact ⟨.blob bs, hrest⟩

/-- The literal of the value is told from all others, whatever ended texts stand behind them. -/
def IsTold (v : Value) : Prop :=
  ∀ w, IsExact w → ∀ r s, Ended r → Ended s → v.spelling ++ r = w.spelling ++ s →
    Same v w ∧ r = s

/-- The elements of an array end at its parenthesis. -/
theorem same_of_rest_append {vs ws : List Value} (hvs : ∀ v ∈ vs, IsTold v)
    (hws : ∀ w ∈ ws, IsExact w) {r s : List Char}
    (h : rest vs ++ ')' :: r = rest ws ++ ')' :: s) : List.Forall₂ Same vs ws ∧ r = s := by
  induction vs generalizing ws with
  | nil =>
    cases ws with
    | nil => exact ⟨.nil, (List.cons.inj h).2⟩
    | cons w ws => cases (List.cons.inj h).1
  | cons v vs ih =>
    cases ws with
    | nil => cases (List.cons.inj h).1
    | cons w ws =>
      rw [List.forall_mem_cons] at hvs hws
      rw [rest_cons, rest_cons] at h
      simp only [List.cons_append, List.append_assoc, List.cons.injEq, true_and] at h
      obtain ⟨hvw, hrest⟩ := hvs.1 w hws.1 _ _ (ended_rest vs r) (ended_rest ws s) h
      obtain ⟨hall, hrs⟩ := ih hvs.2 hws.2 hrest
      exact ⟨.cons hvw hall, hrs⟩

/-- What a literal begins with is no closing parenthesis. -/
theorem IsExact.spelling_append_ne {v : Value} (h : IsExact v) (r s : List Char) :
    v.spelling ++ r ≠ ')' :: s := by
  obtain ⟨c, cs, hcs, hkind⟩ := h.exists_spelling
  rw [hcs]
  intro heq
  rw [(List.cons.inj heq).1] at hkind
  cases hkind

theorem same_array {vs ws : List Value} (hvs : ∀ v ∈ vs, IsExact v ∧ IsTold v)
    (hws : ∀ w ∈ ws, IsExact w) {r s : List Char}
    (h : (Value.array vs).spelling ++ r = (Value.array ws).spelling ++ s) :
    Same (.array vs) (.array ws) ∧ r = s := by
  cases vs with
  | nil =>
    cases ws with
    | nil =>
      rw [spelling_array_nil] at h
      exact ⟨.array .nil, List.append_cancel_left h⟩
    | cons w ws =>
      rw [spelling_array_nil, spelling_array_cons] at h
      simp only [List.cons_append, List.append_assoc, List.cons.injEq, true_and] at h
      exact absurd h.symm ((hws w (List.mem_cons_self ..)).spelling_append_ne _ _)
  | cons v vs =>
    rw [List.forall_mem_cons] at hvs
    cases ws with
    | nil =>
      rw [spelling_array_nil, spelling_array_cons] at h
      simp only [List.cons_append, List.append_assoc, List.cons.injEq, true_and] at h
      exact absurd h (hvs.1.1.spelling_append_ne _ _)
    | cons w ws =>
      rw [List.forall_mem_cons] at hws
      rw [spelling_array_cons, spelling_array_cons] at h
      simp only [List.cons_append, List.append_assoc, List.cons.injEq, true_and] at h
      -- The first elements end where the others begin.
      obtain ⟨hvw, hrest⟩ := hvs.1.2 w hws.1 _ _ (ended_rest vs r) (ended_rest ws s) h
      obtain ⟨hall, hrs⟩ := same_of_rest_append (fun v hv => (hvs.2 v hv).2) hws.2 hrest
      exact ⟨.array (.cons hvw hall), hrs⟩

/-- Literals that begin the same text are of one kind. -/
theorem IsExact.kind_eq {v w : Value} (hv : IsExact v) (hw : IsExact w) {r s : List Char}
    (h : v.spelling ++ r = w.spelling ++ s) : v.kind = w.kind := by
  obtain ⟨c, cs, hcs, hc⟩ := hv.exists_spelling
  obtain ⟨d, ds, hds, hd⟩ := hw.exists_spelling
  rw [hcs, hds] at h
  rw [(List.cons.inj h).1, hd] at hc
  exact (Option.some.inj hc).symm

/-- Two texts that begin with the literals of values begin with those of the same value, and go on
alike. -/
theorem IsExact.same_of_append {v : Value} (hv : IsExact v) : IsTold v := by
  -- The induction is over the value; the first character leaves the values of its kind for the other.
  induction hv with
  | null =>
    intro w hw r s hr hs h
    have hkind := kind_eq .null hw h
    cases hw <;> cases hkind
    exact ⟨.null, List.append_cancel_left h⟩
  | bool b =>
    intro w hw r s hr hs h
    have hkind := kind_eq (.bool b) hw h
    cases hw <;> cases hkind
    next d =>
    cases b <;> cases d
    · exact ⟨.bool false, List.append_cancel_left h⟩
    · cases (List.cons.inj h).1
    · cases (List.cons.inj h).1
    · exact ⟨.bool true, List.append_cancel_left h⟩
  | int n =>
    intro w hw r s hr hs h
    have hkind := kind_eq (.int n) hw h
    cases hw <;> cases hkind
    · exact same_of_number? rfl rfl hr hs h
    · exact same_of_number? rfl rfl hr hs h
  | uint n =>
    intro w hw r s hr hs h
    have hkind := kind_eq (.uint n) hw h
    cases hw <;> cases hkind
    · exact same_of_number? rfl rfl hr hs h
    · exact same_of_number? rfl rfl hr hs h
  | text t =>
    intro w hw r s hr hs h
    have hkind := kind_eq (.text t) hw h
    cases hw <;> cases hkind
    exact same_text hr hs h
  | blob bytes =>
    intro w hw r s hr hs h
    have hkind := kind_eq (.blob bytes) hw h
    cases hw <;> cases hkind
    exact same_blob h
  | array hitems ih =>
    intro w hw r s hr hs h
    have hkind := kind_eq (.array hitems) hw h
    cases hw <;> cases hkind
    next hws => exact same_array (fun v hv => ⟨hitems v hv, ih v hv⟩) hws h

/-- The same values have the same literal. -/
theorem IsExact.literal_eq {v : Value} (hv : IsExact v) {w : Value} (h : Same v w) :
    v.literal = w.literal := by
  induction hv generalizing w with
  | @array items hitems ih =>
    cases h with
    | number h _ => cases h
    | @array _ ws hall =>
      have hliterals : items.map literal = ws.map literal := by
        clear hitems
        induction hall with
        | nil => rfl
        | cons hvw _ ihrest =>
          rw [List.forall_mem_cons] at ih
          rw [List.map_cons, List.map_cons, ih.1 hvw, ihrest ih.2]
      rw [literal, literal, literals_eq_map, literals_eq_map, hliterals]
  | _ =>
    cases h with
    | number hv hw => rw [literal_of_number? hv, literal_of_number? hw]
    | _ => rfl

/-- Literals are the same if and only if the values are, up to the types of numbers. The literal of a
text is read up to its last character, and as that text. -/
theorem literals_read_back :
    (∀ v w : Value, IsExact v → IsExact w → (v.literal = w.literal ↔ Same v w))
      ∧ ∀ s : String, Quoted.read '\'' (Value.text s).literal.toList = some (s.toList, []) := by
  refine ⟨fun v w hv hw => ⟨fun h => ?_, hv.literal_eq⟩, fun s => ?_⟩
  · have hspelling : v.spelling ++ [] = w.spelling ++ [] := by
      rw [spelling, spelling, h]
    exact (hv.same_of_append w hw [] [] ended_nil ended_nil hspelling).1
  · have hspelling := spelling_text s
    rw [spelling] at hspelling
    rw [hspelling]
    exact Quoted.read_enclosed_whole s.toList

/-- Arrays in arrays, with a text that looks like the elements around it. The number has another type,
which the literal does not tell; but it tells one text from two. -/
theorem literals_read_back_nested :
    Same (.array [.text "a','b", .array [.int 7, .null], .array []])
        (.array [.text "a','b", .array [.uint 7, .null], .array []])
      ∧ ¬ Same (.array [.text "a','b"]) (.array [.text "a", .text "b"])
      ∧ Quoted.read '\'' (Value.text "a','b").literal.toList = some ("a','b".toList, []) := by
  have hexact (n : Value) (hn : IsExact n) :
      IsExact (.array [.text "a','b", .array [n, .null], .array []]) := by
    have hinner : IsExact (.array [n, .null]) := .array (by simp [hn, IsExact.null])
    have hempty : IsExact (.array []) := .array (by simp)
    exact .array (by simp [hinner, hempty, IsExact.text])
  refine ⟨?_, ?_, literals_read_back.2 _⟩
  · exact (literals_read_back.1 _ _ (hexact _ (.int 7)) (hexact _ (.uint 7))).mp rfl
  · intro hsame
    have hone : IsExact (.array [.text "a','b"]) := .array (by simp [IsExact.text])
    have htwo : IsExact (.array [.text "a", .text "b"]) := .array (by simp [IsExact.text])
    have hliteral := (literals_read_back.1 _ _ hone htwo).mpr hsame
    exact absurd hliteral (by decide)

end Value

end RecordSql
