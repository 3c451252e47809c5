/-
  RecordSql.Proofs.IntegerDefaults

  Defaults of integer columns.

  A number is written with a sign, the mark of a radix and digits.  Reading it
  takes the sign and the mark off, and leaves the rest to a reader that takes
  a sign of its own (`numeral_iff`), so that a second sign behind the mark, or
  behind the first sign, is let through; and the first sign is applied to a
  number that has passed the bounds, so that the least one is refused
  (`IntegerType.read_iff`).

  Those are the only texts that are misread: all others are read as the number
  that they spell, if the type has it, and are refused otherwise
  (`DeclaredField.integer_defaults_exact_iff`).
-/

import Mathlib.Data.Nat.Digits.Defs
import Mathlib.Tactic.NormNum.Basic
import Mathlib.Tactic.Ring
import RecordSql.Proofs.AppendedSettings
import RecordSql.Proofs.DeclaredFields
import RecordSql.Proofs.Numerals

namespace RecordSql

/-! ## Digits -/

namespace Text

variable {radix acc n value : Nat} {c : Char} {digits : List Char}

/-- A character is the digit of a radix with a value, as a letter in either case from ten on. -/
def IsDigitOf (radix : Nat) (c : Char) (value : Nat) : Prop :=
  value < radix ∧ (c = hexDigit false value ∨ c = hexDigit true value)

/-- One or more digits of a radix spell a number, the first of them being the most significant. -/
def Spells (radix : Nat) (digits : List Char) (n : Nat) : Prop :=
  digits ≠ [] ∧ ∃ values, List.Forall₂ (IsDigitOf radix) digits values
    ∧ n = Nat.ofDigits radix values.reverse

theorem eq_ofNat_toNat {code : Nat} (h : c.toNat = code) : c = Char.ofNat code := by
  rw [← h, Char.ofNat_toNat]

theorem digitValue?_hexDigit (upperCase : Bool) (hradix : radix ≤ 16) (hvalue : value < radix) :
    digitValue? radix (hexDigit upperCase value) = some value := by
  have hall : ∀ upperCase : Bool, ∀ radix < 17, ∀ value < radix,
      digitValue? radix (hexDigit upperCase value) = some value := by decide +kernel
  exact hall upperCase radix (by omega) value hvalue

/-- Digits are read by their values. -/
theorem digitValue?_eq_some_iff (hradix : radix ≤ 16) :
    digitValue? radix c = some value ↔ IsDigitOf radix c value := by
  constructor
  · intro h
    rw [digitValue?, Option.filter_eq_some_iff, decide_eq_true_eq] at h
    obtain ⟨hread, hless⟩ := h
    refine ⟨hless, ?_⟩
    split at hread
    · next hrange =>
      have hlow : 48 ≤ c.toNat := hrange.1
      have hhigh : c.toNat ≤ 57 := hrange.2
      have hvalue : c.toNat - 48 = value := Option.some.inj hread
      left
      rw [hexDigit, if_pos (by omega)]
      exact eq_ofNat_toNat (by show c.toNat = 48 + value; omega)
    · split at hread
      · next hrange =>
        have hlow : 97 ≤ c.toNat := hrange.1
        have hvalue : c.toNat - 97 + 10 = value := Option.some.inj hread
        left
        rw [hexDigit, if_neg (by omega)]
        exact eq_ofNat_toNat (by show c.toNat = 97 + (value - 10); omega)
      · split at hread
        · next hrange =>
          have hlow : 65 ≤ c.toNat := hrange.1
          have hvalue : c.toNat - 65 + 10 = value := Option.some.inj hread
          right
          rw [hexDigit, if_neg (by omega)]
          exact eq_ofNat_toNat (by show c.toNat = 65 + (value - 10); omega)
        · cases hread
  · rintro ⟨hless, rfl | rfl⟩
    · exact digitValue?_hexDigit false hradix hless
    · exact digitValue?_hexDigit true hradix hless

theorem IsDigitOf.isDigit (h : IsDigitOf 10 c value) : c.isDigit = true := by
  have hall : ∀ value < 10, ∀ upperCase : Bool, (hexDigit upperCase value).isDigit = true := by decide
  obtain ⟨hless, rfl | rfl⟩ := h
  · exact hall value hless false
  · exact hall value hless true

theorem natFrom?_eq_some_iff (hradix : radix ≤ 16) :
    natFrom? radix acc digits = some n ↔ ∃ values, List.Forall₂ (IsDigitOf radix) digits values
      ∧ n = Nat.ofDigits radix values.reverse + radix ^ values.length * acc := by
  induction digits generalizing acc with
  | nil =>
    rw [natFrom?]
    constructor
    · intro h
      exact ⟨[], .nil, by simp [Option.some.inj h]⟩
    · rintro ⟨values, hvalues, rfl⟩
      cases hvalues
      simp
  | cons c digits ih =>
    have hplaces : ∀ (d : Nat) (values : List Nat),
        Nat.ofDigits radix (d :: values).reverse + radix ^ (d :: values).length * acc
          = Nat.ofDigits radix values.reverse + radix ^ values.length * (acc * radix + d) := by
      intro d values
      rw [List.reverse_cons, Nat.ofDigits_append, Nat.ofDigits_singleton, List.length_reverse,
        List.length_cons]
      ring
    rw [natFrom?, Option.bind_eq_some_iff]
    constructor
    · rintro ⟨d, hd, hrest⟩
      obtain ⟨values, hvalues, hn⟩ := ih.mp hrest
      refine ⟨d :: values, .cons ((digitValue?_eq_some_iff hradix).mp hd) hvalues, ?_⟩
      rw [hn, hplaces]
    · rintro ⟨values, hvalues, hn⟩
      cases hvalues with
      | @cons _ d _ values hd hvalues =>
        refine ⟨d, (digitValue?_eq_some_iff hradix).mpr hd, ih.mpr ⟨values, hvalues, ?_⟩⟩
        rw [hn, hplaces]

/-- Digits are read as the number that they spell. -/
theorem nat?_eq_some_iff (hradix : radix ≤ 16) :
    nat? radix digits = some n ↔ Spells radix digits n := by
  cases digits with
  | nil => exact iff_of_false (fun h => nomatch h) fun h => h.1 rfl
  | cons c digits =>
    rw [nat?, natFrom?_eq_some_iff hradix, Spells, and_iff_right (List.cons_ne_nil _ _)]
    simp only [Nat.mul_zero, Nat.add_zero]

/-- Every character that spells a number is a digit. -/
theorem Spells.exists_value (h : Spells radix digits n) (hc : c ∈ digits) :
    ∃ value, IsDigitOf radix c value := by
  obtain ⟨-, values, hvalues, -⟩ := h
  induction hvalues with
  | nil => cases hc
  | @cons first value rest _ hfirst _ ih =>
    rcases List.mem_cons.mp hc with rfl | hrest
    · exact ⟨value, hfirst⟩
    · exact ih hrest

end Text

/-! ## Signs and marks -/

namespace Default

open Text

/-- A sign in front of a number, or none. -/
inductive Sign where
  | none
  | plus
  | minus
  deriving DecidableEq, Repr

namespace Sign

/-- The sign as it is written. -/
def text : Sign → List Char
  | .none => []
  | .plus => ['+']
  | .minus => ['-']

/-- What the number behind the sign is multiplied by. -/
def factor : Sign → Int
  | .none => 1
  | .plus => 1
  | .minus => -1

/-- The sign that a text starts with, and what stands behind it. -/
def split : List Char → Sign × List Char
  | '-' :: rest => (.minus, rest)
  | '+' :: rest => (.plus, rest)
  | cs => (.none, cs)

end Sign

/-- The marks of the radices; ten has none. -/
def radixMarks : List (List Char × Nat) :=
  [([], 10), (['0', 'x'], 16), (['0', 'X'], 16), (['0', 'o'], 8), (['0', 'O'], 8), (['0', 'b'], 2),
    (['0', 'B'], 2)]

/-- A text is a number: a sign, the mark of a radix, another sign, and digits. Each but the digits may be
missing; one sign that stands in front of the digits is the first. -/
inductive Numeral : List Char → Sign → Sign → Nat → Prop where
  | mk {mark : List Char} {radix n : Nat} {digits : List Char} (outer inner : Sign)
      (hmark : (mark, radix) ∈ radixMarks) (hdigits : Spells radix digits n)
      (hlone : mark = [] → outer = .none → inner = .none) :
      Numeral (outer.text ++ mark ++ inner.text ++ digits) outer inner n

/-- A text is a number as it is meant to be written: a sign, the mark of a radix, and digits. -/
def Written (raw : List Char) (sign : Sign) (n : Nat) : Prop :=
  ∃ mark radix digits, (mark, radix) ∈ radixMarks ∧ Spells radix digits n
    ∧ raw = sign.text ++ mark ++ digits

/-- A text as it is taken apart. -/
structure Taken where
  outer : Sign
  radix : Nat
  inner : Sign
  digits : List Char

/-- Takes off a sign, the mark of a radix, and another sign. -/
def taken (raw : List Char) : Taken :=
  let signed := Sign.split raw
  let marked := splitRadix signed.2
  let rest := Sign.split marked.1
  ⟨signed.1, marked.2, rest.1, rest.2⟩

section Taken

variable {raw cs rest mark digits : List Char} {radix n : Nat} {outer inner sign : Sign}

/-- No sign is taken off a text that starts with none. -/
theorem Sign.split_of_head {c : Char} (hplus : c ≠ '+') (hminus : c ≠ '-') :
    Sign.split (c :: cs) = (.none, c :: cs) := by
  rw [Sign.split]
  · exact fun rest h => hminus (List.cons.inj h).1
  · exact fun rest h => hplus (List.cons.inj h).1

theorem Sign.split_eq (cs : List Char) : cs = (Sign.split cs).1.text ++ (Sign.split cs).2 := by
  unfold Sign.split
  split <;> rfl

theorem Sign.split_cases (cs : List Char) : (∃ rest, cs = '-' :: rest) ∨ (∃ rest, cs = '+' :: rest)
    ∨ (∀ rest, cs ≠ '-' :: rest) ∧ (∀ rest, cs ≠ '+' :: rest) ∧ Sign.split cs = (.none, cs) := by
  by_cases hminus : ∃ rest, cs = '-' :: rest
  · exact .inl hminus
  by_cases hplus : ∃ rest, cs = '+' :: rest
  · exact .inr (.inl hplus)
  refine .inr (.inr ⟨not_exists.mp hminus, not_exists.mp hplus, ?_⟩)
  rw [Sign.split]
  · exact not_exists.mp hminus
  · exact not_exists.mp hplus

theorem Sign.split_of_spells (h : Spells radix digits n) (hradix : radix ≤ 16) :
    Sign.split digits = (.none, digits) := by
  obtain ⟨c, rest, rfl⟩ := List.exists_cons_of_ne_nil h.1
  obtain ⟨value, hless, hc⟩ := h.exists_value (List.mem_cons_self ..)
  have hsigns : ∀ value < 16, ∀ upperCase : Bool, hexDigit upperCase value ≠ '+'
      ∧ hexDigit upperCase value ≠ '-' := by decide
  obtain rfl | rfl := hc
  · obtain ⟨hplus, hminus⟩ := hsigns value (by omega) false
    exact Sign.split_of_head hplus hminus
  · obtain ⟨hplus, hminus⟩ := hsigns value (by omega) true
    exact Sign.split_of_head hplus hminus

/-- A mark is taken off whatever stands behind it. -/
theorem splitRadix_mark (hmark : (mark, radix) ∈ radixMarks) (hne : mark ≠ []) (rest : List Char) :
    splitRadix (mark ++ rest) = (rest, radix) := by
  simp only [radixMarks, List.mem_cons, Prod.mk.injEq, List.not_mem_nil, or_false] at hmark
  obtain ⟨rfl, rfl⟩ | ⟨rfl, rfl⟩ | ⟨rfl, rfl⟩ | ⟨rfl, rfl⟩ | ⟨rfl, rfl⟩ | ⟨rfl, rfl⟩ | ⟨rfl, rfl⟩ := hmark
  · exact absurd rfl hne
  all_goals rfl

theorem eq_of_toLower {c letter : Char} (hletter : letter = 'x' ∨ letter = 'o' ∨ letter = 'b')
    (h : c.toLower = letter) : c = letter ∨ c = letter.toUpper := by
  have hsmall : letter.toNat < 0x80 := by
    obtain rfl | rfl | rfl := hletter <;> decide
  have hcodes : ∀ code < 0x80, (Char.ofNat code).toLower = letter →
      Char.ofNat code = letter ∨ Char.ofNat code = letter.toUpper := by
    obtain rfl | rfl | rfl := hletter <;> decide +kernel
  have hc := hcodes c.toNat (Tag.ascii_of_toLower (by rw [h]; exact hsmall))
  rw [Char.ofNat_toNat] at hc
  exact hc h

/-- What is taken off a text is the mark of the radix. -/
theorem exists_mark (cs : List Char) :
    ∃ mark, (mark, (splitRadix cs).2) ∈ radixMarks ∧ cs = mark ++ (splitRadix cs).1 := by
  unfold splitRadix
  split
  · next c rest =>
    split
    · next h =>
      obtain rfl | rfl := eq_of_toLower (by simp) h
      · exact ⟨['0', 'x'], by simp [radixMarks], rfl⟩
      · exact ⟨['0', 'X'], by simp [radixMarks], rfl⟩
    · next h =>
      obtain rfl | rfl := eq_of_toLower (by simp) h
      · exact ⟨['0', 'o'], by simp [radixMarks], rfl⟩
      · exact ⟨['0', 'O'], by simp [radixMarks], rfl⟩
    · next h =>
      obtain rfl | rfl := eq_of_toLower (by simp) h
      · exact ⟨['0', 'b'], by simp [radixMarks], rfl⟩
      · exact ⟨['0', 'B'], by simp [radixMarks], rfl⟩
    · exact ⟨[], by simp [radixMarks], rfl⟩
  · exact ⟨[], by simp [radixMarks], rfl⟩

theorem eq_ten_of_nil (h : ([], radix) ∈ radixMarks) : radix = 10 := by
  simpa [radixMarks] using h

theorem le_sixteen_of_mark (h : (mark, radix) ∈ radixMarks) : radix ≤ 16 := by
  have hall : ∀ entry ∈ radixMarks, entry.2 ≤ 16 := by decide
  exact hall _ h

theorem exists_zero_of_mark (hmark : (mark, radix) ∈ radixMarks) (hne : mark ≠ []) :
    ∃ letter, mark = ['0', letter] ∧ letter.isDigit = false := by
  simp only [radixMarks, List.mem_cons, Prod.mk.injEq, List.not_mem_nil, or_false] at hmark
  obtain ⟨rfl, -⟩ | ⟨rfl, -⟩ | ⟨rfl, -⟩ | ⟨rfl, -⟩ | ⟨rfl, -⟩ | ⟨rfl, -⟩ | ⟨rfl, -⟩ := hmark
  · exact absurd rfl hne
  all_goals exact ⟨_, rfl, by decide⟩

/-- Decimal digits have no mark. -/
theorem splitRadix_of_spells (h : Spells 10 digits n) : splitRadix digits = (digits, 10) := by
  obtain ⟨mark, hmark, hdigits⟩ := exists_mark digits
  by_cases hne : mark = []
  · subst hne
    exact Prod.ext hdigits.symm (eq_ten_of_nil hmark)
  · exfalso
    obtain ⟨letter, rfl, hnot⟩ := exists_zero_of_mark hmark hne
    have hmem : letter ∈ digits := by
      rw [hdigits]
      simp
    obtain ⟨value, hdigit⟩ := h.exists_value hmem
    rw [IsDigitOf.isDigit hdigit] at hnot
    cases hnot

theorem Sign.split_text (h : Sign.split cs = (.none, cs)) (sign : Sign) :
    Sign.split (sign.text ++ cs) = (sign, cs) := by
  cases sign with
  | none => exact h
  | plus => rfl
  | minus => rfl

theorem Sign.split_of_none (h : (Sign.split cs).1 = .none) : Sign.split cs = (.none, cs) := by
  have hcs := Sign.split_eq cs
  rw [h] at hcs
  exact Prod.ext h hcs.symm

/-- The parts of a number are taken off it one by one. -/
theorem taken_numeral (hmark : (mark, radix) ∈ radixMarks) (hdigits : Spells radix digits n)
    (hlone : mark = [] → outer = .none → inner = .none) :
    taken (outer.text ++ mark ++ inner.text ++ digits) = ⟨outer, radix, inner, digits⟩ := by
  have hrest : Sign.split (inner.text ++ digits) = (inner, digits) :=
    Sign.split_text (Sign.split_of_spells hdigits (le_sixteen_of_mark hmark)) inner
  have hmarked : splitRadix (mark ++ (inner.text ++ digits)) = (inner.text ++ digits, radix) := by
    -- Without a mark the radix is ten, and neither a sign nor decimal digits start as a mark does.
    by_cases hne : mark = []
    · subst hne
      obtain rfl := eq_ten_of_nil hmark
      cases inner with
      | none => exact splitRadix_of_spells hdigits
      | plus => cases digits <;> rfl
      | minus => cases digits <;> rfl
    · exact splitRadix_mark hmark hne _
  have hsigned : Sign.split (outer.text ++ (mark ++ (inner.text ++ digits)))
      = (outer, mark ++ (inner.text ++ digits)) := by
    -- A mark starts with a zero; without one a sign in front is the first, and digits have none.
    by_cases hne : mark = []
    · subst hne
      cases outer with
      | none =>
        obtain rfl := hlone rfl rfl
        exact hrest
      | plus => rfl
      | minus => rfl
    · obtain ⟨letter, rfl, -⟩ := exists_zero_of_mark hmark hne
      exact Sign.split_text (Sign.split_of_head (by decide) (by decide)) outer
  rw [List.append_assoc, List.append_assoc, taken, hsigned]
  dsimp only
  rw [hmarked]
  dsimp only
  rw [hrest]

/-- Whatever stands in front of the digits of a number is what is taken off it. -/
theorem numeral_iff :
    Numeral raw outer inner n ↔ (taken raw).outer = outer ∧ (taken raw).inner = inner
      ∧ Spells (taken raw).radix (taken raw).digits n := by
  constructor
  · rintro ⟨outer, inner, hmark, hdigits, hlone⟩
    rw [taken_numeral hmark hdigits hlone]
    exact ⟨rfl, rfl, hdigits⟩
  · rintro ⟨rfl, rfl, hdigits⟩
    have hsigned := Sign.split_eq raw
    obtain ⟨mark, hmark, hmarked⟩ := exists_mark (Sign.split raw).2
    have hrest := Sign.split_eq (splitRadix (Sign.split raw).2).1
    have hlone : mark = [] → (taken raw).outer = .none → (taken raw).inner = .none := by
      -- Nothing was taken off, so that the second sign is looked for where the first one was.
      rintro rfl houter
      have hwhole := Sign.split_of_none houter
      have hsame : (splitRadix (Sign.split raw).2).1 = raw := by
        rw [← hmarked.trans (List.nil_append _), hwhole]
      show (Sign.split (splitRadix (Sign.split raw).2).1).1 = .none
      rw [hsame, hwhole]
    have hraw : raw = (taken raw).outer.text ++ mark ++ (taken raw).inner.text ++ (taken raw).digits := by
      calc raw = (Sign.split raw).1.text ++ (Sign.split raw).2 := hsigned
        _ = (Sign.split raw).1.text ++ (mark ++ (splitRadix (Sign.split raw).2).1) := by rw [← hmarked]
        _ = (Sign.split raw).1.text ++ (mark ++ ((taken raw).inner.text ++ (taken raw).digits)) :=
          congrArg (fun cs => (Sign.split raw).1.text ++ (mark ++ cs)) hrest
        _ = (taken raw).outer.text ++ mark ++ (taken raw).inner.text ++ (taken raw).digits := by
          rw [List.append_assoc, List.append_assoc]
          rfl
    have hnumeral := Numeral.mk (taken raw).outer (taken raw).inner hmark hdigits hlone
    rwa [← hraw] at hnumeral

theorem radix_taken_le (raw : List Char) : (taken raw).radix ≤ 16 := by
  obtain ⟨mark, hmark, -⟩ := exists_mark (Sign.split raw).2
  exact le_sixteen_of_mark hmark

theorem signed?_eq_split (bits radix : Nat) (cs : List Char) :
    signed? bits radix cs
      = ((nat? radix (Sign.split cs).2).map fun n : Nat => (Sign.split cs).1.factor * n).filter
        fun n => -(Nat.pow 2 (bits - 1) : Int) ≤ n && n < Nat.pow 2 (bits - 1) := by
  obtain ⟨rest, rfl⟩ | ⟨rest, rfl⟩ | ⟨hminus, hplus, hsplit⟩ := Sign.split_cases cs
  · have hsplit : Sign.split ('-' :: rest) = (.minus, rest) := rfl
    rw [hsplit, signed?]
    cases nat? radix rest <;> simp [Sign.factor]
  · have hsplit : Sign.split ('+' :: rest) = (.plus, rest) := rfl
    rw [hsplit, signed?]
    cases nat? radix rest <;> simp [Sign.factor]
  · rw [hsplit, signed?]
    · cases nat? radix cs <;> simp [Sign.factor]
    · exact hplus
    · exact hminus

theorem int?_eq_split (raw : List Char) :
    int? raw = (signed? 64 (splitRadix (Sign.split raw).2).2 (splitRadix (Sign.split raw).2).1).map
      fun n => if (Sign.split raw).1 = .minus then -(Int64.ofInt n) else Int64.ofInt n := by
  obtain ⟨rest, rfl⟩ | ⟨rest, rfl⟩ | ⟨hminus, hplus, hsplit⟩ := Sign.split_cases raw
  · rfl
  · rfl
  · rw [hsplit, int?]
    · rfl
    · exact hminus
    · exact hplus

theorem ofInt_factor (sign : Sign) (n : Int) :
    (if sign = .minus then -(Int64.ofInt n) else Int64.ofInt n) = Int64.ofInt (sign.factor * n) := by
  cases sign with
  | none => rw [if_neg (by decide), Sign.factor, Int.one_mul]
  | plus => rw [if_neg (by decide), Sign.factor, Int.one_mul]
  | minus => rw [if_pos rfl, Sign.factor, Int64.neg_ofInt, Int.neg_one_mul]

/-- Both signs of a signed number count; the bounds are those of the number behind the first one. -/
theorem int?_eq_some_iff {i : Int64} : int? raw = some i ↔ ∃ outer inner n, Numeral raw outer inner n
    ∧ -2 ^ 63 ≤ inner.factor * (n : Int) ∧ inner.factor * (n : Int) < 2 ^ 63
    ∧ i = Int64.ofInt (outer.factor * (inner.factor * n)) := by
  have hbounds : (Nat.pow 2 (64 - 1) : Int) = 2 ^ 63 := by norm_num
  rw [int?_eq_split, signed?_eq_split]
  simp only [hbounds, ofInt_factor, Option.map_eq_some_iff, Option.filter_eq_some_iff,
    Bool.and_eq_true, decide_eq_true_eq]
  constructor
  · rintro ⟨_, ⟨⟨n, hn, rfl⟩, hlow, hhigh⟩, rfl⟩
    exact ⟨_, _, n, numeral_iff.mpr ⟨rfl, rfl, (nat?_eq_some_iff (radix_taken_le raw)).mp hn⟩, hlow,
      hhigh, rfl⟩
  · rintro ⟨outer, inner, n, hnumeral, hlow, hhigh, rfl⟩
    obtain ⟨rfl, rfl, hdigits⟩ := numeral_iff.mp hnumeral
    exact ⟨_, ⟨⟨n, (nat?_eq_some_iff (radix_taken_le raw)).mpr hdigits, rfl⟩, hlow, hhigh⟩, rfl⟩

theorem nat?_minus (hradix : radix ≤ 16) (cs : List Char) : nat? radix ('-' :: cs) = none := by
  rw [Option.eq_none_iff_forall_ne_some]
  intro n hn
  have hsplit := Sign.split_of_spells ((nat?_eq_some_iff hradix).mp hn) hradix
  cases hsplit

theorem unsigned?_eq_split (bits : Nat) (hradix : radix ≤ 16) (cs : List Char) :
    unsigned? bits radix cs = if (Sign.split cs).1 = .minus then none
      else (nat? radix (Sign.split cs).2).filter (· < Nat.pow 2 bits) := by
  obtain ⟨rest, rfl⟩ | ⟨rest, rfl⟩ | ⟨-, hplus, hsplit⟩ := Sign.split_cases cs
  · have hread : unsigned? bits radix ('-' :: rest)
        = (nat? radix ('-' :: rest)).filter (· < Nat.pow 2 bits) := rfl
    rw [hread, nat?_minus hradix]
    rfl
  · rfl
  · rw [hsplit, unsigned?, if_neg Sign.noConfusion]
    exact hplus

theorem uint?_eq_split (raw : List Char) :
    uint? raw = if (Sign.split raw).1 = .minus then none
      else (unsigned? 64 (splitRadix (Sign.split raw).2).2 (splitRadix (Sign.split raw).2).1).map
        UInt64.ofNat := by
  obtain ⟨rest, rfl⟩ | ⟨rest, rfl⟩ | ⟨-, hplus, hsplit⟩ := Sign.split_cases raw
  · have hread : uint? ('-' :: rest) = (unsigned? 64 10 ('-' :: rest)).map UInt64.ofNat := by
      cases rest <;> rfl
    rw [hread, unsigned?_eq_split 64 (by decide)]
    rfl
  · rfl
  · rw [hsplit, uint?, if_neg Sign.noConfusion]
    exact hplus

/-- A number of an unsigned type has no minus. -/
theorem uint?_eq_some_iff {i : UInt64} : uint? raw = some i ↔ ∃ outer inner n, Numeral raw outer inner n
    ∧ outer ≠ .minus ∧ inner ≠ .minus ∧ n < 2 ^ 64 ∧ i = UInt64.ofNat n := by
  have hradix : (splitRadix (Sign.split raw).2).2 ≤ 16 := radix_taken_le raw
  have hbound : Nat.pow 2 64 = 2 ^ 64 := rfl
  rw [uint?_eq_split, unsigned?_eq_split 64 hradix]
  simp only [hbound, Option.ite_none_left_eq_some, Option.map_eq_some_iff, Option.filter_eq_some_iff,
    decide_eq_true_eq]
  constructor
  · rintro ⟨houter, n, ⟨hinner, hn, hless⟩, rfl⟩
    exact ⟨_, _, n, numeral_iff.mpr ⟨rfl, rfl, (nat?_eq_some_iff hradix).mp hn⟩, houter, hinner, hless,
      rfl⟩
  · rintro ⟨outer, inner, n, hnumeral, houter, hinner, hless, rfl⟩
    obtain ⟨rfl, rfl, hdigits⟩ := numeral_iff.mp hnumeral
    exact ⟨houter, n, ⟨hinner, (nat?_eq_some_iff hradix).mpr hdigits, hless⟩, rfl⟩

/-- Without a second sign a number is as it is meant to be written. -/
theorem numeral_none_iff : Numeral raw sign .none n ↔ Written raw sign n := by
  constructor
  · rintro ⟨-, -, hmark, hdigits, -⟩
    exact ⟨_, _, _, hmark, hdigits, by rw [Sign.text, List.append_nil]⟩
  · rintro ⟨mark, radix, digits, hmark, hdigits, rfl⟩
    have hnumeral := Numeral.mk sign .none hmark hdigits fun _ _ => rfl
    rwa [Sign.text, List.append_nil] at hnumeral

theorem Numeral.unique {outer' inner' : Sign} {n' : Nat} (h : Numeral raw outer inner n)
    (h' : Numeral raw outer' inner' n') : outer = outer' ∧ inner = inner' ∧ n = n' := by
  obtain ⟨rfl, rfl, hn⟩ := numeral_iff.mp h
  obtain ⟨rfl, rfl, hn'⟩ := numeral_iff.mp h'
  rw [← nat?_eq_some_iff (radix_taken_le raw)] at hn hn'
  exact ⟨rfl, rfl, Option.some.inj (hn.symm.trans hn')⟩

end Taken

/-! ## Integer types -/

/-- An integer type of columns: the signs that its numbers have, its bounds, the value of a number, and
the reader of its defaults. -/
structure IntegerType where
  type : DataType
  signs : List Sign
  low : Int
  high : Int
  value : Int → Value
  read : List Char → Option Value

namespace IntegerType

/-- Integers of 64 bits with a sign. -/
def signed : IntegerType where
  type := .int
  signs := [.none, .plus, .minus]
  low := -2 ^ 63
  high := 2 ^ 63 - 1
  value i := .int (Int64.ofInt i)
  read raw := (int? raw).map .int

/-- Integers of 64 bits without a sign. -/
def unsigned : IntegerType where
  type := .uint
  signs := [.none, .plus]
  low := 0
  high := 2 ^ 64 - 1
  value i := .uint (UInt64.ofNat i.toNat)
  read raw := (uint? raw).map .uint

/-- Both integer types. -/
def all : List IntegerType := [signed, unsigned]

/-- The type has a number. -/
def Holds (t : IntegerType) (i : Int) : Prop := t.low ≤ i ∧ i ≤ t.high

instance (t : IntegerType) (i : Int) : Decidable (t.Holds i) := inferInstanceAs (Decidable (_ ∧ _))

variable {t : IntegerType} {raw : List Char} {outer inner : Sign} {n : Nat}

theorem mem_signs_signed (sign : Sign) : sign ∈ signed.signs := by
  cases sign <;> decide

theorem mem_signs_unsigned : outer ∈ unsigned.signs ↔ outer ≠ .minus := by
  cases outer <;> decide

theorem factor_of_ne_minus (h : outer ≠ .minus) : outer.factor = 1 := by
  cases outer with
  | none => rfl
  | plus => rfl
  | minus => exact absurd rfl h

theorem read_signed (raw : List Char) : signed.read raw = (int? raw).map .int := rfl

theorem read_unsigned (raw : List Char) : unsigned.read raw = (uint? raw).map .uint := rfl

theorem read_signed_iff {v : Value} : signed.read raw = some v ↔ ∃ outer ∈ signed.signs,
    ∃ inner ∈ signed.signs, ∃ n, Numeral raw outer inner n ∧ signed.Holds (inner.factor * n)
      ∧ v = signed.value (outer.factor * (inner.factor * n)) := by
  simp only [read_signed, Option.map_eq_some_iff, int?_eq_some_iff]
  constructor
  · rintro ⟨_, ⟨outer, inner, n, hnumeral, hlow, hhigh, rfl⟩, rfl⟩
    exact ⟨outer, mem_signs_signed outer, inner, mem_signs_signed inner, n, hnumeral,
      ⟨hlow, Int.le_sub_one_of_lt hhigh⟩, rfl⟩
  · rintro ⟨outer, -, inner, -, n, hnumeral, ⟨hlow, hhigh⟩, rfl⟩
    exact ⟨_, ⟨outer, inner, n, hnumeral, hlow, Int.lt_of_le_sub_one hhigh, rfl⟩, rfl⟩

theorem read_unsigned_iff {v : Value} : unsigned.read raw = some v ↔ ∃ outer ∈ unsigned.signs,
    ∃ inner ∈ unsigned.signs, ∃ n, Numeral raw outer inner n ∧ unsigned.Holds (inner.factor * n)
      ∧ v = unsigned.value (outer.factor * (inner.factor * n)) := by
  simp only [read_unsigned, Option.map_eq_some_iff, uint?_eq_some_iff, mem_signs_unsigned]
  constructor
  · rintro ⟨_, ⟨outer, inner, n, hnumeral, houter, hinner, hless, rfl⟩, rfl⟩
    refine ⟨outer, houter, inner, hinner, n, hnumeral, ?_, ?_⟩
    · rw [factor_of_ne_minus hinner]
      show (0 : Int) ≤ 1 * n ∧ (1 * n : Int) ≤ 2 ^ 64 - 1
      omega
    · rw [factor_of_ne_minus houter, factor_of_ne_minus hinner, Int.one_mul, Int.one_mul]
      rfl
  · rintro ⟨outer, houter, inner, hinner, n, hnumeral, hholds, rfl⟩
    rw [factor_of_ne_minus hinner] at hholds
    have hbounds : (0 : Int) ≤ 1 * n ∧ (1 * n : Int) ≤ 2 ^ 64 - 1 := hholds
    refine ⟨_, ⟨outer, inner, n, hnumeral, houter, hinner, by omega, rfl⟩, ?_⟩
    rw [factor_of_ne_minus houter, factor_of_ne_minus hinner, Int.one_mul, Int.one_mul]
    rfl

/-- What is read: a number that may have two signs, if the part behind the first sign is within the
bounds. -/
theorem read_iff (ht : t ∈ all) {v : Value} : t.read raw = some v ↔ ∃ outer ∈ t.signs, ∃ inner ∈ t.signs,
    ∃ n, Numeral raw outer inner n ∧ t.Holds (inner.factor * n)
      ∧ v = t.value (outer.factor * (inner.factor * n)) := by
  simp only [all, List.mem_cons, List.not_mem_nil, or_false] at ht
  obtain rfl | rfl := ht
  · exact read_signed_iff
  · exact read_unsigned_iff

/-- A number is read by its signs, and refused if the part behind the first sign is out of bounds. -/
theorem read_numeral (ht : t ∈ all) (h : Numeral raw outer inner n) :
    t.read raw = if outer ∈ t.signs ∧ inner ∈ t.signs ∧ t.Holds (inner.factor * n)
      then some (t.value (outer.factor * (inner.factor * n))) else none := by
  split
  · next hall =>
    obtain ⟨houter, hinner, hholds⟩ := hall
    exact (read_iff ht).mpr ⟨outer, houter, inner, hinner, n, h, hholds, rfl⟩
  · next hnot =>
    rw [Option.eq_none_iff_forall_ne_some]
    intro v hv
    obtain ⟨outer', houter, inner', hinner, n', h', hholds, -⟩ := (read_iff ht).mp hv
    obtain ⟨rfl, rfl, rfl⟩ := h.unique h'
    exact hnot ⟨houter, hinner, hholds⟩

/-- A type with a minus has one number more below zero than above, and one without has none there. -/
theorem bounds (ht : t ∈ all) : 0 ≤ t.high ∧ (t.low = -(t.high + 1) ∧ Sign.minus ∈ t.signs
    ∨ t.low = 0 ∧ Sign.minus ∉ t.signs) := by
  simp only [all, List.mem_cons, List.not_mem_nil, or_false] at ht
  obtain rfl | rfl := ht
  · exact ⟨by decide, .inl (by decide)⟩
  · exact ⟨by decide, .inr (by decide)⟩

/-- A minus reaches one number further than the other signs. -/
theorem low_of_minus (ht : t ∈ all) (hminus : Sign.minus ∈ t.signs) : t.low = -(t.high + 1) :=
  ((bounds ht).2.resolve_right fun h => h.2 hminus).1

theorem none_mem_signs (ht : t ∈ all) : Sign.none ∈ t.signs := by
  simp only [all, List.mem_cons, List.not_mem_nil, or_false] at ht
  obtain rfl | rfl := ht <;> decide

/-- A text is misread. -/
inductive Misread (t : IntegerType) (raw : List Char) : Prop where
  /-- A sign behind the mark, or behind the first sign, is let through. -/
  | secondSign {outer inner : Sign} {n : Nat} (houter : outer ∈ t.signs) (hinner : inner ∈ t.signs)
      (hsecond : inner ≠ .none) (hnumeral : Numeral raw outer inner n)
      (hholds : t.Holds (inner.factor * n))
  /-- The least number is refused. -/
  | least {n : Nat} (hminus : Sign.minus ∈ t.signs) (hwritten : Written raw .minus n)
      (hleast : -(n : Int) = t.low)

/-- The number that is read does not fit in the type: its first sign is applied too late. -/
def Overflows (t : IntegerType) (raw : List Char) : Prop :=
  ∃ outer inner n, Numeral raw outer inner n ∧ (t.read raw).isSome
    ∧ ¬t.Holds (outer.factor * (inner.factor * n))

/-- The first sign is too late only for the least number, and only behind another minus. -/
theorem overflows_iff (ht : t ∈ all) : t.Overflows raw
    ↔ Sign.minus ∈ t.signs ∧ ∃ n : Nat, Numeral raw .minus .minus n ∧ -(n : Int) = t.low := by
  have hhigh := (bounds ht).1
  constructor
  · rintro ⟨outer, inner, n, hnumeral, hread, hnot⟩
    rw [read_numeral ht hnumeral] at hread
    split at hread
    · next hall =>
      obtain ⟨houter, -, hholds⟩ := hall
      -- What is behind the first sign is within the bounds, and only a minus changes it.
      have hminus : outer = .minus := by
        by_contra hne
        rw [factor_of_ne_minus hne, Int.one_mul] at hnot
        exact hnot hholds
      subst hminus
      have hlow := low_of_minus ht houter
      have hinner : inner = .minus := by
        by_contra hne
        rw [factor_of_ne_minus hne, Sign.factor] at hnot
        rw [factor_of_ne_minus hne] at hholds
        unfold Holds at hnot hholds
        omega
      subst hinner
      unfold Holds at hnot hholds
      rw [Sign.factor] at hnot hholds
      exact ⟨houter, n, hnumeral, by omega⟩
    · cases hread
  · rintro ⟨hminus, n, hnumeral, hleast⟩
    have hholds : t.Holds (Sign.minus.factor * n) := by
      unfold Holds
      rw [Sign.factor]
      omega
    refine ⟨_, _, n, hnumeral, ?_, ?_⟩
    · rw [read_numeral ht hnumeral, if_pos ⟨hminus, hminus, hholds⟩]
      rfl
    · unfold Holds
      rw [Sign.factor]
      have hlow := low_of_minus ht hminus
      omega

/-- A number of the type with one sign is read as it is written, unless it is the least one. -/
theorem read_written (ht : t ∈ all) {sign : Sign} (hsign : sign ∈ t.signs) (hwritten : Written raw sign n)
    (hholds : t.Holds (sign.factor * n)) (hleast : sign = .minus → -(n : Int) ≠ t.low) :
    t.read raw = some (t.value (sign.factor * n)) := by
  have hbehind : t.Holds (Sign.none.factor * n) := by
    have hhigh := (bounds ht).1
    by_cases hminus : sign = .minus
    · have hlow := low_of_minus ht (hminus ▸ hsign)
      have hne := hleast hminus
      subst hminus
      unfold Holds at hholds ⊢
      simp only [Sign.factor] at hholds ⊢
      omega
    · rw [factor_of_ne_minus hminus] at hholds
      exact hholds
  rw [read_numeral ht (numeral_none_iff.mpr hwritten), if_pos ⟨hsign, none_mem_signs ht, hbehind⟩,
    Sign.factor, Int.one_mul]

/-- The least number is refused. -/
theorem read_least (ht : t ∈ all) (hminus : Sign.minus ∈ t.signs) (hwritten : Written raw .minus n)
    (hleast : -(n : Int) = t.low) : t.read raw = none := by
  rw [read_numeral ht (numeral_none_iff.mpr hwritten), if_neg]
  rintro ⟨-, -, -, hle⟩
  have hlow := low_of_minus ht hminus
  rw [Sign.factor] at hle
  omega

/-- What is no number of the type with one sign is refused, unless it has two. -/
theorem read_unwritten (ht : t ∈ all)
    (hnone : ∀ sign ∈ t.signs, ∀ n, Written raw sign n → ¬t.Holds (sign.factor * n))
    (hsingle : ¬t.Misread raw) : t.read raw = none := by
  rw [Option.eq_none_iff_forall_ne_some]
  intro v hv
  obtain ⟨outer, houter, inner, hinner, n, hnumeral, hholds, -⟩ := (read_iff ht).mp hv
  by_cases hsecond : inner = .none
  · subst hsecond
    refine hnone outer houter n (numeral_none_iff.mp hnumeral) ?_
    have hhigh := (bounds ht).1
    by_cases hminus : outer = .minus
    · have hlow := low_of_minus ht (hminus ▸ houter)
      subst hminus
      unfold Holds at hholds ⊢
      simp only [Sign.factor] at hholds ⊢
      omega
    · rw [factor_of_ne_minus hminus]
      exact hholds
  · exact hsingle (.secondSign houter hinner hsecond hnumeral hholds)

/-- An integer in decimal has no sign, or a minus if it is below zero. -/
theorem written_toString (i : Int) : ∃ n : Nat, i = n ∧ Written (toString i).toList .none n
    ∨ i = -(n : Int) ∧ i < 0 ∧ Written (toString i).toList .minus n := by
  cases i with
  | ofNat n =>
    refine ⟨n, .inl ⟨rfl, [], 10, (toString n).toList, by decide, ?_, rfl⟩⟩
    exact (nat?_eq_some_iff (by decide)).mp (nat?_toString n)
  | negSucc n =>
    refine ⟨n + 1, .inr ⟨rfl, Int.negSucc_lt_zero n, [], 10, (toString (n + 1)).toList, by decide, ?_, ?_⟩⟩
    · exact (nat?_eq_some_iff (by decide)).mp (nat?_toString (n + 1))
    · exact toList_toString_negSucc n

/-- A number of the type in decimal is read as itself, unless it is the least one behind a minus. -/
theorem read_toString_iff (ht : t ∈ all) {i : Int} (hi : t.Holds i) :
    t.read (toString i).toList = some (t.value i) ↔ ¬(Sign.minus ∈ t.signs ∧ i = t.low) := by
  obtain ⟨hhigh, hbounds⟩ := bounds ht
  obtain ⟨n, ⟨hn, hwritten⟩ | ⟨hn, hneg, hwritten⟩⟩ := written_toString i
  · have hread := read_written ht (none_mem_signs ht) hwritten (by rwa [Sign.factor, Int.one_mul, ← hn])
      nofun
    rw [Sign.factor, Int.one_mul, ← hn] at hread
    refine iff_of_true hread fun ⟨hminus, hleast⟩ => ?_
    have hlow := low_of_minus ht hminus
    omega
  · have hminus : Sign.minus ∈ t.signs := by
      by_contra hno
      have hlow := (hbounds.resolve_left fun h => hno h.2).1
      have hle : t.low ≤ i := hi.1
      omega
    have hfactor : Sign.minus.factor * n = i := by rw [Sign.factor, hn, Int.neg_one_mul]
    rw [and_iff_right hminus]
    constructor
    · rintro hread hleast
      rw [read_least ht hminus hwritten (hn.symm.trans hleast)] at hread
      cases hread
    · intro hleast
      have hread := read_written ht hminus hwritten (by rwa [hfactor]) fun _ => hn ▸ hleast
      rwa [hfactor] at hread

end IntegerType

end Default

/-! ## Declared defaults -/

namespace DeclaredField

open Default Text

/-- The text of the default without blanks at its ends. -/
def rawDefault (d : DeclaredField) : String := trim (d.settings.text "DEFAULT")

/-- All is in order with the declaration but perhaps its default: its other settings are read, and it does
not embed what is no record. -/
structure InOrder (model : String) (d : DeclaredField) : Prop where
  settled : ∃ f, Field.serialized model (Field.ofDeclared d).stored >>= Field.withColumnSettings model = .ok f
  unembedded : d.settings.contains "EMBEDDED" = false

/-- Why the default is refused. -/
def defaultRefusal (t : IntegerType) (model : String) (d : DeclaredField) : Error :=
  .invalidTag model d.name
    ("failed to parse default value " ++ d.rawDefault ++ " as " ++ t.type.text)

/-- The declaration is read, with a default. -/
def HasDefault (model : String) (d : DeclaredField) (v : Value) : Prop :=
  ∃ f, Field.parse model d = .ok (f, none) ∧ f.defaultValue = some v

/-- The default is read exactly: as the number of the type that is written, and refused if none is. -/
structure ReadsExactly (t : IntegerType) (model : String) (d : DeclaredField) : Prop where
  accepts : ∀ sign ∈ t.signs, ∀ n, Written d.rawDefault.toList sign n → t.Holds (sign.factor * n) →
    d.HasDefault model (t.value (sign.factor * n))
  refuses : (∀ sign ∈ t.signs, ∀ n, Written d.rawDefault.toList sign n → ¬t.Holds (sign.factor * n)) →
    Field.parse model d = .error (d.defaultRefusal t model)

variable {t : IntegerType} {model : String} {d : DeclaredField} {v v' : Value} {n : Nat}

theorem HasDefault.unique (h : d.HasDefault model v) (h' : d.HasDefault model v') : v = v' := by
  obtain ⟨f, hparse, hv⟩ := h
  obtain ⟨f', hparse', hv'⟩ := h'
  obtain rfl : f = f' := congrArg Prod.fst (Except.ok.inj (hparse.symm.trans hparse'))
  exact Option.some.inj (hv.symm.trans hv')

theorem HasDefault.ne_error {e : Error} (h : d.HasDefault model v) : Field.parse model d ≠ .error e := by
  obtain ⟨f, hparse, -⟩ := h
  rw [hparse]
  exact nofun

/-- The stages before the default settle the type and the text of the default. -/
theorem InOrder.exists_settled (h : d.InOrder model) :
    ∃ f₁ f₂, Field.serialized model (Field.ofDeclared d).stored = .ok f₁
      ∧ Field.withColumnSettings model f₁ = .ok f₂ ∧ f₂.name = d.name ∧ f₂.kind = d.kind
      ∧ f₂.settings = d.settings ∧ f₂.dataType = d.storedType?
      ∧ trim f₂.defaultText = d.rawDefault := by
  obtain ⟨f₂, hsettled⟩ := h.settled
  obtain ⟨f₁, h₁, h₂⟩ := exists_ok_of_bind hsettled
  refine ⟨f₁, f₂, h₁, h₂, ?_⟩
  obtain ⟨_, rfl⟩ := Field.serialized_ok h₁
  obtain ⟨_, _, _, _, _, _, rfl⟩ := Field.withColumnSettings_ok h₂
  exact ⟨rfl, rfl, rfl, rfl, rfl⟩

/-- A field of integers is no record. -/
theorem storage_ne_record (ht : t ∈ IntegerType.all) (htype : d.storedType? = some t.type)
    (record : ModelRef) : (Field.storage d.kind).1 ≠ .record record := by
  intro hrecord
  rw [storedType?, hrecord] at htype
  have hstored : some t.type = some .string ∨ some t.type = none := by
    rw [← htype]
    cases d.isSerialized with
    | true => exact .inl rfl
    | false => exact .inr rfl
  simp only [IntegerType.all, List.mem_cons, List.not_mem_nil, or_false] at ht
  obtain rfl | rfl := ht
  · exact absurd hstored (by decide)
  · exact absurd hstored (by decide)

/-- The stages behind the default leave it alone. -/
theorem finished_keeps (f : Field) :
    ∃ g, f.withTimesAndType.withIgnore.withReadPermission.withWritePermission = g
      ∧ g.kind = f.kind ∧ g.settings = f.settings ∧ g.defaultValue = f.defaultValue := by
  obtain ⟨_, _, _, hfinished⟩ := Field.exists_finished f
  exact ⟨_, hfinished, rfl, rfl, rfl⟩

/-- Only the default is left to read of a field that is no record. -/
theorem InOrder.parse_eq (h : d.InOrder model)
    (hrecord : ∀ record, (Field.storage d.kind).1 ≠ .record record) :
    ∃ f : Field, f.name = d.name ∧ f.dataType = d.storedType? ∧ trim f.defaultText = d.rawDefault
      ∧ Field.parse model d = match f.withDefault model with
        | .ok g => .ok (g.withTimesAndType.withIgnore.withReadPermission.withWritePermission, none)
        | .error e => .error e := by
  obtain ⟨f₁, f, h₁, h₂, hname, hkind, hsettings, hstored, hraw⟩ := h.exists_settled
  refine ⟨f, hname, hstored, hraw, ?_⟩
  rw [Field.parse, h₁]
  dsimp only [bind, Except.bind]
  rw [h₂]
  dsimp only
  cases hdefault : f.withDefault model with
  | error e => rfl
  | ok g =>
    obtain ⟨_, hg⟩ := Field.withDefault_ok hdefault
    obtain ⟨last, hlast, hlastKind, hlastSettings, -⟩ := finished_keeps g
    have hkind : last.kind = d.kind := by rw [hlastKind, hg, ← hkind]
    have hsettings : last.settings = d.settings := by rw [hlastSettings, hg, ← hsettings]
    dsimp only
    rw [hlast, hsettings, h.unembedded, hkind]
    split
    · split
      · next record heq => exact absurd heq (hrecord record)
      · rfl
    · rfl

/-- The default of a column of integers is what its reader makes of it. -/
theorem withDefault_eq (model : String) {f : Field} (ht : t ∈ IntegerType.all) (htype : f.dataType = some t.type)
    (hvalue : isExpression (trim f.defaultText) = false) :
    f.withDefault model = match t.read (trim f.defaultText).toList with
      | some v => .ok { f with defaultValue := some v }
      | none => .error (.invalidTag model f.name
          ("failed to parse default value " ++ trim f.defaultText ++ " as " ++ t.type.text)) := by
  have hcolumn : Default.value? f.dataType f.defaultText = match t.read (trim f.defaultText).toList with
      | some v => .ok (some v)
      | none => .error ("failed to parse default value " ++ trim f.defaultText ++ " as " ++ t.type.text) := by
    unfold Default.value?
    simp only [hvalue, Bool.false_eq_true, if_false]
    simp only [IntegerType.all, List.mem_cons, List.not_mem_nil, or_false] at ht
    obtain rfl | rfl := ht
    · rw [show f.dataType = some .int from htype, IntegerType.read_signed]
      cases int? (trim f.defaultText).toList <;> rfl
    · rw [show f.dataType = some .uint from htype, IntegerType.read_unsigned]
      cases uint? (trim f.defaultText).toList <;> rfl
  rw [Field.withDefault, hcolumn]
  cases t.read (trim f.defaultText).toList <;> rfl

section Integer

variable (ht : t ∈ IntegerType.all) (h : d.InOrder model) (htype : d.storedType? = some t.type)
  (hvalue : isExpression d.rawDefault = false)
include ht h htype hvalue

/-- A default that is refused makes the declaration refused. -/
theorem parse_of_unread (hread : t.read d.rawDefault.toList = none) :
    Field.parse model d = .error (d.defaultRefusal t model) := by
  obtain ⟨f, hname, hstored, hraw, hparse⟩ := h.parse_eq (storage_ne_record ht htype)
  have hcolumn := withDefault_eq model ht (hstored.trans htype) (by rw [hraw]; exact hvalue)
  rw [hraw, hread, hname] at hcolumn
  rw [hparse, hcolumn, defaultRefusal]

/-- A default that is read is that of the field. -/
theorem hasDefault_of_read (hread : t.read d.rawDefault.toList = some v) : d.HasDefault model v := by
  obtain ⟨f, -, hstored, hraw, hparse⟩ := h.parse_eq (storage_ne_record ht htype)
  have hcolumn := withDefault_eq model ht (hstored.trans htype) (by rw [hraw]; exact hvalue)
  rw [hraw, hread] at hcolumn
  obtain ⟨last, hlast, -, -, hkept⟩ := finished_keeps { f with defaultValue := some v }
  refine ⟨last, ?_, hkept⟩
  rw [hparse, hcolumn, ← hlast]

theorem hasDefault_iff : d.HasDefault model v ↔ t.read d.rawDefault.toList = some v := by
  constructor
  · intro hdefault
    cases hread : t.read d.rawDefault.toList with
    | none => exact absurd (parse_of_unread ht h htype hvalue hread) hdefault.ne_error
    | some v' => rw [hdefault.unique (hasDefault_of_read ht h htype hvalue hread)]
  · exact hasDefault_of_read ht h htype hvalue

/-- The default is a number that may have two signs, of which the first one is not bounded. -/
theorem hasDefault_iff_numeral : d.HasDefault model v ↔ ∃ outer ∈ t.signs, ∃ inner ∈ t.signs, ∃ n,
    Numeral d.rawDefault.toList outer inner n ∧ t.Holds (inner.factor * n)
      ∧ v = t.value (outer.factor * (inner.factor * n)) :=
  (hasDefault_iff ht h htype hvalue).trans (IntegerType.read_iff ht)

/-- Exactly the texts that are misread are not read exactly. -/
theorem readsExactly_iff : d.ReadsExactly t model ↔ ¬t.Misread d.rawDefault.toList := by
  constructor
  · rintro hexact (⟨houter, hinner, hsecond, hnumeral, hholds⟩ | ⟨hminus, hwritten, hleast⟩)
    -- With a second sign no number is written, and yet one is read; the least one is written in vain.
    · have hread : t.read d.rawDefault.toList = some _ :=
        (IntegerType.read_iff ht).mpr ⟨_, houter, _, hinner, _, hnumeral, hholds, rfl⟩
      refine (hasDefault_of_read ht h htype hvalue hread).ne_error (hexact.refuses ?_)
      intro sign hsign n hwritten
      exact absurd (hnumeral.unique (numeral_none_iff.mpr hwritten)).2.1 hsecond
    · have hunread := parse_of_unread ht h htype hvalue (IntegerType.read_least ht hminus hwritten hleast)
      refine (hexact.accepts .minus hminus _ hwritten ?_).ne_error hunread
      have hhigh := (IntegerType.bounds ht).1
      have hlow := IntegerType.low_of_minus ht hminus
      unfold IntegerType.Holds
      rw [Sign.factor]
      omega
  · intro hexact
    constructor
    · intro sign hsign n hwritten hholds
      refine hasDefault_of_read ht h htype hvalue (IntegerType.read_written ht hsign hwritten hholds ?_)
      rintro rfl hleast
      exact hexact (.least hsign hwritten hleast)
    · intro hnone
      exact parse_of_unread ht h htype hvalue (IntegerType.read_unwritten ht hnone hexact)

end Integer

/-- **Defaults of integers.** In a declaration that is in order otherwise, the default of a field of
integers is read exactly unless its text is misread: a second sign is let through, and the least number
below zero is refused. What is read is outside the type only for that number behind two minus signs. All
numbers of the type but that one are read as themselves from decimal. -/
theorem integer_defaults_exact_iff (ht : t ∈ IntegerType.all) (h : d.InOrder model)
    (htype : d.storedType? = some t.type) (hvalue : isExpression d.rawDefault = false) :
    (d.ReadsExactly t model ↔ ¬t.Misread d.rawDefault.toList)
    ∧ (∀ v, d.HasDefault model v ↔ ∃ outer ∈ t.signs, ∃ inner ∈ t.signs, ∃ n,
        Numeral d.rawDefault.toList outer inner n ∧ t.Holds (inner.factor * n)
          ∧ v = t.value (outer.factor * (inner.factor * n)))
    ∧ (t.Overflows d.rawDefault.toList ↔
        Sign.minus ∈ t.signs ∧ ∃ n : Nat, Numeral d.rawDefault.toList .minus .minus n ∧ -(n : Int) = t.low)
    ∧ ∀ i : Int, t.Holds i → d.rawDefault = toString i →
        (d.HasDefault model (t.value i) ↔ ¬(Sign.minus ∈ t.signs ∧ i = t.low)) := by
  refine ⟨readsExactly_iff ht h htype hvalue, fun _ => hasDefault_iff_numeral ht h htype hvalue,
    IntegerType.overflows_iff ht, ?_⟩
  intro i hi hdecimal
  rw [hasDefault_iff ht h htype hvalue, hdecimal]
  exact IntegerType.read_toString_iff ht hi

/-- The least number of 64 bits is refused as a default. -/
theorem integer_defaults_exact_iff_floor :
    let floor : DeclaredField := ⟨"Floor", .int 64, "default:-9223372036854775808", false⟩
    floor.InOrder "Sample" ∧ floor.storedType? = some IntegerType.signed.type
      ∧ isExpression floor.rawDefault = false ∧ IntegerType.signed ∈ IntegerType.all
      ∧ ¬floor.HasDefault "Sample" (.int Int64.minValue)
      ∧ ¬floor.ReadsExactly .signed "Sample" := by
  intro floor
  have hsettled : (Field.serialized "Sample" (Field.ofDeclared floor).stored
      >>= Field.withColumnSettings "Sample").toOption.isSome = true := by decide +kernel
  obtain ⟨f, hf⟩ := Option.isSome_iff_exists.mp hsettled
  have horder : floor.InOrder "Sample" := ⟨⟨f, ok_of_toOption hf⟩, by decide +kernel⟩
  have htype : floor.storedType? = some IntegerType.signed.type := by decide +kernel
  have hvalue : isExpression floor.rawDefault = false := by decide +kernel
  have hall : IntegerType.signed ∈ IntegerType.all := List.mem_cons_self ..
  have hfloor : floor.rawDefault = toString IntegerType.signed.low := by decide +kernel
  have hminus : Sign.minus ∈ IntegerType.signed.signs := IntegerType.mem_signs_signed .minus
  obtain ⟨hexact, -, -, hdecimals⟩ := integer_defaults_exact_iff hall horder htype hvalue
  refine ⟨horder, htype, hvalue, hall, fun hdefault => ?_, fun hreads => hexact.mp hreads ?_⟩
  · exact (hdecimals IntegerType.signed.low (by decide) hfloor).mp hdefault ⟨hminus, rfl⟩
  · obtain ⟨n, ⟨hn, -⟩ | ⟨hn, -, hwritten⟩⟩ := IntegerType.written_toString IntegerType.signed.low
    · exact absurd (hn ▸ Int.natCast_nonneg n) (by decide : ¬(0 : Int) ≤ IntegerType.signed.low)
    · exact .least hminus (hfloor ▸ hwritten) hn.symm

end DeclaredField

end RecordSql
