/-
  RecordSql.Proofs.Numerals

  Numbers as they are written: with digits, and with a sign in front of those
  below zero.  Reading the digits gives the number back.
-/

import RecordSql.Text.Numeral
import RecordSql.Text.Word

namespace RecordSql.Text

theorem toList_toString (n : Nat) : (toString n).toList = Nat.toDigits 10 n := Nat.toList_repr

/-- A natural number is written in digits. -/
theorem isDigit_of_mem_toString {n : Nat} {c : Char} (h : c ∈ (toString n).toList) :
    c.isDigit = true := by
  rw [toList_toString] at h
  exact Nat.isDigit_of_mem_toDigits (by decide) (by decide) h

theorem toString_ne_nil (n : Nat) : (toString n).toList ≠ [] := by
  rw [toList_toString]
  exact Nat.toDigits_ne_nil

theorem toList_toString_negSucc (n : Nat) :
    (toString (Int.negSucc n)).toList = '-' :: (toString (n + 1)).toList := by
  have htext : toString (Int.negSucc n) = "-" ++ toString (n + 1) := rfl
  rw [htext, String.toList_append]
  rfl

/-- An integer is written in digits, behind a sign if it is below zero. -/
theorem isDigit_or_minus_of_mem_toString {i : Int} {c : Char} (h : c ∈ (toString i).toList) :
    c.isDigit = true ∨ c = '-' := by
  cases i with
  | ofNat n => exact .inl (isDigit_of_mem_toString (n := n) h)
  | negSucc n =>
    rw [toList_toString_negSucc, List.mem_cons] at h
    rcases h with h | h
    · exact .inr h
    · exact .inl (isDigit_of_mem_toString h)

theorem toString_int_ne_nil (i : Int) : (toString i).toList ≠ [] := by
  cases i with
  | ofNat n => exact toString_ne_nil n
  | negSucc n =>
    rw [toList_toString_negSucc]
    exact List.cons_ne_nil _ _

/-! ## Reading digits -/

theorem digitValue?_of_isDigit {c : Char} (h : c.isDigit = true) :
    digitValue? 10 c = some (c.toNat - '0'.toNat) := by
  simp only [Char.isDigit, Bool.and_eq_true, decide_eq_true_eq, ge_iff_le] at h
  have hrange : '0' ≤ c ∧ c ≤ '9' := h
  have hnine : c.toNat ≤ 57 := h.2
  have hvalue : c.toNat - 48 < 10 := by omega
  rw [digitValue?, if_pos hrange]
  simp [hvalue]

theorem natFrom?_of_isDigit {cs : List Char} (h : ∀ c ∈ cs, c.isDigit = true) (acc : Nat) :
    natFrom? 10 acc cs = some (Nat.ofDigitChars 10 cs acc) := by
  induction cs generalizing acc with
  | nil => rfl
  | cons c cs ih =>
    obtain ⟨hc, hcs⟩ := List.forall_mem_cons.mp h
    rw [natFrom?, digitValue?_of_isDigit hc, Option.bind_some, ih hcs, Nat.ofDigitChars_cons,
      Nat.mul_comm]

/-- The digits of a number are read as that number. -/
theorem nat?_toString (n : Nat) : nat? 10 (toString n).toList = some n := by
  have hread : nat? 10 (toString n).toList = natFrom? 10 0 (toString n).toList := by
    cases hdigits : (toString n).toList with
    | nil => exact absurd hdigits (toString_ne_nil n)
    | cons c cs => rfl
  rw [hread, natFrom?_of_isDigit fun c => isDigit_of_mem_toString, toList_toString,
    Nat.ofDigitChars_ten_toDigits]

theorem eq_of_toString_eq {m n : Nat} (h : (toString m).toList = (toString n).toList) : m = n := by
  have hread := nat?_toString m
  rw [h, nat?_toString n] at hread
  exact (Option.some.inj hread).symm

/-- Different integers are written differently. -/
theorem eq_of_toString_int_eq {i j : Int} (h : (toString i).toList = (toString j).toList) :
    i = j := by
  -- Digits do not begin with a sign.
  have hsign : ∀ m n : Nat, (toString m).toList ≠ '-' :: (toString (n + 1)).toList := by
    intro m n heq
    have hdigit : '-'.isDigit = true := by
      refine isDigit_of_mem_toString (n := m) ?_
      rw [heq]
      exact List.mem_cons_self
    exact absurd hdigit (by decide)
  cases i with
  | ofNat m =>
    cases j with
    | ofNat n => rw [eq_of_toString_eq (m := m) (n := n) h]
    | negSucc n =>
      rw [toList_toString_negSucc] at h
      exact absurd h (hsign m n)
  | negSucc m =>
    rw [toList_toString_negSucc] at h
    cases j with
    | ofNat n => exact absurd h.symm (hsign n m)
    | negSucc n =>
      rw [toList_toString_negSucc] at h
      have hnext : m + 1 = n + 1 := eq_of_toString_eq (List.tail_eq_of_cons_eq h)
      rw [Nat.succ.inj hnext]

/-- The digits that numbers are written in are among those of all scripts. -/
theorem isAnyDigit_of_isDigit {c : Char} (h : c.isDigit = true) : isAnyDigit c = true := by
  simp only [Char.isDigit, Bool.and_eq_true, decide_eq_true_eq, ge_iff_le] at h
  have hlow : '0'.toNat ≤ c.toNat := h.1
  have hhigh : c.toNat ≤ '9'.toNat := h.2
  rw [isAnyDigit, Ranges.contains, List.any_eq_true]
  exact ⟨(0x30, 0x39), by decide, by simpa using ⟨hlow, hhigh⟩⟩

end RecordSql.Text
