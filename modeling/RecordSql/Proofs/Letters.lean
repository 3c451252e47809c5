/-
  RecordSql.Proofs.Letters

  The letters a to z and A to Z, and what changes their case.  There are
  twenty-six of either kind, so what is claimed of each of them is checked for
  these one by one (`forall_isLower`, `forall_isUpper`); any other character
  stays as it is.
-/

import RecordSql.Naming

namespace RecordSql

/-- What holds of the twenty-six lower-case letters, one by one, holds of a lower-case letter. -/
theorem forall_isLower {P : Char → Prop} (h : ∀ k < 26, P (Char.ofNat (97 + k))) {c : Char}
    (hc : c.isLower = true) : P c := by
  have hbounds : (decide (97 ≤ c.val) && decide (c.val ≤ 122)) = true := hc
  rw [Bool.and_eq_true, decide_eq_true_eq, decide_eq_true_eq] at hbounds
  have hlow : 97 ≤ c.toNat := UInt32.le_iff_toNat_le.mp hbounds.1
  have hhigh : c.toNat ≤ 122 := UInt32.le_iff_toNat_le.mp hbounds.2
  have hcode : 97 + (c.toNat - 97) = c.toNat := by omega
  have hletter := h (c.toNat - 97) (by omega)
  rwa [hcode, Char.ofNat_toNat] at hletter

/-- So it is with capitals. -/
theorem forall_isUpper {P : Char → Prop} (h : ∀ k < 26, P (Char.ofNat (65 + k))) {c : Char}
    (hc : c.isUpper = true) : P c := by
  have hbounds : 65 ≤ c.val ∧ c.val ≤ 90 := of_decide_eq_true hc
  have hlow : 65 ≤ c.toNat := UInt32.le_iff_toNat_le.mp hbounds.1
  have hhigh : c.toNat ≤ 90 := UInt32.le_iff_toNat_le.mp hbounds.2
  have hcode : 65 + (c.toNat - 65) = c.toNat := by omega
  have hletter := h (c.toNat - 65) (by omega)
  rwa [hcode, Char.ofNat_toNat] at hletter

/-! ## Lower-case letters -/

section Lower

variable {c : Char} (h : c.isLower = true)

include h

theorem isUpper_of_isLower : Naming.isUpper c = false :=
  forall_isLower (P := fun c => Naming.isUpper c = false) (by decide) h

theorem isDigit_of_isLower : Naming.isDigit c = false :=
  forall_isLower (P := fun c => Naming.isDigit c = false) (by decide) h

theorem ne_underscore_of_isLower : c ≠ '_' :=
  forall_isLower (P := (· ≠ '_')) (by decide) h

theorem isUpper_toUpper : Naming.isUpper c.toUpper = true :=
  forall_isLower (P := fun c => Naming.isUpper c.toUpper = true) (by decide) h

theorem toLower_toUpper_of_isLower : c.toUpper.toLower = c :=
  forall_isLower (P := fun c => c.toUpper.toLower = c) (by decide) h

end Lower

theorem ne_underscore_of_isUpper {c : Char} (h : Naming.isUpper c = true) : c ≠ '_' := by
  rintro rfl
  exact absurd h (by decide)

/-! ## The other case -/

section Cases

variable (c : Char)

theorem Naming.isUpper_eq : Naming.isUpper c = c.isUpper :=
  (Bool.decide_and _ _).symm

variable {c}

theorem toLower_of_not_isUpper (h : c.isUpper = false) : c.toLower = c :=
  dif_neg (of_decide_eq_false h)

theorem toUpper_of_not_isLower (h : c.isLower = false) : c.toUpper = c := by
  refine dif_neg fun hbounds => ?_
  have hlower : c.isLower = true :=
    Bool.and_eq_true_iff.mpr ⟨decide_eq_true hbounds.1, decide_eq_true hbounds.2⟩
  exact absurd (hlower.symm.trans h) (by decide)

variable (c)

theorem isUpper_toLower : c.toLower.isUpper = false := by
  cases h : c.isUpper with
  | false => rw [toLower_of_not_isUpper h, h]
  | true => exact forall_isUpper (P := fun c => c.toLower.isUpper = false) (by decide) h

theorem toUpper_toLower : c.toLower.toUpper = c.toUpper := by
  cases h : c.isUpper with
  | false => rw [toLower_of_not_isUpper h]
  | true => exact forall_isUpper (P := fun c => c.toLower.toUpper = c.toUpper) (by decide) h

theorem toLower_toUpper : c.toUpper.toLower = c.toLower := by
  cases h : c.isLower with
  | false => rw [toUpper_of_not_isLower h]
  | true => exact forall_isLower (P := fun c => c.toUpper.toLower = c.toLower) (by decide) h

/-- An underscore is no letter in the other case. -/
theorem toLower_eq_underscore_iff : c.toLower = '_' ↔ c = '_' := by
  cases h : c.isUpper with
  | false => rw [toLower_of_not_isUpper h]
  | true =>
    have hletter : c.toLower ≠ '_' ∧ c ≠ '_' :=
      forall_isUpper (P := fun c => c.toLower ≠ '_' ∧ c ≠ '_') (by decide) h
    exact iff_of_false hletter.1 hletter.2

end Cases

end RecordSql
