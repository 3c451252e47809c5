/-
  RecordSql.Proofs.Identifiers.ConstraintNames

  The names of constraints and indexes.  A mark for the kind, the table and the
  column make up the full name (`ConstraintKind.fullName`).  One that is too
  long is cut, and the digits of its digest take the place of what is left out
  (`shortened`); all kinds are cut in the same way (`ConstraintKind.name_eq`).

  A limit may be lower than the eight digits that there are room for otherwise;
  then there are as many as the limit allows, and nothing is kept of the name.

  Which function the digits come from does not matter.  All that is relied on is
  that it gives forty hexadecimal digits for every text (`IsHexDigest`): these
  have one byte each, so there is always enough to take (`cut?_eq_some`).
-/

import Mathlib.Data.List.Basic
import Mathlib.Data.Nat.PSub
import RecordSql.Proofs.Identifiers.DatabaseNames

namespace RecordSql

/-! ## Digits of digests -/

namespace Text

/-- The digits of radix sixteen, in lower case. -/
def hexDigits : List Char := "0123456789abcdef".toList

end Text

/-- The function gives forty hexadecimal digits for every text. -/
structure IsHexDigest (digest : String → String) : Prop where
  length_eq : ∀ s : String, (digest s).length = 40
  mem_hexDigits : ∀ s : String, ∀ c ∈ (digest s).toList, c ∈ Text.hexDigits

namespace Text

/-- The characters of the first `n` bytes, if there are as many and a character ends there. -/
def takeBytes? : Nat → List Char → Option (List Char)
  | 0, _ => some []
  | _ + 1, [] => none
  | n + 1, c :: cs =>
    if c.utf8Size ≤ n + 1 then (takeBytes? (n + 1 - c.utf8Size) cs).map (c :: ·) else none

/-- Where each character is one byte, bytes are taken as characters are. -/
theorem takeBytes?_eq_some {cs : List Char} (hcs : ∀ c ∈ cs, c.utf8Size = 1) {n : Nat}
    (hn : n ≤ cs.length) : takeBytes? n cs = some (cs.take n) := by
  induction cs generalizing n with
  | nil =>
    obtain rfl := Nat.le_zero.mp hn
    rfl
  | cons c cs ih =>
    obtain ⟨hc, hrest⟩ := List.forall_mem_cons.mp hcs
    cases n with
    | zero => rfl
    | succ n =>
      rw [takeBytes?, hc, if_pos (Nat.le_add_left 1 n), Nat.add_sub_cancel,
        ih hrest (Nat.le_of_succ_le_succ hn), Option.map_some, List.take_succ_cons]

theorem hexDigit_mem : ∀ n < 16, hexDigit false n ∈ hexDigits := by decide

theorem utf8Size_of_mem_hexDigits {c : Char} (h : c ∈ hexDigits) : c.utf8Size = 1 := by
  have hall : hexDigits.all (fun c => c.utf8Size == 1) = true := by decide
  exact beq_iff_eq.mp (List.all_eq_true.mp hall c h)

theorem length_hex (upperCase : Bool) (bytes : List UInt8) :
    (hex upperCase bytes).length = 2 * bytes.length := by
  rw [hex, String.length_ofList]
  induction bytes with
  | nil => rfl
  | cons b bytes ih =>
    have htwo : (hexByte upperCase b).length = 2 := rfl
    rw [List.flatMap_cons, List.length_append, htwo, ih, List.length_cons]
    omega

theorem mem_hexDigits_of_mem_hex {bytes : List UInt8} {c : Char} (h : c ∈ (hex false bytes).toList) :
    c ∈ hexDigits := by
  rw [hex, String.toList_ofList, List.mem_flatMap] at h
  obtain ⟨b, -, hc⟩ := h
  have hb : b.toNat < 256 := b.toNat_lt
  rw [hexByte, List.mem_pair] at hc
  obtain rfl | rfl := hc
  · exact hexDigit_mem _ (by omega)
  · exact hexDigit_mem _ (by omega)

end Text

namespace Sha1

open RecordSql.Text

theorem length_bigEndian (count n : Nat) : (bigEndian count n).length = count := by
  rw [bigEndian, List.length_map, List.length_range]

theorem length_digest (bytes : List UInt8) : (digest bytes).length = 20 := by
  simp [digest, length_bigEndian]

theorem length_hexDigest (s : String) : (hexDigest s).length = 40 := by
  rw [hexDigest, length_hex, length_digest]

theorem isHexDigest : IsHexDigest hexDigest where
  length_eq := length_hexDigest
  mem_hexDigits _ _ hc := mem_hexDigits_of_mem_hex hc

end Sha1

/-! ## Names that are cut -/

/-- What is kept of a name: as many characters as the limit leaves room for before eight digits. -/
def keptOf (limit : Nat) (full : String) : List Char := full.toList.take (limit - min limit 8)

/-- What the digest of the name puts in the place of the rest. -/
def digitsOf (digest : String → String) (limit : Nat) (full : String) : List Char :=
  (digest full).toList.take (min limit 8)

/-- A name in place of one that is longer than the limit: characters of that, and then digits of its
digest. -/
structure Abbreviates (digest : String → String) (limit : Nat) (full name : String) : Prop where
  length_eq : name.length = limit
  kept : name.toList.take (limit - min limit 8) = keptOf limit full
  digits : name.toList.drop (limit - min limit 8) = digitsOf digest limit full

/-- What is kept of a name, and the digits of its digest behind that. -/
def shortened (digest : String → String) (limit : Nat) (full : String) : String :=
  String.ofList (keptOf limit full ++ digitsOf digest limit full)

/-- The same with a subtraction that fails below zero, and a slice of bytes that fails behind the end and
within a character. -/
def cut? (limit : Nat) (full digest : String) : Option String := do
  let kept ← limit.psub (min limit 8)
  let digits ← Text.takeBytes? (min limit 8) digest.toList
  return String.ofList (full.toList.take kept ++ digits)

section Shortened

variable {digest : String → String} {limit : Nat} {full full' : String}

theorem length_keptOf (h : limit < full.length) : (keptOf limit full).length = limit - min limit 8 := by
  rw [keptOf, List.length_take, String.length_toList]
  omega

/-- Two names are cut to one exactly if what is kept of them is the same, and the digits are. -/
theorem shortened_eq_shortened_iff (h : limit < full.length) (h' : limit < full'.length) :
    shortened digest limit full = shortened digest limit full'
      ↔ keptOf limit full = keptOf limit full'
        ∧ digitsOf digest limit full = digitsOf digest limit full' := by
  rw [shortened, shortened, String.ofList_inj]
  constructor
  · intro heq
    -- As much is kept of either, so the digits begin at the same place.
    exact List.append_inj heq ((length_keptOf h).trans (length_keptOf h').symm)
  · rintro ⟨hkept, hdigits⟩
    rw [hkept, hdigits]

variable (hdigest : IsHexDigest digest)

include hdigest

theorem min_le_length_digest (limit : Nat) (full : String) :
    min limit 8 ≤ (digest full).toList.length := by
  rw [String.length_toList, hdigest.length_eq]
  omega

/-- Whatever the limit is, there is enough to subtract from and to take. -/
theorem cut?_eq_some (limit : Nat) (full : String) :
    cut? limit full (digest full) = some (shortened digest limit full) := by
  have hkept : limit.psub (min limit 8) = some (limit - min limit 8) :=
    Nat.psub_eq_sub (Nat.min_le_left limit 8)
  have hbytes : ∀ c ∈ (digest full).toList, c.utf8Size = 1 := fun c hc =>
    Text.utf8Size_of_mem_hexDigits (hdigest.mem_hexDigits full c hc)
  rw [cut?, hkept, Text.takeBytes?_eq_some hbytes (min_le_length_digest hdigest limit full)]
  rfl

theorem length_digitsOf (limit : Nat) (full : String) :
    (digitsOf digest limit full).length = min limit 8 := by
  rw [digitsOf, List.length_take, Nat.min_eq_left (min_le_length_digest hdigest limit full)]

theorem abbreviates_shortened (h : limit < full.length) :
    Abbreviates digest limit full (shortened digest limit full) where
  length_eq := by
    rw [shortened, String.length_ofList, List.length_append, length_keptOf h,
      length_digitsOf hdigest]
    omega
  kept := by
    rw [shortened, String.toList_ofList, List.take_left' (length_keptOf h)]
  digits := by
    rw [shortened, String.toList_ofList, List.drop_left' (length_keptOf h)]

end Shortened

/-! ## Kinds of names -/

/-- What a name is given to. -/
inductive ConstraintKind where
  | index
  | unique
  | check
  | foreignKey
  deriving DecidableEq, Repr

namespace ConstraintKind

/-- The mark of the kind, at the start of a name. -/
def mark : ConstraintKind → String
  | index => "idx"
  | unique => "uni"
  | check => "chk"
  | foreignKey => "fk"

/-- How a name ends: in the database form of the column or relationship, but for checks, where it is
taken as it is. -/
def ending (kind : ConstraintKind) (ns : Naming) (column : String) : String :=
  if kind = check then column else ns.dbName column

/-- The full name, with underscores between its parts and in the place of dots. -/
def fullName (kind : ConstraintKind) (ns : Naming) (table column : String) : String :=
  let parts := "_".intercalate [kind.mark, table, kind.ending ns column]
  String.ofList (parts.toList.map fun c => if c = '.' then '_' else c)

/-- The name that is given. -/
def name : ConstraintKind → Naming → String → String → String
  | index => Naming.indexName
  | unique => Naming.uniqueName
  | check => Naming.checkName
  | foreignKey => Naming.foreignKeyName

variable (kind : ConstraintKind) (ns : Naming) (table column : String)

theorem name_eq_constraintName :
    kind.name ns table column = ns.constraintName kind.mark table (kind.ending ns column) := by
  cases kind <;> rfl

theorem fullName_eq :
    kind.fullName ns table column
      = Text.replaceChar '.' "_" (kind.mark ++ "_" ++ table ++ "_" ++ kind.ending ns column) := by
  have hparts : "_".intercalate [kind.mark, table, kind.ending ns column]
      = kind.mark ++ "_" ++ table ++ "_" ++ kind.ending ns column := rfl
  rw [fullName, Text.replaceChar, hparts, List.map_eq_flatMap]
  refine congrArg String.ofList (List.flatMap_congr fun c _ => ?_)
  by_cases hc : c = '.'
  · rw [if_pos hc, if_pos (beq_iff_eq.mpr hc)]
    rfl
  · rw [if_neg hc, if_neg (fun h => hc (beq_iff_eq.mp h))]

/-- Names of all kinds are cut in the same way, where they are too long. -/
theorem name_eq :
    kind.name ns table column
      = if (kind.fullName ns table column).length ≤ ns.limit then kind.fullName ns table column
        else shortened ns.digest ns.limit (kind.fullName ns table column) := by
  rw [name_eq_constraintName, fullName_eq, Naming.constraintName]
  rfl

theorem name_of_lt (h : ns.limit < (kind.fullName ns table column).length) :
    kind.name ns table column = shortened ns.digest ns.limit (kind.fullName ns table column) := by
  rw [name_eq, if_neg (Nat.not_le.mpr h)]

/-- A column is named like its field in indexes and keys, where no parts of names are replaced. -/
theorem name_columnName {kind : ConstraintKind} {ns : Naming} (hkind : kind ≠ check)
    (hplain : ns.replacements = []) :
    kind.name ns table (ns.columnName column) = kind.name ns table column := by
  have hending : kind.ending ns (ns.columnName column) = kind.ending ns column := by
    rw [ending, ending, if_neg hkind, if_neg hkind]
    exact Naming.dbName_dbName hplain column
  rw [name_eq_constraintName, name_eq_constraintName, hending]

/-- A generated name is no longer than the limit. It is the full name if that is not too long either;
else it is as long as it may be, with characters of the full name and then digits of its digest,
whichever function gives those, and no number is too small and no digest too short for that. So two that
are too long share a name exactly if what is kept of them is the same, and the digits are. -/
theorem generated_names_fit (hdigest : IsHexDigest ns.digest) :
    (kind.name ns table column).length ≤ ns.limit
      ∧ ((kind.fullName ns table column).length ≤ ns.limit →
        kind.name ns table column = kind.fullName ns table column)
      ∧ (ns.limit < (kind.fullName ns table column).length →
        Abbreviates ns.digest ns.limit (kind.fullName ns table column) (kind.name ns table column)
          ∧ cut? ns.limit (kind.fullName ns table column)
              (ns.digest (kind.fullName ns table column))
            = some (kind.name ns table column))
      ∧ ∀ (other : ConstraintKind) (table' column' : String),
        ns.limit < (kind.fullName ns table column).length →
        ns.limit < (other.fullName ns table' column').length →
        (kind.name ns table column = other.name ns table' column'
          ↔ keptOf ns.limit (kind.fullName ns table column)
              = keptOf ns.limit (other.fullName ns table' column')
            ∧ digitsOf ns.digest ns.limit (kind.fullName ns table column)
              = digitsOf ns.digest ns.limit (other.fullName ns table' column')) := by
  refine ⟨?_, fun hle => ?_, fun hlt => ?_, fun other table' column' hlt hlt' => ?_⟩
  · rw [name_eq]
    split
    · assumption
    · next hlong =>
      exact Nat.le_of_eq (abbreviates_shortened hdigest (Nat.not_le.mp hlong)).length_eq
  · rw [name_eq, if_pos hle]
  · rw [name_of_lt kind ns table column hlt]
    exact ⟨abbreviates_shortened hdigest hlt, cut?_eq_some hdigest _ _⟩
  · rw [name_of_lt kind ns table column hlt, name_of_lt other ns table' column' hlt']
    exact shortened_eq_shortened_iff hlt hlt'

/-- With room for fifteen characters seven are kept, whatever bytes they take; with room for five there
are digits only. -/
theorem generated_names_fit_narrow :
    (index.name { maxLength := 15 } "größen" "OrgID").toList.take 7 = "idx_grö".toList
      ∧ (index.name { maxLength := 15 } "größen" "OrgID").length = 15
      ∧ (check.name { maxLength := 5 } "größen" "OrgID").toList
        = (Sha1.hexDigest "chk_größen_OrgID").toList.take 5 := by
  have hindexName : index.fullName { maxLength := 15 } "größen" "OrgID" = "idx_größen_org_id" := by
    decide +kernel
  have hcheckName : check.fullName { maxLength := 5 } "größen" "OrgID" = "chk_größen_OrgID" := by
    decide +kernel
  obtain ⟨-, -, hindex, -⟩ := generated_names_fit index { maxLength := 15 } "größen" "OrgID"
    Sha1.isHexDigest
  obtain ⟨-, -, hcheck, -⟩ := generated_names_fit check { maxLength := 5 } "größen" "OrgID"
    Sha1.isHexDigest
  rw [hindexName] at hindex
  rw [hcheckName] at hcheck
  obtain ⟨hcut, -⟩ := hindex (by decide +kernel)
  obtain ⟨hdigits, -⟩ := hcheck (by decide +kernel)
  refine ⟨hcut.kept.trans (by decide +kernel), hcut.length_eq, ?_⟩
  simpa [digitsOf, Naming.limit] using hdigits.digits

end ConstraintKind

end RecordSql
