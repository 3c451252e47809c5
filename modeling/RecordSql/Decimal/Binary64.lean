/-!
Floating-point numbers of 64 bits as exact values: a finite one is `± m · 2 ^ e`. Every operation is
the exact one on rationals followed by one rounding to the nearest number, ties to an even `m`.
-/

namespace RecordSql.Decimal

/-- A floating-point number, known by its bits. -/
structure Binary64 where
  bits : UInt64
  deriving DecidableEq, Repr

/-- The value that bits stand for. -/
inductive Real64 where
  | nan
  | infinite (negative : Bool)
  | finite (negative : Bool) (m : Nat) (e : Int)
  deriving DecidableEq, Repr

/-- A quotient of naturals, as the numerator and denominator of `m · 2 ^ e`. -/
def dyadic (m : Nat) (e : Int) : Nat × Nat :=
  if 0 ≤ e then (m * Nat.pow 2 e.toNat, 1) else (m, Nat.pow 2 (-e).toNat)

/-- The quotient rounded to the nearest natural, a half to the even neighbour. -/
def roundHalfEven (num den : Nat) : Nat :=
  let q := num / den
  let r := num % den
  if 2 * r < den then q
  else if den < 2 * r then q + 1
  else if q % 2 = 0 then q else q + 1

namespace Binary64

/-- Assembles a sign and the 63 bits below it. -/
def ofMagnitude (negative : Bool) (magnitude : Nat) : Binary64 :=
  ⟨UInt64.ofNat ((if negative then Nat.pow 2 63 else 0) + magnitude)⟩

/-- The one value used for "not a number". -/
def nan : Binary64 := ⟨0x7ff8000000000000⟩

/-- An infinity of either sign. -/
def infinity (negative : Bool) : Binary64 := ofMagnitude negative (2047 * Nat.pow 2 52)

/-- The sign bit. -/
def negative (x : Binary64) : Bool := decide (Nat.pow 2 63 ≤ x.bits.toNat)

/-- The biased exponent. -/
def exponentField (x : Binary64) : Nat := x.bits.toNat / Nat.pow 2 52 % 2048

/-- The 52 bits below the exponent. -/
def fraction (x : Binary64) : Nat := x.bits.toNat % Nat.pow 2 52

/-- The value of the bits. -/
def value (x : Binary64) : Real64 :=
  if x.exponentField = 2047 then
    if x.fraction = 0 then .infinite x.negative else .nan
  else if x.exponentField = 0 then .finite x.negative x.fraction (-1074)
  else .finite x.negative (x.fraction + Nat.pow 2 52) (x.exponentField - 1075)

/-- `num / den` scaled down by `2 ^ e`, as numerator and denominator. -/
def scaled (num den : Nat) (e : Int) : Nat × Nat :=
  if 0 ≤ e then (num, den * Nat.pow 2 e.toNat) else (num * Nat.pow 2 (-e).toNat, den)

/-- The exponent at which `num / den` has 53 binary places before the point, but no lower than that
of the smallest number. -/
def unitExponent (num den : Nat) : Int :=
  let e : Int := (Nat.log2 num : Int) - Nat.log2 den - 53
  let (n, d) := scaled num den e
  max (-1074) (if n / d < Nat.pow 2 53 then e else e + 1)

/-- The number nearest to `± num / den`. -/
def ofRatio (negative : Bool) (num den : Nat) : Binary64 :=
  if num = 0 then ofMagnitude negative 0
  else
    let e := unitExponent num den
    let (n, d) := scaled num den e
    let magnitude := (e + 1074).toNat * Nat.pow 2 52 + roundHalfEven n d
    if 2047 * Nat.pow 2 52 ≤ magnitude then infinity negative else ofMagnitude negative magnitude

/-- The number nearest to a natural. -/
def ofNat (n : Nat) : Binary64 := ofRatio false n 1

/-- The number nearest to `± digits · 10 ^ exponent`. Beyond the range of the type no power is
computed: with `k` digits the value lies below `10 ^ (k + exponent)` and not below a tenth of it. -/
def ofDecimal (negative : Bool) (digits : Nat) (exponent : Int) : Binary64 :=
  let places : Int := (Nat.toDigits 10 digits).length
  if digits = 0 then ofMagnitude negative 0
  else if 310 < places + exponent then infinity negative
  else if places + exponent < -330 then ofMagnitude negative 0
  else if 0 ≤ exponent then ofRatio negative (digits * Nat.pow 10 exponent.toNat) 1
  else ofRatio negative digits (Nat.pow 10 (-exponent).toNat)

/-- The product or quotient of two finite numbers of no sign; others give "not a number". -/
def scaleBy (divide : Bool) (a b : Binary64) : Binary64 :=
  match a.value, b.value with
  | .finite _ m e, .finite _ n f =>
    let (an, ad) := dyadic m e
    let (bn, bd) := dyadic n f
    if divide then ofRatio false (an * bd) (ad * bn) else ofRatio false (an * bn) (ad * bd)
  | _, _ => nan

/-- The same number with the other sign. -/
def neg (x : Binary64) : Binary64 :=
  ofMagnitude (!x.negative) (x.bits.toNat % Nat.pow 2 63)

/-- A number of 32 bits, which this type holds exactly. -/
def ofBinary32 (bits : UInt32) : Binary64 :=
  let n := bits.toNat
  let negative := decide (Nat.pow 2 31 ≤ n)
  let field := n / Nat.pow 2 23 % 256
  let fraction := n % Nat.pow 2 23
  let exact (m : Nat) (e : Int) : Binary64 :=
    let (num, den) := dyadic m e
    ofRatio negative num den
  if field = 255 then
    if fraction = 0 then infinity negative else nan
  else if field = 0 then exact fraction (-149)
  else exact (fraction + Nat.pow 2 23) (field - 150)

end Binary64

end RecordSql.Decimal
