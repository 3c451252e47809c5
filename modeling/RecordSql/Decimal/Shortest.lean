import RecordSql.Decimal.Binary64
/-!
The fewest decimal digits that read back as a given number. Of the decimals with as few digits as
possible inside the interval of reals that round to the number, the nearest is taken; where two are
as near as each other, a rule decides.
-/

namespace RecordSql.Decimal

/-- A decimal `digits · 10 ^ exponent`. -/
structure Digits where
  digits : Nat
  exponent : Int
  deriving DecidableEq, Repr

/-- What becomes of a number halfway between two others: the even one of them, or the upper. -/
inductive HalfRule where
  | even
  | up
  deriving DecidableEq, Repr

/-- Whether a number halfway between `below` and the next is taken to `below`. -/
def HalfRule.takesBelow : HalfRule → Nat → Bool
  | .even, below => below % 2 == 0
  | .up, _ => false

/-- The number of decimal digits of a natural. -/
def places (n : Nat) : Nat := (Nat.toDigits 10 n).length

/-- The exponent of the power of ten that is the last not above `num / den`. -/
def decimalExponent (num den : Nat) : Int :=
  let e : Int := (places num : Int) - places den
  let atLeast := if 0 ≤ e then decide (den * Nat.pow 10 e.toNat ≤ num)
    else decide (den ≤ num * Nat.pow 10 (-e).toNat)
  if atLeast then e else e - 1

/-- The interval of reals that round to `m · 2 ^ e`, over one denominator with the number itself.
The lower half is half as wide when `m` is the least with its exponent. -/
structure Neighbourhood where
  low : Nat
  centre : Nat
  high : Nat
  den : Nat
  closed : Bool

/-- The interval around `m · 2 ^ e`. -/
def Neighbourhood.of (m : Nat) (e : Int) : Neighbourhood :=
  let low := if m = Nat.pow 2 52 ∧ -1074 < e then 4 * m - 1 else 4 * m - 2
  let (scale, den) := dyadic 1 (e - 2)
  ⟨low * scale, 4 * m * scale, (4 * m + 2) * scale, den, m % 2 == 0⟩

/-- Whether `d · 10 ^ k` lies in the interval. -/
def Neighbourhood.holds (i : Neighbourhood) (d : Nat) (k : Int) : Bool :=
  let (d, den) := if 0 ≤ k then (d * Nat.pow 10 k.toNat * i.den, 1) else (d * i.den, Nat.pow 10 (-k).toNat)
  if i.closed then decide (i.low * den ≤ d) && decide (d ≤ i.high * den)
  else decide (i.low * den < d) && decide (d < i.high * den)

/-- The point of the grid `10 ^ k` in the interval nearest to its centre, if there is one: only the
two neighbours of the centre come into question. -/
def Neighbourhood.onGrid? (half : HalfRule) (i : Neighbourhood) (k : Int) : Option Nat :=
  let (num, den) := if 0 ≤ k then (i.centre, i.den * Nat.pow 10 k.toNat)
    else (i.centre * Nat.pow 10 (-k).toNat, i.den)
  let below := num / den
  let above := below + 1
  let down := match compare (2 * (num % den)) den with
    | .lt => true
    | .eq => half.takesBelow below
    | .gt => false
  let nearer := if down then [below, above] else [above, below]
  nearer.find? fun d => decide (0 < d) && i.holds d k

/-- Drops the zeros at the end of a natural, at most `fuel` of them, counting them. -/
def dropZeros (fuel n : Nat) (exponent : Int) : Digits :=
  match fuel with
  | 0 => ⟨n, exponent⟩
  | fuel + 1 =>
    if n % 10 = 0 ∧ n ≠ 0 then dropZeros fuel (n / 10) (exponent + 1) else ⟨n, exponent⟩

/-- The shortest decimal that reads back as `m · 2 ^ e`. Seventeen digits always suffice. -/
def shortest (half : HalfRule) (m : Nat) (e : Int) : Digits :=
  if m = 0 then ⟨0, 0⟩
  else
    let i := Neighbourhood.of m e
    let top := decimalExponent i.centre i.den
    let found := (List.range 17).findSome? fun (n : Nat) =>
      (i.onGrid? half (top - n)).map fun d => dropZeros 20 d (top - n)
    found.getD ⟨0, 0⟩

/-- Positional digits: `point` of them stand before the point. -/
def positional (pointZero : Bool) (d : Digits) : String :=
  let digits := Nat.toDigits 10 d.digits
  let point : Int := digits.length + d.exponent
  if 0 ≤ d.exponent then
    let zeros := List.replicate d.exponent.toNat '0'
    String.ofList (digits ++ zeros) ++ (if pointZero then ".0" else "")
  else if 0 < point then
    String.ofList (digits.take point.toNat ++ '.' :: digits.drop point.toNat)
  else String.ofList ('0' :: '.' :: List.replicate (-point).toNat '0' ++ digits)

/-- One digit before the point, and the power of ten with its sign after `e`. -/
def scientific (d : Digits) : String :=
  let digits := Nat.toDigits 10 d.digits
  let exponent : Int := digits.length - 1 + d.exponent
  let fraction := digits.drop 1
  String.ofList (digits.take 1 ++ (if fraction.isEmpty then [] else '.' :: fraction) ++ ['e'])
    ++ (if 0 ≤ exponent then "+" else "") ++ toString exponent

/-- Plain text of a number: always positional, a whole number without a point, a half taken up. -/
def Binary64.plain (x : Binary64) : String :=
  match x.value with
  | .nan => "NaN"
  | .infinite negative => if negative then "-inf" else "inf"
  | .finite negative m e =>
    (if negative then "-" else "") ++ positional false (shortest .up m e)

/-- Exactly six places after the point, the exact value rounded, a half to the even neighbour. -/
def Binary64.sixPlaces (x : Binary64) : String :=
  match x.value with
  | .nan => "NaN"
  | .infinite negative => if negative then "-inf" else "inf"
  | .finite negative m e =>
    let (num, den) := dyadic m e
    let digits := (toString (roundHalfEven (num * Nat.pow 10 6) den)).toList
    let digits := List.replicate (7 - digits.length) '0' ++ digits
    let whole := digits.length - 6
    (if negative then "-" else "") ++ String.ofList (digits.take whole ++ '.' :: digits.drop whole)

end RecordSql.Decimal
