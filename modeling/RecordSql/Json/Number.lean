import RecordSql.Decimal.Shortest
/-!
Numbers of JSON documents: integers of 64 bits where the text is one, floating point otherwise. A
floating-point number is read in two rounded steps, the digits first and then the power of ten, from
as many digits as fit into 64 bits.
-/

namespace RecordSql.Json

open RecordSql.Decimal

/-- A number as it stands in the text. -/
structure Lexeme where
  negative : Bool
  whole : List Nat
  fraction : Option (List Nat)
  /-- The sign (`true` for minus) and the digits of the exponent. -/
  exponent : Option (Bool × List Nat)
  deriving DecidableEq, Repr

/-- A number of a document. -/
inductive Number where
  | integer (n : Int)
  | float (x : Binary64)
  deriving DecidableEq, Repr

/-- Appends digits to `n` while it stays below `2 ^ 64`; gives back those left over. -/
def absorb (n : Nat) : List Nat → Nat × List Nat
  | [] => (n, [])
  | d :: ds => if n * 10 + d < Nat.pow 2 64 then absorb (n * 10 + d) ds else (n, d :: ds)

/-- Applies a sign to a number that has none. -/
def signed (negative : Bool) (x : Binary64) : Binary64 :=
  if negative then x.neg else x

/-- Scales `x` by a power of ten, dividing by `10 ^ 308` first where the power is out of range. -/
def scaleTen (fuel : Nat) (x : Binary64) (exponent : Int) : Option Binary64 :=
  match fuel with
  | 0 => some x
  | fuel + 1 =>
    if exponent.natAbs ≤ 308 then
      let power := Binary64.ofDecimal false 1 exponent.natAbs
      let y := x.scaleBy (decide (exponent < 0)) power
      match y.value with
      | .finite .. => some y
      | _ => none
    else if x.bits = 0 then some x
    else if 0 ≤ exponent then none
    else scaleTen fuel (x.scaleBy true (Binary64.ofDecimal false 1 308)) (exponent + 308)

/-- The value of a number; none for one that is too large. -/
def Lexeme.number? (l : Lexeme) : Option Number :=
  let (n, left) := absorb 0 l.whole
  match left, l.fraction, l.exponent with
  | [], none, none =>
    if !l.negative then some (.integer n)
    else if 0 < n ∧ n ≤ Nat.pow 2 63 then some (.integer (-(n : Int)))
    else some (.float (signed true (.ofNat n)))
  | _, _, _ =>
    let fraction := l.fraction.getD []
    let (n, unread) := absorb n fraction
    let shift : Int := (left.length : Int) - (fraction.length - unread.length : Nat)
    let scaled (exponent : Int) : Option Number :=
      (scaleTen 8 (Binary64.ofNat n) exponent).map fun x => .float (signed l.negative x)
    match l.exponent with
    | none => scaled shift
    | some (minus, digits) =>
      let e : Nat := digits.foldl (fun e d => e * 10 + d) 0
      if e < Nat.pow 2 31 then scaled (if minus then shift - (e : Int) else shift + (e : Int))
      else if n = 0 ∨ minus then some (.float (signed l.negative (.ofNat 0)))
      else none

/-- Shortest digits, a half taken to the even neighbour: positional from `10 ^ -5` up to below
`10 ^ 16`, whole numbers with `.0`. -/
def floatText (x : Binary64) : String :=
  match x.value with
  | .finite negative m e =>
    let d := shortest .even m e
    let point : Int := (places d.digits : Int) + d.exponent
    (if negative then "-" else "") ++
      if m = 0 then "0.0"
      else if -5 < point ∧ point ≤ 16 then positional true d
      else scientific d
  | _ => "null"

/-- The text of a number. -/
def Number.text : Number → String
  | .integer n => toString n
  | .float x => floatText x

end RecordSql.Json
