/-!
Integers as text: digits of a radix, with and without a sign, within the range of a word.
-/

namespace RecordSql.Text

/-- The value of a digit, counting letters of either case from ten. -/
def digitValue? (radix : Nat) (c : Char) : Option Nat :=
  let value :=
    if '0' ≤ c ∧ c ≤ '9' then some (c.toNat - '0'.toNat)
    else if 'a' ≤ c ∧ c ≤ 'z' then some (c.toNat - 'a'.toNat + 10)
    else if 'A' ≤ c ∧ c ≤ 'Z' then some (c.toNat - 'A'.toNat + 10)
    else none
  value.filter (· < radix)

/-- The number that continues `acc` with the given digits; all of them must be digits. -/
def natFrom? (radix acc : Nat) : List Char → Option Nat
  | [] => some acc
  | c :: cs => (digitValue? radix c).bind fun d => natFrom? radix (acc * radix + d) cs

/-- The number written by one or more digits. -/
def nat? (radix : Nat) : List Char → Option Nat
  | [] => none
  | c :: cs => natFrom? radix 0 (c :: cs)

/-- An unsigned number below `2 ^ bits`, after an optional plus. -/
def unsigned? (bits radix : Nat) (cs : List Char) : Option Nat :=
  let digits := match cs with
    | '+' :: rest => rest
    | _ => cs
  (nat? radix digits).filter (· < Nat.pow 2 bits)

/-- A signed number of a word of `bits` bits, after an optional sign. -/
def signed? (bits radix : Nat) (cs : List Char) : Option Int :=
  let value : Option Int := match cs with
    | '+' :: rest => (nat? radix rest).map fun n => (n : Int)
    | '-' :: rest => (nat? radix rest).map fun n => -(n : Int)
    | _ => (nat? radix cs).map fun n => (n : Int)
  value.filter fun n => -(Nat.pow 2 (bits - 1) : Int) ≤ n && n < Nat.pow 2 (bits - 1)

/-- The digit of a value below sixteen. -/
def hexDigit (upperCase : Bool) (n : Nat) : Char :=
  if n < 10 then Char.ofNat ('0'.toNat + n)
  else Char.ofNat ((if upperCase then 'A' else 'a').toNat + (n - 10))

/-- A byte as two digits. -/
def hexByte (upperCase : Bool) (b : UInt8) : List Char :=
  [hexDigit upperCase (b.toNat / 16), hexDigit upperCase (b.toNat % 16)]

/-- Bytes as text, two digits each. -/
def hex (upperCase : Bool) (bytes : List UInt8) : String :=
  String.ofList (bytes.flatMap (hexByte upperCase))

/-- A number with at least `width` digits, zeros first. -/
def padded (width n : Nat) : String :=
  let digits := (toString n).toList
  String.ofList (List.replicate (width - digits.length) '0' ++ digits)

end RecordSql.Text
