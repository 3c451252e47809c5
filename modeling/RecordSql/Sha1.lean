import RecordSql.Text.Numeral
/-!
The SHA-1 digest of a sequence of bytes (FIPS 180-4), as text.
-/

namespace RecordSql.Sha1

/-- The five words of the running digest. -/
structure State where
  a : UInt32
  b : UInt32
  c : UInt32
  d : UInt32
  e : UInt32

/-- The digest of nothing read yet. -/
def State.initial : State := ⟨0x67452301, 0xEFCDAB89, 0x98BADCFE, 0x10325476, 0xC3D2E1F0⟩

/-- Rotation to the left by `n` bits, `0 < n < 32`. -/
def rotate (x : UInt32) (n : UInt32) : UInt32 := (x <<< n) ||| (x >>> (32 - n))

/-- The bytes of a number, `count` of them, highest first. -/
def bigEndian (count n : Nat) : List UInt8 :=
  (List.range count).map fun i => UInt8.ofNat (n / Nat.pow 256 (count - 1 - i))

/-- The message filled up to whole blocks of 64 bytes: a one bit, zeros, and its length in bits. -/
def pad (bytes : List UInt8) : List UInt8 :=
  let zeros := (119 - bytes.length % 64) % 64
  bytes ++ 0x80 :: List.replicate zeros 0 ++ bigEndian 8 (bytes.length * 8)

/-- The word that four bytes make. -/
def word (a b c d : UInt8) : UInt32 :=
  (a.toUInt32 <<< 24) ||| (b.toUInt32 <<< 16) ||| (c.toUInt32 <<< 8) ||| d.toUInt32

/-- The words of a block. -/
def words : List UInt8 → List UInt32
  | a :: b :: c :: d :: rest => word a b c d :: words rest
  | _ => []

/-- Extends the sixteen words of a block to eighty. -/
def schedule (block : Array UInt32) : Array UInt32 :=
  (List.range 64).foldl (fun w i =>
    let at_ (k : Nat) := w.getD (i + 16 - k) 0
    w.push (rotate (at_ 3 ^^^ at_ 8 ^^^ at_ 14 ^^^ at_ 16) 1)) block

/-- The mixing function and the constant of round `t`. -/
def mix (t : Nat) (b c d : UInt32) : UInt32 × UInt32 :=
  if t < 20 then ((b &&& c) ||| ((b ^^^ 0xFFFFFFFF) &&& d), 0x5A827999)
  else if t < 40 then (b ^^^ c ^^^ d, 0x6ED9EBA1)
  else if t < 60 then ((b &&& c) ||| (b &&& d) ||| (c &&& d), 0x8F1BBCDC)
  else (b ^^^ c ^^^ d, 0xCA62C1D6)

/-- One round. -/
def round (w : Array UInt32) (s : State) (t : Nat) : State :=
  let (f, k) := mix t s.b s.c s.d
  ⟨rotate s.a 5 + f + s.e + k + w.getD t 0, s.a, rotate s.b 30, s.c, s.d⟩

/-- Takes in one block. -/
def compress (h : State) (block : List UInt8) : State :=
  let w := schedule (words block).toArray
  let s := (List.range 80).foldl (round w) h
  ⟨h.a + s.a, h.b + s.b, h.c + s.c, h.d + s.d, h.e + s.e⟩

/-- Takes in `count` blocks. -/
def absorb (count : Nat) (h : State) (bytes : List UInt8) : State :=
  match count with
  | 0 => h
  | count + 1 => absorb count (compress h (bytes.take 64)) (bytes.drop 64)

/-- The twenty bytes of the digest. -/
def digest (bytes : List UInt8) : List UInt8 :=
  let padded := pad bytes
  let h := absorb (padded.length / 64) .initial padded
  [h.a, h.b, h.c, h.d, h.e].flatMap fun x => bigEndian 4 x.toNat

/-- The digest of a text as forty lower-case hexadecimal digits. -/
def hexDigest (s : String) : String :=
  Text.hex false (digest s.toUTF8.toList)

end RecordSql.Sha1
