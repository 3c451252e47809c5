/-!
Bytes as text: the strict reading of UTF-8, and the lossy one that writes U+FFFD for each stretch of
bytes that starts a character and does not finish it.
-/

namespace RecordSql.Text

/-- What a first byte announces: the bytes that follow it, its own share of the code point, and the
range of the second byte. -/
structure Utf8Lead where
  following : Nat
  share : Nat
  low : Nat
  high : Nat

/-- The announcement of a first byte; none for a byte that cannot start a character. -/
def utf8Lead? (b : UInt8) : Option Utf8Lead :=
  let n := b.toNat
  if n < 0x80 then some ⟨0, n, 0x80, 0xBF⟩
  else if 0xC2 ≤ n ∧ n ≤ 0xDF then some ⟨1, n - 0xC0, 0x80, 0xBF⟩
  else if n = 0xE0 then some ⟨2, 0, 0xA0, 0xBF⟩
  else if n = 0xED then some ⟨2, 0xD, 0x80, 0x9F⟩
  else if 0xE1 ≤ n ∧ n ≤ 0xEF then some ⟨2, n - 0xE0, 0x80, 0xBF⟩
  else if n = 0xF0 then some ⟨3, 0, 0x90, 0xBF⟩
  else if 0xF1 ≤ n ∧ n ≤ 0xF3 then some ⟨3, n - 0xF0, 0x80, 0xBF⟩
  else if n = 0xF4 then some ⟨3, 4, 0x80, 0x8F⟩
  else none

/-- The state of reading: between characters, or inside one with the bytes still owed, the value so
far and the range of the next byte. -/
inductive Utf8State where
  | between
  | inside (owed acc low high : Nat)

/-- Reads a byte that starts a character, or refuses it. -/
def utf8Start (b : UInt8) : Utf8State × List (Option Char) :=
  match utf8Lead? b with
  | none => (.between, [none])
  | some ⟨0, share, _, _⟩ => (.between, [some (Char.ofNat share)])
  | some ⟨n, share, low, high⟩ => (.inside n share low high, [])

/-- Reads one byte: the state after it and the characters or refusals it completes. -/
def utf8Step (state : Utf8State) (b : UInt8) : Utf8State × List (Option Char) :=
  match state with
  | .between => utf8Start b
  | .inside owed acc low high =>
    if low ≤ b.toNat ∧ b.toNat ≤ high then
      let acc := acc * 64 + b.toNat % 64
      if owed ≤ 1 then (.between, [some (Char.ofNat acc)])
      else (.inside (owed - 1) acc 0x80 0xBF, [])
    else
      let (next, out) := utf8Start b
      (next, none :: out)

/-- The characters of a stretch of bytes, with `none` for each refused stretch. -/
def utf8Chars (state : Utf8State) : List UInt8 → List (Option Char)
  | [] => match state with
    | .between => []
    | .inside .. => [none]
  | b :: bs =>
    let (next, out) := utf8Step state b
    out ++ utf8Chars next bs

/-- The text that bytes spell, if they spell one. -/
def utf8? (bytes : List UInt8) : Option String :=
  ((utf8Chars .between bytes).mapM id).map String.ofList

/-- The text that bytes spell, with U+FFFD for what is no character. -/
def utf8Lossy (bytes : List UInt8) : String :=
  String.ofList ((utf8Chars .between bytes).map (·.getD '\uFFFD'))

end RecordSql.Text
