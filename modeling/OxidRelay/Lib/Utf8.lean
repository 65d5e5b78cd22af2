/-
`String::from_utf8_lossy`: UTF-8 read byte by byte. A byte that no
character can go on with ends the one begun, which becomes U+FFFD, and is
then read as the first of the next.
-/

namespace Utf8

/-- A character begun: the bytes it still needs, the range of the next one
and the bits so far. -/
structure Begun where
  owed : Nat
  low : Nat
  high : Nat
  bits : Nat

def replacement : Char := '\uFFFD'

/-- The first byte of a character. -/
def first (b : Nat) : List Char × Option Begun :=
  if b ≤ 0x7F then ([Char.ofNat b], none)
  else if 0xC2 ≤ b ∧ b ≤ 0xDF then ([], some ⟨1, 0x80, 0xBF, b - 0xC0⟩)
  else if b = 0xE0 then ([], some ⟨2, 0xA0, 0xBF, 0⟩)
  else if b = 0xED then ([], some ⟨2, 0x80, 0x9F, 0xD⟩)
  else if 0xE1 ≤ b ∧ b ≤ 0xEF then ([], some ⟨2, 0x80, 0xBF, b - 0xE0⟩)
  else if b = 0xF0 then ([], some ⟨3, 0x90, 0xBF, 0⟩)
  else if 0xF1 ≤ b ∧ b ≤ 0xF3 then ([], some ⟨3, 0x80, 0xBF, b - 0xF0⟩)
  else if b = 0xF4 then ([], some ⟨3, 0x80, 0x8F, 4⟩)
  else ([replacement], none)

/-- One byte: the characters it completes or ends, and the one begun. -/
def step : Option Begun → Nat → List Char × Option Begun
  | none, b => first b
  | some c, b =>
    if c.low ≤ b ∧ b ≤ c.high then
      let bits := c.bits * 64 + (b - 0x80)
      if c.owed = 1 then ([Char.ofNat bits], none) else ([], some ⟨c.owed - 1, 0x80, 0xBF, bits⟩)
    else (replacement :: (first b).1, (first b).2)

def lossyChars : Option Begun → List UInt8 → List Char
  | none, [] => []
  | some _, [] => [replacement]
  | c, b :: bs => (step c b.toNat).1 ++ lossyChars (step c b.toNat).2 bs

/-- `String::from_utf8_lossy`. -/
def fromUtf8Lossy (bytes : List UInt8) : String := String.ofList (lossyChars none bytes)

example : fromUtf8Lossy [0x41, 0xC3, 0xA9, 0xF0, 0x9F, 0x98, 0x80, 0xE2, 0x82, 0xFF] = "Aé😀\uFFFD\uFFFD" := by
  decide

end Utf8
