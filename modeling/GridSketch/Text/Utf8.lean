/-
  Reading bytes as UTF-8, whatever they are.

  A sequence that is no character becomes a replacement character: one for each byte that can
  start nothing, and one for each start that is not continued, whose next byte is read anew. A
  byte order mark is a character like any other.
-/
import GridSketch.Text.Basic

namespace GridSketch.Text.Utf8

/-- What stands for bytes that are no character. -/
def replacement : Char := '\ufffd'

/-- A character begun: the bytes still owed, its bits so far, and the range of the next byte. -/
structure Pending where
  owed : Nat
  bits : Nat
  low : Nat
  high : Nat
  deriving DecidableEq, Repr

/-- The effect of a byte between characters: what it completes, and what it begins. -/
def first (byte : Nat) : Text × Option Pending :=
  if byte ≤ 0x7F then ([Char.ofNat byte], none)
  else if 0xC2 ≤ byte ∧ byte ≤ 0xDF then ([], some ⟨1, byte - 0xC0, 0x80, 0xBF⟩)
  else if 0xE0 ≤ byte ∧ byte ≤ 0xEF then
    let low := if byte = 0xE0 then 0xA0 else 0x80
    let high := if byte = 0xED then 0x9F else 0xBF
    ([], some ⟨2, byte - 0xE0, low, high⟩)
  else if 0xF0 ≤ byte ∧ byte ≤ 0xF4 then
    let low := if byte = 0xF0 then 0x90 else 0x80
    let high := if byte = 0xF4 then 0x8F else 0xBF
    ([], some ⟨3, byte - 0xF0, low, high⟩)
  else ([replacement], none)

/-- The effect of a byte anywhere. -/
def next (pending : Option Pending) (byte : Nat) : Text × Option Pending :=
  match pending with
  | none => first byte
  | some p =>
    if p.low ≤ byte ∧ byte ≤ p.high then
      let bits := p.bits * 64 + (byte - 0x80)
      if p.owed = 1 then ([Char.ofNat bits], none)
      else ([], some ⟨p.owed - 1, bits, 0x80, 0xBF⟩)
    else (replacement :: (first byte).1, (first byte).2)

/-- The text of bytes, after a character begun. -/
def decodeFrom (pending : Option Pending) : List UInt8 → Text
  | [] => if pending.isSome then [replacement] else []
  | byte :: rest =>
    let (done, begun) := next pending byte.toNat
    done ++ decodeFrom begun rest

/-- The text of bytes. -/
def decode (bytes : List UInt8) : Text := decodeFrom none bytes

end GridSketch.Text.Utf8
