/-
  Every text can be written as UTF-8 and is read back.

  The bits of a character are shared out among one to four bytes, six bits to each byte but the first.
  Each byte that is read adds its bits to those of the bytes before it. The ranges in which a byte is
  expected leave out what is too long for its bits and the codes of no character; the bytes of a
  character are within them.

  * `Utf8.decodeFrom_tail`: what one further byte adds.
  * `Utf8.decodeFrom_encodeChar`: the bytes of one character.
  * `Utf8.decode_encode`: the bytes of a text, by induction on it.
-/
import GridSketch.Text.Utf8

namespace GridSketch.Text.Utf8

/-- The bytes of a text. -/
def encode (t : Text) : List UInt8 := t.flatMap String.utf8EncodeChar

variable {rest : List UInt8}

/-- A byte that continues a character adds six bits to it, and completes it if no more are owed. -/
theorem decodeFrom_tail {owed bits low high tail : Nat} (htail : tail < 64) (hlow : low ≤ tail + 128)
    (hhigh : tail + 128 ≤ high) :
    decodeFrom (some ⟨owed, bits, low, high⟩) (UInt8.ofNat (tail + 128) :: rest) =
      if owed = 1 then Char.ofNat (bits * 64 + tail) :: decodeFrom none rest
      else decodeFrom (some ⟨owed - 1, bits * 64 + tail, 0x80, 0xBF⟩) rest := by
  rw [decodeFrom, UInt8.toNat_ofNat_of_lt' (show _ < 0x100 by omega), next]
  dsimp only
  rw [if_pos ⟨hlow, hhigh⟩, Nat.add_sub_cancel]
  split <;> rfl

/-- A byte that is a character. -/
theorem decodeFrom_one {n : Nat} (h : n ≤ 0x7F) :
    decodeFrom none (UInt8.ofNat n :: rest) = Char.ofNat n :: decodeFrom none rest := by
  rw [decodeFrom, UInt8.toNat_ofNat_of_lt' (show _ < 0x100 by omega), next, first, if_pos h]
  rfl

/-- A byte that begins a character of two bytes. -/
theorem decodeFrom_two {n : Nat} (hlow : 2 ≤ n) (hhigh : n < 32) :
    decodeFrom none (UInt8.ofNat (n + 192) :: rest) = decodeFrom (some ⟨1, n, 0x80, 0xBF⟩) rest := by
  rw [decodeFrom, UInt8.toNat_ofNat_of_lt' (show _ < 0x100 by omega), next, first, if_neg (by omega),
    if_pos (by omega), Nat.add_sub_cancel]
  rfl

/-- A byte that begins a character of three bytes. -/
theorem decodeFrom_three {n : Nat} (h : n < 16) :
    decodeFrom none (UInt8.ofNat (n + 224) :: rest) =
      decodeFrom (some ⟨2, n, if n = 0 then 0xA0 else 0x80, if n = 13 then 0x9F else 0xBF⟩) rest := by
  have hlow : (n + 224 = 0xE0) = (n = 0) := propext (by omega)
  have hhigh : (n + 224 = 0xED) = (n = 13) := propext (by omega)
  rw [decodeFrom, UInt8.toNat_ofNat_of_lt' (show _ < 0x100 by omega), next, first, if_neg (by omega),
    if_neg (by omega), if_pos (by omega)]
  dsimp only
  rw [Nat.add_sub_cancel]
  simp only [hlow, hhigh]
  rfl

/-- A byte that begins a character of four bytes. -/
theorem decodeFrom_four {n : Nat} (h : n ≤ 4) :
    decodeFrom none (UInt8.ofNat (n + 240) :: rest) =
      decodeFrom (some ⟨3, n, if n = 0 then 0x90 else 0x80, if n = 4 then 0x8F else 0xBF⟩) rest := by
  have hlow : (n + 240 = 0xF0) = (n = 0) := propext (by omega)
  have hhigh : (n + 240 = 0xF4) = (n = 4) := propext (by omega)
  rw [decodeFrom, UInt8.toNat_ofNat_of_lt' (show _ < 0x100 by omega), next, first, if_neg (by omega),
    if_neg (by omega), if_neg (by omega), if_pos (by omega)]
  dsimp only
  rw [Nat.add_sub_cancel]
  simp only [hlow, hhigh]
  rfl

/-- The bytes of a character are read as that character. -/
theorem decodeFrom_encodeChar (c : Char) (rest : List UInt8) :
    decodeFrom none (String.utf8EncodeChar c ++ rest) = c :: decodeFrom none rest := by
  have hchar : ∀ {n : Nat}, n = c.toNat → Char.ofNat n :: decodeFrom none rest =
      c :: decodeFrom none rest := by
    rintro _ rfl
    rw [Char.ofNat_toNat]
  have hvalid : c.toNat < 0xD800 ∨ 0xDFFF < c.toNat ∧ c.toNat < 0x110000 := c.valid
  have hcode : c.val.toNat = c.toNat := rfl
  -- The second byte is within its range since the code is one of a character, and too great for fewer
  -- bytes.
  rw [String.utf8EncodeChar, hcode]
  split
  next hone => exact (decodeFrom_one hone).trans (hchar rfl)
  next hone =>
  split
  next htwo =>
    rw [List.cons_append, List.cons_append, decodeFrom_two (by omega) (by omega),
      decodeFrom_tail (by omega) (by omega) (by omega), if_pos rfl]
    exact hchar (by omega)
  next htwo =>
  split
  next hthree =>
    rw [List.cons_append, List.cons_append, List.cons_append, decodeFrom_three (by omega),
      decodeFrom_tail (by omega) (by split <;> omega) (by split <;> omega), if_neg (by decide),
      decodeFrom_tail (by omega) (by omega) (by omega), if_pos rfl]
    exact hchar (by omega)
  next hthree =>
    rw [List.cons_append, List.cons_append, List.cons_append, List.cons_append,
      decodeFrom_four (by omega),
      decodeFrom_tail (by omega) (by split <;> omega) (by split <;> omega), if_neg (by decide),
      decodeFrom_tail (by omega) (by omega) (by omega), if_neg (by decide),
      decodeFrom_tail (by omega) (by omega) (by omega), if_pos rfl]
    exact hchar (by omega)

/-- Every text is read back from its bytes. -/
theorem decode_encode (t : Text) : decode (encode t) = t := by
  rw [decode, encode]
  induction t with
  | nil => rfl
  | cons c t ih => rw [List.flatMap_cons, decodeFrom_encodeChar, ih]

end GridSketch.Text.Utf8
