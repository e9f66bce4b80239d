/-
  Texts as strings of 16-bit code units.

  A character up to U+FFFF is one unit, and one beyond it is a pair of surrogates, a high one and a
  low one. A string of code units need not be that of a text: its surrogates may stand alone.

  * `Text.encode16`: the code units of a text, as many as its size says.
  * `Units.SplitsPair`: a position between the two surrogates of a pair.
-/
import GridSketch.Text.Basic

namespace GridSketch

/-- A string of 16-bit code units. -/
abbrev Units := List UInt16

namespace Text

/-- The code units of a character. -/
def unitsOf (c : Char) : Units :=
  if c.toNat < 0x10000 then [c.toNat.toUInt16]
  else
    [(0xD800 + (c.toNat - 0x10000) / 0x400).toUInt16,
      (0xDC00 + (c.toNat - 0x10000) % 0x400).toUInt16]

/-- The code units of a text. -/
def encode16 (t : Text) : Units := t.flatMap unitsOf

theorem encode16_cons (c : Char) (t : Text) : encode16 (c :: t) = unitsOf c ++ encode16 t :=
  List.flatMap_cons

theorem encode16_append (s t : Text) : encode16 (s ++ t) = encode16 s ++ encode16 t :=
  List.flatMap_append

theorem length_unitsOf (c : Char) : (unitsOf c).length = units c := by
  unfold unitsOf units
  split <;> rfl

theorem encode16_ne_nil {t : Text} (h : t ≠ []) : encode16 t ≠ [] := by
  obtain ⟨c, rest, rfl⟩ := List.exists_cons_of_ne_nil h
  rw [encode16_cons, unitsOf]
  split <;> exact List.cons_ne_nil _ _

/-- The size of a text is the number of its code units. -/
theorem length_encode16 (t : Text) : (encode16 t).length = size16 t := by
  induction t with
  | nil => rfl
  | cons c rest ih => rw [encode16_cons, List.length_append, length_unitsOf, ih, size16]

end Text

namespace Units

/-- The units that start a pair. -/
def IsHigh (x : UInt16) : Prop := 0xD800 ≤ x.toNat ∧ x.toNat < 0xDC00

/-- The units that end a pair. -/
def IsLow (x : UInt16) : Prop := 0xDC00 ≤ x.toNat ∧ x.toNat < 0xE000

/-- Whether a position of a string stands between the units of a pair. -/
def SplitsPair (u : Units) (p : Nat) : Prop :=
  ∃ before after high low, u = before ++ high :: low :: after ∧ before.length + 1 = p ∧
    IsHigh high ∧ IsLow low

/-- The unit of a character up to U+FFFF has its code. -/
theorem unitsOf_of_lt {c : Char} (h : c.toNat < 0x10000) :
    ∃ x, Text.unitsOf c = [x] ∧ x.toNat = c.toNat :=
  ⟨c.toNat.toUInt16, if_pos h, UInt16.toNat_ofNat_of_lt' h⟩

/-- The units of any other character are a pair. -/
theorem unitsOf_of_le {c : Char} (h : 0x10000 ≤ c.toNat) :
    ∃ high low, Text.unitsOf c = [high, low] ∧ IsHigh high ∧ IsLow low := by
  have hc : c.toNat < 0x110000 := by
    rcases c.valid with hlow | hhigh
    · exact Nat.lt_trans hlow (by decide)
    · exact hhigh.2
  refine ⟨_, _, if_neg (by omega), ?_, ?_⟩
  · rw [IsHigh, UInt16.toNat_ofNat']
    omega
  · rw [IsLow, UInt16.toNat_ofNat']
    omega

end Units

end GridSketch
