/-
  The characters of numbers, and what stands at their start.

  Numbers are written in ASCII digits, a point, the mark of an exponent and signs. None of these is a
  blank or has another case. A sign is split off a text if there is one; digits start with none.

  * `Text.IsNumeral`: texts in the characters of numbers.
  * `Text.IsDigits`, `Text.head?_toDigits`: digits, and those of a natural number.
  * `Text.splitSign_append`: a sign and what stands behind it.
-/
import GridSketch.Number.Integer
import GridSketch.Proofs.Text.Words
import GridSketch.Text.LowerCase

namespace GridSketch

-- What holds of all characters of a text is decided on its characters.
attribute [local instance (2000)] List.decidableBAll

namespace Text

/-! ## Characters -/

/-- The characters of the notations of integers and finite doubles. -/
def numerals : List Char := "0123456789.e+-".toList

/-- A text in the characters of notations. -/
def IsNumeral (t : Text) : Prop := ∀ c ∈ t, c ∈ numerals

theorem mem_numerals_of_isDigit {c : Char} (h : c.isDigit = true) : c ∈ numerals := by
  obtain ⟨hlow, hhigh⟩ := Char.isDigit_iff_toNat.mp h
  have hall : ∀ code ≤ 57, 48 ≤ code → Char.ofNat code ∈ numerals := by decide
  have hc := hall c.toNat hhigh hlow
  rwa [Char.ofNat_toNat] at hc

theorem isNumeral_append {s t : Text} (hs : IsNumeral s) (ht : IsNumeral t) :
    IsNumeral (s ++ t) := by
  intro c hc
  exact (List.mem_append.mp hc).elim (hs c) (ht c)

theorem isNumeral_cons {c : Char} {t : Text} (hc : c ∈ numerals) (ht : IsNumeral t) :
    IsNumeral (c :: t) := by
  intro d hd
  rcases List.mem_cons.mp hd with rfl | hd
  · exact hc
  · exact ht d hd

theorem isNumeral_toDigits (n : Nat) : IsNumeral (Nat.toDigits 10 n) := fun _ hc =>
  mem_numerals_of_isDigit (Nat.isDigit_of_mem_toDigits (by decide) (by decide) hc)

theorem isWord_of_isNumeral {t : Text} (hne : t ≠ []) (h : IsNumeral t) : IsWord t := by
  have hall : ∀ c ∈ numerals, isBlank c = false := by decide
  exact ⟨hne, fun c hc => hall c (h c hc)⟩

/-- Notations have no capitals. -/
theorem lower_of_isNumeral {t : Text} (h : IsNumeral t) : lower t = t := by
  have hchar : ∀ c ∈ numerals, c ≠ 'Σ' ∧ lowerChar c = [c] := by decide
  suffices hafter : ∀ afterCased, lowerAfter afterCased t = t from hafter false
  induction t with
  | nil => exact fun _ => rfl
  | cons c rest ih =>
    intro afterCased
    obtain ⟨hsigma, hlower⟩ := hchar c (h c (List.mem_cons_self ..))
    have hrest := ih fun d hd => h d (List.mem_cons_of_mem c hd)
    simp only [lowerAfter, hsigma, false_and, if_false, hlower, hrest]
    rfl

/-! ## Digits -/

/-- A text of ASCII digits, at least one. -/
def IsDigits (t : Text) : Prop := t ≠ [] ∧ ∀ c ∈ t, c.isDigit = true

instance (t : Text) : Decidable t.IsDigits := inferInstanceAs (Decidable (_ ∧ _))

theorem isDigits_toDigits (n : Nat) : IsDigits (Nat.toDigits 10 n) :=
  ⟨Nat.toDigits_ne_nil, fun _ hc => Nat.isDigit_of_mem_toDigits (by decide) (by decide) hc⟩

/-- The digits of a positive number start with no zero. -/
theorem head?_toDigits {n : Nat} (h : 0 < n) : (Nat.toDigits 10 n).head? ≠ some '0' := by
  induction n using Nat.strongRecOn with
  | ind n ih =>
    by_cases hn : n < 10
    · have hall : ∀ n < 10, 0 < n → (Nat.toDigits 10 n).head? ≠ some '0' := by decide
      exact hall n hn h
    · have hquotient : 0 < n / 10 := by omega
      have hsplit := Nat.toDigits_append_toDigits (b := 10) (by decide) hquotient
        (Nat.mod_lt n (by decide))
      rw [Nat.div_add_mod] at hsplit
      have hhead := ih (n / 10) (by omega) hquotient
      obtain ⟨c, others, hc⟩ :=
        List.exists_cons_of_ne_nil (Nat.toDigits_ne_nil (n := n / 10) (b := 10))
      rw [hc] at hhead hsplit
      rw [← hsplit]
      exact hhead

/-! ## Signs -/

/-- A sign, or none. -/
def IsSign (t : Text) : Prop := t = [] ∨ t = ['+'] ∨ t = ['-']

instance (t : Text) : Decidable t.IsSign := inferInstanceAs (Decidable (_ ∨ _))

/-- A text that starts with no sign. -/
def Unsigned (t : Text) : Prop := ∀ c ∈ t.head?, c ≠ '+' ∧ c ≠ '-'

theorem splitSign_of_unsigned {t : Text} (h : t.Unsigned) : splitSign t = (false, t) := by
  rw [splitSign]
  · rintro _ rfl
    exact (h '-' rfl).2 rfl
  · rintro _ rfl
    exact (h '+' rfl).1 rfl

theorem splitSign_append {s t : Text} (hs : s.IsSign) (ht : t.Unsigned) :
    splitSign (s ++ t) = (decide (s = ['-']), t) := by
  rcases hs with rfl | rfl | rfl
  · exact splitSign_of_unsigned ht
  · rfl
  · rfl

theorem unsigned_cons_of_isDigit {c : Char} (hc : c.isDigit = true) (t : Text) :
    Unsigned (c :: t) := by
  rintro _ ⟨⟩
  constructor <;> · rintro rfl; exact absurd hc (by decide)

theorem IsDigits.unsigned {t : Text} (h : t.IsDigits) (rest : Text) : Unsigned (t ++ rest) := by
  obtain ⟨c, others, rfl⟩ := List.exists_cons_of_ne_nil h.1
  exact unsigned_cons_of_isDigit (h.2 c List.mem_cons_self) _

theorem mem_numerals_of_isSign {s : Text} (h : s.IsSign) {c : Char} (hc : c ∈ s) : c ∈ numerals := by
  rcases h with rfl | rfl | rfl
  · cases hc
  · rw [List.mem_singleton.mp hc]; decide
  · rw [List.mem_singleton.mp hc]; decide

/-- A leading sign is split off, and the rest of the text stays. -/
theorem exists_isSign_of_splitSign (t : Text) :
    ∃ s : Text, s.IsSign ∧ t = s ++ (splitSign t).2 ∧ (splitSign t).1 = decide (s = ['-']) := by
  unfold splitSign
  split
  · exact ⟨['-'], .inr (.inr rfl), rfl, rfl⟩
  · exact ⟨['+'], .inr (.inl rfl), rfl, rfl⟩
  · exact ⟨[], .inl rfl, rfl, rfl⟩

end Text

end GridSketch
