/-
  Scanning texts whose tokens are known: blanks yield nothing, a mark yields itself, and a word of
  plain characters yields one identifier when no plain character follows it.

  Offsets are those of the characters, in 16-bit code units.
-/
import GridSketch.Sketch.Token

namespace GridSketch

theorem Text.units_pos (c : Char) : 0 < Text.units c := by
  unfold Text.units
  split <;> omega

namespace Token

/-- A character that is neither a blank nor a mark. -/
def isPlain (c : Char) : Bool := !Text.isBlank c && (Mark.ofChar? c).isNone

/-- A text at whose start no identifier goes on. -/
def StartsApart (t : Text) : Prop := ∀ c ∈ t.head?, isPlain c = false

/-- The offset of a token. -/
def offset : Token → Nat
  | mark _ o => o
  | identifier _ o => o

theorem isBlank_eq_false_of_ofChar? {c : Char} {m : Mark} (h : Mark.ofChar? c = some m) :
    Text.isBlank c = false := by
  obtain ⟨before, after, htable, -⟩ := List.lookup_eq_some_iff.mp h
  have hrow : (c, m) ∈ Mark.table := by
    rw [htable]
    simp
  have hall : ∀ row ∈ Mark.table, Text.isBlank row.1 = false := by decide
  exact hall _ hrow

theorem isPlain_eq_false_of_ofChar? {c : Char} {m : Mark} (h : Mark.ofChar? c = some m) :
    isPlain c = false := by
  simp [isPlain, h]

theorem isPlain_eq_false_of_isBlank {c : Char} (h : Text.isBlank c = true) :
    isPlain c = false := by
  simp [isPlain, h]

/-! ## Offsets -/

theorem le_offset_of_mem_extend {c : Char} {o : Nat} {later : List Token}
    (h : ∀ t ∈ later, o ≤ t.offset) : ∀ t ∈ extend c o later, o ≤ t.offset := by
  unfold extend
  split
  · split
    · intro t ht
      rcases List.mem_cons.mp ht with rfl | ht
      · exact Nat.le_refl o
      · exact h t (List.mem_cons_of_mem _ ht)
    · intro t ht
      rcases List.mem_cons.mp ht with rfl | ht
      · exact Nat.le_refl o
      · exact h t ht
  · intro t ht
    rcases List.mem_cons.mp ht with rfl | ht
    · exact Nat.le_refl o
    · exact h t ht

/-- No token starts before the text that it is in. -/
theorem le_offset_of_mem_scanFrom (t : Text) (o : Nat) : ∀ u ∈ scanFrom o t, o ≤ u.offset := by
  induction t generalizing o with
  | nil => simp [scanFrom]
  | cons c rest ih =>
    have hlater : ∀ u ∈ scanFrom (o + Text.units c) rest, o ≤ u.offset := fun u hu =>
      Nat.le_trans (Nat.le_add_right o _) (ih _ u hu)
    rw [scanFrom]
    split
    · exact hlater
    · split
      · intro u hu
        rcases List.mem_cons.mp hu with rfl | hu
        · exact Nat.le_refl o
        · exact hlater u hu
      · exact le_offset_of_mem_extend hlater

/-! ## Blanks, marks, words -/

theorem scanFrom_blanks {g : Text} (hg : ∀ c ∈ g, Text.isBlank c = true) (o : Nat) (t : Text) :
    scanFrom o (g ++ t) = scanFrom (o + Text.size16 g) t := by
  induction g generalizing o with
  | nil => rfl
  | cons c rest ih =>
    rw [List.cons_append, scanFrom, if_pos (hg c List.mem_cons_self),
      ih (fun b hb => hg b (List.mem_cons_of_mem _ hb)), Text.size16, Nat.add_assoc]

theorem scanFrom_mark {c : Char} {m : Mark} (h : Mark.ofChar? c = some m) (o : Nat) (t : Text) :
    scanFrom o (c :: t) = mark m o :: scanFrom (o + Text.units c) t := by
  rw [scanFrom, isBlank_eq_false_of_ofChar? h, h]
  rfl

theorem scanFrom_plain {c : Char} (h : isPlain c = true) (o : Nat) (t : Text) :
    scanFrom o (c :: t) = extend c o (scanFrom (o + Text.units c) t) := by
  obtain ⟨hblank, hmark⟩ : Text.isBlank c = false ∧ Mark.ofChar? c = none := by
    simpa [isPlain] using h
  rw [scanFrom, hblank, hmark]
  rfl

/-- A text that starts apart has no identifier at its very start. -/
theorem ne_identifier_of_mem_scanFrom {t : Text} (ht : StartsApart t) (o : Nat) :
    ∀ u ∈ scanFrom o t, ∀ text, u ≠ identifier text o := by
  cases t with
  | nil => simp [scanFrom]
  | cons c rest =>
    have hc : isPlain c = false := ht c rfl
    have hpos := Text.units_pos c
    have hlater : ∀ u ∈ scanFrom (o + Text.units c) rest, ∀ text, u ≠ identifier text o := by
      rintro u hu text rfl
      have := le_offset_of_mem_scanFrom _ _ _ hu
      simp only [offset] at this
      omega
    rw [scanFrom]
    cases hblank : Text.isBlank c with
    | true => exact hlater
    | false =>
      cases hmark : Mark.ofChar? c with
      | none => simp [isPlain, hblank, hmark] at hc
      | some m =>
        intro u hu text
        rcases List.mem_cons.mp hu with rfl | hu
        · exact nofun
        · exact hlater u hu text

theorem extend_of_ne_identifier {c : Char} {o : Nat} {later : List Token}
    (h : ∀ u ∈ later, ∀ text, u ≠ identifier text (o + Text.units c)) :
    extend c o later = identifier [c] o :: later := by
  unfold extend
  split
  · rename_i text next rest
    rw [if_neg]
    rintro rfl
    exact h _ List.mem_cons_self text rfl
  · rfl

/-- A word that nothing plain follows is one identifier. -/
theorem scanFrom_word {w : Text} (hne : w ≠ []) (hw : ∀ c ∈ w, isPlain c = true) {t : Text}
    (ht : StartsApart t) (o : Nat) :
    scanFrom o (w ++ t) = identifier w o :: scanFrom (o + Text.size16 w) t := by
  induction w generalizing o with
  | nil => exact absurd rfl hne
  | cons c rest ih =>
    have hc := hw c List.mem_cons_self
    rw [List.cons_append, scanFrom_plain hc, Text.size16, ← Nat.add_assoc]
    cases rest with
    | nil => exact extend_of_ne_identifier (ne_identifier_of_mem_scanFrom ht _)
    | cons c' rest =>
      rw [ih (List.cons_ne_nil _ _) (fun b hb => hw b (List.mem_cons_of_mem _ hb)), extend,
        if_pos rfl]

theorem isPlain_of_mem_extend {c : Char} {o : Nat} {later : List Token} (hc : isPlain c = true)
    (h : ∀ text offset, identifier text offset ∈ later → ∀ d ∈ text, isPlain d = true) :
    ∀ text offset, identifier text offset ∈ extend c o later → ∀ d ∈ text, isPlain d = true := by
  have hsingle : ∀ d ∈ [c], isPlain d = true := List.forall_mem_singleton.mpr hc
  unfold extend
  split
  · split
    · intro text offset hmem
      rcases List.mem_cons.mp hmem with heq | hmem
      · cases heq
        exact List.forall_mem_cons.mpr ⟨hc, h _ _ List.mem_cons_self⟩
      · exact h _ _ (List.mem_cons_of_mem _ hmem)
    · intro text offset hmem
      rcases List.mem_cons.mp hmem with heq | hmem
      · cases heq
        exact hsingle
      · exact h _ _ hmem
  · intro text offset hmem
    rcases List.mem_cons.mp hmem with heq | hmem
    · cases heq
      exact hsingle
    · exact h _ _ hmem

/-- The characters of identifiers are neither blanks nor marks. -/
theorem isPlain_of_mem_scanFrom (t : Text) (o : Nat) :
    ∀ text offset, identifier text offset ∈ scanFrom o t → ∀ d ∈ text, isPlain d = true := by
  induction t generalizing o with
  | nil => exact fun text offset h => (List.not_mem_nil h).elim
  | cons c rest ih =>
    have hlater := ih (o + Text.units c)
    cases hblank : Text.isBlank c with
    | true => rwa [scanFrom, if_pos hblank]
    | false =>
      cases hmark : Mark.ofChar? c with
      | some m =>
        rw [scanFrom_mark hmark]
        exact fun text offset h => hlater text offset ((List.mem_cons.mp h).resolve_left nofun)
      | none =>
        have hplain : isPlain c = true := by simp [isPlain, hblank, hmark]
        rw [scanFrom_plain hplain]
        exact isPlain_of_mem_extend hplain hlater

/-- A sketch has at most one token for each code unit. -/
theorem length_scanFrom_le (t : Text) (o : Nat) : (scanFrom o t).length ≤ Text.size16 t := by
  induction t generalizing o with
  | nil => exact Nat.le_refl 0
  | cons c rest ih =>
    have hpos := Text.units_pos c
    have hrest := ih (o + Text.units c)
    have hextend : ∀ later, (extend c o later).length ≤ later.length + 1 := by
      intro later
      unfold extend
      split
      · split <;> simp
      · simp
    rw [scanFrom, Text.size16]
    split
    · omega
    · split
      · rw [List.length_cons]
        omega
      · have := hextend (scanFrom (o + Text.units c) rest)
        omega

end Token

end GridSketch
